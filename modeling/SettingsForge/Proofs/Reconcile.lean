import Mathlib.Order.Fin.Basic
import SettingsForge.Proofs.Reconcile.InPlace

set_option autoImplicit false

/-! # What reconciling keeps

An edit that only deletes items and appends others keeps items at ascending positions, which come to
stand at the front and there correspond to the first items of the target (`Keeping`). Reconciling is
such an edit (`Keeping.exists_explains`), and none of them keeps more: where it deletes an item,
nothing could be kept in its place, and where it keeps one, another choice could begin with the same
one (`Keeping.add_removed_le`). Nothing is assumed of the relation. -/

namespace SettingsForge

variable {α : Type} {eq : α → α → Bool} {current target : List α} {c t : α} {k : Nat}

/-- The first `n` items of a list correspond to those of a target, one by one. -/
def Leading (eq : α → α → Bool) (current target : List α) (n : Nat) : Prop :=
  ∀ i < n, ∃ c t, current[i]? = some c ∧ target[i]? = some t ∧ eq c t = true

/-- A choice of `k` items to keep: their positions ascend, and they correspond to the first `k` items
    of the target, one by one. -/
structure Keeping (eq : α → α → Bool) (current target : List α) (k : Nat) where
  position : Fin k → Nat
  ascending : StrictMono position
  corresponds : ∀ j : Fin k, ∃ c t,
    current[position j]? = some c ∧ target[(j : Nat)]? = some t ∧ eq c t = true

/-! ## Leading items -/

theorem leading_cons {n : Nat} : Leading eq (c :: current) (t :: target) (n + 1) ↔
    eq c t = true ∧ Leading eq current target n := by
  constructor
  · intro leading
    refine ⟨?_, fun i lt => ?_⟩
    · simpa using leading 0 n.succ_pos
    · simpa using leading (i + 1) (Nat.succ_lt_succ lt)
  · rintro ⟨same, leading⟩ i lt
    cases i with
    | zero => exact ⟨c, t, rfl, rfl, same⟩
    | succ i => simpa using leading i (Nat.lt_of_succ_lt_succ lt)

/-- Items that lead may be kept where they are. -/
def Leading.keeping {n : Nat} (leading : Leading eq current target n) :
    Keeping eq current target n where
  position := Fin.val
  ascending := Fin.val_strictMono
  corresponds j := leading j j.isLt

/-- A list is unchanged if it corresponds to the target as a whole. -/
theorem changed_reconcile_eq_false_iff :
    (reconcile eq current target).outcome.changed = false ↔
      current.length = target.length ∧ Leading eq current target current.length := by
  induction current generalizing target with
  | nil => cases target <;> simp [ReconcileOutcome.changed, Leading]
  | cons c current ih =>
      cases target with
      | nil => simp [reconcile, ReconcileOutcome.changed]
      | cons t target =>
          rw [List.length_cons, List.length_cons, leading_cons, Nat.add_right_cancel_iff]
          cases same : eq c t with
          | true => simpa [reconcile_cons_of_eq same] using ih
          | false => simp [reconcile_cons_of_ne same, ReconcileOutcome.changed]

namespace Keeping

/-! ## Choices for longer and shorter lists -/

/-- Nothing is kept. -/
def none : Keeping eq current target 0 where
  position := Fin.elim0
  ascending j := j.elim0
  corresponds j := j.elim0

/-- The same items, behind one that is not kept. -/
def skip (c : α) (kept : Keeping eq current target k) : Keeping eq (c :: current) target k where
  position j := kept.position j + 1
  ascending _ _ lt := Nat.succ_lt_succ (kept.ascending lt)
  corresponds j := by simpa using kept.corresponds j

/-- The same items, behind one that is kept. -/
def keep (same : eq c t = true) (kept : Keeping eq current target k) :
    Keeping eq (c :: current) (t :: target) (k + 1) where
  position := Fin.cases 0 fun j => kept.position j + 1
  ascending i j lt := by
    cases j using Fin.cases with
    | zero => cases lt
    | succ j =>
        cases i using Fin.cases with
        | zero => exact Nat.succ_pos _
        | succ i => exact Nat.succ_lt_succ (kept.ascending (Fin.succ_lt_succ_iff.1 lt))
  corresponds j := by
    cases j using Fin.cases with
    | zero => exact ⟨c, t, rfl, rfl, same⟩
    | succ j => simpa using kept.corresponds j

/-- All items but the first one. -/
def tail (kept : Keeping eq current (t :: target) (k + 1)) : Keeping eq current target k where
  position j := kept.position j.succ
  ascending _ _ lt := kept.ascending (Fin.succ_lt_succ_iff.2 lt)
  corresponds j := by simpa using kept.corresponds j.succ

/-- The same items without one in front of them all. -/
def unskip (kept : Keeping eq (c :: current) target k) (later : ∀ j, 0 < kept.position j) :
    Keeping eq current target k where
  position j := kept.position j - 1
  ascending i j lt := by
    have := kept.ascending lt
    have := later i
    dsimp only
    omega
  corresponds j := by
    have corresponds := kept.corresponds j
    obtain ⟨i, at_j⟩ := Nat.exists_eq_add_one.2 (later j)
    simpa [at_j] using corresponds

/-- An item of the list or of the target there must be for each item that is kept. -/
theorem eq_zero (kept : Keeping eq current target k) (empty : current = [] ∨ target = []) :
    k = 0 := by
  cases k with
  | zero => rfl
  | succ k =>
      obtain ⟨c, t, own, theirs, -⟩ := kept.corresponds 0
      rcases empty with rfl | rfl
      · cases own
      · cases theirs

/-- Whatever the first item of a choice is, the others are not at the front. -/
theorem tail_pos (kept : Keeping eq (c :: current) (t :: target) (k + 1)) (j : Fin k) :
    0 < kept.tail.position j :=
  Nat.zero_lt_of_lt (kept.ascending (Fin.succ_pos j))

/-- An item at the front is not kept if it does not correspond to the first one of the target. -/
theorem pos_of_ne (kept : Keeping eq (c :: current) (t :: target) k) (differs : eq c t = false)
    (j : Fin k) : 0 < kept.position j := by
  cases k with
  | zero => exact j.elim0
  | succ k =>
      -- only the first item of the choice could be at the front
      refine Nat.lt_of_lt_of_le (Nat.pos_of_ne_zero fun front => ?_)
        (kept.ascending.monotone (Fin.zero_le j))
      obtain ⟨_, _, own, theirs, same⟩ := kept.corresponds 0
      rw [front] at own
      cases own
      cases theirs
      rw [differs] at same
      cases same

/-! ## Reconciling keeps the most -/

/-- No choice keeps more items than reconciling. -/
theorem add_removed_le (kept : Keeping eq current target k) :
    k + (reconcile eq current target).outcome.removed ≤ current.length := by
  induction current generalizing target k with
  | nil => simp [kept.eq_zero (.inl rfl)]
  | cons c current ih =>
      cases target with
      | nil => simp [kept.eq_zero (.inr rfl), reconcile_nil_right]
      | cons t target =>
          cases same : eq c t with
          | true =>
              rw [reconcile_cons_of_eq same, List.length_cons]
              cases k with
              | zero => exact Nat.le_succ_of_le (ih Keeping.none)
              | succ k =>
                  have := ih (kept.tail.unskip kept.tail_pos)
                  dsimp only
                  omega
          | false =>
              rw [reconcile_cons_of_ne same, List.length_cons]
              have := ih (kept.unskip (kept.pos_of_ne same))
              dsimp only
              omega

/-- A reconciled list has the chosen items in front, and behind them the rest of the target. -/
structure Explains (kept : Keeping eq current target k) (done : Reconciled α) : Prop where
  stays : ∀ j : Fin k, done.items[(j : Nat)]? = current[kept.position j]?
  appends : done.items.drop k = target.drop k
  removed : done.outcome.removed + k = current.length
  appended : done.outcome.appended + k = target.length
  leading : ∀ n, Leading eq current target n → ∀ j : Fin k, (j : Nat) < n → kept.position j = j

theorem Explains.skip {kept : Keeping eq current (t :: target) k}
    (h : kept.Explains (reconcile eq current (t :: target))) (differs : eq c t = false) :
    (kept.skip c).Explains (reconcile eq (c :: current) (t :: target)) := by
  rw [reconcile_cons_of_ne differs]
  refine ⟨fun j => ?_, h.appends, ?_, h.appended, fun n leading j lt => ?_⟩
  · simpa [Keeping.skip] using h.stays j
  · have := h.removed
    simp only [List.length_cons]
    omega
  · cases n with
    | zero => cases lt
    | succ n =>
        rw [leading_cons, differs] at leading
        cases leading.1

theorem Explains.keep {kept : Keeping eq current target k}
    (h : kept.Explains (reconcile eq current target)) (same : eq c t = true) :
    (kept.keep same).Explains (reconcile eq (c :: current) (t :: target)) := by
  rw [reconcile_cons_of_eq same]
  refine ⟨fun j => ?_, h.appends, ?_, ?_, fun n leading j lt => ?_⟩
  · cases j using Fin.cases with
    | zero => rfl
    | succ j => simpa [Keeping.keep] using h.stays j
  · have := h.removed
    simp only [List.length_cons]
    omega
  · have := h.appended
    simp only [List.length_cons]
    omega
  · cases j using Fin.cases with
    | zero => rfl
    | succ j =>
        cases n with
        | zero => cases lt
        | succ n =>
            have := h.leading n (leading_cons.1 leading).2 j (Nat.lt_of_succ_lt_succ lt)
            simp [Keeping.keep, this]

/-- Reconciling keeps some choice of items. -/
theorem exists_explains (eq : α → α → Bool) (current target : List α) :
    ∃ k, ∃ kept : Keeping eq current target k, kept.Explains (reconcile eq current target) := by
  induction current generalizing target with
  | nil => exact ⟨0, none, (·.elim0), rfl, rfl, by simp, fun _ _ j => j.elim0⟩
  | cons c current ih =>
      cases target with
      | nil => exact ⟨0, none, (·.elim0), rfl, rfl, rfl, fun _ _ j => j.elim0⟩
      | cons t target =>
          cases same : eq c t with
          | true =>
              obtain ⟨k, kept, explains⟩ := ih target
              exact ⟨k + 1, kept.keep same, explains.keep same⟩
          | false =>
              obtain ⟨k, kept, explains⟩ := ih (t :: target)
              exact ⟨k, kept.skip c, explains.skip same⟩

end Keeping

/-- Reconciling, which may be done in place, keeps as many items as any edit can that only deletes and
    appends, whatever the relation: there is a largest `k` such that `k` items at ascending positions
    correspond to the first `k` items of the target. Such items are the first `k` of the reconciled
    list, which is as long as the target, and the rest is that of the target. Items that lead are among
    those and keep their places. All other items of the list are counted as deleted, all other items of
    the target as appended, and no change is reported just when the list corresponds to the target item
    by item. -/
theorem reconcile_keeps_the_most (eq : α → α → Bool) (current target : List α) :
    reconcileInPlace eq current target = reconcile eq current target ∧
    ∃ k, ∃ kept : Keeping eq current target k,
      (∀ n, Nonempty (Keeping eq current target n) → n ≤ k) ∧
      (reconcile eq current target).items.length = target.length ∧
      (∀ j : Fin k, (reconcile eq current target).items[(j : Nat)]? = current[kept.position j]?) ∧
      (reconcile eq current target).items.drop k = target.drop k ∧
      (∀ n, Leading eq current target n →
        n ≤ k ∧ ∀ j : Fin k, (j : Nat) < n → kept.position j = j) ∧
      (reconcile eq current target).outcome.removed + k = current.length ∧
      (reconcile eq current target).outcome.appended + k = target.length ∧
      ((reconcile eq current target).outcome.changed = false ↔
        current.length = target.length ∧ Leading eq current target current.length) := by
  obtain ⟨k, kept, explains⟩ := Keeping.exists_explains eq current target
  have largest : ∀ n, Nonempty (Keeping eq current target n) → n ≤ k := by
    rintro n ⟨other⟩
    have := other.add_removed_le
    have := explains.removed
    omega
  exact ⟨reconcileInPlace_eq .., k, kept, largest, length_reconcile .., explains.stays, explains.appends,
    fun n leading => ⟨largest n ⟨leading.keeping⟩, explains.leading n leading⟩, explains.removed,
    explains.appended, changed_reconcile_eq_false_iff⟩

end SettingsForge
