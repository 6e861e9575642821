import Mathlib.Logic.Equiv.Fin.Basic
import SettingsForge.Proofs.ValueType.Overload

set_option autoImplicit false

/-! # The order of the overloads

When the overloads are moved about, and others are added that do not accept the arguments, the choice is
the same overload at its new place (`Moved.selectOverload_eq`). So the answer does not depend on the order
in which the overloads are declared (`overloads_are_chosen_in_any_order`). -/

namespace SettingsForge

variable {overloads : List (List ValueType)} {params : List ValueType} {args : List Value} {i : Nat}

/-- The overloads of a list stand in another one, each at a place of its own, and the other overloads
    there do not accept the arguments. -/
structure Moved (overloads others : List (List ValueType)) (args : List Value) (place : Nat → Nat) :
    Prop where
  carries : ∀ i, others[place i]? = overloads[i]?
  apart : ∀ i j, place i = place j → i = j
  reached : ∀ j params, others[j]? = some params → Accepts params args → ∃ i, place i = j

namespace Moved

variable {others : List (List ValueType)} {place : Nat → Nat}

/-- The overloads that accept the arguments are the same. -/
theorem accepting_iff (moved : Moved overloads others args place) {p : List ValueType → Prop} :
    (∀ params ∈ others, Accepts params args → p params) ↔
      ∀ params ∈ overloads, Accepts params args → p params := by
  constructor
  · intro all params mem
    obtain ⟨i, there⟩ := List.mem_iff_getElem?.1 mem
    rw [← moved.carries] at there
    exact all params (List.mem_of_getElem? there)
  · intro all params mem accepts
    obtain ⟨j, there⟩ := List.mem_iff_getElem?.1 mem
    obtain ⟨i, rfl⟩ := moved.reached j params there accepts
    rw [moved.carries] at there
    exact all params (List.mem_of_getElem? there) accepts

/-- The overloads with the fewest conversions are those of the first list, at their new places. -/
theorem fewest_iff (moved : Moved overloads others args place) {j : Nat} :
    Fewest others args j ↔ ∃ i, Fewest overloads args i ∧ place i = j := by
  constructor
  · rintro ⟨params, there, accepts, fewest⟩
    obtain ⟨i, rfl⟩ := moved.reached j params there accepts
    exact ⟨i, ⟨params, moved.carries i ▸ there, accepts, moved.accepting_iff.1 fewest⟩, rfl⟩
  · rintro ⟨i, ⟨params, there, accepts, fewest⟩, rfl⟩
    exact ⟨params, moved.carries i ▸ there, accepts, moved.accepting_iff.2 fewest⟩

theorem best (moved : Moved overloads others args place) (best : Best overloads args i) :
    Best others args (place i) := by
  refine ⟨moved.fewest_iff.2 ⟨i, best.fewest, rfl⟩, fun j fewest => ?_⟩
  obtain ⟨k, fewest', rfl⟩ := moved.fewest_iff.1 fewest
  rw [best.unique k fewest']

/-- The choice is the same overload, at its new place. -/
theorem selectOverload_eq (moved : Moved overloads others args place) :
    selectOverload others args = (selectOverload overloads args).map place := by
  have spec := selectOverload_spec overloads args
  match chosen : selectOverload overloads args with
  | .ok i =>
      rw [chosen] at spec
      exact selectOverload_eq_ok_iff.2 (moved.best spec)
  | .error .noMatch =>
      rw [chosen] at spec
      exact selectOverload_eq_noMatch_iff.2 (moved.accepting_iff.2 spec)
  | .error .ambiguous =>
      rw [chosen] at spec
      obtain ⟨i, j, differ, first, second⟩ := spec
      exact selectOverload_eq_ambiguous_iff.2 ⟨place i, place j, fun same => differ (moved.apart i j same),
        moved.fewest_iff.2 ⟨i, first, rfl⟩, moved.fewest_iff.2 ⟨j, second, rfl⟩⟩

end Moved

/-- Where a permutation puts a position of a list; the positions past its end stay. -/
def placed {m n : Nat} (order : Fin m ≃ Fin n) (i : Nat) : Nat :=
  if h : i < m then order ⟨i, h⟩ else i

theorem moved_placed {others : List (List ValueType)} (order : Fin overloads.length ≃ Fin others.length)
    (same : ∀ i, others[order i] = overloads[i]) (args : List Value) :
    Moved overloads others args (placed order) := by
  have lengths : overloads.length = others.length := Fin.equiv_iff_eq.1 ⟨order⟩
  refine ⟨fun i => ?_, fun i j equal => ?_, fun j _ there _ => ?_⟩
  · unfold placed
    split
    case isTrue within =>
      rw [List.getElem?_eq_getElem within, List.getElem?_eq_getElem (order ⟨i, within⟩).2]
      exact congrArg some (same ⟨i, within⟩)
    case isFalse past =>
      rw [List.getElem?_eq_none (by omega), List.getElem?_eq_none (by omega)]
  · unfold placed at equal
    split at equal <;> split at equal
    · exact Fin.mk.inj_iff.1 (order.injective (Fin.ext equal))
    all_goals omega
  · obtain ⟨within, -⟩ := List.getElem?_eq_some_iff.1 there
    obtain ⟨i, at_j⟩ := order.surjective ⟨j, within⟩
    exact ⟨i, by rw [placed, dif_pos i.2, at_j]⟩

/-- A new overload moves up the positions behind it. -/
theorem moved_insert (before after : List (List ValueType)) (refuses : ¬ Accepts params args) :
    Moved (before ++ after) (before ++ params :: after) args
      fun i => if i < before.length then i else i + 1 := by
  refine ⟨fun i => ?_, fun i j equal => ?_, fun j other there accepts => ?_⟩
  · split
    case isTrue early => rw [List.getElem?_append_left early, List.getElem?_append_left early]
    case isFalse late =>
      rw [List.getElem?_append_right (by omega), List.getElem?_append_right (by omega),
        show i + 1 - before.length = i - before.length + 1 by omega, List.getElem?_cons_succ]
  · split at equal <;> split at equal <;> omega
  · rcases Nat.lt_trichotomy j before.length with early | rfl | late
    · exact ⟨j, if_pos early⟩
    · rw [List.getElem?_append_right le_rfl, Nat.sub_self, List.getElem?_cons_zero,
        Option.some.injEq] at there
      exact absurd (there ▸ accepts) refuses
    · exact ⟨j - 1, by rw [if_neg (by omega)]; omega⟩

/-- An overload is chosen just when it accepts the arguments with strictly fewer conversions than every
    other one that accepts them; the choice is ambiguous just when two that accept share the fewest, and
    there is no match just when none accepts. So another order of the overloads only moves the choice
    along with them, and an overload that does not accept the arguments only shifts the positions behind
    it. -/
theorem overloads_are_chosen_in_any_order (overloads : List (List ValueType)) (args : List Value) :
    (∀ i, selectOverload overloads args = .ok i ↔
      ∃ params, overloads[i]? = some params ∧ Accepts params args ∧
        ∀ j other, overloads[j]? = some other → j ≠ i → Accepts other args →
          conversions params args < conversions other args) ∧
    (selectOverload overloads args = .error .ambiguous ↔
      ∃ i j, i ≠ j ∧ Fewest overloads args i ∧ Fewest overloads args j) ∧
    (selectOverload overloads args = .error .noMatch ↔ ∀ params ∈ overloads, ¬ Accepts params args) ∧
    (∀ (others : List (List ValueType)) (order : Fin overloads.length ≃ Fin others.length),
      (∀ i, others[order i] = overloads[i]) →
        (∀ i : Fin overloads.length,
          selectOverload others args = .ok (order i) ↔ selectOverload overloads args = .ok i) ∧
        ∀ error, selectOverload others args = .error error ↔ selectOverload overloads args = .error error) ∧
    ∀ before params after, overloads = before ++ after → ¬ Accepts params args →
      selectOverload (before ++ params :: after) args =
        (selectOverload overloads args).map fun i => if i < before.length then i else i + 1 := by
  refine ⟨fun i => selectOverload_eq_ok_iff.trans best_iff_lt, selectOverload_eq_ambiguous_iff,
    selectOverload_eq_noMatch_iff, fun others order same => ?_, ?_⟩
  · have moved := moved_placed order same args
    have at_place : ∀ i : Fin overloads.length, placed order i = order i := fun i => dif_pos i.2
    rw [moved.selectOverload_eq]
    cases selectOverload overloads args with
    | error error => exact ⟨fun i => by simp [Except.map], fun other => by simp [Except.map]⟩
    | ok k =>
        refine ⟨fun i => ?_, fun other => by simp [Except.map]⟩
        rw [← at_place, Except.map, Except.ok.injEq, Except.ok.injEq]
        exact ⟨moved.apart k i, congrArg _⟩
  · rintro before params after rfl refuses
    exact (moved_insert before after refuses).selectOverload_eq

/-- Of two overloads that widen both or one of two integers, the second is chosen; it is the first when
    they are swapped, and the third behind one that takes no arguments. -/
theorem chooses_the_narrower_overload_in_any_order :
    selectOverload [[.float, .float], [.int, .float]] [.int 1, .int 2] = .ok 1 ∧
    selectOverload [[.int, .float], [.float, .float]] [.int 1, .int 2] = .ok 0 ∧
    selectOverload [[], [.float, .float], [.int, .float]] [.int 1, .int 2] = .ok 2 := by
  have chosen : selectOverload [[.float, .float], [.int, .float]] [.int 1, .int 2] = .ok 1 := rfl
  obtain ⟨-, -, -, permuted, inserted⟩ :=
    overloads_are_chosen_in_any_order [[.float, .float], [.int, .float]] [.int 1, .int 2]
  refine ⟨chosen, ?_, ?_⟩
  · have swapped := permuted [[.int, .float], [.float, .float]] (Equiv.swap 0 1)
      (Fin.forall_fin_two.2 ⟨rfl, rfl⟩)
    exact (swapped.1 1).2 chosen
  · have refused : ¬ Accepts [] [.int 1, .int 2] := nofun
    rw [show ([[], [.float, .float], [.int, .float]] : List (List ValueType)) = [] ++ [] ::
      [[.float, .float], [.int, .float]] from rfl, inserted [] [] _ rfl refused, chosen]
    rfl

end SettingsForge
