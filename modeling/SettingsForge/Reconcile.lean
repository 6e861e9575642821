set_option autoImplicit false

/-! # Reconciling lists

`reconcile` brings a list to a target by deleting items and appending at the end only. It walks both
lists while both have an item: an item that corresponds to the target's stays, another is deleted.
What is left of the list is dropped, what is left of the target appended. -/

namespace SettingsForge

variable {α : Type}

/-- How many items were deleted and how many appended. -/
structure ReconcileOutcome where
  removed : Nat
  appended : Nat
  deriving DecidableEq, Repr

/-- Whether anything was deleted or appended. -/
def ReconcileOutcome.changed (outcome : ReconcileOutcome) : Bool :=
  0 < outcome.removed || 0 < outcome.appended

/-- A reconciled list and what was done to it. -/
structure Reconciled (α : Type) where
  items : List α
  outcome : ReconcileOutcome

/-- Bring a list to a target, where `eq` says whether an item corresponds to one of the target. -/
def reconcile (eq : α → α → Bool) : List α → List α → Reconciled α
  | [], target => ⟨target, ⟨0, target.length⟩⟩
  | c :: current, [] => ⟨[], ⟨(c :: current).length, 0⟩⟩
  | c :: current, t :: target =>
    if eq c t then
      let rest := reconcile eq current target
      ⟨c :: rest.items, rest.outcome⟩
    else
      let rest := reconcile eq current (t :: target)
      ⟨rest.items, ⟨rest.outcome.removed + 1, rest.outcome.appended⟩⟩

/-! ## Equations -/

@[simp] theorem reconcile_nil_left (eq : α → α → Bool) (target : List α) :
    reconcile eq [] target = ⟨target, ⟨0, target.length⟩⟩ := rfl

theorem reconcile_nil_right (eq : α → α → Bool) (current : List α) :
    reconcile eq current [] = ⟨[], ⟨current.length, 0⟩⟩ := by cases current <;> rfl

theorem reconcile_cons_of_eq {eq : α → α → Bool} {c t : α} (h : eq c t = true)
    (current target : List α) :
    reconcile eq (c :: current) (t :: target) =
      ⟨c :: (reconcile eq current target).items, (reconcile eq current target).outcome⟩ := by
  simp [reconcile, h]

theorem reconcile_cons_of_ne {eq : α → α → Bool} {c t : α} (h : eq c t = false)
    (current target : List α) :
    reconcile eq (c :: current) (t :: target) =
      ⟨(reconcile eq current (t :: target)).items,
        ⟨(reconcile eq current (t :: target)).outcome.removed + 1,
          (reconcile eq current (t :: target)).outcome.appended⟩⟩ := by
  simp [reconcile, h]

theorem length_reconcile (eq : α → α → Bool) (current target : List α) :
    (reconcile eq current target).items.length = target.length := by
  induction current generalizing target with
  | nil => simp
  | cons c current ih =>
    cases target with
    | nil => simp [reconcile_nil_right]
    | cons t target =>
      cases h : eq c t
      · simp [reconcile_cons_of_ne h, ih]
      · simp [reconcile_cons_of_eq h, ih]

end SettingsForge
