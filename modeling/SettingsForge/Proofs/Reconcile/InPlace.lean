import Mathlib.Data.List.InsertIdx
import SettingsForge.Reconcile

set_option autoImplicit false

/-! # Reconciling in place

A list that is changed in place is reconciled by three loops: one compares it with the target, item by
item, and deletes what does not correspond, one drops what the list is too long, and one appends what is
left of the target (`reconcileInPlace`). During the first loop, what is in front of the position that is
reached stays, and what is yet to be done is to reconcile the rest (`Walk.outlook`). No step of it
changes this outlook, so the loops do what `reconcile` does (`reconcileInPlace_eq`). -/

namespace SettingsForge

variable {α : Type} {eq : α → α → Bool} {target : List α}

/-- A list on the way to a target: how far they have been compared, and how many items have been
    deleted. -/
structure Walk (α : Type) where
  items : List α
  position : Nat
  removed : Nat

namespace Walk

/-! ## The loops -/

/-- The item at the position stays. -/
def stay (w : Walk α) : Walk α := { w with position := w.position + 1 }

/-- The item at the position is deleted, and the next one moves up. -/
def delete (w : Walk α) : Walk α :=
  { w with items := w.items.eraseIdx w.position, removed := w.removed + 1 }

/-- The last item is deleted. -/
def pop (w : Walk α) : Walk α := { w with items := w.items.dropLast, removed := w.removed + 1 }

/-- As long as both lists have an item at the position, it stays if the two correspond, and otherwise
    that of the list is deleted. -/
def compare (eq : α → α → Bool) (target : List α) (w : Walk α) : Walk α :=
  match _own : w.items[w.position]?, target[w.position]? with
  | some c, some t => if eq c t then compare eq target w.stay else compare eq target w.delete
  | _, _ => w
termination_by w.items.length - w.position
decreasing_by
  all_goals have := (List.getElem?_eq_some_iff.1 _own).1
  · simp only [stay]
    omega
  · simp only [delete, List.length_eraseIdx_of_lt this]
    omega

/-- As long as the list is longer than the target, its last item is deleted. -/
def shorten (target : List α) (w : Walk α) : Walk α :=
  if target.length < w.items.length then shorten target w.pop else w
termination_by w.items.length
decreasing_by
  simp only [pop, List.length_dropLast]
  omega

/-- As long as the target has an item at the position, it is appended. -/
def extend (target : List α) (w : Walk α) (appended : Nat) : Reconciled α :=
  match _more : target[w.position]? with
  | some t => extend target { w.stay with items := w.items ++ [t] } (appended + 1)
  | none => ⟨w.items, ⟨w.removed, appended⟩⟩
termination_by target.length - w.position
decreasing_by
  have := (List.getElem?_eq_some_iff.1 _more).1
  simp only [stay]
  omega

end Walk

/-- Bring a list to a target in place. -/
def reconcileInPlace (eq : α → α → Bool) (current target : List α) : Reconciled α :=
  (((⟨current, 0, 0⟩ : Walk α).compare eq target).shorten target).extend target 0

namespace Walk

variable {w : Walk α} {c t : α}

theorem shorten_eq (target : List α) (w : Walk α) : w.shorten target =
    ⟨w.items.take target.length, w.position, w.removed + (w.items.length - target.length)⟩ := by
  fun_induction shorten target w with
  | case1 w long ih =>
      have front : w.items.dropLast.take target.length = w.items.take target.length := by
        rw [List.dropLast_eq_take, List.take_take, Nat.min_eq_left (by omega)]
      have count : w.removed + 1 + (w.items.length - 1 - target.length) =
          w.removed + (w.items.length - target.length) := by omega
      rw [ih, pop, front, List.length_dropLast, count]
  | case2 w short =>
      rw [Nat.not_lt] at short
      rw [List.take_of_length_le short, Nat.sub_eq_zero_of_le short, Nat.add_zero]

theorem extend_eq (target : List α) (w : Walk α) (appended : Nat) : w.extend target appended =
    ⟨w.items ++ target.drop w.position, ⟨w.removed, appended + (target.length - w.position)⟩⟩ := by
  fun_induction extend target w appended with
  | case1 w appended t more ih =>
      obtain ⟨lt, rfl⟩ := List.getElem?_eq_some_iff.1 more
      rw [ih, List.drop_eq_getElem_cons lt]
      simp only [stay, List.append_assoc, List.singleton_append, Reconciled.mk.injEq,
        ReconcileOutcome.mk.injEq, true_and]
      omega
  | case2 w appended done =>
      rw [List.getElem?_eq_none_iff] at done
      rw [List.drop_of_length_le done, List.append_nil, Nat.sub_eq_zero_of_le done, Nat.add_zero]

/-! ## What is yet to be done -/

/-- What comes of a walk: the items in front of its position stay, and the others are reconciled with
    those that the target has from there on. -/
def outlook (eq : α → α → Bool) (target : List α) (w : Walk α) : Reconciled α :=
  let rest := reconcile eq (w.items.drop w.position) (target.drop w.position)
  ⟨w.items.take w.position ++ rest.items,
    ⟨w.removed + rest.outcome.removed, rest.outcome.appended⟩⟩

theorem outlook_stay (own : w.items[w.position]? = some c) (theirs : target[w.position]? = some t)
    (same : eq c t = true) : w.stay.outlook eq target = w.outlook eq target := by
  obtain ⟨inside, rfl⟩ := List.getElem?_eq_some_iff.1 own
  obtain ⟨inside', rfl⟩ := List.getElem?_eq_some_iff.1 theirs
  simp only [outlook, stay, List.drop_eq_getElem_cons inside, List.drop_eq_getElem_cons inside',
    reconcile_cons_of_eq same, ← List.take_append_getElem inside, List.append_assoc,
    List.singleton_append]

theorem outlook_delete (own : w.items[w.position]? = some c) (theirs : target[w.position]? = some t)
    (differs : eq c t = false) : w.delete.outlook eq target = w.outlook eq target := by
  obtain ⟨inside, rfl⟩ := List.getElem?_eq_some_iff.1 own
  obtain ⟨inside', rfl⟩ := List.getElem?_eq_some_iff.1 theirs
  have front := List.take_eraseIdx_eq_take_of_le w.items _ _ (Nat.le_refl w.position)
  have behind : (w.items.eraseIdx w.position).drop w.position = w.items.drop (w.position + 1) := by
    rw [List.eraseIdx_eq_take_drop_succ,
      List.drop_left' (List.length_take_of_le (Nat.le_of_lt inside))]
  simp only [outlook, delete, front, behind, List.drop_eq_getElem_cons inside,
    List.drop_eq_getElem_cons inside', reconcile_cons_of_ne differs, Nat.add_assoc, Nat.add_comm 1]

/-- At the end of the first loop, the two others do what is yet to be done. -/
theorem extend_shorten (within : w.position ≤ target.length)
    (done : w.items.length ≤ w.position ∨ target.length ≤ w.position) :
    (w.shorten target).extend target 0 = w.outlook eq target := by
  rw [shorten_eq, extend_eq, outlook, Nat.zero_add]
  rcases done with done | done
  · have short : w.items.length ≤ target.length := Nat.le_trans done within
    rw [List.take_of_length_le short, Nat.sub_eq_zero_of_le short, List.take_of_length_le done,
      List.drop_of_length_le done, reconcile_nil_left, List.length_drop]
  · have reached : w.position = target.length := Nat.le_antisymm within done
    rw [List.drop_of_length_le done, reconcile_nil_right, List.length_drop, reached, Nat.sub_self]

/-- The loops do what is yet to be done. -/
theorem extend_shorten_compare (within : w.position ≤ target.length) :
    ((w.compare eq target).shorten target).extend target 0 = w.outlook eq target := by
  fun_induction compare eq target w with
  | case1 w c t own theirs same ih =>
      have next : w.position < target.length := (List.getElem?_eq_some_iff.1 theirs).1
      rw [ih next, outlook_stay own theirs same]
  | case2 w c t own theirs differs ih =>
      rw [ih within, outlook_delete own theirs (Bool.eq_false_iff.2 differs)]
  | case3 w done =>
      refine extend_shorten within ?_
      by_contra inside
      rw [not_or, Nat.not_le, Nat.not_le] at inside
      exact done _ _ (List.getElem?_eq_getElem inside.1) (List.getElem?_eq_getElem inside.2)

end Walk

/-- The loops do what `reconcile` does. -/
theorem reconcileInPlace_eq (eq : α → α → Bool) (current target : List α) :
    reconcileInPlace eq current target = reconcile eq current target := by
  rw [reconcileInPlace, Walk.extend_shorten_compare (Nat.zero_le _), Walk.outlook]
  simp

end SettingsForge
