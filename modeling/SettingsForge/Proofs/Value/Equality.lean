import Mathlib.Data.List.Nodup
import SettingsForge.Reconcile
import SettingsForge.Value.Basic

set_option autoImplicit false

/-! # Equality of values

`Value.equals` is transitive, so that reconciling a list changes it only to an unequal one. Equal values
differ at most in the signs of zeros, which `Value.unsigned` forgets. Not-a-number is equal to nothing,
so a value is equal to itself only if there is none in it (`Value.equals_self`). -/

namespace SettingsForge

/-! ## Doubles -/

namespace Binary64

theorem equals_trans {x y z : Binary64} (h : x.equals y = true) (h' : y.equals z = true) :
    x.equals z = true := by
  cases x <;> cases y <;> cases z <;> simp only [equals, Bool.false_eq_true] at h h' ⊢
  grind

theorem equals_self (x : Binary64) : x.equals x = (x != .nan) := by
  cases x <;> simp [equals]

/-- A double without the sign of a zero. -/
def unsigned : Binary64 → Binary64
  | .nan => .nan
  | .number negative m => if m.val = 0 then .number false m else .number negative m

theorem unsigned_eq_of_equals {x y : Binary64} (h : x.equals y = true) :
    x.unsigned = y.unsigned := by
  cases x <;> cases y <;> simp only [equals, Bool.false_eq_true] at h
  simp only [unsigned]
  grind

theorem unsigned_unsigned (x : Binary64) : x.unsigned.unsigned = x.unsigned := by
  cases x with
  | nan => rfl
  | number negative m =>
      by_cases zero : m.val = 0
      · simp only [unsigned, if_pos zero]
      · simp only [unsigned, if_neg zero]

end Binary64

namespace Value

/-! ## Transitivity -/

mutual

theorem equals_trans {a b c : Value} (h : a.equals b = true) (h' : b.equals c = true) :
    a.equals c = true := by
  cases a with
  | list items =>
      cases b <;> simp only [equals, Bool.false_eq_true] at h
      cases c <;> simp only [equals, Bool.false_eq_true] at h' ⊢
      exact equalItems_trans h h'
  | map entries =>
      cases b <;> simp only [equals, Bool.false_eq_true] at h
      cases c <;> simp only [equals, Bool.false_eq_true] at h' ⊢
      exact equalEntries_trans h h'
  | object typeName fields =>
      cases b <;> simp only [equals, Bool.false_eq_true, Bool.and_eq_true, beq_iff_eq] at h
      cases c <;> simp only [equals, Bool.false_eq_true, Bool.and_eq_true, beq_iff_eq] at h' ⊢
      exact ⟨h.1.trans h'.1, equalEntries_trans h.2 h'.2⟩
  | float x =>
      cases b <;> simp only [equals, Bool.false_eq_true] at h
      cases c <;> simp only [equals, Bool.false_eq_true] at h' ⊢
      exact Binary64.equals_trans h h'
  | _ =>
      cases b <;> simp only [equals, Bool.false_eq_true, Bool.and_eq_true, beq_iff_eq] at h
      cases c <;> simp_all [equals]
termination_by sizeOf a

theorem equalItems_trans {as bs cs : List Value} (h : equalItems as bs = true)
    (h' : equalItems bs cs = true) : equalItems as cs = true := by
  match as, bs, cs with
  | [], [], [] => rfl
  | a :: as, b :: bs, c :: cs =>
      simp only [equalItems, Bool.and_eq_true] at h h' ⊢
      exact ⟨equals_trans h.1 h'.1, equalItems_trans h.2 h'.2⟩
termination_by sizeOf as

theorem equalEntries_trans {as bs cs : List (String × Value)} (h : equalEntries as bs = true)
    (h' : equalEntries bs cs = true) : equalEntries as cs = true := by
  match as, bs, cs with
  | [], [], [] => rfl
  | (k, a) :: as, (l, b) :: bs, (m, c) :: cs =>
      simp only [equalEntries, Bool.and_eq_true, beq_iff_eq] at h h' ⊢
      exact ⟨⟨h.1.1.trans h'.1.1, equals_trans h.1.2 h'.1.2⟩, equalEntries_trans h.2 h'.2⟩
termination_by sizeOf as

end

/-! ## Symmetry -/

mutual

theorem equals_comm (a b : Value) : a.equals b = b.equals a := by
  cases a with
  | list items =>
      cases b <;> simp only [equals]
      exact equalItems_comm items _
  | map entries =>
      cases b <;> simp only [equals]
      exact equalEntries_comm entries _
  | object typeName fields =>
      cases b <;> simp only [equals]
      rw [equalEntries_comm fields, Bool.beq_comm]
  | float x =>
      cases b <;> simp only [equals]
      exact Binary64.equals_comm x _
  | _ => cases b <;> simp only [equals, Bool.beq_comm]
termination_by sizeOf a

theorem equalItems_comm (as bs : List Value) : equalItems as bs = equalItems bs as := by
  match as, bs with
  | [], [] | [], _ :: _ | _ :: _, [] => rfl
  | a :: as, b :: bs => rw [equalItems, equalItems, equals_comm a b, equalItems_comm as bs]
termination_by sizeOf as

theorem equalEntries_comm (as bs : List (String × Value)) :
    equalEntries as bs = equalEntries bs as := by
  match as, bs with
  | [], [] | [], _ :: _ | _ :: _, [] => rfl
  | (k, a) :: as, (l, b) :: bs =>
      rw [equalEntries, equalEntries, equals_comm a b, equalEntries_comm as bs, Bool.beq_comm]
termination_by sizeOf as

end

/-! ## Values unequal to themselves -/

mutual

/-- Whether there is a not-a-number anywhere in a value. -/
def hasNan : Value → Bool
  | .float x => x == .nan
  | .object _ fields => entriesHaveNan fields
  | .list items => itemsHaveNan items
  | .map entries => entriesHaveNan entries
  | _ => false

def itemsHaveNan : List Value → Bool
  | [] => false
  | v :: items => v.hasNan || itemsHaveNan items

def entriesHaveNan : List (String × Value) → Bool
  | [] => false
  | (_, v) :: entries => v.hasNan || entriesHaveNan entries

end

mutual

/-- A value is equal to itself unless there is a not-a-number in it. -/
theorem equals_self (v : Value) : v.equals v = !v.hasNan := by
  cases v with
  | list items => rw [equals, hasNan, equalItems_self]
  | map entries => rw [equals, hasNan, equalEntries_self]
  | object typeName fields => rw [equals, hasNan, equalEntries_self, beq_self_eq_true, Bool.true_and]
  | float x => rw [equals, hasNan, Binary64.equals_self, bne]
  | _ => simp [equals, hasNan]
termination_by sizeOf v

theorem equalItems_self (items : List Value) : equalItems items items = !itemsHaveNan items := by
  match items with
  | [] => rfl
  | v :: items => rw [equalItems, itemsHaveNan, equals_self v, equalItems_self items, Bool.not_or]
termination_by sizeOf items

theorem equalEntries_self (entries : List (String × Value)) :
    equalEntries entries entries = !entriesHaveNan entries := by
  match entries with
  | [] => rfl
  | (k, v) :: entries =>
      rw [equalEntries, entriesHaveNan, equals_self v, equalEntries_self entries, beq_self_eq_true,
        Bool.true_and, Bool.not_or]
termination_by sizeOf entries

end

theorem hasNan_iff {v : Value} : v.hasNan = true ↔ v.equals v = false := by
  rw [equals_self, Bool.not_eq_false']

/-- What is equal to anything is equal to itself. -/
theorem equals_self_of_equals {a b : Value} (h : a.equals b = true) : b.equals b = true :=
  equals_trans ((equals_comm b a).trans h) h

/-! ## Equal lists and maps -/

theorem length_eq_of_equalItems {as bs : List Value} (h : equalItems as bs = true) :
    as.length = bs.length := by
  induction as generalizing bs with
  | nil => cases bs <;> simp_all [equalItems]
  | cons a as ih =>
      cases bs with
      | nil => simp [equalItems] at h
      | cons b bs =>
          simp only [equalItems, Bool.and_eq_true] at h
          simp [ih h.2]

/-- Equal keyed lists have the same keys, with equal values under them. -/
theorem forall₂_of_equalEntries {as bs : List (String × Value)} (h : equalEntries as bs = true) :
    List.Forall₂ (fun a b => a.1 = b.1 ∧ a.2.equals b.2 = true) as bs := by
  induction as generalizing bs with
  | nil =>
      cases bs with
      | nil => exact .nil
      | cons => simp [equalEntries] at h
  | cons a as ih =>
      cases bs with
      | nil => simp [equalEntries] at h
      | cons b bs =>
          simp only [equalEntries, Bool.and_eq_true, beq_iff_eq] at h
          exact .cons h.1 (ih h.2)

theorem keys_eq_of_equalEntries {as bs : List (String × Value)} (h : equalEntries as bs = true) :
    as.map Prod.fst = bs.map Prod.fst := by
  have pairs := forall₂_of_equalEntries h
  clear h
  induction pairs with
  | nil => rfl
  | cons first _ ih => rw [List.map_cons, List.map_cons, ih, first.1]

theorem lookup_of_equalEntries {as bs : List (String × Value)} (h : equalEntries as bs = true)
    {key : String} {a b : Value} (ha : as.lookup key = some a) (hb : bs.lookup key = some b) :
    a.equals b = true := by
  have pairs := forall₂_of_equalEntries h
  clear h
  induction pairs with
  | nil => cases ha
  | @cons x y as bs first _ ih =>
      obtain ⟨k, v⟩ := x
      obtain ⟨l, w⟩ := y
      obtain ⟨rfl, same⟩ := first
      rw [List.lookup_cons] at ha hb
      split at ha
      · simp_all
      · simp_all

/-! ## Zeros without a sign -/

mutual

/-- A value without the signs of its zeros. -/
def unsigned : Value → Value
  | .float x => .float x.unsigned
  | .object typeName fields => .object typeName (unsignedEntries fields)
  | .list items => .list (unsignedItems items)
  | .map entries => .map (unsignedEntries entries)
  | v => v

def unsignedItems : List Value → List Value
  | [] => []
  | v :: items => v.unsigned :: unsignedItems items

def unsignedEntries : List (String × Value) → List (String × Value)
  | [] => []
  | (k, v) :: entries => (k, v.unsigned) :: unsignedEntries entries

end

theorem unsignedItems_eq_map (items : List Value) : unsignedItems items = items.map unsigned := by
  induction items with
  | nil => rfl
  | cons v items ih => simp [unsignedItems, ih]

theorem unsignedEntries_eq_map (entries : List (String × Value)) :
    unsignedEntries entries = entries.map fun entry => (entry.1, entry.2.unsigned) := by
  induction entries with
  | nil => rfl
  | cons entry entries ih => simp [unsignedEntries, ih]

mutual

theorem unsigned_unsigned : (v : Value) → v.unsigned.unsigned = v.unsigned
  | .float x => by simp only [unsigned, x.unsigned_unsigned]
  | .object _ fields => by simp only [unsigned, unsignedEntries_unsignedEntries fields]
  | .list items => by simp only [unsigned, unsignedItems_unsignedItems items]
  | .map entries => by simp only [unsigned, unsignedEntries_unsignedEntries entries]
  | .null | .bool _ | .int _ | .str _ | .enum .. => by simp only [unsigned]

theorem unsignedItems_unsignedItems :
    (items : List Value) → unsignedItems (unsignedItems items) = unsignedItems items
  | [] => rfl
  | v :: items => by
    simp only [unsignedItems, v.unsigned_unsigned, unsignedItems_unsignedItems items]

theorem unsignedEntries_unsignedEntries :
    (entries : List (String × Value)) →
      unsignedEntries (unsignedEntries entries) = unsignedEntries entries
  | [] => rfl
  | (_, v) :: entries => by
    simp only [unsignedEntries, v.unsigned_unsigned, unsignedEntries_unsignedEntries entries]

end

mutual

/-- Equal values differ at most in the signs of zeros. -/
theorem unsigned_eq_of_equals {a b : Value} (h : a.equals b = true) : a.unsigned = b.unsigned := by
  cases a with
  | list items =>
      cases b <;> simp only [equals, Bool.false_eq_true] at h
      simp only [unsigned, unsignedItems_eq_of_equals h]
  | map entries =>
      cases b <;> simp only [equals, Bool.false_eq_true] at h
      simp only [unsigned, unsignedEntries_eq_of_equals h]
  | object typeName fields =>
      cases b <;> simp only [equals, Bool.false_eq_true, Bool.and_eq_true, beq_iff_eq] at h
      simp only [unsigned, h.1, unsignedEntries_eq_of_equals h.2]
  | float x =>
      cases b <;> simp only [equals, Bool.false_eq_true] at h
      simp only [unsigned, Binary64.unsigned_eq_of_equals h]
  | _ =>
      cases b <;> simp only [equals, Bool.false_eq_true, Bool.and_eq_true, beq_iff_eq] at h
      simp_all
termination_by sizeOf a

theorem unsignedItems_eq_of_equals {as bs : List Value} (h : equalItems as bs = true) :
    unsignedItems as = unsignedItems bs := by
  match as, bs with
  | [], [] => rfl
  | a :: as, b :: bs =>
      simp only [equalItems, Bool.and_eq_true] at h
      simp only [unsignedItems, unsigned_eq_of_equals h.1, unsignedItems_eq_of_equals h.2]
termination_by sizeOf as

theorem unsignedEntries_eq_of_equals {as bs : List (String × Value)}
    (h : equalEntries as bs = true) : unsignedEntries as = unsignedEntries bs := by
  match as, bs with
  | [], [] => rfl
  | (k, a) :: as, (l, b) :: bs =>
      simp only [equalEntries, Bool.and_eq_true, beq_iff_eq] at h
      simp only [unsignedEntries, h.1.1, unsigned_eq_of_equals h.1.2,
        unsignedEntries_eq_of_equals h.2]
termination_by sizeOf as

end

end Value

/-! ## Reconciling by equality -/

/-- A list is changed by reconciling when its items are not pairwise equal to the target's. -/
theorem changed_reconcile_iff {current target : List Value} :
    (reconcile Value.equals current target).outcome.changed = true ↔
      Value.equalItems current target = false := by
  induction current generalizing target with
  | nil => cases target <;> simp [ReconcileOutcome.changed, Value.equalItems]
  | cons c current ih =>
      cases target with
      | nil => simp [reconcile, ReconcileOutcome.changed, Value.equalItems]
      | cons t target =>
          cases same : c.equals t with
          | true => simpa [reconcile_cons_of_eq same, Value.equalItems, same] using ih
          | false =>
              simp [reconcile_cons_of_ne same, ReconcileOutcome.changed, Value.equalItems, same]

/-- Without a change the list stays as it is. -/
theorem items_reconcile_of_unchanged {α : Type} {eq : α → α → Bool} {current target : List α}
    (h : (reconcile eq current target).outcome.changed = false) :
    (reconcile eq current target).items = current := by
  induction current generalizing target with
  | nil =>
      cases target with
      | nil => rfl
      | cons t target => simp [ReconcileOutcome.changed] at h
  | cons c current ih =>
      cases target with
      | nil => simp [reconcile, ReconcileOutcome.changed] at h
      | cons t target =>
          cases same : eq c t with
          | true =>
              rw [reconcile_cons_of_eq same] at h ⊢
              rw [ih h]
          | false =>
              rw [reconcile_cons_of_ne same] at h
              simp [ReconcileOutcome.changed] at h

/-- Items that stay correspond to the target's at their place, and the others are the target's. -/
theorem forall₂_reconcile {α : Type} (eq : α → α → Bool) (current target : List α) :
    List.Forall₂ (fun item t => item = t ∨ item ∈ current ∧ eq item t = true)
      (reconcile eq current target).items target := by
  induction current generalizing target with
  | nil =>
      rw [reconcile_nil_left]
      exact List.forall₂_same.2 fun _ _ => Or.inl rfl
  | cons c current ih =>
      cases target with
      | nil => exact .nil
      | cons t target =>
          have wider : ∀ {target}, List.Forall₂
              (fun item t => item = t ∨ item ∈ c :: current ∧ eq item t = true)
              (reconcile eq current target).items target := fun {target} =>
            (ih target).imp fun item t => Or.imp_right fun h => ⟨List.mem_cons_of_mem _ h.1, h.2⟩
          cases same : eq c t with
          | true =>
              rw [reconcile_cons_of_eq same]
              exact .cons (Or.inr ⟨List.mem_cons_self .., same⟩) wider
          | false =>
              rw [reconcile_cons_of_ne same]
              exact wider

/-- In front of a value that is equal to nothing, no item stays. -/
theorem reconcile_of_unequal {current target : List Value} {t : Value} (h : t.equals t = false) :
    (reconcile Value.equals current (t :: target)).items = t :: target := by
  induction current with
  | nil => rfl
  | cons c current ih =>
      have differs : c.equals t = false :=
        Bool.eq_false_iff.2 fun same => Bool.eq_false_iff.1 h (Value.equals_self_of_equals same)
      rw [reconcile_cons_of_ne differs]
      exact ih

/-- A list that is reconciled with itself stays. -/
theorem reconcile_self (items : List Value) :
    (reconcile Value.equals items items).items = items := by
  induction items with
  | nil => rfl
  | cons v items ih =>
      cases same : v.equals v with
      | true => rw [reconcile_cons_of_eq same, ih]
      | false =>
          rw [reconcile_cons_of_ne same]
          exact reconcile_of_unequal same

/-- A list stays when it is reconciled with what another list was reconciled to it, and it counts as
    changed only if it is unequal to itself. -/
theorem reconcile_back (old items : List Value) :
    (reconcile Value.equals items (reconcile Value.equals old items).items).items = items ∧
      ((reconcile Value.equals items (reconcile Value.equals old items).items).outcome.changed = true →
        Value.equalItems items items = false) := by
  simp only [changed_reconcile_iff]
  induction old generalizing items with
  | nil =>
      rw [reconcile_nil_left]
      exact ⟨reconcile_self items, id⟩
  | cons c old ih =>
      cases items with
      | nil => exact ⟨rfl, id⟩
      | cons t items =>
          cases same : c.equals t with
          | true =>
              obtain ⟨back, unequal⟩ := ih items
              have same' : t.equals c = true := (Value.equals_comm t c).trans same
              rw [reconcile_cons_of_eq same, reconcile_cons_of_eq same', back]
              refine ⟨rfl, ?_⟩
              simpa [Value.equalItems, same', Value.equals_self_of_equals same] using unequal
          | false =>
              rw [reconcile_cons_of_ne same]
              exact ih (t :: items)

/-- A reconciled list that changed is unequal to the one before. -/
theorem equalItems_reconcile_of_changed {current target : List Value}
    (h : (reconcile Value.equals current target).outcome.changed = true) :
    Value.equalItems current (reconcile Value.equals current target).items = false := by
  induction current generalizing target with
  | nil =>
      cases target with
      | nil => simp [ReconcileOutcome.changed] at h
      | cons t target => rfl
  | cons c current ih =>
      cases target with
      | nil => rfl
      | cons t target =>
          cases same : c.equals t with
          | true =>
              rw [reconcile_cons_of_eq same] at h ⊢
              simp [Value.equalItems, ih h]
          | false =>
              rw [reconcile_cons_of_ne same]
              have items := forall₂_reconcile Value.equals current (t :: target)
              cases hr : (reconcile Value.equals current (t :: target)).items with
              | nil => rfl
              | cons item rest =>
                  rw [hr] at items
                  cases items with
                  | cons first _ =>
                      -- an item equal to the first one would be equal to the target's
                      have apart : c.equals item = false := by
                        rw [Bool.eq_false_iff]
                        intro equal
                        rcases first with rfl | ⟨-, related⟩
                        · rw [same] at equal
                          cases equal
                        · rw [Value.equals_trans equal related] at same
                          cases same
                      simp [Value.equalItems, apart]

end SettingsForge
