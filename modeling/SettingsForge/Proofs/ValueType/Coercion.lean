import SettingsForge.Proofs.Lists
import SettingsForge.ValueType.Fit

set_option autoImplicit false

/-! # What coercion makes

Coercion works on just the values that fit (`ValueType.isSome_coerce`). It makes values that fit
exactly, and leaves those that do. So it is a projection (`ValueType.coercion_is_a_projection`), and a
value that was stored once can be stored again. -/

namespace SettingsForge

theorem Fit.ofItems_eq_exact_iff {fits : List (Option Fit)} :
    Fit.ofItems fits = some .exact ↔ ∀ f ∈ fits, f = some .exact := by
  induction fits with
  | nil => simp [ofItems]
  | cons f fits ih =>
      cases f with
      | none => simp [ofItems]
      | some f =>
          cases f with
          | exact =>
              rw [ofItems, List.forall_mem_cons, ← ih]
              cases ofItems fits <;> simp [Fit.max]
          | converted =>
              rw [ofItems]
              cases ofItems fits <;> simp [Fit.max]

/-- Items fit together if each of them fits. -/
theorem Fit.isSome_ofItems {fits : List (Option Fit)} :
    (Fit.ofItems fits).isSome = true ↔ ∀ f ∈ fits, f.isSome = true := by
  induction fits with
  | nil => simp [ofItems]
  | cons f fits ih =>
      cases f with
      | none => simp [ofItems]
      | some f => rw [ofItems, Option.isSome_map, ih, List.forall_mem_cons]; simp

namespace ValueType

/-- The zero of a type fits it. -/
theorem fit_zero (type : ValueType) : type.fit type.zero = some .exact := by
  cases type <;> simp [zero, fit, Fit.ofItems]

/-- A value that a type makes of some value. -/
def Makes (type : ValueType) (value : Value) : Prop := ∃ v, type.coerce v = some value

theorem nameOf?_isSome_of_ordinalOf? {e : EnumType} {member : String} {ordinal : Int64}
    (h : e.ordinalOf? member = some ordinal) : (e.nameOf? ordinal).isSome = true := by
  obtain ⟨m, found, rfl⟩ := Option.map_eq_some_iff.1 h
  simp only [EnumType.nameOf?, Option.isSome_map, List.find?_isSome]
  exact ⟨m, List.mem_of_find?_eq_some found, by simp⟩

/-- A value can be converted to a type if it fits. -/
theorem isSome_coerce : (type : ValueType) → (v : Value) →
    (type.coerce v).isSome = (type.fit v).isSome
  | .list item, v => by
    cases v with
    | list items =>
        rw [coerce_list, fit_list, Option.isSome_map, Bool.eq_iff_iff, isSome_mapM_option,
          Fit.isSome_ofItems, List.forall_mem_map]
        exact forall₂_congr fun v _ => by rw [isSome_coerce item v]
    | _ => simp [coerce, fit]
  | .enum e, v => by
    cases v with
    | enum typeName ordinal =>
        -- nothing converts to an enum but numbers and names
        simp only [coerce, fit]
        split_ifs <;> rfl
    | _ => simp [coerce, fit, EnumType.valueOf?]
  | .object o, v => by
    cases v with
    | object typeName fields =>
        simp only [coerce, fit]
        split_ifs <;> rfl
    | _ => simp [coerce, fit]
  | .float, v | .bool, v | .int, v | .str, v => by cases v <;> simp [coerce, fit]

/-- Coercion makes values of the type. -/
theorem exact_of_coerce : (type : ValueType) → {v w : Value} → type.coerce v = some w →
    type.fit w = some .exact
  | .list item, v, w, h => by
    cases v with
    | list items =>
        rw [coerce_list, Option.map_eq_some_iff] at h
        obtain ⟨others, all, rfl⟩ := h
        rw [fit_list, Fit.ofItems_eq_exact_iff]
        intro f mem
        obtain ⟨w, hw, rfl⟩ := List.mem_map.1 mem
        obtain ⟨u, -, hu⟩ := exists_left_of_forall₂ (forall₂_mapM_option.1 all) hw
        exact exact_of_coerce item hu
    | _ => simp [coerce, fit] at h
  | .enum e, v, w, h => by
    cases v with
    | int ordinal =>
        simp only [coerce, Option.map_eq_some_iff] at h
        obtain ⟨member, found, rfl⟩ := h
        simp [fit, found]
    | str member =>
        simp only [coerce, EnumType.valueOf?, Option.map_eq_some_iff] at h
        obtain ⟨ordinal, found, rfl⟩ := h
        simp [fit, nameOf?_isSome_of_ordinalOf? found]
    | enum typeName ordinal =>
        simp only [coerce] at h
        split at h
        · next exact => rwa [← Option.some.inj h]
        · cases h
    | _ => simp [coerce, fit] at h
  | .object o, v, w, h => by
    cases v with
    | object typeName fields =>
        simp only [coerce] at h
        split at h
        · next exact => rwa [← Option.some.inj h]
        · cases h
    | null =>
        simp only [coerce, fit, Option.some.injEq] at h
        rw [← h, fit]
    | _ => simp [coerce, fit] at h
  | .float, v, w, h => by
    cases v <;> simp only [coerce, fit, Option.some.injEq, reduceCtorEq] at h <;> rw [← h, fit]
  | .bool, v, w, h | .int, v, w, h | .str, v, w, h => by
    cases v <;> simp only [coerce, fit, Option.some.injEq, reduceCtorEq] at h
    rw [← h, fit]

theorem Makes.exact {type : ValueType} {v : Value} (h : type.Makes v) :
    type.fit v = some .exact := by
  obtain ⟨u, hu⟩ := h
  exact exact_of_coerce type hu

/-- Coercion leaves values of the type. -/
theorem coerce_of_exact : (type : ValueType) → {v : Value} → type.fit v = some .exact →
    type.coerce v = some v
  | .list item, v, h => by
    cases v with
    | list items =>
        rw [fit_list, Fit.ofItems_eq_exact_iff] at h
        rw [coerce_list]
        have all : items.mapM (fun v => item.coerce v) = some items :=
          forall₂_mapM_option.2 (List.forall₂_same.2 fun v mem =>
            coerce_of_exact item (h _ (List.mem_map_of_mem mem)))
        rw [all]
        rfl
    | _ => simp [fit] at h
  | .enum e, v, h => by
    cases v with
    | enum typeName ordinal => simp only [coerce, h]
    | int | str => simp [fit] at h
    | _ => simp [fit] at h
  | .object o, v, h => by
    cases v <;> simp only [coerce, h]
  | .float, v, h => by
    cases v <;> simp_all [coerce, fit]
  | .bool, v, h | .int, v, h | .str, v, h => by
    cases v <;> simp only [coerce, h]

/-- Fit and coercion are one judgement: just the values that fit can be converted, and those that fit
    exactly are those that conversion leaves. What it makes fits exactly, so it is left when it is
    converted again, and so is the zero of the type. This holds of every enum, whether or not its
    member names and its ordinals determine each other and whether or not a member has ordinal zero. -/
theorem coercion_is_a_projection (type : ValueType) :
    (∀ v, (type.coerce v).isSome = (type.fit v).isSome) ∧
      (∀ v, type.fit v = some .exact ↔ type.coerce v = some v) ∧
      (∀ v w, type.coerce v = some w → type.fit w = some .exact ∧ type.coerce w = some w) ∧
      type.fit type.zero = some .exact := by
  refine ⟨type.isSome_coerce, fun v => ⟨type.coerce_of_exact, type.exact_of_coerce⟩, ?_,
    type.fit_zero⟩
  intro v w made
  have exact := type.exact_of_coerce made
  exact ⟨exact, type.coerce_of_exact exact⟩

/-- The second member has the name of the first one, the third one its ordinal. -/
example :
    let switch : ValueType := .list (.enum ⟨"Switch", [("on", 1), ("on", 2), ("off", 1)]⟩)
    switch.coerce (.list [.str "on", .int 2, .str "off"]) =
      some (.list [.enum "Switch" 1, .enum "Switch" 2, .enum "Switch" 1]) := rfl

end ValueType

end SettingsForge
