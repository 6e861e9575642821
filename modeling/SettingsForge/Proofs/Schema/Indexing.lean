import SettingsForge.Proofs.Keyed
import SettingsForge.Schema.Build

set_option autoImplicit false

/-! # Names and their index

A build fills the index of a schema property by property. As long as no name has a fault, the index
holds the position of every name so far and of no other (`Schema.Indexes`), which is what each step keeps
(`Schema.Indexes.insert`) and a whole filling ends with (`Schema.fillIndex_spec`). So a build succeeds
exactly if its names pass (`Schema.build_eq_ok_iff`), and otherwise says which name is the first that
does not (`Schema.build_eq_error_iff`). -/

namespace SettingsForge.Schema

/-! ## Names -/

/-- Names that a build accepts: none is blank and none occurs twice. -/
structure WellNamed (properties : List Property) : Prop where
  filled : ∀ p ∈ properties, Text.isBlank p.name = false
  nodup : (properties.map PropertyOf.name).Nodup

/-- The error for the name of a property that comes after these. -/
inductive NameFault (schema : String) (before : List Property) (p : Property) : SettingsError → Prop
  | blank : Text.isBlank p.name = true →
      NameFault schema before p (.invalidSchema ("Property #" ++ natText before.length ++ " of " ++
        schema ++ " has an empty name"))
  | repeated : Text.isBlank p.name = false → p.name ∈ before.map PropertyOf.name →
      NameFault schema before p (.duplicateProperty schema p.name)

variable {schema : String} {before properties : List Property} {p : Property} {e : SettingsError}

theorem wellNamed_nil : WellNamed [] := ⟨by simp, by simp⟩

theorem wellNamed_concat :
    WellNamed (before ++ [p]) ↔
      WellNamed before ∧ Text.isBlank p.name = false ∧ p.name ∉ before.map PropertyOf.name := by
  constructor
  · rintro ⟨filled, nodup⟩
    rw [List.map_append, List.nodup_append] at nodup
    obtain ⟨nodup, -, apart⟩ := nodup
    refine ⟨⟨fun q hq => filled q (List.mem_append_left _ hq), nodup⟩, filled p (by simp), ?_⟩
    exact fun mem => apart _ mem _ (by simp) rfl
  · rintro ⟨⟨filled, nodup⟩, filledp, apart⟩
    constructor
    · simpa [or_imp, forall_and] using And.intro filled filledp
    · rw [List.map_append, List.nodup_append]
      refine ⟨nodup, by simp, ?_⟩
      rintro n mem m hm rfl
      simp only [List.map_cons, List.map_nil, List.mem_singleton] at hm
      exact apart (hm ▸ mem)

theorem WellNamed.of_append {after : List Property} (h : WellNamed (before ++ after)) :
    WellNamed before :=
  ⟨fun p hp => h.filled p (List.mem_append_left _ hp),
    (List.nodup_append.1 (List.map_append ▸ h.nodup)).1⟩

/-- A name with a fault cannot stand among accepted ones. -/
theorem NameFault.not_wellNamed (h : NameFault schema before p e) {after : List Property} :
    ¬ WellNamed (before ++ p :: after) := by
  intro named
  rw [List.append_cons] at named
  obtain ⟨-, filled, apart⟩ := wellNamed_concat.1 named.of_append
  cases h with
  | blank blank => rw [filled] at blank; cases blank
  | repeated _ mem => exact apart mem

theorem NameFault.eq {e' : SettingsError} (h : NameFault schema before p e)
    (h' : NameFault schema before p e') : e = e' := by
  cases h with
  | blank blank =>
      cases h' with
      | blank => rfl
      | repeated filled => rw [blank] at filled; cases filled
  | repeated filled =>
      cases h' with
      | blank blank => rw [filled] at blank; cases blank
      | repeated => rfl

/-! ## The index -/

/-- The index says of each name at which position it stands. -/
def Indexes (index : PropertyIndex) (properties : List Property) : Prop :=
  ∀ n i, index.lookup n = some i ↔ ∃ p, properties[i]? = some p ∧ p.name = n

namespace Indexes

variable {index : PropertyIndex}

theorem nil : Indexes [] [] := by simp [Indexes]

theorem lookup_eq_none_iff (h : Indexes index properties) {n : String} :
    index.lookup n = none ↔ n ∉ properties.map PropertyOf.name := by
  constructor
  · intro missing there
    obtain ⟨p, mem, rfl⟩ := List.mem_map.1 there
    obtain ⟨i, at_i⟩ := List.mem_iff_getElem?.1 mem
    rw [(h p.name i).2 ⟨p, at_i, rfl⟩] at missing
    cases missing
  · intro absent
    refine Option.eq_none_iff_forall_ne_some.2 fun i found => absent ?_
    obtain ⟨p, at_i, rfl⟩ := (h n i).1 found
    exact List.mem_map_of_mem (List.mem_of_getElem? at_i)

/-- The next property goes into the index under a name that is not there yet. -/
theorem insert (h : Indexes index before) (new : p.name ∉ before.map PropertyOf.name) :
    Indexes (index.insert p.name before.length).2 (before ++ [p]) := by
  intro n i
  show (Keyed.insert p.name before.length index).lookup n = some i ↔ _
  by_cases same : n = p.name
  · subst same
    rw [Keyed.lookup_insert_self, Option.some.injEq]
    constructor
    · rintro rfl
      exact ⟨p, List.getElem?_concat_length, rfl⟩
    · rintro ⟨q, at_i, name⟩
      rcases Nat.lt_trichotomy i before.length with lt | rfl | gt
      · rw [List.getElem?_append_left lt] at at_i
        exact absurd (name ▸ List.mem_map_of_mem (List.mem_of_getElem? at_i)) new
      · rfl
      · rw [List.getElem?_eq_none (by simpa using Nat.succ_le_of_lt gt)] at at_i
        cases at_i
  · rw [Keyed.lookup_insert_of_ne same, h n i]
    refine exists_congr fun q => and_congr_left fun name => ?_
    -- the new property has another name
    rcases Nat.lt_trichotomy i before.length with lt | rfl | gt
    · rw [List.getElem?_append_left lt]
    · rw [List.getElem?_concat_length, List.getElem?_eq_none (Nat.le_refl _)]
      refine iff_of_false nofun fun found => same ?_
      rw [← name, Option.some.inj found]
    · rw [List.getElem?_eq_none (Nat.le_of_lt gt),
        List.getElem?_eq_none (by simpa using Nat.succ_le_of_lt gt)]

end Indexes

/-- Filling goes on after names that have passed: they all pass and are in the index, or there is a first
    fault. -/
theorem fillIndex_spec (schema : String) (properties : List Property) {index : PropertyIndex}
    (named : WellNamed before) (indexed : Indexes index before) :
    match fillIndex schema before.length index properties with
    | .ok filled => WellNamed (before ++ properties) ∧ Indexes filled (before ++ properties)
    | .error e => ∃ passed p after, before ++ properties = passed ++ p :: after ∧
        WellNamed passed ∧ NameFault schema passed p e := by
  induction properties generalizing before index with
  | nil => simpa [fillIndex] using ⟨named, indexed⟩
  | cons p properties ih =>
      rw [fillIndex]
      by_cases blank : Text.isBlank p.name = true
      · rw [if_pos blank]
        exact ⟨before, p, properties, rfl, named, .blank blank⟩
      · rw [if_neg blank]
        have filled : Text.isBlank p.name = false := by simpa using blank
        have inserted : index.insert p.name before.length =
            (index.lookup p.name, (index.insert p.name before.length).2) := rfl
        rw [inserted]
        cases found : index.lookup p.name with
        | some i =>
            obtain ⟨q, at_i, same⟩ := (indexed p.name i).1 found
            have repeated := List.mem_map_of_mem (f := PropertyOf.name) (List.mem_of_getElem? at_i)
            rw [same] at repeated
            exact ⟨before, p, properties, rfl, named, .repeated filled repeated⟩
        | none =>
            -- the property joins those that passed
            have new := indexed.lookup_eq_none_iff.1 found
            have next := ih (wellNamed_concat.2 ⟨named, filled, new⟩) (indexed.insert new)
            simpa using next

section

variable {index : PropertyIndex}

theorem wellNamed_indexes_of_fillIndex (h : fillIndex schema 0 [] properties = .ok index) :
    WellNamed properties ∧ Indexes index properties := by
  have spec := fillIndex_spec schema properties wellNamed_nil .nil
  rwa [List.length_nil, h] at spec

/-- A fault at one place leaves none at another. -/
theorem NameFault.unique {passed passed' after after' : List Property} {p' : Property}
    {e' : SettingsError} (same : passed ++ p :: after = passed' ++ p' :: after')
    (named : WellNamed passed) (named' : WellNamed passed') (h : NameFault schema passed p e)
    (h' : NameFault schema passed' p' e') : e = e' := by
  have split : passed = passed' ∧ p :: after = p' :: after' := by
    rcases List.append_eq_append_iff.1 same with ⟨between, rfl, rest⟩ | ⟨between, rfl, rest⟩
    · cases between with
      | nil => simpa using rest
      | cons q between =>
          cases rest
          exact absurd named' h.not_wellNamed
    · cases between with
      | nil => simpa using rest.symm
      | cons q between =>
          cases rest
          exact absurd named h'.not_wellNamed
  obtain ⟨rfl, tails⟩ := split
  cases tails
  exact h.eq h'

theorem fillIndex_eq_error_iff :
    fillIndex schema 0 [] properties = .error e ↔ ∃ passed p after,
      properties = passed ++ p :: after ∧ WellNamed passed ∧ NameFault schema passed p e := by
  have spec := fillIndex_spec schema properties wellNamed_nil .nil
  rw [List.length_nil, List.nil_append] at spec
  cases filled : fillIndex schema 0 [] properties with
  | ok index =>
      rw [filled] at spec
      refine iff_of_false nofun ?_
      rintro ⟨passed, p, after, rfl, -, fault⟩
      exact fault.not_wellNamed spec.1
  | error e' =>
      rw [filled] at spec
      constructor
      · rintro ⟨⟩
        exact spec
      · rintro ⟨passed, p, after, split, named, fault⟩
        obtain ⟨passed', p', after', split', named', fault'⟩ := spec
        rw [fault'.unique (split'.symm.trans split) named' named fault]

theorem exists_fillIndex_iff :
    (∃ index, fillIndex schema 0 [] properties = .ok index) ↔ WellNamed properties := by
  constructor
  · rintro ⟨index, filled⟩
    exact (wellNamed_indexes_of_fillIndex filled).1
  · intro named
    cases filled : fillIndex schema 0 [] properties with
    | ok index => exact ⟨index, rfl⟩
    | error e =>
        obtain ⟨passed, p, after, rfl, -, fault⟩ := fillIndex_eq_error_iff.1 filled
        exact absurd named fault.not_wellNamed

end

/-! ## Building -/

variable {id : SchemaId} {name : String} {base : Option Schema} {own : List Property}

theorem build_eq_ok_iff {s : Schema} :
    build id name base own = .ok s ↔ Text.isBlank name = false ∧
      ∃ index, fillIndex name 0 [] (inherited base ++ own) = .ok index ∧
        s = .mk id name base (inherited base ++ own) index := by
  rw [build]
  split
  · next blank => simp [blank]
  · next filled =>
    have filled : Text.isBlank name = false := by simpa using filled
    cases fillIndex name 0 [] (inherited base ++ own) <;> simp [filled, Except.map, eq_comm]

theorem exists_build_iff :
    (∃ s, build id name base own = .ok s) ↔
      Text.isBlank name = false ∧ WellNamed (inherited base ++ own) := by
  simp only [build_eq_ok_iff, ← @exists_fillIndex_iff name]
  exact ⟨fun ⟨_, filled, index, found, _⟩ => ⟨filled, index, found⟩,
    fun ⟨filled, index, found⟩ => ⟨_, filled, index, found, rfl⟩⟩

/-- The error is about the schema's own name, or else about the first name that is not accepted. -/
theorem build_eq_error_iff :
    build id name base own = .error e ↔
      (Text.isBlank name = true ∧ e = .invalidSchema "Schema name cannot be empty") ∨
      (Text.isBlank name = false ∧ ∃ passed p after, inherited base ++ own = passed ++ p :: after ∧
        WellNamed passed ∧ NameFault name passed p e) := by
  rw [build, ← fillIndex_eq_error_iff]
  split
  · next blank => simp [blank, eq_comm]
  · next filled =>
    have filled : Text.isBlank name = false := by simpa using filled
    cases fillIndex name 0 [] (inherited base ++ own) <;> simp [filled, Except.map]

/-- What was built has an index of all its properties. -/
theorem wellNamed_indexes_of_build {s : Schema} (h : build id name base own = .ok s) :
    WellNamed s.properties ∧ Indexes s.index s.properties := by
  obtain ⟨-, index, filled, rfl⟩ := build_eq_ok_iff.1 h
  exact wellNamed_indexes_of_fillIndex filled

/-! ## Positions -/

section

variable {s t : Schema} (indexed : Indexes s.index s.properties)

include indexed

/-- Names stand at the positions that the index has for them. -/
theorem position?_eq_some_iff {n : String} {i : Nat} :
    s.position? n = some i ↔ ∃ p, s.properties[i]? = some p ∧ p.name = n := indexed n i

/-- The property of a name is the one at its position. -/
theorem property?_eq_some_iff {n : String} {p : Property} :
    s.property? n = some p ↔ p ∈ s.properties ∧ p.name = n := by
  rw [property?, Option.bind_eq_some_iff]
  constructor
  · rintro ⟨i, found, at_i⟩
    obtain ⟨q, at_i', name⟩ := (indexed n i).1 found
    cases at_i.symm.trans at_i'
    exact ⟨List.mem_of_getElem? at_i, name⟩
  · rintro ⟨mem, name⟩
    obtain ⟨i, at_i⟩ := List.mem_iff_getElem?.1 mem
    exact ⟨i, (indexed n i).2 ⟨p, at_i, name⟩, at_i⟩

theorem position?_append (indexed' : Indexes t.index t.properties) {own : List Property}
    (h : s.properties = t.properties ++ own) {n : String} {i : Nat} (there : t.position? n = some i) :
    s.position? n = some i ∧ ∃ p, t.properties[i]? = some p ∧ s.properties[i]? = some p := by
  obtain ⟨p, at_i, name⟩ := (position?_eq_some_iff indexed').1 there
  have at_i' : s.properties[i]? = some p := by
    rw [h, List.getElem?_append_left (List.getElem?_eq_some_iff.1 at_i).1, at_i]
  exact ⟨(position?_eq_some_iff indexed).2 ⟨p, at_i', name⟩, p, at_i, at_i'⟩

theorem property?_append (indexed' : Indexes t.index t.properties) {own : List Property}
    (h : s.properties = t.properties ++ own) {n : String} {p : Property}
    (there : t.property? n = some p) : s.property? n = some p := by
  obtain ⟨mem, name⟩ := (property?_eq_some_iff indexed').1 there
  exact (property?_eq_some_iff indexed).2 ⟨h ▸ List.mem_append_left _ mem, name⟩

end

end SettingsForge.Schema
