import SettingsForge.Proofs.Engine.Resolving
import SettingsForge.Proofs.Lists

set_option autoImplicit false

/-! # What rules a schema out

A fault of a property rules out its schema and every schema that nests it. Which error stands for all
of them is fixed: that of the schema's own first faulty property, or else that of the first nested
schema with a fault (`Schema.FirstFault`). There are two kinds of faults, a default that cannot be
resolved (`Schema.Unresolved`) and a type without equality (`Schema.Incomparable`), and the two halves of
a resolution are the errors for these (`Schema.failure?_resolve_iff`, `Schema.observable_resolve_iff`). -/

namespace SettingsForge

/-- The first type is the object type, or a list of such, at any depth. -/
inductive ValueType.Mentions : ValueType → ObjectType → Prop
  | self (o : ObjectType) : Mentions (.object o) o
  | item {item : ValueType} {o : ObjectType} : Mentions item o → Mentions (.list item) o

theorem ValueType.missingEquality?_eq_some_iff {o : ObjectType} : {type : ValueType} →
    (type.missingEquality? = some o ↔ type.Mentions o ∧ o.hasEquality = false)
  | .object own => by
    rw [missingEquality?]
    constructor
    · intro h
      split at h
      · cases h
      · next without =>
        cases h
        exact ⟨.self o, by simpa using without⟩
    · rintro ⟨⟨⟩, without⟩
      rw [if_neg (by simp [without])]
  | .list item => by
    rw [missingEquality?, missingEquality?_eq_some_iff]
    refine and_congr_left' ⟨.item, fun mentions => ?_⟩
    cases mentions with
    | item h => exact h
  | .bool | .int | .float | .str | .enum _ => by
    simp only [missingEquality?, reduceCtorEq, false_iff]
    rintro ⟨⟨⟩, -⟩

namespace Schema

/-! ## Faults -/

/-- The errors that a property of a schema may be. -/
abbrev Fault := Schema → Property → SettingsError → Prop

/-- The property's default cannot be resolved with the catalog. -/
def Unresolved (catalog : Catalog) : Fault := fun s p e =>
  Initializer.resolve s.name p catalog = .error e

/-- The property's type mentions an object type whose values cannot be compared. -/
def Incomparable : Fault := fun s p e =>
  ∃ type o, p.type = .value type ∧ type.Mentions o ∧ o.hasEquality = false ∧
    e = .missingEquality s.name p.name o.name

/-- No property of the schema has a fault, nor has one of a schema nested in it at any depth. -/
def Faultless (fault : Fault) (s : Schema) : Prop :=
  ∀ t, Reaches s t → ∀ p ∈ t.properties, ∀ e, ¬ fault t p e

/-- The error that stands for all faults of a schema and of what it nests. -/
inductive FirstFault (fault : Fault) : Schema → SettingsError → Prop
  /-- The schema's own first faulty property comes before all that is nested. -/
  | own {s : Schema} {before after : List Property} {p : Property} {e : SettingsError} :
      s.properties = before ++ p :: after → (∀ q ∈ before, ∀ e, ¬ fault s q e) → fault s p e →
      FirstFault fault s e
  /-- Otherwise it is the error of the first dictionary's schema that has one. -/
  | nested {s t : Schema} {before after : List Schema} {e : SettingsError} :
      (∀ p ∈ s.properties, ∀ e, ¬ fault s p e) → s.nested = before ++ t :: after →
      (∀ u ∈ before, Faultless fault u) → FirstFault fault t e → FirstFault fault s e

variable {fault : Fault} {s : Schema}

theorem faultless_iff :
    s.Faultless fault ↔
      (∀ p ∈ s.properties, ∀ e, ¬ fault s p e) ∧ ∀ t ∈ s.nested, t.Faultless fault := by
  constructor
  · intro h
    exact ⟨h s (.refl s), fun t nested u reaches => h u (.step nested reaches)⟩
  · rintro ⟨own, inside⟩ t reaches
    rcases reaches_iff.1 reaches with rfl | ⟨u, nested, reaches⟩
    · exact own
    · exact inside u nested t reaches

/-- Two kinds of faults that are the same in a schema and in what it nests have the same error stand
    for them. -/
theorem FirstFault.congr {other : Fault} {e : SettingsError} (h : s.FirstFault fault e)
    (same : ∀ t, Reaches s t → ∀ p ∈ t.properties, ∀ e, fault t p e ↔ other t p e) :
    s.FirstFault other e := by
  induction h with
  | @own s before after p e split earlier at_p =>
      have own := same s (.refl s)
      rw [split] at own
      exact .own split (fun q mem e at_q => earlier q mem e ((own q (by simp [mem]) e).2 at_q))
        ((own p (by simp) e).1 at_p)
  | @nested s t before after e none split earlier _ ih =>
      -- what a nested schema reaches, its owner reaches
      have inside : ∀ u ∈ before ++ t :: after, ∀ v, Reaches u v → Reaches s v :=
        fun u mem v reaches => .step (split ▸ mem) reaches
      refine .nested (fun p mem e at_p => none p mem e ((same s (.refl s) p mem e).2 at_p)) split
        (fun u mem v reaches p hp e at_p => ?_)
        (ih fun v reaches => same v (inside t (by simp) v reaches))
      exact earlier u mem v reaches p hp e
        ((same v (inside u (by simp [mem]) v reaches) p hp e).2 at_p)

theorem FirstFault.not_faultless {e : SettingsError} (h : s.FirstFault fault e) :
    ¬ s.Faultless fault := by
  induction h with
  | @own s _ _ p e split _ at_p =>
      intro faultless
      exact faultless s (.refl s) p (split ▸ by simp) e at_p
  | @nested s t _ _ _ _ split _ _ ih =>
      intro faultless
      exact ih ((faultless_iff.1 faultless).2 t (split ▸ by simp))

/-- A schema has no fault of two kinds if it has none of either kind. -/
theorem faultless_and_iff {first second : Fault}
    (either : ∀ s p, (∃ e, fault s p e) ↔ (∃ e, first s p e) ∨ ∃ e, second s p e) :
    s.Faultless fault ↔ s.Faultless first ∧ s.Faultless second := by
  have none_iff : ∀ s p, (∀ e, ¬ fault s p e) ↔ (∀ e, ¬ first s p e) ∧ ∀ e, ¬ second s p e :=
    fun s p => by simp only [← not_exists, either, not_or]
  constructor
  · intro h
    exact ⟨fun t reaches p mem => ((none_iff t p).1 (h t reaches p mem)).1,
      fun t reaches p mem => ((none_iff t p).1 (h t reaches p mem)).2⟩
  · rintro ⟨h, h'⟩ t reaches p mem
    exact (none_iff t p).2 ⟨h t reaches p mem, h' t reaches p mem⟩

/-- What looks for a schema's own first fault, and then through the nested schemas in order, finds the
    error that stands for all faults, and nothing if and only if there are none. -/
theorem firstFault_iff (fault : Fault) {fault? : Schema → Property → Option SettingsError}
    {search : Schema → Option SettingsError} (found : ∀ s p e, fault? s p = some e ↔ fault s p e)
    (search_eq : ∀ s, search s = (s.properties.findSome? (fault? s)).or (s.nested.findSome? search))
    (s : Schema) :
    (∀ e, search s = some e ↔ s.FirstFault fault e) ∧ (search s = none ↔ s.Faultless fault) := by
  have none_iff : ∀ {s p}, fault? s p = none ↔ ∀ e, ¬ fault s p e := fun {s p} => by
    simp only [Option.eq_none_iff_forall_ne_some, ne_eq, found]
  have own_none : s.properties.findSome? (fault? s) = none ↔
      ∀ p ∈ s.properties, ∀ e, ¬ fault s p e := by
    simp only [List.findSome?_eq_none_iff, none_iff]
  have inside : ∀ t ∈ s.nested,
      (∀ e, search t = some e ↔ t.FirstFault fault e) ∧ (search t = none ↔ t.Faultless fault) :=
    fun t nested => firstFault_iff fault found search_eq t
  refine ⟨fun e => ?error, ?none⟩
  case none =>
    rw [search_eq, Option.or_eq_none_iff, own_none, List.findSome?_eq_none_iff, faultless_iff]
    exact and_congr_right' (forall₂_congr fun t nested => (inside t nested).2)
  case error =>
    rw [search_eq, Option.or_eq_some_iff, own_none]
    constructor
    · rintro (own | ⟨none, nested⟩)
      · obtain ⟨before, p, after, split, at_p, earlier⟩ := List.findSome?_eq_some_iff.1 own
        exact .own split (fun q mem => none_iff.1 (earlier q mem)) ((found s p e).1 at_p)
      · obtain ⟨before, t, after, split, at_t, earlier⟩ := List.findSome?_eq_some_iff.1 nested
        have mem : ∀ u ∈ before ++ t :: after, u ∈ s.nested := fun u mem => split ▸ mem
        refine .nested none split (fun u hu => ?_) (((inside t (mem t (by simp))).1 e).1 at_t)
        exact (inside u (mem u (List.mem_append_left _ hu))).2.1 (earlier u hu)
    · rintro (⟨split, earlier, at_p⟩ | ⟨none, split, earlier, at_t⟩)
      · exact Or.inl (List.findSome?_eq_some_iff.2 ⟨_, _, _, split, (found ..).2 at_p,
          fun q mem => none_iff.2 (earlier q mem)⟩)
      · have mem : ∀ u ∈ _, u ∈ s.nested := fun u mem => split ▸ mem
        refine Or.inr ⟨none, List.findSome?_eq_some_iff.2 ⟨_, _, _, split, ?_, fun u hu => ?_⟩⟩
        · exact ((inside _ (mem _ (by simp))).1 e).2 at_t
        · exact (inside u (mem u (List.mem_append_left _ hu))).2.2 (earlier u hu)
termination_by sizeOf s
decreasing_by exact sizeOf_lt_of_mem_nested ‹_›

end Schema

/-! ## Resolutions -/

/-- The error of an answer, if it is one. -/
def failure? {α : Type} : Except SettingsError α → Option SettingsError
  | .error e => some e
  | .ok _ => none

@[simp] theorem failure?_eq_some_iff {α : Type} {answer : Except SettingsError α}
    {e : SettingsError} : failure? answer = some e ↔ answer = .error e := by
  cases answer <;> simp [failure?]

@[simp] theorem failure?_map {α β : Type} (f : α → β) (answer : Except SettingsError α) :
    failure? (answer.map f) = failure? answer := by
  cases answer <;> rfl

theorem failure?_eq_none_iff {α : Type} {answer : Except SettingsError α} :
    failure? answer = none ↔ ∃ a, answer = .ok a := by
  cases answer <;> simp [failure?]

theorem Initializer.failure?_resolveAll (schema : String) (catalog : Catalog)
    (properties : List Property) :
    failure? (resolveAll schema catalog properties) =
      properties.findSome? fun p => failure? (resolve schema p catalog) := by
  induction properties with
  | nil => rfl
  | cons p properties ih =>
      rw [resolveAll, List.findSome?_cons]
      cases resolve schema p catalog with
      | error e => rfl
      | ok initializer => rw [← ih, failure?_map, failure?]

/-- With an initializer for each property, only nested schemas can fail. -/
theorem Blueprint.failure?_assemble {schema : String} {catalog : Catalog}
    {properties : List Property} {initializers : List Initializer}
    (resolved : Initializer.resolveAll schema catalog properties = .ok initializers) :
    failure? (assemble properties initializers (Schema.resolveAll catalog properties)) =
      (Schema.resolveAll catalog properties).findSome? fun r => failure? r.blueprint := by
  induction properties generalizing initializers with
  | nil => rfl
  | cons p properties ih =>
      rw [Initializer.resolveAll] at resolved
      split at resolved
      · cases resolved
      · next initializer _ =>
        obtain ⟨others, rest, rfl⟩ := exists_of_map_eq_ok resolved
        obtain ⟨name, type, defaults⟩ := p
        cases type with
        | value type => rw [Schema.resolveAll, assemble, failure?_map, ih rest]
        | dict nested =>
            rw [Schema.resolveAll, assemble, List.findSome?_cons]
            cases (nested.resolve catalog).blueprint with
            | error e => rfl
            | ok b =>
                dsimp only
                rw [failure?_map, ih rest, failure?]

namespace Schema

variable {s : Schema}

/-- A schema has no blueprint because of its own first property that is not resolved, or else because
    of the first nested schema that has none. -/
theorem failure?_resolve (catalog : Catalog) (s : Schema) :
    failure? (s.resolve catalog).blueprint =
      (s.properties.findSome? fun p => failure? (Initializer.resolve s.name p catalog)).or
        (s.nested.findSome? fun t => failure? (t.resolve catalog).blueprint) := by
  obtain ⟨serial, name, base, properties⟩ := s
  rw [resolve, Resolution.ofNested]
  dsimp only [Schema.name, Schema.properties]
  rw [← Initializer.failure?_resolveAll]
  split
  · next e failed => rw [failed]; rfl
  · next initializers resolved =>
    rw [failure?_map, Blueprint.failure?_assemble resolved, resolved,
      resolveAll_eq_map catalog serial name base, List.findSome?_map]
    rfl

theorem observable_resolve (catalog : Catalog) (s : Schema) :
    (s.resolve catalog).observable =
      s.missingEquality?.or (s.nested.findSome? fun t => (t.resolve catalog).observable) := by
  rw [resolve_eq_ofNested, Resolution.ofNested]
  dsimp only
  rw [List.findSome?_map]
  cases s.missingEquality? <;> rfl

/-- A schema has no blueprint if and only if a default in it or below cannot be resolved, and its error
    is the one that stands for all of these. -/
theorem failure?_resolve_iff (catalog : Catalog) (s : Schema) :
    (∀ e, (s.resolve catalog).blueprint = .error e ↔ s.FirstFault (Unresolved catalog) e) ∧
      ((∃ b, (s.resolve catalog).blueprint = .ok b) ↔ s.Faultless (Unresolved catalog)) := by
  have search := firstFault_iff (Unresolved catalog)
    (fun s p e => failure?_eq_some_iff) (failure?_resolve catalog) s
  simpa only [failure?_eq_some_iff, failure?_eq_none_iff] using search

/-- Likewise for the kinds that announce changes and for types without equality. -/
theorem observable_resolve_iff (catalog : Catalog) (s : Schema) :
    (∀ e, (s.resolve catalog).observable = some e ↔ s.FirstFault Incomparable e) ∧
      ((s.resolve catalog).observable = none ↔ s.Faultless Incomparable) := by
  refine firstFault_iff Incomparable (fun s p e => ?_) (observable_resolve catalog) s
  obtain ⟨name, type, defaults⟩ := p
  cases type with
  | dict nested => simp [PropertyTypeOf.valueType?, Incomparable]
  | value type =>
      simp only [PropertyTypeOf.valueType?, Option.bind_some, Option.map_eq_some_iff,
        ValueType.missingEquality?_eq_some_iff, Incomparable, PropertyTypeOf.value.injEq]
      constructor
      · rintro ⟨o, ⟨mentions, without⟩, rfl⟩
        exact ⟨type, o, rfl, mentions, without, rfl⟩
      · rintro ⟨_, o, rfl, mentions, without, rfl⟩
        exact ⟨o, ⟨mentions, without⟩, rfl⟩

end Schema

end SettingsForge
