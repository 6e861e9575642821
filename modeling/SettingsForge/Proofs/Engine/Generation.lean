import SettingsForge.Proofs.Engine.Requests
import SettingsForge.Proofs.Lists

set_option autoImplicit false

/-! # Engines fail with generation errors only

`FailsAs` says of an answer on which side its error is, if it is one: errors of the generation of
schemas are kept apart from those of the use of instances. Whatever a resolution fails with is a
generation error (`Initializer.failsAs_resolve`, `Resolution.inGeneration_ofNested`), so all that an
engine answers and caches is (`Engine.failsAs_factory`). -/

namespace SettingsForge

open SettingsError (isGeneration)

/-- The error, if there is one, is on the side of these errors. -/
def FailsAs (side : SettingsError → Bool) {α : Type} (answer : Except SettingsError α) : Prop :=
  ∀ e, answer = .error e → side e = true

section

variable {side : SettingsError → Bool} {α β : Type}

@[simp] theorem failsAs_ok (a : α) : FailsAs side (.ok a : Except SettingsError α) :=
  fun _ h => by cases h

@[simp] theorem failsAs_error {e : SettingsError} :
    FailsAs side (.error e : Except SettingsError α) ↔ side e = true :=
  ⟨fun h => h e rfl, fun h e' same => by cases same; exact h⟩

@[simp] theorem failsAs_map {answer : Except SettingsError α} {f : α → β} :
    FailsAs side (answer.map f) ↔ FailsAs side answer := by
  cases answer <;> simp [Except.map]

theorem failsAs_mapM {f : α → Except SettingsError β} {items : List α}
    (h : ∀ a ∈ items, FailsAs side (f a)) : FailsAs side (items.mapM f) := by
  intro e failed
  obtain ⟨a, mem, own⟩ := exists_of_mapM_eq_error failed
  exact h a mem e own

end

/-! ## Initializers -/

namespace Initializer

theorem failsAs_ofConstructor (type : ValueType) (typeName : String) (args : List Value)
    (catalog : Catalog) : FailsAs isGeneration (ofConstructor type typeName args catalog) := by
  unfold ofConstructor
  dsimp only
  repeat' split
  all_goals simp [isGeneration]

theorem failsAs_ofStatic (type : ValueType) (typeName method : String) (args : List Value)
    (catalog : Catalog) : FailsAs isGeneration (ofStatic type typeName method args catalog) := by
  unfold ofStatic
  dsimp only
  repeat' split
  all_goals simp [isGeneration]

theorem failsAs_ofStrategy (schema property : String) (type : ValueType) (catalog : Catalog)
    (strategy : DefaultStrategy) :
    FailsAs isGeneration (ofStrategy schema property type catalog strategy) := by
  cases strategy with
  | constant value =>
      simp only [ofStrategy]
      split <;> simp [isGeneration]
  | construct typeName args => exact failsAs_ofConstructor type typeName args catalog
  | staticCall typeName method args => exact failsAs_ofStatic type typeName method args catalog

theorem failsAs_declared? (schema : String) (p : Property) :
    FailsAs isGeneration (declared? schema p) := by
  unfold declared?
  repeat' split
  all_goals simp [isGeneration]

theorem failsAs_resolve (schema : String) (p : Property) (catalog : Catalog) :
    FailsAs isGeneration (resolve schema p catalog) := by
  have declared := failsAs_declared? schema p
  unfold resolve
  split
  · next e failed => exact failsAs_error.2 (declared e failed)
  · exact failsAs_ok _
  · next type strategy _ => exact failsAs_ofStrategy schema p.name type catalog strategy

theorem failsAs_resolveAll (schema : String) (catalog : Catalog) (properties : List Property) :
    FailsAs isGeneration (resolveAll schema catalog properties) := by
  induction properties with
  | nil => exact failsAs_ok _
  | cons p properties ih =>
      rw [resolveAll]
      split
      · next e failed => exact failsAs_error.2 (failsAs_resolve schema p catalog e failed)
      · exact failsAs_map.2 ih

end Initializer

/-! ## Resolutions -/

/-- Whatever rules out instances, of all kinds or of those that announce changes, is a generation
    error. -/
structure Resolution.InGeneration (r : Resolution) : Prop where
  blueprint : FailsAs isGeneration r.blueprint
  observable : ∀ e ∈ r.observable, e.isGeneration = true

theorem Resolution.InGeneration.blueprintFor {r : Resolution} (h : r.InGeneration) (kind : Kind) :
    FailsAs isGeneration (r.blueprintFor kind) := by
  unfold Resolution.blueprintFor
  split
  · next e failed => exact failsAs_error.2 (h.blueprint e failed)
  · exact failsAs_ok _
  · next e _ missing =>
    split
    · exact failsAs_error.2 (h.observable e missing)
    · exact failsAs_ok _

theorem Schema.isGeneration_of_missingEquality? {s : Schema} {e : SettingsError}
    (h : s.missingEquality? = some e) : e.isGeneration = true := by
  obtain ⟨p, -, found⟩ := List.exists_of_findSome?_eq_some h
  simp only [Option.bind_eq_some_iff, Option.map_eq_some_iff] at found
  obtain ⟨type, -, o, -, rfl⟩ := found
  rfl

theorem Blueprint.failsAs_assemble {properties : List Property} {initializers : List Initializer}
    {nested : List Resolution} (h : ∀ r ∈ nested, r.InGeneration) :
    FailsAs isGeneration (assemble properties initializers nested) := by
  fun_induction assemble properties initializers nested with
  | case1 name type defaults properties initializer initializers nested ih =>
      exact failsAs_map.2 (ih h)
  | case2 name schema defaults properties initializer initializers r nested e failed =>
      exact failsAs_error.2 ((h r (List.mem_cons_self ..)).blueprint e failed)
  | case3 name schema defaults properties initializer initializers r nested b made ih =>
      exact failsAs_map.2 (ih fun r hr => h r (List.mem_cons_of_mem _ hr))
  | case4 => exact failsAs_ok _

/-- A schema fails with errors of its own or of the schemas that it nests. -/
theorem Resolution.inGeneration_ofNested (catalog : Catalog) (s : Schema) {nested : List Resolution}
    (h : ∀ r ∈ nested, r.InGeneration) : (ofNested catalog s nested).InGeneration := by
  unfold ofNested
  constructor
  · dsimp only
    split
    · next e failed => exact failsAs_error.2 (Initializer.failsAs_resolveAll _ _ _ e failed)
    · exact failsAs_map.2 (Blueprint.failsAs_assemble h)
  · dsimp only
    split
    · next missing =>
      rintro _ ⟨⟩
      exact Schema.isGeneration_of_missingEquality? missing
    · intro e found
      obtain ⟨r, mem, failed⟩ := List.exists_of_findSome?_eq_some found
      exact (h r mem).observable e failed

/-- What is found in a cache is in it. -/
theorem mem_of_lookup_eq_some {cache : ResolutionCache} {serial : SchemaId} {r : Resolution}
    (h : cache.lookup serial = some r) : (serial, r) ∈ cache := by
  obtain ⟨first, rest, rfl, -⟩ := List.lookup_eq_some_iff.1 h
  simp

namespace Engine

mutual

/-- Resolving a schema brings generation errors only, if the cache holds no others. -/
theorem inGeneration_resolveSchema (catalog : Catalog) : (s : Schema) → {cache : ResolutionCache} →
    (∀ entry ∈ cache, entry.2.InGeneration) →
    (resolveSchema catalog s cache).outcome.InGeneration ∧
      ∀ entry ∈ (resolveSchema catalog s cache).cache, entry.2.InGeneration
  | .mk serial name base properties index, cache, h => by
    rw [resolveSchema]
    split
    · next known found => exact ⟨h _ (mem_of_lookup_eq_some found), h⟩
    · obtain ⟨outcomes, after⟩ := inGeneration_resolveNested catalog properties h
      have own := Resolution.inGeneration_ofNested catalog (.mk serial name base properties index) outcomes
      exact ⟨own, List.forall_mem_cons.2 ⟨own, after⟩⟩

/-- So does resolving what properties nest. -/
theorem inGeneration_resolveNested (catalog : Catalog) : (properties : List (PropertyOf Schema)) →
    {cache : ResolutionCache} → (∀ entry ∈ cache, entry.2.InGeneration) →
    (∀ r ∈ (resolveNested catalog properties cache).outcome, r.InGeneration) ∧
      ∀ entry ∈ (resolveNested catalog properties cache).cache, entry.2.InGeneration
  | [], cache, h => ⟨by simp [resolveNested], h⟩
  | ⟨_, .value _, _⟩ :: properties, cache, h => by
    rw [resolveNested]
    exact inGeneration_resolveNested catalog properties h
  | ⟨_, .dict schema, _⟩ :: properties, cache, h => by
    rw [resolveNested]
    obtain ⟨first, between⟩ := inGeneration_resolveSchema catalog schema h
    obtain ⟨rest, after⟩ := inGeneration_resolveNested catalog properties between
    exact ⟨List.forall_mem_cons.2 ⟨first, rest⟩, after⟩

end

/-! ## Requests -/

/-- An engine that has cached generation errors only answers with such errors. -/
theorem failsAs_factory {engine : Engine} (h : ∀ entry ∈ engine.cache, entry.2.InGeneration)
    (s : Schema) (kind : Kind) : FailsAs isGeneration (engine.factory s kind).answer := by
  have own : (engine.resolution s).1.InGeneration := by
    unfold resolution
    split
    · next known found => exact h _ (mem_of_lookup_eq_some found)
    · exact (inGeneration_resolveSchema engine.catalog s h).1
  exact failsAs_map.2 (own.blueprintFor kind)

theorem failsAs_typeOf {engine : Engine} (h : ∀ entry ∈ engine.cache, entry.2.InGeneration)
    (s : Schema) (kind : Kind) : FailsAs isGeneration (engine.typeOf s kind).answer :=
  failsAs_map.2 (failsAs_factory h s kind)

/-- What engines hold are generation errors. -/
theorem Holds.inGeneration {known : Schema → Prop} (identified : Schema.Identified known)
    {serial : EngineId} {catalog : Catalog} {schemas : List Schema} {engine : Engine}
    (holds : Holds known serial catalog schemas engine) :
    ∀ entry ∈ engine.cache, entry.2.InGeneration := by
  rw [holds.engine_eq]
  intro entry mem
  obtain ⟨s, hs, rfl⟩ := List.mem_map.1 mem
  -- the schema's own resolution is what an empty cache gives
  obtain ⟨same, -⟩ := resolveSchema_spec identified catalog s (holds.complete.known s hs) (.nil known)
  have none : ∀ entry ∈ cacheOf catalog [], entry.2.InGeneration := fun _ mem => by cases mem
  have own := (inGeneration_resolveSchema catalog s none).1
  exact same ▸ own

end Engine

end SettingsForge
