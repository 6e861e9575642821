import SettingsForge.Proofs.Settings.Conformance
import SettingsForge.Proofs.Engine.Generation

set_option autoImplicit false

/-! # What an engine makes it can make again

An engine that has once given a factory for a kind of a schema serves it (`Engine.Serves`): the outcome
is cached and is a blueprint for that kind. It then serves all that the schema nests as well, and goes
on doing so while it learns other schemas (`Engine.Learns`). Asked again, it answers from its cache, and
learns and writes down nothing (`Engine.Serves.reply`). -/

namespace SettingsForge

open Schema

theorem Resolution.blueprintFor_eq_ok {r : Resolution} {kind : Kind} {blueprint : Blueprint} :
    r.blueprintFor kind = .ok blueprint ↔
      r.blueprint = .ok blueprint ∧ (kind.isObservable = true → r.observable = none) := by
  unfold Resolution.blueprintFor
  cases r.blueprint <;> cases r.observable <;> by_cases observable : kind.isObservable = true <;>
    simp [observable]

/-- A schema that announces changes nests only such schemas. -/
theorem Schema.observable_of_nested {catalog : Catalog} {s t : Schema}
    (h : (s.resolve catalog).observable = none) (nested : t ∈ s.nested) :
    (t.resolve catalog).observable = none := by
  rw [resolve_eq_ofNested] at h
  unfold Resolution.ofNested at h
  dsimp only at h
  split at h
  · cases h
  · exact List.findSome?_eq_none_iff.1 h _ (List.mem_map_of_mem nested)

/-- A schema with a blueprint nests only such schemas. -/
theorem Schema.blueprint_of_nested {catalog : Catalog} {s t : Schema} {blueprint : Blueprint}
    (h : (s.resolve catalog).blueprint = .ok blueprint) (nested : t ∈ s.nested) :
    ∃ inner, (t.resolve catalog).blueprint = .ok inner := by
  obtain ⟨-, plans⟩ := Blueprint.plans_of_resolve h
  obtain ⟨p, mem, hp⟩ := List.mem_filterMap.1 nested
  obtain ⟨plan, -, fits⟩ := exists_right_of_forall₂ plans mem
  cases fits with
  | value => cases hp
  | entries resolved =>
      cases hp
      exact ⟨_, resolved⟩

namespace Engine

variable {known : Schema → Prop} {engine later : Engine} {s t : Schema} {kind : Kind}

/-! ## Learning -/

/-- The later engine is the same one, with all that was cached. -/
structure Learns (engine later : Engine) : Prop where
  serial : later.serial = engine.serial
  catalog : later.catalog = engine.catalog
  kept : ∀ id r, engine.cache.lookup id = some r → later.cache.lookup id = some r

theorem Learns.refl (engine : Engine) : Learns engine engine := ⟨rfl, rfl, fun _ _ h => h⟩

mutual

/-- Resolving a schema replaces nothing in the cache. -/
theorem kept_resolveSchema (catalog : Catalog) {serial : SchemaId} {r : Resolution} :
    (s : Schema) → {cache : ResolutionCache} → cache.lookup serial = some r →
    (resolveSchema catalog s cache).cache.lookup serial = some r
  | .mk own name base properties index, cache, h => by
    rw [resolveSchema]
    split
    · exact h
    · next missing =>
      have after := kept_resolveNested catalog properties h
      -- the schema comes in under an identity that was free
      have differ : serial ≠ own := by
        rintro rfl
        rw [missing] at h
        cases h
      dsimp only
      rw [List.lookup_cons, beq_false_of_ne differ]
      exact after

/-- So does resolving what properties nest. -/
theorem kept_resolveNested (catalog : Catalog) {serial : SchemaId} {r : Resolution} :
    (properties : List (PropertyOf Schema)) → {cache : ResolutionCache} →
    cache.lookup serial = some r →
    (resolveNested catalog properties cache).cache.lookup serial = some r
  | [], cache, h => h
  | ⟨_, .value _, _⟩ :: properties, cache, h => by
    rw [resolveNested]
    exact kept_resolveNested catalog properties h
  | ⟨_, .dict schema, _⟩ :: properties, cache, h => by
    rw [resolveNested]
    exact kept_resolveNested catalog properties (kept_resolveSchema catalog schema h)

end

theorem learns_factory (engine : Engine) (s : Schema) (kind : Kind) :
    Learns engine (engine.factory s kind).engine := by
  show Learns engine (engine.resolution s).2.1
  unfold resolution
  split
  · exact .refl engine
  · exact ⟨rfl, rfl, fun id r h => kept_resolveSchema engine.catalog s h⟩

/-! ## Serving -/

/-- The engine has cached that it makes instances of the kind of the schema. -/
structure Serves (known : Schema → Prop) (engine : Engine) (s : Schema) (kind : Kind) : Prop where
  known : known s
  cached : engine.cache.lookup s.id = some (s.resolve engine.catalog)
  available : ∃ blueprint, (s.resolve engine.catalog).blueprintFor kind = .ok blueprint

theorem Serves.mono (h : Serves known engine s kind) {wider : Schema → Prop}
    (sub : ∀ s, known s → wider s) : Serves wider engine s kind :=
  { h with known := sub s h.known }

theorem Serves.learns (h : Serves known engine s kind) (learns : Learns engine later) :
    Serves known later s kind where
  known := h.known
  cached := by
    rw [learns.catalog]
    exact learns.kept _ _ h.cached
  available := by
    rw [learns.catalog]
    exact h.available

/-- The engine answers at once, with the schema's own blueprint. -/
theorem Serves.reply (h : Serves known engine s kind) {blueprint : Blueprint}
    (made : (s.resolve engine.catalog).blueprint = .ok blueprint) :
    engine.factory s kind = ⟨.ok ⟨engine.serial, blueprint, kind⟩, engine, []⟩ := by
  obtain ⟨own, available⟩ := h.available
  obtain ⟨same, observable⟩ := Resolution.blueprintFor_eq_ok.1 available
  have answer := Resolution.blueprintFor_eq_ok.2 ⟨made, observable⟩
  rw [factory_of_cached h.cached, answer]
  rfl

/-- An engine serves what is nested in a schema that it serves. -/
theorem Serves.nested {schemas : List Schema} (identified : Identified known)
    (holds : Holds known engine.serial engine.catalog schemas engine) (h : Serves known engine s kind)
    (nested : t ∈ s.nested) : Serves known engine t kind := by
  obtain ⟨blueprint, available⟩ := h.available
  obtain ⟨made, observable⟩ := Resolution.blueprintFor_eq_ok.1 available
  obtain ⟨inner, made_inner⟩ := blueprint_of_nested made nested
  -- the cache has with a schema all that it nests
  have cached := h.cached
  rw [holds.engine_eq] at cached
  have mem := mem_of_lookup_cacheOf identified holds.complete.known h.known (by rw [cached]; rfl)
  refine ⟨identified.nested h.known nested, ?_, inner, Resolution.blueprintFor_eq_ok.2
    ⟨made_inner, fun announces => observable_of_nested (observable announces) nested⟩⟩
  rw [holds.engine_eq]
  exact lookup_cacheOf_of_mem identified engine.catalog holds.complete.known
    (holds.complete.nested s mem t nested)

theorem Serves.reaches {schemas : List Schema} (identified : Identified known)
    (holds : Holds known engine.serial engine.catalog schemas engine) (h : Serves known engine s kind)
    (reaches : Reaches s t) : Serves known engine t kind := by
  induction reaches with
  | refl => exact h
  | step nested _ ih => exact ih (h.nested identified holds nested)

/-- An engine serves what it gave a factory for. -/
theorem serves_of_factory {schemas : List Schema} (identified : Identified known)
    (holds : Holds known engine.serial engine.catalog schemas engine) (hs : known s) {factory : Factory}
    (answer : (engine.factory s kind).answer = .ok factory) :
    factory.engine = engine.serial ∧ factory.kind = kind ∧
      (s.resolve engine.catalog).blueprint = .ok factory.blueprint ∧
      Serves known (engine.factory s kind).engine s kind := by
  obtain ⟨-, added, after, -, mem, -⟩ := resolution_spec identified holds hs
  have cached := lookup_cacheOf_of_mem identified engine.catalog after.complete.known mem
  have engine_eq : (engine.factory s kind).engine = _ := after.engine_eq
  rw [answer_factory identified holds hs] at answer
  cases found : (s.resolve engine.catalog).blueprintFor kind with
  | error e =>
      rw [found] at answer
      cases answer
  | ok blueprint =>
      rw [found] at answer
      cases answer
      refine ⟨rfl, rfl, (Resolution.blueprintFor_eq_ok.1 found).1, ?_⟩
      rw [engine_eq]
      exact ⟨hs, cached, blueprint, found⟩

end Engine

end SettingsForge
