import SettingsForge.Blueprint
import SettingsForge.Shape

set_option autoImplicit false

/-! # The engine

An engine resolves schemas against its type catalog, each once: the outcome, a blueprint or an error,
is kept under the schema's identity and never replaced. A schema is resolved together with all
schemas that its dictionaries nest. -/

namespace SettingsForge

/-- Outcomes by schema. -/
abbrev ResolutionCache := List (SchemaId × Resolution)

/-- An engine, by its place among the engines of a workspace. -/
abbrev EngineId := Nat

structure Engine where
  serial : EngineId := 0
  catalog : Catalog
  cache : ResolutionCache := []

namespace Engine

/-! ## Resolving -/

/-- An outcome with the cache after it and what was written down. -/
structure Resolved (α : Type) where
  outcome : α
  cache : ResolutionCache
  journal : List JournalEntry

mutual

/-- Resolve a schema that the cache may hold already, nested schemas first. -/
def resolveSchema (catalog : Catalog) : Schema → ResolutionCache → Resolved Resolution
  | .mk id name base properties index, cache =>
    match cache.lookup id with
    | some known => ⟨known, cache, []⟩
    | none =>
      let nested := resolveNested catalog properties cache
      let schema := Schema.mk id name base properties index
      let resolution := Resolution.ofNested catalog schema nested.outcome
      ⟨resolution, (id, resolution) :: nested.cache,
        nested.journal ++ Initializer.journalOfAll name catalog properties ++
          [.schemaResolved name resolution.blueprint.isOk]⟩

/-- Resolve the schemas nested in properties, in order. -/
def resolveNested (catalog : Catalog) :
    List (PropertyOf Schema) → ResolutionCache → Resolved (List Resolution)
  | [], cache => ⟨[], cache, []⟩
  | ⟨_, .value _, _⟩ :: properties, cache => resolveNested catalog properties cache
  | ⟨_, .dict schema, _⟩ :: properties, cache =>
    let first := resolveSchema catalog schema cache
    let rest := resolveNested catalog properties first.cache
    ⟨first.outcome :: rest.outcome, rest.cache, first.journal ++ rest.journal⟩

end

/-- What the end of a synthesis writes down. -/
def synthesisEnd (schema : Schema) (resolution : Resolution) (resolvedCount : Nat) :
    List JournalEntry :=
  match resolution.blueprint with
  | .error e => [.failed .synthesize schema.name e]
  | .ok _ =>
    (match resolution.observable with
      | some e => [.observableUnavailable schema.name e]
      | none => []) ++
      [.synthesisEnded schema.name schema.properties.length resolvedCount]

/-- The resolution of a schema; a schema that is not in the cache yet is synthesized. -/
def resolution (engine : Engine) (schema : Schema) : Resolution × Engine × List JournalEntry :=
  match engine.cache.lookup schema.id with
  | some known => (known, engine, [])
  | none =>
    let resolved := resolveSchema engine.catalog schema engine.cache
    (resolved.outcome, { engine with cache := resolved.cache },
      .synthesisStarted schema.name ::
        (resolved.journal ++
          synthesisEnd schema resolved.outcome (resolved.cache.length - engine.cache.length)))

/-- How many schemas are resolved, nested ones included. -/
def resolvedCount (engine : Engine) : Nat := engine.cache.length

/-- Whether a schema is resolved, successfully or not. -/
def isResolved (engine : Engine) (schema : Schema) : Bool :=
  (engine.cache.lookup schema.id).isSome

/-! ## Factories -/

/-- All that is needed to make instances of one kind of one schema. -/
structure Factory where
  /-- The engine that gave the factory. -/
  engine : EngineId
  blueprint : Blueprint
  kind : Kind

def Factory.shape (factory : Factory) : Shape := .of factory.blueprint.schema factory.kind

/-- The answer to a request, the engine after it and what was written down. -/
structure Reply (α : Type) where
  answer : Except SettingsError α
  engine : Engine
  journal : List JournalEntry

/-- The factory for a kind of a schema. -/
def factory (engine : Engine) (schema : Schema) (kind : Kind) : Reply Factory :=
  match engine.resolution schema with
  | (resolution, after, journal) =>
    ⟨(resolution.blueprintFor kind).map fun blueprint => ⟨engine.serial, blueprint, kind⟩, after, journal⟩

/-- The shape of a kind of a schema, without making an instance. -/
def typeOf (engine : Engine) (schema : Schema) (kind : Kind) : Reply Shape :=
  let reply := engine.factory schema kind
  ⟨reply.answer.map Factory.shape, reply.engine, reply.journal⟩

/-- The debug text of an engine. -/
def debug (engine : Engine) : String :=
  "SynthesisEngine \x7b catalog_types: " ++ natText engine.catalog.size ++ ", resolved: " ++
    natText engine.resolvedCount ++ " \x7d"

/-! ## Equations -/

theorem resolution_of_cached {engine : Engine} {schema : Schema} {known : Resolution}
    (h : engine.cache.lookup schema.id = some known) :
    engine.resolution schema = (known, engine, []) := by
  unfold resolution; rw [h]

theorem factory_of_cached {engine : Engine} {schema : Schema} {known : Resolution}
    (h : engine.cache.lookup schema.id = some known) (kind : Kind) :
    engine.factory schema kind =
      ⟨(known.blueprintFor kind).map fun blueprint => ⟨engine.serial, blueprint, kind⟩, engine, []⟩ := by
  unfold factory; rw [resolution_of_cached h]

end Engine

end SettingsForge
