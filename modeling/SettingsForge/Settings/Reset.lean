import SettingsForge.Engine
import SettingsForge.Settings.Copy

set_option autoImplicit false

/-! # Making and resetting instances with an engine

A reset copies a fresh instance of the reading kind, made by the engine, into the target. -/

namespace SettingsForge.Engine

/-- A new instance from a factory, a copy of a source if there is one. -/
def Factory.create (factory : Factory) (source : Option Settings) (c : Context) :
    Except SettingsError Settings × Context :=
  factory.blueprint.create factory.engine factory.kind source c

/-- The answer to a request that may change the engine and reach the context. -/
structure Made (α : Type) where
  answer : Except SettingsError α
  engine : Engine
  context : Context

/-- A new instance of a kind of a schema, a copy of a source if there is one. -/
def create (engine : Engine) (schema : Schema) (kind : Kind) (source : Option Settings)
    (c : Context) : Made Settings :=
  let reply := engine.factory schema kind
  let noted := c.note reply.journal
  match reply.answer with
  | .error e => ⟨.error e, reply.engine, noted⟩
  | .ok factory =>
    let (answer, after) := factory.create source noted
    ⟨answer, reply.engine, after⟩

/-- What the end of a reset writes down. -/
def resetEnd (schema : String) : Except SettingsError Unit → List JournalEntry
  | .ok _ => [.resetEnded schema]
  | .error e => [.failed .resetToDefaults schema e]

/-- Bring every property of an instance to its default. -/
def reset (engine : Engine) (x : Settings) (c : Context) : Done Settings Unit × Engine :=
  let started := c.note [.resetStarted x.schema.name x.kind]
  match engine.create x.schema .read none started with
  | ⟨.error e, after, context⟩ =>
    (⟨.error e, x, context.note (resetEnd x.schema.name (.error e))⟩, after)
  | ⟨.ok defaults, after, context⟩ =>
    let d := x.copy (some defaults) context
    (⟨d.answer, d.subject, d.context.note (resetEnd x.schema.name d.answer)⟩, after)

end SettingsForge.Engine
