import SettingsForge.Schema.Build
import SettingsForge.Settings.Path
import SettingsForge.Settings.Reset

set_option autoImplicit false

/-! # Workspaces

A workspace keeps engines, schemas, instances and what else clients hold on to, each under a name. A
new thing under a used name takes the place of the old one. Handles of engines share the engine; a
provider is alive as long as the workspace has it. -/

namespace SettingsForge

structure Workspace where
  /-- Handles of engines, by their place among the engines. -/
  handles : List (String × Nat) := []
  engines : List Engine := []
  schemas : List (String × Schema) := []
  /-- The serial number of the next schema. -/
  nextSchema : Nat := 0
  instances : List (String × Settings) := []
  factories : List (String × Engine.Factory) := []
  shapes : List (String × Shape) := []
  /-- Notifiers that a client holds. -/
  notifiers : List (String × NotifierId) := []
  providers : List (String × ProviderId) := []
  nextProvider : ProviderId := 0
  context : Context := {}

/-- What a name, key or property may fail to lead to. -/
inductive Missing where
  | engine | schema | settings | entry | factory | shape | property | notifier | provider
  | subscription
  deriving DecidableEq, Repr

/-- Why a step has no answer. -/
inductive Obstacle where
  | missing (what : Missing)
  /-- Source and target lie in one instance. -/
  | alias
  | failed (error : SettingsError)

def PathFault.obstacle : PathFault → Obstacle
  | .failed e => .failed e
  | .noEntry => .missing .entry

/-- Where a step works: an instance and a path in it. -/
structure Location where
  name : String
  path : Path

/-- The answer to a step and the subject after it. -/
structure Attempt (σ α : Type) where
  answer : Except Obstacle α
  subject : σ

namespace Workspace

/-! ## Look-ups -/

/-- Look a name up in one of the tables. -/
def find {β : Type} (table : List (String × β)) (name : String) (what : Missing) :
    Except Obstacle β :=
  match table.lookup name with
  | some x => .ok x
  | none => .error (.missing what)

def handle (w : Workspace) (name : String) : Except Obstacle Nat := find w.handles name .engine

/-- The engine behind a handle. -/
def engine (w : Workspace) (name : String) : Except Obstacle Engine := do
  match w.engines[← w.handle name]? with
  | some engine => return engine
  | none => .error (.missing .engine)

def schema (w : Workspace) (name : String) : Except Obstacle Schema := find w.schemas name .schema

/-- The instance at a location, for reading. -/
def read (w : Workspace) (place : Location) : Except Obstacle Settings := do
  let root ← find w.instances place.name .settings
  (Settings.follow place.path root).mapError PathFault.obstacle

/-- The source of a copy into another instance. -/
def source (w : Workspace) (target source : Location) : Except Obstacle Settings :=
  if source.name == target.name then .error .alias else w.read source

/-- The provider of a link, by its name, if it is alive. -/
def providerName? (w : Workspace) (id : ProviderId) : Option String :=
  (w.providers.find? fun p => p.2 == id).map Prod.fst

/-! ## Changes -/

/-- Put an engine in the place of the one behind a handle. -/
def setEngine (w : Workspace) (index : Nat) (engine : Engine) : Workspace :=
  { w with engines := w.engines.set index engine }

def putInstance (w : Workspace) (name : String) (x : Settings) : Workspace :=
  { w with instances := Keyed.insert name x w.instances }

/-- Add an engine and a handle for it. -/
def addEngine (w : Workspace) (name : String) (catalog : Catalog) : Workspace :=
  { w with
    handles := Keyed.insert name w.engines.length w.handles
    engines := w.engines ++ [{ serial := w.engines.length, catalog := catalog }] }

/-- A workspace with one engine under a name. -/
def start (name : String) (catalog : Catalog) : Workspace := addEngine {} name catalog

/-- Ask the engine behind a handle for something that changes nothing else. -/
def ask {α : Type} (w : Workspace) (name : String)
    (request : Engine → Engine.Reply α) : Attempt Workspace α :=
  match w.handle name, w.engine name with
  | .ok index, .ok engine =>
    let reply := request engine
    ⟨reply.answer.mapError .failed,
      { w.setEngine index reply.engine with context := w.context.note reply.journal }⟩
  | .error e, _ => ⟨.error e, w⟩
  | _, .error e => ⟨.error e, w⟩

/-- Edit the instance at a location. The edit may still meet an obstacle of its own. -/
def edit {α : Type} (w : Workspace) (place : Location)
    (f : Settings → Context → Except Obstacle α × Settings × Context) : Attempt Workspace α :=
  match find w.instances place.name .settings with
  | .error e => ⟨.error e, w⟩
  | .ok root =>
    match Settings.followForEdit place.path root w.context with
    | (.error fault, c) => ⟨.error fault.obstacle, { w with context := c }⟩
    | (.ok x, c) =>
      match f x c with
      | (answer, after, context) =>
        ⟨answer, { w.putInstance place.name (Settings.replaceAt place.path root after) with
          context := context }⟩

/-- An operation of instances as an edit. -/
def ofDone {α : Type} (d : Done Settings α) : Except Obstacle α × Settings × Context :=
  (d.answer.mapError .failed, d.subject, d.context)

/-- Start a step with no notes and an empty journal. -/
def fresh (w : Workspace) : Workspace :=
  { w with context := { hub := { w.context.hub with deliveries := [] }, journal := [] } }

end Workspace

end SettingsForge
