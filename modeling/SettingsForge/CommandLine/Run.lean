import SettingsForge.CommandLine.Request
import SettingsForge.Demo
import SettingsForge.Settings.Reset
import SettingsForge.Value.Display
import SettingsForge.Value.Json

set_option autoImplicit false

/-! # Answering requests

A request is answered with lines to print. What the engine writes down on the way is shown apart from
them, as far as the log profile shows it. -/

namespace SettingsForge.CommandLine

/-- How a command line ends. -/
inductive Outcome where
  | printed (lines : List String)
  | failed (error : SettingsError)
  /-- The command line itself breaks the rules. -/
  | misused

namespace Outcome

/-- The exit code. -/
def code : Outcome → Nat
  | .printed _ => 0
  | .failed _ => 1
  | .misused => 2

/-- What is printed. -/
def output : Outcome → String
  | .printed lines => String.join (lines.map fun line => line ++ "\n")
  | _ => ""

/-- The line that tells an error. -/
def errorLine? : Outcome → Option String
  | .failed e => some ("Error: " ++ e.message)
  | _ => none

end Outcome

/-- An outcome with what was written down. -/
structure Answer where
  outcome : Outcome
  journal : List JournalEntry := []

/-! ## Shapes -/

/-- A text with blanks after it up to a width. -/
def padded (width : Nat) (s : String) : String :=
  s ++ String.ofList (List.replicate (width - s.length) ' ')

/-- The line for a kind of a schema. -/
def shapeLine (kind : Kind) (answer : Except SettingsError Shape) : String :=
  "  " ++ padded 5 kind.name ++ " " ++
    match answer with
    | .ok shape => shape.typeName
    | .error e => "unavailable " ++ (Diagnosis.ofError e).display

/-- The lines for kinds of a schema. -/
def shapeLines (schema : Schema) : List Kind → Engine → Engine.Resolved (List String)
  | [], engine => ⟨[], engine.cache, []⟩
  | kind :: kinds, engine =>
    let reply := engine.typeOf schema kind
    let rest := shapeLines schema kinds reply.engine
    ⟨shapeLine kind reply.answer :: rest.outcome, rest.cache, reply.journal ++ rest.journal⟩

/-- Schemas with the shapes of all their kinds. -/
def shapesAnswer (engine : Engine) : List Schema → Engine.Resolved (List String)
  | [] => ⟨[], engine.cache, []⟩
  | schema :: schemas =>
    let first := shapeLines schema Kind.all engine
    let rest := shapesAnswer { engine with cache := first.cache } schemas
    ⟨schema.name :: first.outcome ++ rest.outcome, rest.cache, first.journal ++ rest.journal⟩

/-! ## Other requests -/

/-- The lines for an instance: its shape and its properties, or its JSON form. -/
def instanceLines (json : Bool) (x : Settings) : List String :=
  if json then [(x.snapshot.toJson .standard).pretty]
  else
    x.shape.typeName ::
      x.slots.map fun slot => "  " ++ slot.name ++ " = " ++ slot.content.value.display

/-- The lines for a reconciliation. -/
def reconcileLines (r : Reconciled String) : List String :=
  ["removed: " ++ natText r.outcome.removed, "appended: " ++ natText r.outcome.appended,
    "result: " ++ joined "," r.items]

/-- Answer a request with an engine of the demo types. -/
def Request.answer (request : Request) : Answer :=
  let engine : Engine := { catalog := Demo.catalog }
  match request with
  | .shapes name =>
    match ((name.map fun n => [n]).getD Demo.names).mapM Demo.schema with
    | .error e => { outcome := .failed e }
    | .ok schemas =>
      let shapes := shapesAnswer engine schemas
      ⟨.printed shapes.outcome, shapes.journal⟩
  | .defaults name kind json =>
    match Demo.schema name with
    | .error e => { outcome := .failed e }
    | .ok schema =>
      let made := engine.create schema kind none {}
      match made.answer with
      | .error e => ⟨.failed e, made.context.journal⟩
      | .ok x => ⟨.printed (instanceLines json x), made.context.journal⟩
  | .reconcile current target =>
    { outcome := .printed (reconcileLines (SettingsForge.reconcile (fun a b => a == b) current target)) }

/-- The entries of a journal that a profile shows, none without a profile. -/
def shown (profile : Option LogProfile) (journal : List JournalEntry) : List JournalEntry :=
  journal.filter fun entry => profile.any fun p => p.shows entry.level

/-- Answer a command line, with the entries to show. -/
def run (args : List String) : Answer :=
  match Invocation.parse? args with
  | none => { outcome := .misused }
  | some invocation =>
    let answer := invocation.request.answer
    { answer with journal := shown invocation.profile answer.journal }

end SettingsForge.CommandLine
