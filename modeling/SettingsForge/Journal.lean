import SettingsForge.Error.Diagnosis
import SettingsForge.Text.Words

set_option autoImplicit false

/-! # The journal

Operations write down what they do. Resolving a schema and resetting an instance are boundaries: each
opens with an entry of the event `start` and closes with one of `end` or `end_error`. The other
entries are plain messages. An entry knows its level and its fields; how long an operation took is
not part of the journal and stands as a star. -/

namespace SettingsForge

/-- The operations whose boundaries are written down. -/
inductive BoundaryOp where
  | synthesize
  | resetToDefaults
  deriving DecidableEq, Repr

def BoundaryOp.name : BoundaryOp → String
  | .synthesize => "synthesize"
  | .resetToDefaults => "reset_to_defaults"

/-- An entry of the journal. -/
inductive JournalEntry where
  | synthesisStarted (schema : String)
  | synthesisEnded (schema : String) (propertyCount resolvedCount : Nat)
  | resetStarted (schema : String) (kind : Kind)
  | resetEnded (schema : String)
  | failed (op : BoundaryOp) (schema : String) (error : SettingsError)
  /-- Only the kinds that announce nothing can be made. -/
  | observableUnavailable (schema : String) (error : SettingsError)
  | schemaResolved (schema : String) (ok : Bool)
  | defaultResolving (schema property strategy : String)
  | entryAdded (property key : String)
  | entryDeleted (property key : String)
  | listReconciled (property : String) (removed appended : Nat)
  | writeRefused (schema target : String)
  deriving DecidableEq, Repr

/-- How grave an entry is. -/
inductive JournalLevel where
  | debug
  | info
  | warn
  | error
  deriving DecidableEq, Repr

def JournalLevel.name : JournalLevel → String
  | .debug => "DEBUG"
  | .info => "INFO"
  | .warn => "WARN"
  | .error => "ERROR"

/-! ## Field keys and event names -/

namespace Journal

def component : String := "morphset_core::engine"

/-- The keys of fields, in their customary order. -/
def fieldKeys : List String :=
  ["component", "op", "event", "duration_ms", "schema", "schema_id", "property", "kind",
    "property_count", "resolved_count", "err.kind", "err.code"]

def startEvent : String := "start"

def endEvent : String := "end"

def endErrorEvent : String := "end_error"

/-- The events of boundaries. -/
def events : List String := [startEvent, endEvent, endErrorEvent]

/-- The fields that every boundary entry has. -/
def boundary (op : BoundaryOp) (event : String) : List (String × String) :=
  [("component", component), ("op", op.name), ("event", event)]

end Journal

namespace JournalEntry

open Journal

def level : JournalEntry → JournalLevel
  | .synthesisStarted .. | .synthesisEnded .. | .resetStarted .. | .resetEnded .. => .info
  | .failed .. => .error
  | .observableUnavailable .. => .warn
  | _ => .debug

/-- The fields of an entry by their keys; the text of a plain entry is its message. -/
def fields : JournalEntry → List (String × String)
  | .synthesisStarted schema => boundary .synthesize startEvent ++ [("schema", schema)]
  | .synthesisEnded schema propertyCount resolvedCount =>
    boundary .synthesize endEvent ++ [("duration_ms", "*"), ("schema", schema),
      ("property_count", natText propertyCount), ("resolved_count", natText resolvedCount)]
  | .resetStarted schema kind =>
    boundary .resetToDefaults startEvent ++ [("schema", schema), ("kind", kind.name)]
  | .resetEnded schema =>
    boundary .resetToDefaults endEvent ++ [("duration_ms", "*"), ("schema", schema)]
  | .failed op schema error =>
    let diagnosis := Diagnosis.ofError error
    boundary op endErrorEvent ++ [("duration_ms", "*"), ("err.kind", diagnosis.kind.name),
      ("err.code", diagnosis.code), ("schema", schema)]
  | .observableUnavailable schema error =>
    [("message", "observable variants unavailable"), ("schema", schema), ("error", error.message)]
  | .schemaResolved schema ok =>
    [("message", "schema resolved"), ("schema", schema), ("ok", boolText ok)]
  | .defaultResolving schema property strategy =>
    [("message", "resolving default value"), ("schema", schema), ("property", property),
      ("strategy", strategy)]
  | .entryAdded property key =>
    [("message", "dictionary entry added"), ("property", property), ("key", key)]
  | .entryDeleted property key =>
    [("message", "dictionary entry deleted"), ("property", property), ("key", key)]
  | .listReconciled property removed appended =>
    [("message", "collection reconciled"), ("property", property), ("removed", natText removed),
      ("appended", natText appended)]
  | .writeRefused schema target =>
    [("message", "write to read-only instance refused"), ("schema", schema), ("property", target)]

/-- The value of a field. -/
def field? (entry : JournalEntry) (key : String) : Option String := entry.fields.lookup key

/-- The line that shows an entry. -/
def line (entry : JournalEntry) : String :=
  joined " " (entry.level.name :: entry.fields.map fun field => field.1 ++ "=" ++ field.2)

end JournalEntry

end SettingsForge
