import SettingsForge.Text.Case

set_option autoImplicit false

/-! # Kinds of instances

The kind of an instance is fixed when it is made and says what may be done with it. -/

namespace SettingsForge

inductive Kind where
  /-- A plain record that may be written. -/
  | copy
  /-- A record that never changes. -/
  | read
  /-- A record that announces its changes. -/
  | inpc
  /-- As the observable record, for the instance that a provider keeps. -/
  | real
  deriving DecidableEq, Repr

namespace Kind

/-- All kinds in their customary order. -/
def all : List Kind := [.copy, .read, .inpc, .real]

def name : Kind → String
  | .copy => "copy"
  | .read => "read"
  | .inpc => "inpc"
  | .real => "real"

/-- Whether changes are announced. -/
def isObservable : Kind → Bool
  | .inpc | .real => true
  | _ => false

def isWritable : Kind → Bool
  | .read => false
  | _ => true

/-- What a shape's name ends in, and the kind's name in debug texts. -/
def label : Kind → String
  | .copy => "Copy"
  | .read => "Read"
  | .inpc => "Inpc"
  | .real => "Real"

/-- The kind of exactly this name. -/
def ofName? (s : String) : Option Kind := all.find? fun kind => kind.name == s

/-- The kind of a name in any case. -/
def parse? (s : String) : Option Kind := all.find? fun kind => kind.name == Text.lower s

/-- The message for a text that names no kind. -/
def unknownMessage (s : String) : String :=
  "unknown settings kind '" ++ s ++ "' (expected copy, read, inpc or real)"

theorem isWritable_of_isObservable {kind : Kind} (h : kind.isObservable = true) :
    kind.isWritable = true := by
  cases kind with
  | read => cases h
  | _ => rfl

@[simp] theorem parse?_name (kind : Kind) : parse? kind.name = some kind := by
  cases kind <;> rfl

@[simp] theorem ofName?_name (kind : Kind) : ofName? kind.name = some kind := by
  cases kind <;> rfl

end Kind

end SettingsForge
