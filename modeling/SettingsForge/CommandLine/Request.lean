import SettingsForge.CommandLine.Arguments
import SettingsForge.LogProfile

set_option autoImplicit false

/-! # Requests

What the command line can be asked for. The log profile may stand before or after the command's name,
and the later one counts. -/

namespace SettingsForge.CommandLine

inductive Request where
  /-- The shapes of every kind of a demo schema, or of all of them. -/
  | shapes (schema : Option String)
  /-- A default instance of a demo schema. -/
  | defaults (schema : String) (kind : Kind) (json : Bool)
  /-- What it takes to bring one list of words to another. -/
  | reconcile (current target : List String)

/-- A request with the log profile, if one is chosen. -/
structure Invocation where
  profile : Option LogProfile
  request : Request

/-! ## Options -/

def profileOption : OptionSpec := { name := "log-profile" }

def kindOption : OptionSpec := { name := "kind", letter := some 'k' }

def jsonOption : OptionSpec := { name := "json", takesValue := false }

def currentOption : OptionSpec := { name := "current" }

def targetOption : OptionSpec := { name := "target" }

/-! ## Commands -/

/-- The log profile among options; none when it is repeated or unknown. -/
def profileOf? (given : Given) : Option (Option LogProfile) := do
  match ← given.single? profileOption.name with
  | none => return none
  | some text => return some (← LogProfile.parse? text)

/-- All items of an option whose values are separated by commas. -/
def itemsOf (given : Given) (name : String) : List String :=
  (given.values name).flatMap fun value => value.splitOn ","

/-- The options of a command besides the log profile. -/
def optionsOf? : String → Option (List OptionSpec)
  | "shapes" => some []
  | "defaults" => some [kindOption, jsonOption]
  | "reconcile" => some [currentOption, targetOption]
  | _ => none

/-- The request of a command, from its arguments. -/
def Request.of? (command : String) (given : Given) : Option Request :=
  match command, given.words with
  | "shapes", [] => some (.shapes none)
  | "shapes", [schema] => some (.shapes (some schema))
  | "defaults", [schema] => do
    let kind ← match ← given.single? kindOption.name with
      | none => some .read
      | some text => Kind.parse? text
    let json ← given.single? jsonOption.name
    return .defaults schema kind json.isSome
  | "reconcile", [] =>
    some (.reconcile (itemsOf given currentOption.name) (itemsOf given targetOption.name))
  | _, _ => none

/-- Read a command line; none when it breaks the rules. -/
def Invocation.parse? (args : List String) : Option Invocation := do
  let general ← Given.read true [profileOption] args
  let early ← profileOf? general
  match general.words with
  | [] => none
  | command :: rest =>
    let given ← Given.read false (profileOption :: (← optionsOf? command)) rest
    let late ← profileOf? given
    return ⟨late.or early, ← Request.of? command given⟩

end SettingsForge.CommandLine
