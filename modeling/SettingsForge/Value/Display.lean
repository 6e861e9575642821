import SettingsForge.Value.Basic
import SettingsForge.Text.Quoted
import SettingsForge.Text.Words

set_option autoImplicit false

/-! # Texts of values

`Value.display` is the text shown to people: plain numbers, quoted strings, type names and field
names as they are. `Value.debug` names the case of every value and is what listings of lists and
initializers are made of. -/

namespace SettingsForge

namespace Value

mutual

/-- The text of a value for people. -/
def display : Value → String
  | .null => "null"
  | .bool b => boolText b
  | .int i => intText i.toInt
  | .float x => NumberLayout.display.text x
  | .str s => Text.quoted s
  | .enum typeName ordinal => typeName ++ "(" ++ intText ordinal.toInt ++ ")"
  | .object typeName fields => typeName ++ " \x7b" ++ joined "," (displayFields fields) ++ " \x7d"
  | .list items => "[" ++ joined ", " (displayItems items) ++ "]"
  | .map entries => "\x7b" ++ joined ", " (displayEntries entries) ++ "\x7d"

def displayItems : List Value → List String
  | [] => []
  | v :: items => v.display :: displayItems items

/-- Fields of an object, each after a blank and under its bare name. -/
def displayFields : List (String × Value) → List String
  | [] => []
  | (name, v) :: fields => (" " ++ name ++ ": " ++ v.display) :: displayFields fields

/-- Entries of a map, each under its quoted key. -/
def displayEntries : List (String × Value) → List String
  | [] => []
  | (key, v) :: entries => (Text.quoted key ++ ": " ++ v.display) :: displayEntries entries

end

mutual

/-- The text of a value that names its case. -/
def debug : Value → String
  | .null => "Null"
  | .bool b => "Bool(" ++ boolText b ++ ")"
  | .int i => "Int(" ++ intText i.toInt ++ ")"
  | .float x => "Float(" ++ NumberLayout.debug.text x ++ ")"
  | .str s => "Str(" ++ Text.quoted s ++ ")"
  | .enum typeName ordinal =>
    "Enum(EnumValue \x7b type_name: " ++ Text.quoted typeName ++ ", ordinal: " ++
      intText ordinal.toInt ++ " \x7d)"
  | .object typeName fields =>
    "Object(ObjectValue \x7b type_name: " ++ Text.quoted typeName ++ ", fields: \x7b" ++
      joined ", " (debugEntries fields) ++ "\x7d \x7d)"
  | .list items => "List([" ++ joined ", " (debugItems items) ++ "])"
  | .map entries => "Map(\x7b" ++ joined ", " (debugEntries entries) ++ "\x7d)"

def debugItems : List Value → List String
  | [] => []
  | v :: items => v.debug :: debugItems items

def debugEntries : List (String × Value) → List String
  | [] => []
  | (key, v) :: entries => (Text.quoted key ++ ": " ++ v.debug) :: debugEntries entries

end

/-- The debug texts of a list of values, between brackets. -/
def debugList (items : List Value) : String := "[" ++ joined ", " (debugItems items) ++ "]"

end Value

end SettingsForge
