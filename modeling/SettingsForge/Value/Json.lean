import SettingsForge.Json.Library
import SettingsForge.Json.Writer
import SettingsForge.Value.Basic

set_option autoImplicit false

/-! # The JSON form of values

A value is written as an object with its case under `type` and its content under `value`. A reader
also takes the two in the other order, an array of the two, and an array in place of the inner object
of an enum member or an object; it passes over unknown keys and refuses repeated known ones. Content
that comes before its tag is held back until the tag is known, and inside held content tags have
further spellings. Floats that are not finite are written as null and so do not read back. The texts of
numbers and documents are a library's. -/

namespace SettingsForge

namespace Value

/-- The case of a value. -/
inductive Tag where
  | null | bool | int | float | str | enum | object | list | map
  deriving DecidableEq, Repr

namespace Tag

def all : List Tag := [.null, .bool, .int, .float, .str, .enum, .object, .list, .map]

def name : Tag → String
  | .null => "null"
  | .bool => "bool"
  | .int => "int"
  | .float => "float"
  | .str => "str"
  | .enum => "enum"
  | .object => "object"
  | .list => "list"
  | .map => "map"

def ofName? (s : String) : Option Tag := all.find? fun tag => tag.name == s

@[simp] theorem ofName?_name (tag : Tag) : ofName? tag.name = some tag := by
  cases tag <;> decide

/-- The tag at a position in `all`. -/
def ofPosition? (n : Nat) : Option Tag := all[n]?

end Tag

section

variable (library : JsonLibrary)

/-! ## Writing -/

/-- A tag with its content. -/
def tagged (tag : Tag) (content : Json) : Json :=
  .obj [("type", .str tag.name), ("value", content)]

/-- The number literal of a finite double, null for the others. -/
def floatJson (x : Binary64) : Json :=
  if x.isFinite then .number (library.floatChars x) else .null

def intJson (i : Int64) : Json := .number (intChars i.toInt)

mutual

/-- The JSON form of a value. -/
def toJson : Value → Json
  | .null => .obj [("type", .str Tag.null.name)]
  | .bool b => tagged .bool (.bool b)
  | .int i => tagged .int (intJson i)
  | .float x => tagged .float (floatJson library x)
  | .str s => tagged .str (.str s)
  | .enum typeName ordinal =>
    tagged .enum (.obj [("type_name", .str typeName), ("ordinal", intJson ordinal)])
  | .object typeName fields => tagged .object
      (.obj [("type_name", .str typeName), ("fields", .obj (entriesToJson fields))])
  | .list items => tagged .list (.arr (itemsToJson items))
  | .map entries => tagged .map (.obj (entriesToJson entries))

def itemsToJson : List Value → List Json
  | [] => []
  | v :: items => v.toJson :: itemsToJson items

def entriesToJson : List (String × Value) → List (String × Json)
  | [] => []
  | (key, v) :: entries => (key, v.toJson) :: entriesToJson entries

end

theorem itemsToJson_eq_map (items : List Value) :
    itemsToJson library items = items.map (toJson library) := by
  induction items with
  | nil => rfl
  | cons v items ih => simp [itemsToJson, ih]

/-! ## Reading -/

/-- The only member under a key; none when there is no such member or more than one. -/
def sole? (key : String) (members : List (String × Json)) : Option Json :=
  match members.filter fun member => member.1 == key with
  | [(_, j)] => some j
  | _ => none

/-- Whether a key occurs at most once. -/
def atMostOnce (key : String) (members : List (String × Json)) : Bool :=
  (members.filter fun member => member.1 == key).length ≤ 1

/-- Whether a part is read where it stands, or as part of a content that was held back. -/
inductive Timing where
  | direct | held
  deriving DecidableEq, Repr

/-- The content that comes before the tag. -/
def heldContent? : List (String × Json) → Option Json
  | [] => none
  | (key, j) :: members =>
    if key = "type" then none else if key = "value" then some j else heldContent? members

/-- How the content among these members is read. -/
def Timing.ofContent (timing : Timing) (members : List (String × Json)) : Timing :=
  if (heldContent? members).isSome then .held else timing

/-- The tag under its key: its name, or an object with the name as its only key and null under it. In
    held content an empty object may stand in for that null. -/
def Tag.underKey? (timing : Timing) : Json → Option Tag
  | .str s => ofName? s
  | .obj [(s, .null)] => ofName? s
  | .obj [(s, .obj [])] => if timing = .held then ofName? s else none
  | _ => none

/-- The tag at the head of an array: its name, or in held content its position. -/
def Tag.atHead? (timing : Timing) : Json → Option Tag
  | .str s => ofName? s
  | .number literal =>
    if timing = .held then
      ((NumberLiteral.ofChars? literal).bind NumberLiteral.nat?).bind ofPosition?
    else none
  | _ => none

/-- The tag of an object that has one tag and at most one content. All of a content that is held back
    has to be readable. -/
def tagIn? (timing : Timing) (members : List (String × Json)) : Option Tag := do
  let tag ← Tag.underKey? timing (← sole? "type" members)
  let isNumber := fun literal => (library.floatOfChars? literal).isSome
  if atMostOnce "value" members && (heldContent? members).all (Json.isReadable isNumber) then some tag
  else none

def intOf? : Json → Option Int64
  | .number literal => (NumberLiteral.ofChars? literal).bind NumberLiteral.int?
  | _ => none

def floatOf? : Json → Option Binary64
  | .number literal => library.floatOfChars? literal
  | _ => none

def textOf? : Json → Option String
  | .str s => some s
  | _ => none

/-- An enum member from its type name and its ordinal. -/
def enumOf? : Json → Option Value
  | .obj members => do
    return .enum (← textOf? (← sole? "type_name" members)) (← intOf? (← sole? "ordinal" members))
  | .arr [typeName, ordinal] => do return .enum (← textOf? typeName) (← intOf? ordinal)
  | _ => none

mutual

/-- The value whose JSON form a tree is. -/
def read? (timing : Timing) : Json → Option Value
  | .obj members => (tagIn? library timing members).bind fun tag =>
      readContentIn? (timing.ofContent members) tag members
  | .arr [tag, content] => (Tag.atHead? timing tag).bind fun tag => readContent? timing tag content
  | _ => none

/-- The value with a tag and the content among these members; only null needs none. -/
def readContentIn? (timing : Timing) (tag : Tag) : List (String × Json) → Option Value
  | [] => if tag = .null then some .null else none
  | (key, j) :: members =>
    if key = "value" then readContent? timing tag j else readContentIn? timing tag members

/-- The value with a tag and a content. -/
def readContent? (timing : Timing) : Tag → Json → Option Value
  | .null, .null => some .null
  | .bool, .bool b => some (.bool b)
  | .int, j => (intOf? j).map .int
  | .float, j => (floatOf? library j).map .float
  | .str, .str s => some (.str s)
  | .enum, j => enumOf? j
  | .object, .obj members => do
    let typeName ← textOf? (← sole? "type_name" members)
    let _ ← sole? "fields" members
    return .object typeName (← readFieldsIn? timing members)
  | .object, .arr [typeName, fields] => do
    return .object (← textOf? typeName) (← readFields? timing fields)
  | .list, .arr items => (readItems? timing items).map .list
  | .map, .obj entries => do return .map (Keyed.ofList (← readEntries? timing entries))
  | _, _ => none

/-- The fields under `fields` among these members. -/
def readFieldsIn? (timing : Timing) : List (String × Json) → Option (List (String × Value))
  | [] => none
  | (key, j) :: members =>
    if key = "fields" then readFields? timing j else readFieldsIn? timing members

/-- Named values; of two under one name the later counts. -/
def readFields? (timing : Timing) : Json → Option (List (String × Value))
  | .obj members => (readEntries? timing members).map Keyed.ofList
  | _ => none

def readItems? (timing : Timing) : List Json → Option (List Value)
  | [] => some []
  | j :: items => do return (← read? timing j) :: (← readItems? timing items)

def readEntries? (timing : Timing) : List (String × Json) → Option (List (String × Value))
  | [] => some []
  | (key, j) :: members => do return (key, ← read? timing j) :: (← readEntries? timing members)

end

end

end Value

namespace JsonLibrary

/-- The JSON text of a value. -/
def write (library : JsonLibrary) (value : Value) : String := (value.toJson library).compact

/-- The value that a JSON text spells. -/
def read? (library : JsonLibrary) (text : String) : Option Value :=
  (library.parse? text).bind (Value.read? library .direct)

end JsonLibrary

namespace Value

/-- The JSON text of a value that programs write. -/
def jsonText (value : Value) : String := JsonLibrary.standard.write value

/-- The value that programs read from a JSON text. -/
def parse? (text : String) : Option Value := JsonLibrary.standard.read? text

end Value

end SettingsForge
