import SettingsForge.Binary64
import SettingsForge.Keyed

set_option autoImplicit false

/-! # Values

A value is what a property holds: a scalar, a member of an enum, an object with named fields, a list,
or, in snapshots of dictionaries only, a map. Fields and map entries are keyed lists. -/

namespace SettingsForge

inductive Value where
  | null
  | bool (b : Bool)
  | int (i : Int64)
  | float (x : Binary64)
  | str (s : String)
  /-- A member of the named enum, by its ordinal. -/
  | enum (typeName : String) (ordinal : Int64)
  /-- An object of the named type. -/
  | object (typeName : String) (fields : List (String × Value))
  | list (items : List Value)
  | map (entries : List (String × Value))
  deriving Inhabited

namespace Value

/-! ## What a value is called -/

/-- The word for a value's shape in messages about its type. -/
def describe : Value → String
  | .null => "null"
  | .bool _ => "bool"
  | .int _ => "int"
  | .float _ => "float"
  | .str _ => "string"
  | .enum typeName _ => typeName
  | .object typeName _ => typeName
  | .list _ => "list"
  | .map _ => "map"

/-! ## Parts -/

def isNull : Value → Bool
  | .null => true
  | _ => false

def bool? : Value → Option Bool
  | .bool b => some b
  | _ => none

def int? : Value → Option Int64
  | .int i => some i
  | _ => none

/-- The number behind a float or, rounded to the nearest, an integer. -/
def float? : Value → Option Binary64
  | .float x => some x
  | .int i => some (Binary64.ofInt i.toInt)
  | _ => none

def str? : Value → Option String
  | .str s => some s
  | _ => none

def items? : Value → Option (List Value)
  | .list items => some items
  | _ => none

/-- The type name and the fields of an object. -/
def object? : Value → Option (String × List (String × Value))
  | .object typeName fields => some (typeName, fields)
  | _ => none

/-- The named field of an object. -/
def field? (value : Value) (name : String) : Option Value :=
  value.object?.bind fun object => object.2.lookup name

/-! ## Equality

Setters and lists compare values by `Value.equals`. It is identity except on floats: a
not-a-number differs from itself, and the two zeros are equal. -/

mutual

/-- Whether two values are equal; floats compare as numbers. -/
def equals : Value → Value → Bool
  | .null, .null => true
  | .bool a, .bool b => a == b
  | .int a, .int b => a == b
  | .float x, .float y => x.equals y
  | .str s, .str t => s == t
  | .enum n a, .enum m b => n == m && a == b
  | .object n fields, .object m others => n == m && equalEntries fields others
  | .list items, .list others => equalItems items others
  | .map entries, .map others => equalEntries entries others
  | _, _ => false

/-- Equal length, and equal values at equal positions. -/
def equalItems : List Value → List Value → Bool
  | [], [] => true
  | v :: items, w :: others => v.equals w && equalItems items others
  | _, _ => false

/-- Equal keys in equal order, and equal values under them. -/
def equalEntries : List (String × Value) → List (String × Value) → Bool
  | [], [] => true
  | (k, v) :: entries, (l, w) :: others => k == l && v.equals w && equalEntries entries others
  | _, _ => false

end

/-! ## Key order -/

mutual

/-- All keys inside a value ascend strictly, as in every value a reader makes. -/
def KeysSorted : Value → Prop
  | .object _ fields => Keyed.Sorted fields ∧ entriesKeysSorted fields
  | .list items => itemsKeysSorted items
  | .map entries => Keyed.Sorted entries ∧ entriesKeysSorted entries
  | _ => True

def itemsKeysSorted : List Value → Prop
  | [] => True
  | v :: items => v.KeysSorted ∧ itemsKeysSorted items

def entriesKeysSorted : List (String × Value) → Prop
  | [] => True
  | (_, v) :: entries => v.KeysSorted ∧ entriesKeysSorted entries

end

theorem itemsKeysSorted_iff (items : List Value) :
    itemsKeysSorted items ↔ ∀ v ∈ items, v.KeysSorted := by
  induction items with
  | nil => simp [itemsKeysSorted]
  | cons v items ih => simp [itemsKeysSorted, ih]

theorem entriesKeysSorted_iff (entries : List (String × Value)) :
    entriesKeysSorted entries ↔ ∀ entry ∈ entries, entry.2.KeysSorted := by
  induction entries with
  | nil => simp [entriesKeysSorted]
  | cons entry entries ih => simp [entriesKeysSorted, ih]

end Value

end SettingsForge
