import SettingsForge.Schema.Build
import SettingsForge.Text.Case
import SettingsForge.Text.Words
import SettingsForge.ValueType.Catalog

set_option autoImplicit false

/-! # Demo schemas

Five small schemas, one for each thing that a property can hold and one that has no observable kinds,
with the catalog of the types that their defaults name. -/

namespace SettingsForge.Demo

/-! ## Types -/

/-- A point in the plane. -/
def pointValue (x y : Value) : Value := .object "Point" [("x", x), ("y", y)]

def point : ObjectType where
  name := "Point"
  constructors := [
    { params := [], build := fun _ => pointValue (.int 0) (.int 0) },
    { params := [.int, .int], build := fun args =>
        pointValue (args[0]?.getD .null) (args[1]?.getD .null) }]

/-- Append values to a list. -/
def fill : Value → List Value → Value
  | .list items, args => .list (items ++ args)
  | other, _ => other

def presets : ObjectType where
  name := "Presets"
  statics := [
    { name := "Fill", params := [.str, .str], valueType := some (.list .str), body := .inPlace fill }]

/-- A type whose values cannot be compared. -/
def handle : ObjectType where
  name := "Handle"
  hasEquality := false
  constructors := [{ params := [], build := fun _ => .object "Handle" [] }]

def catalog : Catalog := .ofList [point, presets, handle]

def theme : EnumType := ⟨"Theme", [("Light", 0), ("Dark", 1)]⟩

/-! ## Schemas -/

def simple : Except SettingsError Schema :=
  Schema.build ⟨0⟩ "Simple" none [⟨"text", .value .str, [.constant (.str "Hello World!")]⟩]

def listy : Except SettingsError Schema :=
  Schema.build ⟨1⟩ "Listy" none
    [⟨"lines", .value (.list .str),
      [.staticCall "Presets" "Fill" [.str "Homura", .str "Madoka"]]⟩]

def window : Except SettingsError Schema :=
  Schema.build ⟨2⟩ "Window" none
    [⟨"maximized", .value .bool, [.constant (.bool false)]⟩,
      ⟨"theme", .value (.enum theme), [.constant (.str "Dark")]⟩,
      ⟨"origin", .value (.object point), [.construct "Point" [.int 40, .int 30]]⟩,
      ⟨"zoom", .value .float, [.constant (.int 1)]⟩]

def profile : Except SettingsError Schema := do
  let entry ← Schema.build ⟨3⟩ "Entry" none
    [⟨"label", .value .str, [.constant (.str "untitled")]⟩]
  Schema.build ⟨4⟩ "Profile" none [⟨"name", .value .str, []⟩, ⟨"entries", .dict entry, []⟩]

/-- A schema of which only the kinds that announce nothing can be made. -/
def gadget : Except SettingsError Schema :=
  Schema.build ⟨5⟩ "Gadget" none [⟨"handle", .value (.object handle), []⟩]

/-- All demo schemas by name, in the order in which they are listed. -/
def schemas : List (String × Except SettingsError Schema) :=
  [("Simple", simple), ("Listy", listy), ("Window", window), ("Profile", profile),
    ("Gadget", gadget)]

def names : List String := schemas.map Prod.fst

/-- The demo schema of a name in any case. -/
def schema (name : String) : Except SettingsError Schema :=
  match schemas.find? fun entry => Text.lower entry.1 == Text.lower name with
  | some (_, built) => built
  | none =>
    .error (.invalidSchema ("no demo schema named '" ++ name ++ "' (available: " ++
      joined ", " names ++ ")"))

end SettingsForge.Demo
