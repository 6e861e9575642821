import SettingsForge.ValueType.Basic

set_option autoImplicit false

/-! # Type catalogs

A catalog holds the object types that default-value strategies name, one for each name. -/

namespace SettingsForge

/-- Object types by their names. -/
structure Catalog where
  types : List (String × ObjectType) := []

namespace Catalog

def empty : Catalog := {}

/-- Add a type, in place of one of the same name. -/
def register (catalog : Catalog) (o : ObjectType) : Catalog :=
  ⟨Keyed.insert o.name o catalog.types⟩

/-- The catalog with these types, later ones in place of earlier ones of the same name. -/
def ofList (types : List ObjectType) : Catalog := types.foldl register empty

def find? (catalog : Catalog) (name : String) : Option ObjectType := catalog.types.lookup name

def size (catalog : Catalog) : Nat := catalog.types.length

def isEmpty (catalog : Catalog) : Bool := catalog.types.isEmpty

@[simp] theorem find?_register_self (catalog : Catalog) (o : ObjectType) :
    (catalog.register o).find? o.name = some o := Keyed.lookup_insert_self ..

theorem find?_register_of_ne (catalog : Catalog) {o : ObjectType} {name : String}
    (h : name ≠ o.name) : (catalog.register o).find? name = catalog.find? name :=
  Keyed.lookup_insert_of_ne h ..

end Catalog

end SettingsForge
