import SettingsForge.Keyed
import SettingsForge.Schema.Id
import SettingsForge.ValueType.Basic

set_option autoImplicit false

/-! # Schemas

A schema lists the properties of its instances: those inherited from its base first, in the base's
order, then its own. A property holds a value of a declared type, or a dictionary of instances of a
nested schema. -/

namespace SettingsForge

/-- How a property's first value is made. -/
inductive DefaultStrategy where
  | constant (value : Value)
  /-- Call a constructor of the named type. -/
  | construct (typeName : String) (args : List Value)
  /-- Call a static method of the named type. -/
  | staticCall (typeName method : String) (args : List Value)

/-- The word for a strategy in the journal. -/
def DefaultStrategy.label : DefaultStrategy → String
  | .constant _ => "constant"
  | .construct .. => "constructor_call"
  | .staticCall .. => "static_call"

/-- What a property holds, over a type of schemas. -/
inductive PropertyTypeOf (σ : Type) where
  | value (type : ValueType)
  | dict (nested : σ)

/-- A property, over a type of schemas. -/
structure PropertyOf (σ : Type) where
  name : String
  type : PropertyTypeOf σ
  /-- The declared defaults; more than one is an error of the schema's generation. -/
  defaults : List DefaultStrategy := []

/-- Positions by names. It is a hash map, here a keyed list, for nothing asks for its order. -/
abbrev PropertyIndex := List (String × Nat)

/-- Put a position under a name. The answer is the position that was there before, if any, and the index
    after it. -/
def PropertyIndex.insert (index : PropertyIndex) (name : String) (position : Nat) :
    Option Nat × PropertyIndex := (index.lookup name, Keyed.insert name position index)

/-- A schema with all its properties, the inherited ones first, and the index that finds them. -/
inductive Schema where
  | mk (id : SchemaId) (name : String) (base : Option Schema) (properties : List (PropertyOf Schema))
    (index : PropertyIndex)

abbrev PropertyType := PropertyTypeOf Schema

abbrev Property := PropertyOf Schema

namespace Schema

def id : Schema → SchemaId
  | .mk id .. => id

def name : Schema → String
  | .mk _ name .. => name

def base : Schema → Option Schema
  | .mk _ _ base .. => base

def properties : Schema → List Property
  | .mk _ _ _ properties _ => properties

def index : Schema → PropertyIndex
  | .mk _ _ _ _ index => index

/-- The identities of a schema and of those that it inherits from, nearest first. -/
def lineage : Schema → List SchemaId
  | .mk id _ none .. => [id]
  | .mk id _ (some b) .. => id :: b.lineage

/-- Whether a schema has this identity or inherits from one that has it. -/
def isA (schema : Schema) (id : SchemaId) : Bool := schema.lineage.contains id

/-- The position of the property of a name. -/
def position? (schema : Schema) (name : String) : Option Nat := schema.index.lookup name

/-- The property of a name. -/
def property? (schema : Schema) (name : String) : Option Property :=
  (schema.index.lookup name).bind fun i => schema.properties[i]?

/-- The schemas nested in dictionaries, in the order of the properties. -/
def nested (schema : Schema) : List Schema :=
  schema.properties.filterMap fun p =>
    match p.type with
    | .value _ => none
    | .dict nested => some nested

theorem isA_self : (schema : Schema) → schema.isA schema.id = true
  | .mk _ _ none .. => by simp [isA, lineage, id]
  | .mk _ _ (some _) .. => by simp [isA, lineage, id]

theorem isA_of_base {id : SchemaId} {name : String} {b : Schema}
    {properties : List Property} {index : PropertyIndex} {ancestor : SchemaId}
    (h : b.isA ancestor = true) : (mk id name (some b) properties index).isA ancestor = true := by
  simp only [isA, lineage, List.contains_cons, Bool.or_eq_true] at h ⊢
  exact Or.inr h

end Schema

namespace PropertyTypeOf

/-- The name of a property's type in messages. -/
def name : PropertyType → String
  | .value type => type.name
  | .dict nested => "dict<" ++ nested.name ++ ">"

/-- The word for what a property holds. -/
def shape : PropertyType → String
  | .value (.list _) => "collection"
  | .value _ => "value"
  | .dict _ => "dictionary"

/-- The declared type, unless a dictionary is held. -/
def valueType? : PropertyType → Option ValueType
  | .value type => some type
  | .dict _ => none

def isCollection (type : PropertyType) : Bool := type.valueType?.any ValueType.isCollection

end PropertyTypeOf

end SettingsForge
