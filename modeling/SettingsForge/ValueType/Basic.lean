import SettingsForge.Value.Basic

set_option autoImplicit false

/-! # Types of values

A declared type is a scalar, an enum, an object type or a list. Object types carry what default-value
strategies may call: constructors and static methods, which are total functions on values. Two enums
or two object types count as the same type when their names are equal (`ValueType.same`). -/

namespace SettingsForge

/-- An enum: its members with their ordinals. Names and ordinals may repeat; the first member found
    counts. -/
structure EnumType where
  name : String
  members : List (String × Int64)

namespace EnumType

/-- The ordinal of a member. -/
def ordinalOf? (e : EnumType) (member : String) : Option Int64 :=
  (e.members.find? fun m => m.1 == member).map Prod.snd

/-- The member with an ordinal. -/
def nameOf? (e : EnumType) (ordinal : Int64) : Option String :=
  (e.members.find? fun m => m.2 == ordinal).map Prod.fst

/-- The value of a member. -/
def valueOf? (e : EnumType) (member : String) : Option Value :=
  (e.ordinalOf? member).map fun ordinal => .enum e.name ordinal

end EnumType

/-- A constructor of an object type. -/
structure ConstructorOf (τ : Type) where
  params : List τ
  build : List Value → Value

/-- What a static method does with its arguments: it makes a value, or it changes the current one. -/
inductive MethodBody where
  | returning (call : List Value → Value)
  | inPlace (call : Value → List Value → Value)

/-- A static method of an object type. -/
structure StaticMethodOf (τ : Type) where
  name : String
  params : List τ
  /-- The type it makes or changes; the declaring type when there is none. -/
  valueType : Option τ
  body : MethodBody

/-- An object type, over a type of declared types. -/
structure ObjectTypeOf (τ : Type) where
  name : String
  /-- Whether its values can be compared. -/
  hasEquality : Bool := true
  isAbstract : Bool := false
  constructors : List (ConstructorOf τ) := []
  statics : List (StaticMethodOf τ) := []

/-- The declared type of a property, a parameter or an item. -/
inductive ValueType where
  | bool
  | int
  | float
  | str
  | enum (e : EnumType)
  | object (o : ObjectTypeOf ValueType)
  | list (item : ValueType)

abbrev Constructor := ConstructorOf ValueType

abbrev StaticMethod := StaticMethodOf ValueType

abbrev ObjectType := ObjectTypeOf ValueType

namespace StaticMethodOf

variable {τ : Type}

def isInPlace (m : StaticMethodOf τ) : Bool :=
  match m.body with
  | .returning _ => false
  | .inPlace _ => true

end StaticMethodOf

namespace ObjectTypeOf

variable {τ : Type}

/-- All overloads of a static method. -/
def staticsNamed (o : ObjectTypeOf τ) (name : String) : List (StaticMethodOf τ) :=
  o.statics.filter fun m => m.name == name

end ObjectTypeOf

namespace ValueType

/-- The name of a type in messages. -/
def name : ValueType → String
  | .bool => "bool"
  | .int => "int"
  | .float => "float"
  | .str => "string"
  | .enum e => e.name
  | .object o => o.name
  | .list item => "list<" ++ item.name ++ ">"

def isCollection : ValueType → Bool
  | .list _ => true
  | _ => false

/-- The item type of a list type. -/
def item? : ValueType → Option ValueType
  | .list item => some item
  | _ => none

/-- What a property of this type holds when no default is declared. The zero of an enum has ordinal
    zero, whether a member has it or not; the zero of an object type is null. -/
def zero : ValueType → Value
  | .bool => .bool false
  | .int => .int 0
  | .float => .float .zero
  | .str => .str ""
  | .enum e => .enum e.name 0
  | .object _ => .null
  | .list _ => .list []

/-- The first object type without equality in a type. -/
def missingEquality? : ValueType → Option ObjectType
  | .object o => if o.hasEquality then none else some o
  | .list item => item.missingEquality?
  | _ => none

def supportsEquality : ValueType → Bool
  | .object o => o.hasEquality
  | .list item => item.supportsEquality
  | _ => true

/-- Whether two types are the same: enums and object types by their names. -/
def same : ValueType → ValueType → Bool
  | .bool, .bool => true
  | .int, .int => true
  | .float, .float => true
  | .str, .str => true
  | .enum e, .enum f => e.name == f.name
  | .object o, .object p => o.name == p.name
  | .list item, .list other => item.same other
  | _, _ => false

theorem supportsEquality_eq_isNone :
    (ty : ValueType) → ty.supportsEquality = ty.missingEquality?.isNone
  | .object o => by
    simp only [supportsEquality, missingEquality?]
    split <;> simp_all
  | .list item => by
    simpa only [supportsEquality, missingEquality?] using supportsEquality_eq_isNone item
  | .bool | .int | .float | .str | .enum _ => rfl

end ValueType

end SettingsForge
