import SettingsForge.Initializer.Basic
import SettingsForge.Journal
import SettingsForge.Schema.Basic
import SettingsForge.ValueType.Catalog
import SettingsForge.ValueType.Overload

set_option autoImplicit false

/-! # Resolving default strategies

A declared strategy is resolved once for a schema: a constant is converted to the property's type, a
call is bound to the one overload that takes its arguments best. A type is looked up in the catalog
first; the property's own object type is known without it. -/

namespace SettingsForge.Initializer

/-- The arguments as the parameters want them. -/
def convertArgs : List ValueType → List Value → List Value
  | p :: params, a :: args => (p.coerce a).getD a :: convertArgs params args
  | _, _ => []

/-- The named type in the catalog, or the property's own object type of that name. -/
def lookup? (type : ValueType) (typeName : String) (catalog : Catalog) : Option ObjectType :=
  match catalog.find? typeName with
  | some o => some o
  | none =>
    match type with
    | .object own => if own.name == typeName then some own else none
    | _ => none

/-- Whether a type is an object type of this name. -/
def isObjectNamed (type : ValueType) (name : String) : Bool :=
  match type with
  | .object own => own.name == name
  | _ => false

/-! ## Constructor calls -/

/-- Bind a constructor call for a property of this type. -/
def ofConstructor (type : ValueType) (typeName : String) (args : List Value) (catalog : Catalog) :
    Except SettingsError Initializer :=
  let fail (reason : String) : Except SettingsError Initializer :=
    .error (.constructorResolutionFailed typeName args.length reason)
  match lookup? type typeName catalog with
  | none => .error (.unknownType typeName)
  | some target =>
    if target.isAbstract then fail "type is abstract"
    else if !isObjectNamed type target.name then
      fail ("produces " ++ target.name ++ ", property is " ++ type.name)
    else
      match selectOverload (target.constructors.map ConstructorOf.params) args with
      | .error e => fail e.message
      | .ok position =>
        match target.constructors[position]? with
        | some c => .ok (.construct c.build (convertArgs c.params args))
        | none => fail OverloadError.noMatch.message

/-! ## Static calls -/

/-- The method among candidates that takes the arguments best. -/
def pick (candidates : List StaticMethod) (args : List Value) :
    Except OverloadError StaticMethod :=
  match selectOverload (candidates.map StaticMethodOf.params) args with
  | .error e => .error e
  | .ok position =>
    match candidates[position]? with
    | some m => .ok m
    | none => .error .noMatch

/-- Whether a method of a host makes or changes values of exactly this type. -/
def makes (type : ValueType) (host : String) (m : StaticMethod) : Bool :=
  match m.valueType with
  | some made => made.same type
  | none => isObjectNamed type host

/-- The best method of the preferred form, or of the other one when none of the preferred form takes
    the arguments. Lists prefer methods that change in place, other types methods that return. -/
def pickMethod (type : ValueType) (candidates : List StaticMethod) (args : List Value) :
    Except OverloadError StaticMethod :=
  let inPlace := candidates.filter fun m => m.isInPlace
  let returning := candidates.filter fun m => !m.isInPlace
  let (preferred, fallback) :=
    if type.isCollection then (inPlace, returning) else (returning, inPlace)
  match pick preferred args with
  | .error .noMatch => pick fallback args
  | answer => answer

/-- Bind a static call for a property of this type. -/
def ofStatic (type : ValueType) (typeName method : String) (args : List Value)
    (catalog : Catalog) : Except SettingsError Initializer :=
  let fail (reason : String) : Except SettingsError Initializer :=
    .error (.defaultResolutionFailed typeName method reason)
  match lookup? type typeName catalog with
  | none => fail "unknown type"
  | some host =>
    match pickMethod type ((host.staticsNamed method).filter (makes type host.name)) args with
    | .error e => fail e.message
    | .ok m =>
      let converted := convertArgs m.params args
      match m.body with
      | .returning call => .ok (.staticReturning call converted)
      | .inPlace call => .ok (.staticInPlace call converted)

/-! ## Properties -/

/-- The strategy that a property of a schema may use, with the property's type; none when the zero of
    the type is left. -/
def declared? (schema : String) (p : Property) :
    Except SettingsError (Option (ValueType × DefaultStrategy)) :=
  if 1 < p.defaults.length then
    .error (.conflictingDefaults schema p.name p.defaults.length)
  else
    match p.type with
    | .dict _ => if p.defaults.isEmpty then .ok none else .error (.unsupportedDefault schema p.name)
    | .value type =>
      match type.item? with
      | some (.object item) =>
        if item.isAbstract then .error (.unconstructibleCollection schema p.name item.name)
        else .ok (p.defaults.head?.map fun strategy => (type, strategy))
      | _ => .ok (p.defaults.head?.map fun strategy => (type, strategy))

/-- Bind a strategy for a property of this type. -/
def ofStrategy (schema : String) (property : String) (type : ValueType) (catalog : Catalog) :
    DefaultStrategy → Except SettingsError Initializer
  | .constant value =>
    match type.coerce value with
    | some converted => .ok (.assign converted)
    | none => .error (.constantNotConvertible schema property type.name)
  | .construct typeName args => ofConstructor type typeName args catalog
  | .staticCall typeName method args => ofStatic type typeName method args catalog

/-- The initializer of a property of a schema. -/
def resolve (schema : String) (p : Property) (catalog : Catalog) :
    Except SettingsError Initializer :=
  match declared? schema p with
  | .error e => .error e
  | .ok none => .ok .zero
  | .ok (some (type, strategy)) => ofStrategy schema p.name type catalog strategy

/-- What resolving a property writes down: that a strategy is being resolved. -/
def journalOf (schema : String) (p : Property) : List JournalEntry :=
  match declared? schema p with
  | .ok (some (_, strategy)) => [.defaultResolving schema p.name strategy.label]
  | _ => []

/-- The initializers of properties in order, up to the first error. -/
def resolveAll (schema : String) (catalog : Catalog) :
    List Property → Except SettingsError (List Initializer)
  | [] => .ok []
  | p :: properties =>
    match resolve schema p catalog with
    | .error e => .error e
    | .ok initializer => (resolveAll schema catalog properties).map (initializer :: ·)

/-- What resolving properties writes down, up to the first error. -/
def journalOfAll (schema : String) (catalog : Catalog) : List Property → List JournalEntry
  | [] => []
  | p :: properties =>
    journalOf schema p ++
      match resolve schema p catalog with
      | .error _ => []
      | .ok _ => journalOfAll schema catalog properties

end SettingsForge.Initializer
