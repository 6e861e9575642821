import SettingsForge.Error.Basic

set_option autoImplicit false

/-! # Diagnoses

A diagnosis classifies an error by a stable code and keeps what it is about: the operation, the schema
and the property, each if there is one. -/

namespace SettingsForge

/-- The classes of errors. -/
inductive Diagnosis.Kind where
  | duplicateProperty
  | invalidInput
  | defaultResolution
  | conflictingDefaults
  | notFound
  | unconstructible
  | missingEquality
  | readOnlyViolation
  | nullSource
  | schemaMismatch
  | typeMismatch
  | notObservable
  | alreadyExists
  | internal
  deriving DecidableEq, Repr

namespace Diagnosis.Kind

/-- The name of a class. -/
def name : Kind → String
  | .duplicateProperty => "DuplicateProperty"
  | .invalidInput => "InvalidInput"
  | .defaultResolution => "DefaultResolution"
  | .conflictingDefaults => "ConflictingDefaults"
  | .notFound => "NotFound"
  | .unconstructible => "Unconstructible"
  | .missingEquality => "MissingEquality"
  | .readOnlyViolation => "ReadOnlyViolation"
  | .nullSource => "NullSource"
  | .schemaMismatch => "SchemaMismatch"
  | .typeMismatch => "TypeMismatch"
  | .notObservable => "NotObservable"
  | .alreadyExists => "AlreadyExists"
  | .internal => "Internal"

/-- The stable code of a class. -/
def code : Kind → String
  | .duplicateProperty => "ERR_DUPLICATE_PROPERTY"
  | .invalidInput => "ERR_INVALID_INPUT"
  | .defaultResolution => "ERR_DEFAULT_RESOLUTION"
  | .conflictingDefaults => "ERR_CONFLICTING_DEFAULTS"
  | .notFound => "ERR_NOT_FOUND"
  | .unconstructible => "ERR_UNCONSTRUCTIBLE"
  | .missingEquality => "ERR_MISSING_EQUALITY"
  | .readOnlyViolation => "ERR_READ_ONLY_VIOLATION"
  | .nullSource => "ERR_NULL_SOURCE"
  | .schemaMismatch => "ERR_SCHEMA_MISMATCH"
  | .typeMismatch => "ERR_TYPE_MISMATCH"
  | .notObservable => "ERR_NOT_OBSERVABLE"
  | .alreadyExists => "ERR_ALREADY_EXISTS"
  | .internal => "ERR_INTERNAL"

/-- All classes. -/
def all : List Kind :=
  [.duplicateProperty, .invalidInput, .defaultResolution, .conflictingDefaults, .notFound,
    .unconstructible, .missingEquality, .readOnlyViolation, .nullSource, .schemaMismatch,
    .typeMismatch, .notObservable, .alreadyExists, .internal]

/-- The class of a name. -/
def ofName? (s : String) : Option Kind := all.find? fun kind => kind.name == s

end Diagnosis.Kind

/-- An error by its class, with what it is about. -/
inductive Diagnosis where
  | mk (kind : Diagnosis.Kind) (op schema property : Option String) (message : String)
    (source : Option Diagnosis)

namespace Diagnosis

/-- A diagnosis that says nothing but its class. -/
def ofKind (kind : Kind) : Diagnosis := .mk kind none none none "" none

def kind : Diagnosis → Kind
  | .mk kind .. => kind

def op : Diagnosis → Option String
  | .mk _ op .. => op

def schema : Diagnosis → Option String
  | .mk _ _ schema .. => schema

def property : Diagnosis → Option String
  | .mk _ _ _ property .. => property

def message : Diagnosis → String
  | .mk _ _ _ _ message _ => message

/-- The diagnosis of the error behind this one. -/
def source : Diagnosis → Option Diagnosis
  | .mk _ _ _ _ _ source => source

def code (d : Diagnosis) : String := d.kind.code

/-! ## Adding context -/

def withOp (op : String) : Diagnosis → Diagnosis
  | .mk kind _ schema property message source => .mk kind (some op) schema property message source

def withSchema (schema : String) : Diagnosis → Diagnosis
  | .mk kind op _ property message source => .mk kind op (some schema) property message source

def withProperty (property : String) : Diagnosis → Diagnosis
  | .mk kind op schema _ message source => .mk kind op schema (some property) message source

def withMessage (message : String) : Diagnosis → Diagnosis
  | .mk kind op schema property _ source => .mk kind op schema property message source

/-- The diagnosis with another one behind it. -/
def withSource : Diagnosis → Diagnosis → Diagnosis
  | .mk kind op schema property message _, source =>
    .mk kind op schema property message (some source)

/-! ## Text -/

/-- A piece of text around an optional part, nothing without it. -/
def optionalText (before after : String) : Option String → String
  | some s => before ++ s ++ after
  | none => ""

/-- The text of a diagnosis: its code, then all context it has. -/
def display (d : Diagnosis) : String :=
  "[" ++ d.code ++ "]" ++ optionalText " in operation '" "'" d.op ++
    (if d.message.isEmpty then "" else ": " ++ d.message) ++
    optionalText " (schema: " ")" d.schema ++ optionalText " (property: " ")" d.property

/-! ## Diagnoses of errors -/

/-- The diagnosis of an error. -/
def ofError : SettingsError → Diagnosis
  | .duplicateProperty schema property =>
    .mk .duplicateProperty none (some schema) (some property)
      "Property name repeated across inheritance chain" none
  | .invalidSchema reason => .mk .invalidInput none none none reason none
  | .defaultResolutionFailed typeName method reason =>
    .mk .defaultResolution none none none
      ("default-value resolution failed: " ++ typeName ++ "." ++ method ++ " (" ++ reason ++ ")")
      none
  | .conflictingDefaults schema property count =>
    .mk .conflictingDefaults none (some schema) (some property)
      ("conflicting default-value declarations (" ++ natText count ++ " declared)") none
  | .constructorResolutionFailed typeName arity reason =>
    .mk .defaultResolution none none none
      ("No constructor " ++ typeName ++ "/" ++ natText arity ++ ": " ++ reason) none
  | .unknownType typeName =>
    .mk .notFound none none none ("Type not in catalog: " ++ typeName) none
  | .constantNotConvertible schema property expected =>
    .mk .defaultResolution none (some schema) (some property)
      ("Constant not convertible to " ++ expected) none
  | .unconstructibleCollection schema property itemType =>
    .mk .unconstructible none (some schema) (some property)
      ("Item type " ++ itemType ++ " cannot be constructed") none
  | .missingEquality schema property typeName =>
    .mk .missingEquality none (some schema) (some property)
      ("Type " ++ typeName ++ " has no equality") none
  | .unsupportedDefault schema property =>
    .mk .invalidInput none (some schema) (some property)
      "Dictionary properties cannot declare a default" none
  | .readOnlyViolation schema target =>
    .mk .readOnlyViolation none (some schema) (some target) "Instance is read-only" none
  | .nullSource schema =>
    .mk .nullSource (some "copy") (some schema) none "Copy source is missing" none
  | .schemaMismatch expected actual =>
    .mk .schemaMismatch none (some expected) none ("Source schema is " ++ actual) none
  | .unknownProperty schema property =>
    .mk .notFound none (some schema) (some property) "Unknown property" none
  | .typeMismatch schema property expected actual =>
    .mk .typeMismatch none (some schema) (some property)
      ("Expected " ++ expected ++ ", got " ++ actual) none
  | .propertyShapeMismatch schema property expected actual =>
    .mk .typeMismatch none (some schema) (some property)
      ("Property is a " ++ actual ++ ", not a " ++ expected) none
  | .notObservable schema kind =>
    .mk .notObservable none (some schema) none
      ("Kind " ++ kind.name ++ " has no notification channel") none
  | .duplicateKey property key =>
    .mk .alreadyExists none none (some property) ("Key already exists: " ++ key) none
  | .indexOutOfRange property index length =>
    .mk .invalidInput none none (some property)
      ("Index " ++ natText index ++ " out of range (len " ++ natText length ++ ")") none
  | .internal message => .mk .internal none none none message none

end Diagnosis

end SettingsForge
