import SettingsForge.Decimal.Layout
import SettingsForge.Kind

set_option autoImplicit false

/-! # Errors

Everything that can go wrong, by its cause. Generation errors belong to a schema: while it has one,
no instance of it is made. The others arise when schemas are built or instances are used. -/

namespace SettingsForge

inductive SettingsError where
  | duplicateProperty (schema property : String)
  | invalidSchema (reason : String)
  | defaultResolutionFailed (typeName method reason : String)
  | conflictingDefaults (schema property : String) (count : Nat)
  | constructorResolutionFailed (typeName : String) (arity : Nat) (reason : String)
  | unknownType (typeName : String)
  | constantNotConvertible (schema property expected : String)
  | unconstructibleCollection (schema property itemType : String)
  | missingEquality (schema property typeName : String)
  | unsupportedDefault (schema property : String)
  | readOnlyViolation (schema target : String)
  | nullSource (schema : String)
  | schemaMismatch (expected actual : String)
  | unknownProperty (schema property : String)
  | typeMismatch (schema property expected actual : String)
  | propertyShapeMismatch (schema property expected actual : String)
  | notObservable (schema : String) (kind : Kind)
  | duplicateKey (property key : String)
  | indexOutOfRange (property : String) (index length : Nat)
  | internal (message : String)
  deriving DecidableEq, Repr

namespace SettingsError

/-- The text of an error. -/
def message : SettingsError → String
  | .duplicateProperty schema property =>
    "Duplicate property '" ++ property ++ "' in schema " ++ schema
  | .invalidSchema reason => "Invalid schema: " ++ reason
  | .defaultResolutionFailed typeName method _ =>
    "default-value resolution failed: " ++ typeName ++ "." ++ method
  | .conflictingDefaults schema property _ =>
    "conflicting default-value declarations on " ++ schema ++ "." ++ property
  | .constructorResolutionFailed typeName arity _ =>
    "constructor resolution failed: " ++ typeName ++ " with " ++ natText arity ++ " argument(s)"
  | .unknownType typeName => "Unknown type: " ++ typeName
  | .constantNotConvertible schema property expected =>
    "Constant for " ++ schema ++ "." ++ property ++ " is not convertible to " ++ expected
  | .unconstructibleCollection schema property itemType =>
    "Collection " ++ schema ++ "." ++ property ++ " has item type " ++ itemType ++
      " that cannot be constructed"
  | .missingEquality schema property typeName =>
    "Property " ++ schema ++ "." ++ property ++ " of type " ++ typeName ++
      " lacks equality required by observable variants"
  | .unsupportedDefault schema property =>
    "Default-value strategy not supported on dictionary property " ++ schema ++ "." ++ property
  | .readOnlyViolation schema target =>
    "Read-only violation: cannot modify " ++ target ++ " on read-only " ++ schema
  | .nullSource schema => "Null source: copy into " ++ schema ++ " requires a source instance"
  | .schemaMismatch expected actual =>
    "Schema mismatch: expected " ++ expected ++ ", got " ++ actual
  | .unknownProperty schema property =>
    "Unknown property '" ++ property ++ "' on schema " ++ schema
  | .typeMismatch schema property expected actual =>
    "Type mismatch on " ++ schema ++ "." ++ property ++ ": expected " ++ expected ++ ", got " ++
      actual
  | .propertyShapeMismatch schema property expected actual =>
    "Property " ++ schema ++ "." ++ property ++ " is a " ++ actual ++ ", not a " ++ expected
  | .notObservable schema kind =>
    schema ++ " (" ++ kind.name ++ ") does not support change notification"
  | .duplicateKey property key => "Key already exists in " ++ property ++ ": " ++ key
  | .indexOutOfRange property index length =>
    "Index " ++ natText index ++ " out of range for " ++ property ++ " (len " ++ natText length ++
      ")"
  | .internal message => "Internal error: " ++ message

/-- Whether an error arises while a schema is resolved. -/
def isGeneration : SettingsError → Bool
  | .defaultResolutionFailed .. | .conflictingDefaults .. | .constructorResolutionFailed ..
  | .unknownType .. | .constantNotConvertible .. | .unconstructibleCollection ..
  | .missingEquality .. | .unsupportedDefault .. => true
  | _ => false

end SettingsError

end SettingsForge
