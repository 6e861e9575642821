import SettingsForge.Value.Display
import SettingsForge.ValueType.Fit

set_option autoImplicit false

/-! # Initializers

An initializer is a default strategy after its types and overloads are found. It makes the first value
of a property every time an instance is made (`Initializer.produce`). -/

namespace SettingsForge

inductive Initializer where
  /-- Leave the zero of the type. -/
  | zero
  | assign (value : Value)
  | construct (build : List Value → Value) (args : List Value)
  | staticReturning (call : List Value → Value) (args : List Value)
  /-- Let a method change the zero of the type. -/
  | staticInPlace (call : Value → List Value → Value) (args : List Value)

/-- Convert a value that fits a type only by conversion; leave any other as it is. -/
def ValueType.conform (type : ValueType) (value : Value) : Value :=
  match type.fit value with
  | some .converted => (type.coerce value).getD value
  | _ => value

namespace Initializer

/-- The first value of a property of this type. -/
def produce (initializer : Initializer) (type : ValueType) : Value :=
  match initializer with
  | .zero => type.zero
  | .assign value => value
  | .construct build args => type.conform (build args)
  | .staticReturning call args => type.conform (call args)
  | .staticInPlace call args => call type.zero args

/-- The arguments as they are passed, or the constant as it is assigned. -/
def args : Initializer → List Value
  | .zero => []
  | .assign value => [value]
  | .construct _ args => args
  | .staticReturning _ args => args
  | .staticInPlace _ args => args

/-- The debug text of an initializer. -/
def debug : Initializer → String
  | .zero => "Zero"
  | .assign value => "Assign(" ++ value.debug ++ ")"
  | .construct _ args => "Construct \x7b args: " ++ Value.debugList args ++ " \x7d"
  | .staticReturning _ args => "StaticReturning \x7b args: " ++ Value.debugList args ++ " \x7d"
  | .staticInPlace _ args => "StaticInPlace \x7b args: " ++ Value.debugList args ++ " \x7d"

end Initializer

end SettingsForge
