import SettingsForge.ValueType.Fit

set_option autoImplicit false

/-! # Choosing an overload

An overload accepts arguments when it has as many parameters and every argument fits. Of those that
accept, `selectOverload` takes the one that needs the fewest conversions, and none when several tie. -/

namespace SettingsForge

/-- Why no single overload is chosen. -/
inductive OverloadError where
  | noMatch
  | ambiguous
  deriving DecidableEq, Repr

def OverloadError.message : OverloadError → String
  | .noMatch => "no overload matches the arguments"
  | .ambiguous => "more than one overload matches equally well"

/-- How many arguments fit their parameters only by conversion; none when the parameters do not
    accept the arguments. -/
def conversions? : List ValueType → List Value → Option Nat
  | [], [] => some 0
  | p :: params, a :: args =>
    match p.fit a with
    | none => none
    | some .exact => conversions? params args
    | some .converted => (conversions? params args).map (· + 1)
  | _, _ => none

/-- The accepting overloads by position, with their conversions. -/
def acceptingOverloads (overloads : List (List ValueType)) (args : List Value) :
    List (Nat × Nat) :=
  overloads.zipIdx.filterMap fun overload =>
    (conversions? overload.1 args).map fun n => (overload.2, n)

/-- The position of the one overload that accepts the arguments with the fewest conversions. -/
def selectOverload (overloads : List (List ValueType)) (args : List Value) :
    Except OverloadError Nat :=
  let accepting := acceptingOverloads overloads args
  match (accepting.map Prod.snd).min? with
  | none => .error .noMatch
  | some best =>
    match accepting.filter fun overload => overload.2 == best with
    | [(position, _)] => .ok position
    | _ => .error .ambiguous

end SettingsForge
