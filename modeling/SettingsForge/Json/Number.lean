import SettingsForge.Decimal.Layout
import SettingsForge.Decimal.Scaled

set_option autoImplicit false

/-! # Number literals

A number literal is a sign, a whole part without needless zeros, and perhaps a fraction and an
exponent. It stands for an integer only when it is written as one and is not minus zero. It stands for
a double by its leading digits, as many as fit into sixty four bits, scaled by a power of ten; a
literal that scales to infinity stands for none. -/

namespace SettingsForge

/-- The value of a decimal digit. -/
def digitValue? (c : Char) : Option Nat :=
  if '0' ≤ c ∧ c ≤ '9' then some (c.toNat - '0'.toNat) else none

def isDigit (c : Char) : Bool := (digitValue? c).isSome

/-- The number that digits spell. -/
def digitsValue (cs : List Char) : Nat :=
  cs.foldl (fun n c => n * 10 + (digitValue? c).getD 0) 0

/-- A number as it is written: the digits before the point, those after it when there is one, and the
    exponent when there is one. -/
structure NumberLiteral where
  negative : Bool
  whole : List Char
  fraction : Option (List Char)
  power : Option Int
  deriving DecidableEq, Repr

namespace NumberLiteral

/-- Read one or more digits and nothing else. -/
def digits? (cs : List Char) : Option Nat :=
  if cs.isEmpty || !cs.all isDigit then none else some (digitsValue cs)

/-- Read the exponent after its letter: a sign or none, and digits. -/
def exponent? : List Char → Option Int
  | '+' :: cs => (digits? cs).map fun n => (n : Int)
  | '-' :: cs => (digits? cs).map fun n => -(n : Int)
  | cs => (digits? cs).map fun n => (n : Int)

/-- The characters up to the first that satisfies `stop`, and those after it if there is one. -/
def splitAt (stop : Char → Bool) : List Char → List Char × Option (List Char)
  | [] => ([], none)
  | c :: cs =>
    if stop c then ([], some cs)
    else let (before, after) := splitAt stop cs; (c :: before, after)

/-- Whether the whole part has no needless zero at its start. -/
def isCanonicalWhole (whole : List Char) : Bool := whole.length == 1 || whole.head? != some '0'

/-- Read a literal after its sign. -/
def unsigned? (negative : Bool) (cs : List Char) : Option NumberLiteral := do
  let (mantissa, power) := splitAt (fun c => c == 'e' || c == 'E') cs
  let (whole, fraction) := splitAt (· == '.') mantissa
  let _ ← digits? whole
  if !isCanonicalWhole whole then none
  if let some places := fraction then let _ ← digits? places
  let power ← match power with
    | some after => (exponent? after).map some
    | none => some none
  return ⟨negative, whole, fraction, power⟩

/-- Read a literal. -/
def ofChars? : List Char → Option NumberLiteral
  | '-' :: cs => unsigned? true cs
  | cs => unsigned? false cs

/-- Whether a literal is written as an integer. -/
def isWhole (literal : NumberLiteral) : Bool := literal.fraction.isNone && literal.power.isNone

/-- The natural number that a literal without a minus is written as. -/
def nat? (literal : NumberLiteral) : Option Nat :=
  if literal.isWhole && !literal.negative then some (digitsValue literal.whole) else none

/-- The integer that a literal stands for, within sixty four bits. -/
def int? (literal : NumberLiteral) : Option Int64 :=
  let n := digitsValue literal.whole
  let i : Int := if literal.negative then -(n : Int) else n
  if literal.isWhole && !(literal.negative && n == 0) &&
      Int64.minValue.toInt ≤ i && i ≤ Int64.maxValue.toInt then some (Int64.ofInt i)
  else none

/-- The largest significand. -/
def maxSignificand : Nat := Nat.pow 2 64 - 1

/-- Append digits to a significand up to the first that takes it beyond `maxSignificand`, and count
    those left. -/
def append : Nat → List Char → Nat × Nat
  | n, [] => (n, 0)
  | n, c :: cs =>
    let longer := n * 10 + (digitValue? c).getD 0
    if longer ≤ maxSignificand then append longer cs else (n, cs.length + 1)

/-- The double that a literal stands for, if it is finite. A whole digit that is left counts as a
    power of ten, a decimal place that is left counts for nothing. -/
def float? (literal : NumberLiteral) : Option Binary64 :=
  let places := literal.fraction.getD []
  let (start, wholeLeft) := append 0 literal.whole
  let (significand, placesLeft) := append start places
  let exponent : Int := literal.power.getD 0 + wholeLeft + placesLeft - places.length
  let x := Binary64.scaled literal.negative significand exponent
  if x.isFinite then some x else none

end NumberLiteral

end SettingsForge
