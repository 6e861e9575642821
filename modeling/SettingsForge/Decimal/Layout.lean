import SettingsForge.Decimal.Shortest

set_option autoImplicit false

/-! # Layouts of numbers

A layout says how the digits of a number are set out: where positional writing ends and an exponent
begins, whether a whole number keeps a fraction, and how an exponent is signed. The three layouts of
this library are `NumberLayout.display`, `NumberLayout.debug` and `NumberLayout.json`. -/

namespace SettingsForge

/-! ## Digits -/

/-- The character of a decimal digit. -/
def digitChar (d : Nat) : Char := Char.ofNat ('0'.toNat + d)

/-- The decimal digits of a natural number, without leading zeros. -/
def decimalDigits (n : Nat) : List Char :=
  if n < 10 then [digitChar n] else decimalDigits (n / 10) ++ [digitChar (n % 10)]

/-- A natural number in decimal. -/
def natText (n : Nat) : String := String.ofList (decimalDigits n)

/-- The characters of an integer in decimal. -/
def intChars (i : Int) : List Char :=
  if i < 0 then '-' :: decimalDigits i.natAbs else decimalDigits i.natAbs

/-- An integer in decimal. -/
def intText (i : Int) : String := String.ofList (intChars i)

theorem decimalDigits_of_lt {n : Nat} (h : n < 10) : decimalDigits n = [digitChar n] := by
  rw [decimalDigits, if_pos h]

theorem decimalDigits_of_le {n : Nat} (h : 10 ≤ n) :
    decimalDigits n = decimalDigits (n / 10) ++ [digitChar (n % 10)] := by
  rw [decimalDigits, if_neg (Nat.not_lt.2 h)]

/-! ## Layouts -/

/-- How a finite number is set out. -/
structure NumberLayout where
  /-- Which of two equally near shortest decimals is written. -/
  tie : TieRule
  /-- The least and greatest position of the decimal point, counted from the first digit, that are
      written without an exponent. Every number is, when there is no range. -/
  positional : Option (Int × Int)
  /-- Whether a whole number ends in `.0`. -/
  keepsFraction : Bool
  /-- Whether a positive exponent has a plus sign. -/
  signsExponent : Bool
  deriving DecidableEq, Repr

namespace NumberLayout

/-- Display text never has an exponent, and whole numbers have no fraction. -/
def display : NumberLayout := ⟨.up, none, false, false⟩

/-- Debug text is positional from `10^-4` up to below `10^16`. -/
def debug : NumberLayout := ⟨.up, some (-3, 16), true, false⟩

/-- Number text of JSON is positional from `10^-5` up to below `10^16`. -/
def json : NumberLayout := ⟨.toEven, some (-4, 16), true, true⟩

/-- Digits around a decimal point that stands `point` places after the first digit. -/
def positionalChars (layout : NumberLayout) (digits : List Char) (point : Int) : List Char :=
  if point ≤ 0 then '0' :: '.' :: (List.replicate (-point).toNat '0' ++ digits)
  else if digits.length ≤ point.toNat then
    digits ++ List.replicate (point.toNat - digits.length) '0' ++
      (if layout.keepsFraction then ['.', '0'] else [])
  else digits.take point.toNat ++ '.' :: digits.drop point.toNat

/-- One digit, a fraction if there are more, and the exponent. -/
def exponentChars (layout : NumberLayout) (digits : List Char) (point : Int) : List Char :=
  let fraction := digits.drop 1
  digits.take 1 ++ (if fraction.isEmpty then [] else '.' :: fraction) ++
    'e' :: ((if layout.signsExponent && 0 ≤ point - 1 then ['+'] else []) ++ intChars (point - 1))

/-- A decimal in this layout. -/
def decimalChars (layout : NumberLayout) (d : Decimal) : List Char :=
  let digits := decimalDigits d.digits
  let point := (digits.length : Int) + d.exponent
  match layout.positional with
  | none => positionalChars layout digits point
  | some (least, greatest) =>
    if least ≤ point ∧ point ≤ greatest then positionalChars layout digits point
    else exponentChars layout digits point

/-- A double in this layout; infinities and not-a-number are words. -/
def chars (layout : NumberLayout) : Binary64 → List Char
  | .nan => ['N', 'a', 'N']
  | .number negative m =>
    (if negative then ['-'] else []) ++
      (if m.val < Binary64.infinity then decimalChars layout (Decimal.shortest layout.tie m.val)
       else ['i', 'n', 'f'])

/-- A double as text in this layout. -/
def text (layout : NumberLayout) (x : Binary64) : String := String.ofList (layout.chars x)

end NumberLayout

end SettingsForge
