import SettingsForge.Decimal.Reading

set_option autoImplicit false

/-! # The fewest digits that read back

`Decimal.shortest` writes a finite magnitude with the fewest decimal digits that `Binary64.ofDecimal`
reads back as the same number. Candidates of each length are the two neighbours of the value on the
grid of that many digits; of two that read back the nearer wins, and a tie goes as `TieRule` says.
Every answer is one that reads back: when no candidate does, the exact expansion is taken. -/

namespace SettingsForge

/-- Which of two decimals at equal distance is taken. -/
inductive TieRule where
  | up
  | toEven
  deriving DecidableEq, Repr

/-- The number `digits · 10^exponent`. -/
structure Decimal where
  digits : Nat
  exponent : Int
  deriving DecidableEq, Repr

namespace Decimal

/-- `num / den` in units of `10^exponent`, as a numerator and a denominator. -/
def scaled (num den : Nat) (exponent : Int) : Nat × Nat :=
  if 0 ≤ exponent then (num, den * Nat.pow 10 exponent.toNat)
  else (num * Nat.pow 10 (-exponent).toNat, den)

/-- Where the decimal point stands: the least `p` with `m · 2^-1074 < 10^p`, of a positive count
    `m` of units. -/
def pointOf (m : Nat) : Int :=
  (decimalLength (m * Nat.pow 10 324 / Binary64.unitsOfOne) : Int) - 324

/-- Whether a decimal reads back as the number with this magnitude. -/
def readsAs (magnitude : Nat) (d : Decimal) : Bool :=
  Binary64.ofDecimal false d.digits d.exponent == Binary64.signed false magnitude

/-- The better of the two neighbours of a value on the grid `10^exponent` that read back. -/
def onGrid (tie : TieRule) (magnitude : Nat) (exponent : Int) : Option Decimal :=
  let (num, den) := scaled (Binary64.units magnitude) Binary64.unitsOfOne exponent
  let low : Decimal := ⟨num / den, exponent⟩
  let high : Decimal := ⟨num / den + 1, exponent⟩
  match readsAs magnitude low, readsAs magnitude high with
  | false, false => none
  | true, false => some low
  | false, true => some high
  | true, true =>
    let rest := 2 * (num % den)
    if rest < den then some low
    else if den < rest then some high
    else match tie with
      | .up => some high
      | .toEven => some (if low.digits % 2 = 0 then low else high)

/-- Try grids from `length` digits on, at most `fuel` of them. -/
def firstGrid (tie : TieRule) (magnitude : Nat) (point : Int) : Nat → Nat → Option Decimal
  | 0, _ => none
  | fuel + 1, length =>
    match onGrid tie magnitude (point - length) with
    | some d => some d
    | none => firstGrid tie magnitude point fuel (length + 1)

/-- The exact expansion of a magnitude: `m · 2^-1074 = m · 5^1074 · 10^-1074`. -/
def exact (magnitude : Nat) : Decimal := ⟨Binary64.units magnitude * Nat.pow 5 1074, -1074⟩

/-- Drop zeros at the end of the digits, at most `fuel` of them. -/
def dropZeros : Nat → Decimal → Decimal
  | 0, d => d
  | fuel + 1, d =>
    if d.digits ≠ 0 ∧ d.digits % 10 = 0 then dropZeros fuel ⟨d.digits / 10, d.exponent + 1⟩ else d

/-- The decimal with the fewest digits, seventeen at most, that reads back as the finite number of
    this magnitude. -/
def shortest (tie : TieRule) (magnitude : Nat) : Decimal :=
  if magnitude = 0 then ⟨0, 0⟩
  else
    let found := firstGrid tie magnitude (pointOf (Binary64.units magnitude)) 17 1
    dropZeros 20 (found.getD (exact magnitude))

end Decimal

end SettingsForge
