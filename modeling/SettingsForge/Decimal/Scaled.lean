import SettingsForge.Binary64

set_option autoImplicit false

/-! # Scaling by powers of ten

`Binary64.scaled` takes a whole number times a power of ten to a double in steps, each of which rounds:
the number, the power, and their product or quotient. The result can be a unit off the nearest double,
which `Binary64.ofDecimal` finds. -/

namespace SettingsForge.Binary64

/-- The exponent of the largest power of ten below infinity. -/
def maxPower : Nat := 308

/-- The magnitude nearest to a power of ten. -/
def tenTo (n : Nat) : Nat := nearestMagnitude (Nat.pow 10 n) 1

/-- The magnitude nearest to a product. -/
def product (m n : Nat) : Nat := nearestMagnitude (units m * units n) (unitsOfOne * unitsOfOne)

/-- The magnitude nearest to a quotient. -/
def quotient (m n : Nat) : Nat := nearestMagnitude (units m) (units n)

/-- A magnitude times `10^n`, infinite when the power is. -/
def raised (m n : Nat) : Nat :=
  if n ≤ maxPower then product m (tenTo n) else if m = 0 then 0 else infinity

/-- A magnitude over `10^n`. A power beyond the doubles is divided out in two parts, and below those
    a number of sixty four bits vanishes. -/
def lowered (m n : Nat) : Nat :=
  if n ≤ maxPower then quotient m (tenTo n)
  else if n ≤ 2 * maxPower then quotient (quotient m (tenTo maxPower)) (tenTo (n - maxPower))
  else 0

/-- The double reached from `significand · 10^exponent`, rounding at every step. -/
def scaled (negative : Bool) (significand : Nat) (exponent : Int) : Binary64 :=
  let m := nearestMagnitude significand 1
  signed negative
    (if 0 ≤ exponent then raised m exponent.toNat else lowered m (-exponent).toNat)

end SettingsForge.Binary64
