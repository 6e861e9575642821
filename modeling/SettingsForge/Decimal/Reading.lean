import SettingsForge.Binary64

set_option autoImplicit false

/-! # Reading decimals

`Binary64.ofDecimal` is the double nearest to `digits · 10^exponent`. Exponents far outside the range
of doubles are answered without computing the power. -/

namespace SettingsForge

/-- The number of decimal digits of a natural number, one for zero. -/
def decimalLength (n : Nat) : Nat :=
  if n < 10 then 1 else decimalLength (n / 10) + 1

namespace Binary64

/-- The double nearest to `digits · 10^exponent`. Above `10^400` every number but zero is infinite,
    below `10^-1100` every number is zero. -/
def ofDecimal (negative : Bool) (digits : Nat) (exponent : Int) : Binary64 :=
  if digits = 0 then signed negative 0
  else if 400 < exponent then signed negative infinity
  else if exponent + decimalLength digits < -1100 then signed negative 0
  else if 0 ≤ exponent then ofRatio negative (digits * Nat.pow 10 exponent.toNat) 1
  else ofRatio negative digits (Nat.pow 10 (-exponent).toNat)

end Binary64

end SettingsForge
