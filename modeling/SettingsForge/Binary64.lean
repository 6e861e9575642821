set_option autoImplicit false

/-! # Double precision numbers

A double is either the one not-a-number or a sign with a *magnitude*, the position of the absolute
value in the ascending list `0, 2^-1074, 2 · 2^-1074, …, infinity`. The position is what the sixty
three low bits of the interchange format spell, so neighbouring magnitudes are neighbouring numbers.

`Binary64.units` gives the value behind a magnitude as an exact count of `2^-1074`, and
`Binary64.ofRatio` finds the nearest magnitude of any ratio. Both are arithmetic on `Nat`. -/

namespace SettingsForge

/-- How many magnitudes each binade has. -/
def Binary64.binade : Nat := Nat.pow 2 52

/-- The magnitude of infinity, one past the largest finite one. -/
def Binary64.infinity : Nat := 2047 * binade

/-- A double precision number. All not-a-numbers are one value. -/
inductive Binary64 where
  | nan
  | number (negative : Bool) (magnitude : Fin (Binary64.infinity + 1))
  deriving DecidableEq, Repr

namespace Binary64

/-! ## Magnitudes -/

/-- The absolute value at a magnitude, counted in `2^-1074`. In the first binade magnitudes count the
    units themselves; from the third one on each binade doubles the step of the one before. -/
def units (magnitude : Nat) : Nat :=
  if magnitude < binade then magnitude
  else (binade + magnitude % binade) * Nat.pow 2 (magnitude / binade - 1)

/-- How many units make one. -/
def unitsOfOne : Nat := Nat.pow 2 1074

/-- The number with a sign and a magnitude; beyond the last one it is infinite. -/
def signed (negative : Bool) (magnitude : Nat) : Binary64 :=
  .number negative ⟨min magnitude infinity, Nat.lt_succ_of_le (Nat.min_le_right _ _)⟩

def isFinite : Binary64 → Bool
  | .nan => false
  | .number _ m => m.val < infinity

def zero : Binary64 := .number false 0

/-! ## Words of the interchange format -/

/-- The value of the sign's bit. -/
def signBit : Nat := Nat.pow 2 63

/-- Read the sixty four bits of the interchange format. -/
def ofBits (bits : Nat) : Binary64 :=
  if infinity < bits % signBit then .nan else signed (bits / signBit % 2 == 1) (bits % signBit)

/-- The bits of a number, none of not-a-number, which has many. -/
def toBits? : Binary64 → Option Nat
  | .nan => none
  | .number negative m => some ((if negative then signBit else 0) + m.val)

/-! ## Comparison -/

/-- Numeric equality: the zeros are equal whatever their sign, not-a-number equals nothing. -/
def equals : Binary64 → Binary64 → Bool
  | .number s m, .number t n => m == n && (s == t || m.val == 0)
  | _, _ => false

/-! ## Rounding -/

/-- The largest magnitude up to infinity whose value is at most `num / den`, found bit by bit from
    the bit `2^bits` downwards. `base` is already known to be low enough. -/
def floorFrom (num den : Nat) : Nat → Nat → Nat
  | 0, base => base
  | bits + 1, base =>
    let raised := base + Nat.pow 2 bits
    if raised ≤ infinity ∧ units raised * den ≤ num * unitsOfOne then floorFrom num den bits raised
    else floorFrom num den bits base

/-- The largest magnitude whose value is at most `num / den`. -/
def floorMagnitude (num den : Nat) : Nat := floorFrom num den 63 0

/-- The magnitude nearest to `num / den`, the even one of two at equal distance. Infinity takes the
    place of `2^1024` in the comparison. -/
def nearestMagnitude (num den : Nat) : Nat :=
  let low := floorMagnitude num den
  let twice := 2 * num * unitsOfOne
  let middle := (units low + units (low + 1)) * den
  if twice < middle then low
  else if middle < twice then low + 1
  else low + low % 2

/-- The double nearest to the ratio `num / den` with the given sign. -/
def ofRatio (negative : Bool) (num den : Nat) : Binary64 :=
  signed negative (nearestMagnitude num den)

/-- The double nearest to an integer. -/
def ofInt (i : Int) : Binary64 := ofRatio (i < 0) i.natAbs 1

/-! ## Equations -/

@[simp] theorem units_of_lt {m : Nat} (h : m < binade) : units m = m := by
  unfold units
  rw [if_pos h]

@[simp] theorem equals_nan_left (x : Binary64) : equals .nan x = false := by cases x <;> rfl

@[simp] theorem equals_nan_right (x : Binary64) : equals x .nan = false := by cases x <;> rfl

theorem equals_comm (x y : Binary64) : equals x y = equals y x := by
  cases x <;> cases y <;> simp only [equals]
  rename_i s m t n
  by_cases h : m = n
  · subst h
    cases s <;> cases t <;> rfl
  · rw [beq_eq_false_iff_ne.2 h, beq_eq_false_iff_ne.2 (Ne.symm h), Bool.false_and, Bool.false_and]

theorem isFinite_number (negative : Bool) (m : Fin (infinity + 1)) :
    isFinite (.number negative m) = true ↔ m.val < infinity := by simp [isFinite]

end Binary64

end SettingsForge
