import SettingsForge.Decimal.Shortest
import SettingsForge.Proofs.Decimal.Magnitudes

set_option autoImplicit false

/-! # Decimals that read back

What a decimal reads as depends on its value alone (`Binary64.ofDecimal_shift`): zeros may be moved
between the digits and the exponent, also across the exponents that are answered without a power. So
dropping zeros at the end of the digits changes nothing, and the decimal with the fewest digits reads
back as the number that it was made for (`Decimal.readsAs_shortest`), whether a grid had it or the exact
expansion was taken. -/

namespace SettingsForge

/-! ## Values of decimals -/

theorem decimalLength_mul_ten {n : Nat} (h : n ≠ 0) : decimalLength (n * 10) = decimalLength n + 1 := by
  rw [decimalLength, if_neg (by omega), Nat.mul_div_cancel n (by decide)]

namespace Binary64

theorem signed_of_infinity_le (negative : Bool) {m : Nat} (h : infinity ≤ m) :
    signed negative m = signed negative infinity := by
  unfold signed
  simp [Nat.min_eq_right h]

theorem signed_inj {negative : Bool} {m n : Nat} (hm : m ≤ infinity) (hn : n ≤ infinity) :
    signed negative m = signed negative n ↔ m = n := by
  unfold signed
  simp [Nat.min_eq_left hm, Nat.min_eq_left hn]

/-- Two ratios that are the same read as the same. -/
theorem ofRatio_congr (negative : Bool) {num den num' den' : Nat} (pos : 0 < den) (pos' : 0 < den')
    (eq : num * den' = num' * den) : ofRatio negative num den = ofRatio negative num' den' := by
  unfold ofRatio
  rw [nearestMagnitude_congr pos pos' eq]

theorem tenPow_pos (n : Nat) : 0 < Nat.pow 10 n := Nat.pow_pos (by decide)

theorem two_pow_le_tenPow {n k : Nat} (h : n ≤ 3 * k) : 2 ^ n ≤ Nat.pow 10 k :=
  calc 2 ^ n ≤ 2 ^ (3 * k) := Nat.pow_le_pow_right (by decide) h
    _ = 8 ^ k := Nat.pow_mul 2 3 k
    _ ≤ 10 ^ k := Nat.pow_le_pow_left (by decide) k

/-- Multiples of large powers of ten are beyond the doubles. -/
theorem ofRatio_of_beyond (negative : Bool) {n k : Nat} (h : n ≠ 0) (large : 400 ≤ k) :
    ofRatio negative (n * Nat.pow 10 k) 1 = signed negative infinity := by
  obtain ⟨b, width⟩ : ∃ b, b = 1024 := ⟨_, rfl⟩
  refine signed_of_infinity_le negative (le_nearestMagnitude (Nat.le_refl _) Nat.one_pos ?_)
  calc units infinity * 1
      = 2 ^ b * unitsOfOne := by rw [units_infinity width, Nat.mul_one]
    _ ≤ Nat.pow 10 k * unitsOfOne := Nat.mul_le_mul_right _ (two_pow_le_tenPow (by omega))
    _ ≤ n * Nat.pow 10 k * unitsOfOne :=
        Nat.mul_le_mul_right _ (Nat.le_mul_of_pos_left _ (Nat.pos_of_ne_zero h))

/-- A zero may be moved from the exponent to the digits. -/
theorem ofDecimal_mul_ten (negative : Bool) (n : Nat) (e : Int) :
    ofDecimal negative (n * 10) (e - 1) = ofDecimal negative n e := by
  by_cases zero : n = 0
  · rw [zero]
    rfl
  have length := decimalLength_mul_ten zero
  unfold ofDecimal
  rw [if_neg (by omega), if_neg zero, length]
  by_cases huge : 400 < e
  · rw [if_pos huge]
    by_cases still : 400 < e - 1
    · rw [if_pos still]
    · rw [if_neg still, if_neg (by omega), if_pos (by omega)]
      exact ofRatio_of_beyond negative (by omega) (by omega)
  rw [if_neg huge, if_neg (by omega)]
  by_cases tiny : e + decimalLength n < -1100
  · rw [if_pos tiny, if_pos (by omega)]
  rw [if_neg tiny, if_neg (by omega)]
  rcases Int.lt_or_le e 0 with below | from_zero
  · rw [if_neg (by omega), if_neg (by omega)]
    refine ofRatio_congr negative (tenPow_pos _) (tenPow_pos _) ?_
    obtain ⟨k, rfl⟩ : ∃ k : Nat, e = -(k : Int) := ⟨(-e).toNat, by omega⟩
    rw [show (-(-(k : Int))).toNat = k by omega, show (-(-(k : Int) - 1)).toNat = k + 1 by omega]
    show n * 10 * 10 ^ k = n * 10 ^ (k + 1)
    rw [Nat.pow_succ, Nat.mul_assoc, Nat.mul_comm 10]
  · rcases Int.lt_or_le 0 e with above | at_zero
    · rw [if_pos (by omega), if_pos from_zero]
      obtain ⟨k, rfl⟩ : ∃ k : Nat, e = k + 1 := ⟨(e - 1).toNat, by omega⟩
      refine ofRatio_congr negative Nat.one_pos Nat.one_pos ?_
      rw [show ((k : Int) + 1 - 1).toNat = k by omega, show ((k : Int) + 1).toNat = k + 1 by omega]
      show n * 10 * 10 ^ k * 1 = n * 10 ^ (k + 1) * 1
      rw [Nat.pow_succ, Nat.mul_assoc n, Nat.mul_comm 10]
    · obtain rfl : e = 0 := by omega
      refine ofRatio_congr negative (tenPow_pos _) Nat.one_pos ?_
      show n * 10 * 1 = n * 1 * 10
      omega

/-- Zeros may be moved from the exponent to the digits. -/
theorem ofDecimal_shift (negative : Bool) (n k : Nat) (e : Int) :
    ofDecimal negative (n * 10 ^ k) (e - k) = ofDecimal negative n e := by
  induction k with
  | zero => rw [Nat.pow_zero, Nat.mul_one, Int.natCast_zero, Int.sub_zero]
  | succ k ih =>
      rw [Nat.pow_succ, ← Nat.mul_assoc, ← ih, ← ofDecimal_mul_ten negative (n * 10 ^ k) (e - k)]
      congr 1
      omega

/-- Among these exponents the power is always computed. -/
theorem ofDecimal_of_range (negative : Bool) (n : Nat) {e : Int} (least : -1100 ≤ e)
    (greatest : e ≤ 400) :
    ofDecimal negative n e = if 0 ≤ e then ofRatio negative (n * Nat.pow 10 e.toNat) 1
      else ofRatio negative n (Nat.pow 10 (-e).toNat) := by
  unfold ofDecimal
  by_cases zero : n = 0
  · rw [if_pos zero, zero, Nat.zero_mul, ofRatio, ofRatio, nearestMagnitude_zero Nat.one_pos,
      nearestMagnitude_zero (tenPow_pos _), ite_self]
  · rw [if_neg zero, if_neg (by omega), if_neg (by omega)]

/-- The exact expansion of a magnitude reads as the number with it. -/
theorem ofDecimal_units_mul (negative : Bool) {k m : Nat} (power : k = 1074) (range : m ≤ infinity) :
    ofDecimal negative (units m * Nat.pow 5 k) (-k) = signed negative m := by
  have ten : Nat.pow 5 k * 2 ^ k = Nat.pow 10 k := (Nat.mul_pow 5 2 k).symm
  have same : units m * Nat.pow 5 k * unitsOfOne = units m * Nat.pow 10 k := by
    rw [unitsOfOne_eq power, Nat.mul_assoc, ten]
  rw [ofDecimal_of_range negative _ (by omega) (by omega), if_neg (by omega), ofRatio,
    show (-(-(k : Int))).toNat = k by omega, nearestMagnitude_of_value range (tenPow_pos k) same]

/-- The sign is only passed on. -/
theorem exists_ofDecimal (n : Nat) (e : Int) :
    ∃ m, ∀ negative, ofDecimal negative n e = signed negative m := by
  unfold ofDecimal ofRatio
  split
  · exact ⟨_, fun _ => rfl⟩
  · split
    · exact ⟨_, fun _ => rfl⟩
    · split
      · exact ⟨_, fun _ => rfl⟩
      · split <;> exact ⟨_, fun _ => rfl⟩

end Binary64

namespace Decimal

open Binary64

theorem readsAs_iff {m : Nat} {d : Decimal} :
    readsAs m d = true ↔ ∀ negative, ofDecimal negative d.digits d.exponent = signed negative m := by
  unfold readsAs
  rw [beq_iff_eq]
  refine ⟨fun reads negative => ?_, fun reads => reads false⟩
  obtain ⟨n, eq⟩ := exists_ofDecimal d.digits d.exponent
  rw [eq] at reads ⊢
  have same : min n infinity = min m infinity := by simpa [signed] using reads
  simp [signed, same]

theorem readsAs_zero : readsAs 0 ⟨0, 0⟩ = true := rfl

/-- Only zero is written with no digit but zeros. -/
theorem digits_ne_zero {m : Nat} {d : Decimal} (h : readsAs m d = true) (pos : m ≠ 0)
    (range : m ≤ infinity) : d.digits ≠ 0 := by
  intro zero
  have reads := readsAs_iff.1 h false
  rw [zero, ofDecimal, if_pos rfl] at reads
  exact pos ((signed_inj (Nat.zero_le _) range).1 reads).symm

/-! ## The fewest digits -/

theorem readsAs_onGrid {tie : TieRule} {m : Nat} {e : Int} {d : Decimal}
    (h : onGrid tie m e = some d) : readsAs m d = true := by
  unfold onGrid at h
  dsimp only at h
  split at h
  · cases h
  · next low _ =>
    cases h
    exact low
  · next _ high =>
    cases h
    exact high
  · next low high =>
    split at h
    · cases h
      exact low
    · split at h
      · cases h
        exact high
      · cases tie
        · cases h
          exact high
        · cases h
          split
          · exact low
          · exact high

theorem readsAs_firstGrid {tie : TieRule} {m : Nat} {point : Int} {d : Decimal} {fuel length : Nat}
    (h : firstGrid tie m point fuel length = some d) : readsAs m d = true := by
  induction fuel generalizing length with
  | zero => cases h
  | succ fuel ih =>
      rw [firstGrid] at h
      split at h
      · next found =>
        cases h
        exact readsAs_onGrid found
      · exact ih h

theorem exact_eq {k : Nat} (power : k = 1074) (m : Nat) : exact m = ⟨units m * Nat.pow 5 k, -k⟩ := by
  rw [exact, ← power]
  congr 1
  omega

/-- The exact expansion is the number. -/
theorem readsAs_exact {m : Nat} (range : m ≤ infinity) : readsAs m (exact m) = true := by
  obtain ⟨k, power⟩ : ∃ k, k = 1074 := ⟨_, rfl⟩
  rw [exact_eq power]
  exact beq_iff_eq.2 (ofDecimal_units_mul false power range)

theorem readsAs_dropZeros {m fuel : Nat} {d : Decimal} (h : readsAs m d = true) :
    readsAs m (dropZeros fuel d) = true := by
  induction fuel generalizing d with
  | zero => exact h
  | succ fuel ih =>
      rw [dropZeros]
      split
      · next zero =>
        refine ih (readsAs_iff.2 fun negative => ?_)
        rw [← readsAs_iff.1 h negative, ← ofDecimal_mul_ten, Nat.div_mul_cancel
          (Nat.dvd_of_mod_eq_zero zero.2), Int.add_sub_cancel]
      · exact h

/-- What is written with the fewest digits reads back. -/
theorem readsAs_shortest (tie : TieRule) {m : Nat} (range : m ≤ infinity) :
    readsAs m (shortest tie m) = true := by
  unfold shortest
  by_cases zero : m = 0
  · rw [if_pos zero, zero]
    exact readsAs_zero
  · rw [if_neg zero]
    refine readsAs_dropZeros ?_
    cases found : firstGrid tie m (pointOf (units m)) 17 1 with
    | none => exact readsAs_exact range
    | some d => exact readsAs_firstGrid found

end Decimal

end SettingsForge
