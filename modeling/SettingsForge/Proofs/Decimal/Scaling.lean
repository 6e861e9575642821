import SettingsForge.Decimal.Scaled
import SettingsForge.Proofs.Decimal.ReadingBack

set_option autoImplicit false

/-! # Scaling in steps

Scaling in steps rounds at every step and so can be off the nearest double. It finds the nearest one when
the significand and the power of ten are doubles themselves (`Binary64.scaled_eq_ofDecimal`). -/

namespace SettingsForge

namespace Binary64

/-! ## Whole numbers -/

theorem units_mul_binade_add {q r : Nat} (hq : 0 < q) (hr : r < binade) :
    units (q * binade + r) = (binade + r) * 2 ^ (q - 1) := by
  have le : binade ≤ q * binade + r := Nat.le_add_right_of_le (Nat.le_mul_of_pos_left binade hq)
  rw [units_of_le le, Nat.mul_comm q, Nat.mul_add_mod, Nat.mod_eq_of_lt hr,
    Nat.mul_add_div binade_pos, Nat.div_eq_of_lt hr, Nat.add_zero]

/-- A whole number is a double when nothing but zeros follows its first fifty three binary digits. -/
theorem units_nearestMagnitude_mul {s j : Nat} (few : s < 2 ^ 53) (zeros : j ≤ 900) :
    units (nearestMagnitude (s * 2 ^ j) 1) = s * 2 ^ j * unitsOfOne := by
  by_cases zero : s = 0
  · rw [zero, Nat.zero_mul, nearestMagnitude_zero Nat.one_pos, Nat.zero_mul]
    rfl
  -- the first digit is brought to the place that every binade has for it
  obtain ⟨k, low, high⟩ : ∃ k, 2 ^ k ≤ s ∧ s < 2 ^ (k + 1) :=
    ⟨Nat.log2 s, Nat.log2_self_le zero, Nat.lt_log2_self⟩
  have places : k ≤ 52 :=
    Nat.le_of_lt_succ ((Nat.pow_lt_pow_iff_right (by decide)).1 (Nat.lt_of_le_of_lt low few))
  have filled : binade ≤ s * 2 ^ (52 - k) ∧ s * 2 ^ (52 - k) < binade + binade := by
    have lower := Nat.mul_le_mul_right (2 ^ (52 - k)) low
    have upper := Nat.mul_lt_mul_of_pos_right high (Nat.two_pow_pos (52 - k))
    rw [← Nat.pow_add, show k + (52 - k) = 52 by omega] at lower
    rw [← Nat.pow_add, show k + 1 + (52 - k) = 53 by omega] at upper
    exact ⟨lower, upper⟩
  obtain ⟨r, mantissa⟩ := Nat.exists_eq_add_of_le filled.1
  have rest : r < binade := by omega
  have value : s * 2 ^ j * unitsOfOne = units ((1023 + j + k) * binade + r) * 1 := by
    have one : 2 ^ j * unitsOfOne = 2 ^ (52 - k) * 2 ^ (1023 + j + k - 1) := by
      rw [unitsOfOne_eq rfl, ← Nat.pow_add, ← Nat.pow_add]
      congr 1
      omega
    rw [units_mul_binade_add (by omega) rest, ← mantissa, Nat.mul_one, Nat.mul_assoc, one,
      Nat.mul_assoc]
  have range : (1023 + j + k) * binade + r ≤ infinity := by
    have := Nat.mul_le_mul_right binade (show 1023 + j + k + 1 ≤ 2047 by omega)
    rw [Nat.succ_mul] at this
    unfold infinity
    omega
  rw [nearestMagnitude_of_value range Nat.one_pos value, value, Nat.mul_one]

theorem units_nearestMagnitude {s : Nat} (few : s < 2 ^ 53) :
    units (nearestMagnitude s 1) = s * unitsOfOne := by
  have whole := units_nearestMagnitude_mul few (Nat.zero_le 900)
  rwa [Nat.pow_zero, Nat.mul_one] at whole

/-- Powers of ten are doubles up to the twenty-second, whose power of five still has few digits. -/
theorem units_tenTo {n : Nat} (h : n < 23) : units (tenTo n) = Nat.pow 10 n * unitsOfOne := by
  have five : 5 ^ n < 2 ^ 53 :=
    Nat.lt_of_le_of_lt (Nat.pow_le_pow_right (by decide) (Nat.le_of_lt_succ h)) (by decide)
  have ten : Nat.pow 10 n = 5 ^ n * 2 ^ n := Nat.mul_pow 5 2 n
  rw [tenTo, ten, units_nearestMagnitude_mul five (by omega)]

/-! ## Exact steps -/

theorem product_of_values {m n s p : Nat} (hm : units m = s * unitsOfOne)
    (hn : units n = p * unitsOfOne) : product m n = nearestMagnitude (s * p) 1 := by
  unfold product
  rw [hm, hn]
  exact nearestMagnitude_congr (Nat.mul_pos unitsOfOne_pos unitsOfOne_pos) Nat.one_pos (by ring)

theorem quotient_of_values {m n s p : Nat} (hm : units m = s * unitsOfOne)
    (hn : units n = p * unitsOfOne) (positive : 0 < p) : quotient m n = nearestMagnitude s p := by
  unfold quotient
  rw [hm, hn]
  exact nearestMagnitude_congr (Nat.mul_pos positive unitsOfOne_pos) positive (by ring)

/-- Scaling rounds only once when the significand and the power of ten are doubles. -/
theorem scaled_eq_ofDecimal (negative : Bool) {s : Nat} {e : Int} (few : s < 2 ^ 53)
    (least : -22 ≤ e) (greatest : e ≤ 22) : scaled negative s e = ofDecimal negative s e := by
  have value := units_nearestMagnitude few
  rw [ofDecimal_of_range negative s (by omega) (by omega)]
  unfold scaled ofRatio
  dsimp only
  split
  · have power : e.toNat < 23 := by omega
    have table : e.toNat ≤ maxPower := Nat.le_trans (Nat.le_of_lt power) (by decide)
    rw [raised, if_pos table, product_of_values value (units_tenTo power)]
  · have power : (-e).toNat < 23 := by omega
    have table : (-e).toNat ≤ maxPower := Nat.le_trans (Nat.le_of_lt power) (by decide)
    rw [lowered, if_pos table, quotient_of_values value (units_tenTo power) (tenPow_pos _)]

end Binary64

end SettingsForge
