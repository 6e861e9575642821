import Mathlib.Order.Monotone.Basic
import Mathlib.Tactic.Ring
import SettingsForge.Binary64

set_option autoImplicit false

/-! # Nearest magnitudes

Values ascend with their magnitudes (`Binary64.strictMono_units`), so the search for the largest
magnitude below a ratio finds it (`Binary64.le_floorMagnitude_iff`). Hence the nearest magnitude depends
on the ratio alone and ascends with it (`Binary64.nearestMagnitude_mono`), and every value is nearest to
itself (`Binary64.nearestMagnitude_units`). -/

namespace SettingsForge

namespace Binary64

/-! ## Values of magnitudes -/

theorem binade_pos : 0 < binade := by decide

/-- At the start of a binade. -/
theorem units_mul_binade {q : Nat} (h : 0 < q) : units (q * binade) = binade * 2 ^ (q - 1) := by
  unfold units
  rw [if_neg (Nat.not_lt.2 (Nat.le_mul_of_pos_left binade h)), Nat.mul_mod_left, Nat.add_zero,
    Nat.mul_div_cancel _ binade_pos]
  rfl

theorem units_of_le {m : Nat} (h : binade ≤ m) :
    units m = (binade + m % binade) * 2 ^ (m / binade - 1) := by
  unfold units
  rw [if_neg (Nat.not_lt.2 h)]
  rfl

theorem units_lt_succ (m : Nat) : units m < units (m + 1) := by
  have pos := binade_pos
  by_cases small : m < binade
  · rw [units_of_lt small]
    by_cases next : m + 1 < binade
    · rw [units_of_lt next]
      exact Nat.lt_succ_self m
    · obtain same : m + 1 = 1 * binade := by omega
      rw [same, units_mul_binade Nat.one_pos]
      simpa using small
  · have le := Nat.le_of_not_lt small
    rw [units_of_le le, units_of_le (Nat.le_succ_of_le le)]
    have low : m % binade < binade := Nat.mod_lt m pos
    have high : 0 < m / binade := Nat.div_pos le pos
    by_cases inside : m % binade + 1 < binade
    · have quotient : (m + 1) / binade = m / binade := by
        rw [Nat.succ_div]
        split
        · next divides =>
          rw [Nat.dvd_iff_mod_eq_zero, Nat.add_mod, Nat.mod_eq_of_lt (a := 1) (by omega),
            Nat.mod_eq_of_lt inside] at divides
          omega
        · rfl
      have rest : (m + 1) % binade = m % binade + 1 := by
        rw [Nat.add_mod, Nat.mod_eq_of_lt (a := 1) (by omega), Nat.mod_eq_of_lt inside]
      rw [quotient, rest]
      exact Nat.mul_lt_mul_of_pos_right (by omega) (Nat.two_pow_pos _)
    · -- the next binade begins, where steps are twice as wide
      have divides : binade ∣ m + 1 := by
        refine ⟨m / binade + 1, ?_⟩
        have := Nat.div_add_mod m binade
        rw [Nat.mul_add]
        omega
      rw [Nat.succ_div_of_dvd divides, Nat.mod_eq_zero_of_dvd divides, Nat.add_zero,
        Nat.add_sub_cancel]
      obtain ⟨q, hq⟩ := Nat.exists_eq_succ_of_ne_zero (Nat.pos_iff_ne_zero.1 high)
      rw [hq, Nat.succ_sub_one, Nat.succ_eq_add_one, Nat.pow_succ, Nat.mul_comm (2 ^ q) 2,
        ← Nat.mul_assoc]
      exact Nat.mul_lt_mul_of_pos_right (by omega) (Nat.two_pow_pos _)

theorem strictMono_units : StrictMono units := strictMono_nat_of_lt_succ units_lt_succ

theorem unitsOfOne_eq {n : Nat} (h : n = 1074) : unitsOfOne = 2 ^ n := by
  unfold unitsOfOne
  rw [← h]
  rfl

theorem unitsOfOne_pos : 0 < unitsOfOne := by
  obtain ⟨n, one⟩ : ∃ n, unitsOfOne = 2 ^ n := ⟨1074, unitsOfOne_eq rfl⟩
  rw [one]
  exact Nat.two_pow_pos n

/-- Infinity takes the place of `2 ^ 1024`. -/
theorem units_infinity {n : Nat} (h : n = 1024) : units infinity = 2 ^ n * unitsOfOne := by
  obtain ⟨k, hk⟩ : ∃ k, k = 1074 := ⟨_, rfl⟩
  obtain ⟨e, he⟩ : ∃ e, 2047 - 1 = e := ⟨_, rfl⟩
  rw [infinity, units_mul_binade (by decide), he, unitsOfOne_eq hk, ← Nat.pow_add]
  show 2 ^ 52 * 2 ^ e = 2 ^ (n + k)
  rw [← Nat.pow_add]
  congr 1
  omega

/-! ## The largest magnitude below a ratio -/

/-- The magnitude is at most the ratio. -/
def Below (num den m : Nat) : Prop := m ≤ infinity ∧ units m * den ≤ num * unitsOfOne

theorem Below.mono {num den m n : Nat} (h : Below num den n) (le : m ≤ n) : Below num den m :=
  ⟨Nat.le_trans le h.1,
    Nat.le_trans (Nat.mul_le_mul_right den (strictMono_units.monotone le)) h.2⟩

/-- The search keeps what is low enough and leaves out nothing else. -/
theorem floorFrom_spec (num den bits base : Nat) (low : Below num den base) :
    Below num den (floorFrom num den bits base) ∧
      ∀ m, floorFrom num den bits base < m → m < base + 2 ^ bits → ¬ Below num den m := by
  induction bits generalizing base with
  | zero => exact ⟨low, fun m lt lt' => by rw [floorFrom] at lt; omega⟩
  | succ bits ih =>
      have raised : Nat.pow 2 bits = 2 ^ bits := rfl
      have double : 2 ^ (bits + 1) = 2 ^ bits + 2 ^ bits := by rw [Nat.pow_succ]; omega
      rw [floorFrom, raised]
      split
      · next low' =>
        obtain ⟨low, beyond⟩ := ih (base + 2 ^ bits) low'
        exact ⟨low, fun m lt lt' => beyond m lt (by omega)⟩
      · next high =>
        obtain ⟨low, beyond⟩ := ih base low
        refine ⟨low, fun m lt lt' below => ?_⟩
        by_cases near : m < base + 2 ^ bits
        · exact beyond m lt near below
        · exact high (below.mono (Nat.le_of_not_lt near))

theorem le_floorMagnitude_iff {num den m : Nat} :
    m ≤ floorMagnitude num den ↔ Below num den m := by
  have zero : units 0 = 0 := units_of_lt binade_pos
  obtain ⟨low, beyond⟩ := floorFrom_spec num den 63 0 ⟨Nat.zero_le _, by rw [zero]; simp⟩
  refine ⟨low.mono, fun below => Nat.le_of_not_lt fun lt => ?_⟩
  have range : infinity < 0 + 2 ^ 63 := by decide
  exact beyond m lt (Nat.lt_of_le_of_lt below.1 range) below

/-- Ratios, compared by their cross products, are ordered. -/
theorem cross_le_trans {a b c d e f : Nat} (pos : 0 < d) (first : a * d ≤ c * b)
    (second : c * f ≤ e * d) : a * f ≤ e * b := by
  refine Nat.le_of_mul_le_mul_right ?_ pos
  calc a * f * d
      = a * d * f := Nat.mul_right_comm ..
    _ ≤ c * b * f := Nat.mul_le_mul_right f first
    _ = c * f * b := Nat.mul_right_comm ..
    _ ≤ e * d * b := Nat.mul_le_mul_right b second
    _ = e * b * d := Nat.mul_right_comm ..

theorem floorMagnitude_mono {num den num' den' : Nat} (pos : 0 < den)
    (le : num * den' ≤ num' * den) : floorMagnitude num den ≤ floorMagnitude num' den' := by
  obtain ⟨range, low⟩ := le_floorMagnitude_iff.1 (Nat.le_refl (floorMagnitude num den))
  exact le_floorMagnitude_iff.2 ⟨range, cross_le_trans pos low le⟩

/-! ## The nearest magnitude -/

theorem floorMagnitude_le_nearest (num den : Nat) :
    floorMagnitude num den ≤ nearestMagnitude num den := by
  unfold nearestMagnitude
  dsimp only
  split
  · exact Nat.le_refl _
  · split <;> omega

theorem nearest_le_floorMagnitude_succ (num den : Nat) :
    nearestMagnitude num den ≤ floorMagnitude num den + 1 := by
  unfold nearestMagnitude
  dsimp only
  split
  · exact Nat.le_succ _
  · split <;> omega

/-- Larger ratios are nearest to larger magnitudes. -/
theorem nearestMagnitude_mono {num den num' den' : Nat} (pos : 0 < den) (pos' : 0 < den')
    (le : num * den' ≤ num' * den) : nearestMagnitude num den ≤ nearestMagnitude num' den' := by
  rcases Nat.lt_or_eq_of_le (floorMagnitude_mono pos le) with lt | eq
  · exact Nat.le_trans (nearest_le_floorMagnitude_succ num den)
      (Nat.le_trans lt (floorMagnitude_le_nearest num' den'))
  -- between the same two magnitudes the comparison with their middle decides
  · have twice_le : 2 * num * unitsOfOne * den' ≤ 2 * num' * unitsOfOne * den := by
      have doubled := Nat.mul_le_mul_left (2 * unitsOfOne) le
      calc 2 * num * unitsOfOne * den'
          = 2 * unitsOfOne * (num * den') := by ring
        _ ≤ 2 * unitsOfOne * (num' * den) := doubled
        _ = 2 * num' * unitsOfOne * den := by ring
    unfold nearestMagnitude
    dsimp only
    rw [← eq]
    generalize 2 * num * unitsOfOne = twice at twice_le ⊢
    generalize 2 * num' * unitsOfOne = twice' at twice_le ⊢
    generalize floorMagnitude num den = low
    generalize units low + units (low + 1) = s
    by_cases below : twice' < s * den'
    · have still : twice < s * den := by
        by_contra above
        have above' := @cross_le_trans s 1 twice den twice' den' pos (by omega) twice_le
        omega
      rw [if_pos below, if_pos still]
    · by_cases above : s * den' < twice'
      · rw [if_neg below, if_pos above]
        split <;> [skip; split] <;> omega
      · have still := @cross_le_trans twice den twice' den' s 1 pos' twice_le (by omega)
        rw [if_neg below, if_neg above, if_neg (show ¬ s * den < twice by omega)]
        split <;> omega

/-- Only the ratio counts. -/
theorem nearestMagnitude_congr {num den num' den' : Nat} (pos : 0 < den) (pos' : 0 < den')
    (eq : num * den' = num' * den) : nearestMagnitude num den = nearestMagnitude num' den' :=
  Nat.le_antisymm (nearestMagnitude_mono pos pos' (Nat.le_of_eq eq))
    (nearestMagnitude_mono pos' pos (Nat.le_of_eq eq.symm))

theorem floorMagnitude_units {m : Nat} (h : m ≤ infinity) : floorMagnitude (units m) unitsOfOne = m := by
  refine Nat.le_antisymm ?_ (le_floorMagnitude_iff.2 ⟨h, Nat.le_refl _⟩)
  obtain ⟨-, low⟩ := le_floorMagnitude_iff.1 (Nat.le_refl (floorMagnitude (units m) unitsOfOne))
  exact strictMono_units.le_iff_le.1 (Nat.le_of_mul_le_mul_right low unitsOfOne_pos)

/-- The value of a magnitude is nearest to that magnitude. -/
theorem nearestMagnitude_units {m : Nat} (h : m ≤ infinity) :
    nearestMagnitude (units m) unitsOfOne = m := by
  unfold nearestMagnitude
  dsimp only
  rw [floorMagnitude_units h, if_pos]
  have ascends := units_lt_succ m
  exact Nat.mul_lt_mul_of_pos_right (by omega) unitsOfOne_pos

/-- Any ratio with this value is. -/
theorem nearestMagnitude_of_value {num den m : Nat} (h : m ≤ infinity) (pos : 0 < den)
    (eq : num * unitsOfOne = units m * den) : nearestMagnitude num den = m := by
  rw [nearestMagnitude_congr pos unitsOfOne_pos eq, nearestMagnitude_units h]

theorem le_nearestMagnitude {num den m : Nat} (h : m ≤ infinity) (pos : 0 < den)
    (le : units m * den ≤ num * unitsOfOne) : m ≤ nearestMagnitude num den := by
  rw [← nearestMagnitude_units h]
  exact nearestMagnitude_mono unitsOfOne_pos pos le

theorem nearestMagnitude_le {num den m : Nat} (h : m ≤ infinity) (pos : 0 < den)
    (le : num * unitsOfOne ≤ units m * den) : nearestMagnitude num den ≤ m := by
  rw [← @nearestMagnitude_units m h]
  exact nearestMagnitude_mono pos unitsOfOne_pos le

theorem nearestMagnitude_zero {den : Nat} (pos : 0 < den) : nearestMagnitude 0 den = 0 :=
  Nat.le_zero.1 (nearestMagnitude_le (Nat.zero_le _) pos (by simp))

end Binary64

end SettingsForge
