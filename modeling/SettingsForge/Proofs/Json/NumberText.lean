import Mathlib.Data.List.Induction
import SettingsForge.Proofs.Decimal.Scaling
import SettingsForge.Proofs.Json.Literals

set_option autoImplicit false

/-! # Number text

Every layout sets out a decimal as a number literal with the value of the decimal
(`NumberLayout.exists_spells`). So the number text of a finite double is a literal that the double is the
nearest to (`NumberLayout.nearest_of_chars`). Reading with scaling in steps finds the nearest double where
the digits are few and the power of ten is small (`Binary64.float?_of_short`), but not always. -/

namespace SettingsForge

/-! ## Digits set out -/

theorem digitsValue_zeros_append (k : Nat) (cs : List Char) :
    digitsValue (List.replicate k '0' ++ cs) = digitsValue cs := by
  induction k with
  | zero => rfl
  | succ k ih => exact ih

theorem digitsValue_append_zeros (cs : List Char) (k : Nat) :
    digitsValue (cs ++ List.replicate k '0') = digitsValue cs * 10 ^ k := by
  induction k with
  | zero => simp
  | succ k ih =>
      rw [List.replicate_succ', ← List.append_assoc, digitsValue_append, ih, Nat.pow_succ,
        ← Nat.mul_assoc]
      rfl

namespace NumberLiteral

/-- The digits that a literal is written with, without its point. -/
def significand (literal : NumberLiteral) : Nat :=
  digitsValue (literal.whole ++ literal.fraction.getD [])

/-- The power of ten that its last digit stands for. -/
def exponent (literal : NumberLiteral) : Int :=
  literal.power.getD 0 - (literal.fraction.getD []).length

/-- The double nearest to a literal, rounding once. -/
def nearest (literal : NumberLiteral) : Binary64 :=
  .ofDecimal literal.negative literal.significand literal.exponent

/-- A literal has the value of a decimal, apart from its sign. -/
def HasValue (literal : NumberLiteral) (d : Decimal) : Prop :=
  ∃ k : Nat, literal.significand = d.digits * 10 ^ k ∧ literal.exponent = d.exponent - k

theorem HasValue.nearest {literal : NumberLiteral} {d : Decimal} (value : literal.HasValue d) :
    literal.nearest = .ofDecimal literal.negative d.digits d.exponent := by
  obtain ⟨k, digits, power⟩ := value
  rw [NumberLiteral.nearest, digits, power, Binary64.ofDecimal_shift]

theorem isDigits_replicate_append (k : Nat) {cs : List Char} (digits : IsDigits cs) :
    IsDigits (List.replicate k '0' ++ cs) := by
  refine ⟨by simp [digits.1], fun c mem => ?_⟩
  rcases List.mem_append.1 mem with mem | mem
  · rw [List.eq_of_mem_replicate mem]
    rfl
  · exact digits.2 c mem

theorem isDigits_append_replicate {cs : List Char} (digits : IsDigits cs) (k : Nat) :
    IsDigits (cs ++ List.replicate k '0') := by
  refine ⟨by simp [digits.1], fun c mem => ?_⟩
  rcases List.mem_append.1 mem with mem | mem
  · exact digits.2 c mem
  · rw [List.eq_of_mem_replicate mem]
    rfl

/-- Characters are the parts of a literal with the value of a decimal, put together. -/
structure Spells (cs : List Char) (d : Decimal) (whole : List Char)
    (fraction power : Option (List Char)) : Prop where
  chars : cs = spelled whole fraction power
  digits : IsDigits whole
  canonical : isCanonicalWhole whole = true
  places : ∀ ds ∈ fraction, IsDigits ds
  exponent : ∀ ds ∈ power, (exponent? ds).isSome
  value : ∀ negative, HasValue ⟨negative, whole, fraction, power.bind exponent?⟩ d

theorem Spells.ofChars? {cs : List Char} {d : Decimal} {whole : List Char}
    {fraction power : Option (List Char)} (spells : Spells cs d whole fraction power)
    (negative : Bool) : NumberLiteral.ofChars? ((if negative then ['-'] else []) ++ cs) =
      some ⟨negative, whole, fraction, power.bind exponent?⟩ := by
  rw [spells.chars]
  exact ofChars?_spelled negative spells.digits spells.canonical spells.places spells.exponent

end NumberLiteral

namespace NumberLayout

open NumberLiteral

variable {layout : NumberLayout} {d : Decimal} {point : Int}

/-! ## Positional writing -/

/-- All digits come after the point. -/
theorem spells_below_one (h : point ≤ 0)
    (at_point : point = (decimalDigits d.digits).length + d.exponent) :
    Spells (positionalChars layout (decimalDigits d.digits) point) d ['0']
      (some (List.replicate (-point).toNat '0' ++ decimalDigits d.digits)) none where
  chars := by
    rw [positionalChars, if_pos h]
    simp [spelled]
  digits := ⟨by simp, by simp; rfl⟩
  canonical := rfl
  places ds mem := by
    obtain rfl := Option.mem_some_iff.1 mem
    exact isDigits_replicate_append _ (isDigits_decimalDigits _)
  exponent := nofun
  value negative := by
    have digits : digitsValue ('0' :: (List.replicate (-point).toNat '0' ++ decimalDigits d.digits)) =
        d.digits :=
      (digitsValue_zeros_append ((-point).toNat + 1) _).trans (digitsValue_decimalDigits _)
    refine ⟨0, ?_, ?_⟩
    · rw [Nat.pow_zero, Nat.mul_one]
      exact digits
    · simp [NumberLiteral.exponent]
      omega

/-- All digits come before the point. -/
theorem spells_whole (positive : 0 < point) (h : (decimalDigits d.digits).length ≤ point.toNat)
    (at_point : point = (decimalDigits d.digits).length + d.exponent)
    (normal : d.digits = 0 → d.exponent = 0) :
    Spells (positionalChars layout (decimalDigits d.digits) point) d
      (decimalDigits d.digits ++ List.replicate d.exponent.toNat '0')
      (if layout.keepsFraction then some ['0'] else none) none where
  chars := by
    have zeros : point.toNat - (decimalDigits d.digits).length = d.exponent.toNat := by omega
    rw [positionalChars, if_neg (by omega), if_pos h, zeros]
    cases layout.keepsFraction <;> simp [spelled]
  digits := isDigits_append_replicate (isDigits_decimalDigits _) _
  canonical := by
    by_cases zero : d.digits = 0
    · rw [normal zero, Int.toNat_zero, List.replicate_zero, List.append_nil]
      exact isCanonicalWhole_decimalDigits _
    · refine isCanonicalWhole_of_head? ?_
      rw [List.head?_append_of_ne_nil _ (decimalDigits_ne_nil _)]
      exact head?_decimalDigits zero
  places ds mem := by
    split at mem
    · obtain rfl := Option.mem_some_iff.1 mem
      exact ⟨by simp, by simp; rfl⟩
    · cases mem
  exponent := nofun
  value negative := by
    have digits := digitsValue_append_zeros (decimalDigits d.digits)
    simp only [digitsValue_decimalDigits] at digits
    cases layout.keepsFraction with
    | false =>
        refine ⟨d.exponent.toNat, ?_, ?_⟩
        · simpa [significand] using digits d.exponent.toNat
        · simp [NumberLiteral.exponent]
          omega
    | true =>
        refine ⟨d.exponent.toNat + 1, ?_, ?_⟩
        · have longer := digits (d.exponent.toNat + 1)
          rw [List.replicate_succ', ← List.append_assoc] at longer
          exact longer
        · simp [NumberLiteral.exponent]
          omega

/-- The point stands between two digits. -/
theorem spells_inside (positive : 0 < point) (h : point.toNat < (decimalDigits d.digits).length)
    (at_point : point = (decimalDigits d.digits).length + d.exponent) :
    Spells (positionalChars layout (decimalDigits d.digits) point) d
      ((decimalDigits d.digits).take point.toNat)
      (some ((decimalDigits d.digits).drop point.toNat)) none where
  chars := by
    rw [positionalChars, if_neg (by omega), if_neg (by omega)]
    simp [spelled]
  digits := by
    refine ⟨?_, fun c mem => isDigit_of_mem_decimalDigits (List.mem_of_mem_take mem)⟩
    rw [Ne, List.take_eq_nil_iff]
    exact not_or.2 ⟨by omega, decimalDigits_ne_nil _⟩
  canonical := by
    refine isCanonicalWhole_of_head? ?_
    rw [List.head?_take, if_neg (by omega)]
    refine head?_decimalDigits fun zero => ?_
    rw [zero, decimalDigits_of_lt (by decide), List.length_singleton] at h
    omega
  places ds mem := by
    obtain rfl := Option.mem_some_iff.1 mem
    refine ⟨?_, fun c mem => isDigit_of_mem_decimalDigits (List.mem_of_mem_drop mem)⟩
    rw [Ne, List.drop_eq_nil_iff]
    omega
  exponent := nofun
  value negative := by
    refine ⟨0, ?_, ?_⟩
    · simp [significand, digitsValue_decimalDigits]
    · simp [NumberLiteral.exponent]
      omega

/-! ## Writing with an exponent -/

/-- The exponent after its letter. -/
def powerChars (layout : NumberLayout) (i : Int) : List Char :=
  (if layout.signsExponent && 0 ≤ i then ['+'] else []) ++ intChars i

theorem exponent?_of_isDigits {cs : List Char} (digits : IsDigits cs) :
    exponent? cs = some (digitsValue cs : Int) := by
  have read : digits? cs = some (digitsValue cs) := digits?_eq_some.2 ⟨digits, rfl⟩
  unfold exponent?
  split
  · exact absurd (digits.2 '+' (List.mem_cons_self ..)) (by decide)
  · exact absurd (digits.2 '-' (List.mem_cons_self ..)) (by decide)
  · rw [read]
    rfl

theorem exponent?_powerChars (i : Int) : exponent? (powerChars layout i) = some i := by
  have digits := isDigits_decimalDigits i.natAbs
  have read : digits? (decimalDigits i.natAbs) = some i.natAbs :=
    digits?_eq_some.2 ⟨digits, (digitsValue_decimalDigits _).symm⟩
  unfold powerChars
  rw [intChars_eq]
  by_cases negative : i < 0
  · rw [decide_eq_true negative, if_neg (by simp; omega)]
    have value : (i.natAbs : Int) = -i := Int.ofNat_natAbs_of_nonpos (Int.le_of_lt negative)
    simp [exponent?, read, value]
  · have value : (i.natAbs : Int) = i := Int.natAbs_of_nonneg (Int.not_lt.1 negative)
    rw [decide_eq_false negative]
    split
    · simp [exponent?, read, value]
    · show exponent? (decimalDigits i.natAbs) = _
      rw [exponent?_of_isDigits digits, digitsValue_decimalDigits, value]

theorem spells_exponent (at_point : point = (decimalDigits d.digits).length + d.exponent) :
    Spells (exponentChars layout (decimalDigits d.digits) point) d
      ((decimalDigits d.digits).take 1)
      (if ((decimalDigits d.digits).drop 1).isEmpty then none
        else some ((decimalDigits d.digits).drop 1))
      (some (powerChars layout (point - 1))) where
  chars := by
    unfold exponentChars powerChars spelled
    dsimp only
    by_cases single : ((decimalDigits d.digits).drop 1).isEmpty = true
    · rw [if_pos single, if_pos single, List.append_assoc]
      rfl
    · rw [if_neg single, if_neg single, List.append_assoc]
      rfl
  digits := by
    refine ⟨?_, fun c mem => isDigit_of_mem_decimalDigits (List.mem_of_mem_take mem)⟩
    rw [Ne, List.take_eq_nil_iff]
    exact not_or.2 ⟨by omega, decimalDigits_ne_nil _⟩
  canonical := by
    obtain ⟨c, cs, digits⟩ := List.exists_cons_of_ne_nil (decimalDigits_ne_nil d.digits)
    rw [digits]
    rfl
  places ds mem := by
    split at mem
    · cases mem
    · next nonempty =>
      obtain rfl := Option.mem_some_iff.1 mem
      exact ⟨by simpa using nonempty,
        fun c mem => isDigit_of_mem_decimalDigits (List.mem_of_mem_drop mem)⟩
  exponent ds mem := by
    obtain rfl := Option.mem_some_iff.1 mem
    rw [exponent?_powerChars]
    rfl
  value negative := by
    have value := digitsValue_decimalDigits d.digits
    obtain ⟨c, cs, digits⟩ := List.exists_cons_of_ne_nil (decimalDigits_ne_nil d.digits)
    rw [digits] at value at_point
    rw [Option.bind_some, exponent?_powerChars, digits]
    rw [List.length_cons] at at_point
    have places : ((if (List.drop 1 (c :: cs)).isEmpty then none else some (List.drop 1 (c :: cs))).getD
        []) = cs := by
      cases cs <;> rfl
    refine ⟨0, ?_, ?_⟩
    · rw [significand, places, Nat.pow_zero, Nat.mul_one]
      exact value
    · rw [NumberLiteral.exponent, places, Option.getD_some]
      omega

/-! ## Texts of doubles -/

/-- A layout spells a decimal by a literal of its value. -/
theorem exists_spells (layout : NumberLayout) (d : Decimal) (normal : d.digits = 0 → d.exponent = 0) :
    ∃ whole fraction power, Spells (layout.decimalChars d) d whole fraction power := by
  obtain ⟨point, at_point⟩ :
      ∃ point : Int, point = (decimalDigits d.digits).length + d.exponent := ⟨_, rfl⟩
  have positional : ∃ whole fraction,
      Spells (positionalChars layout (decimalDigits d.digits) point) d whole fraction none := by
    rcases Int.lt_or_le 0 point with positive | below
    · rcases Nat.lt_or_ge point.toNat (decimalDigits d.digits).length with inside | whole
      · exact ⟨_, _, spells_inside positive inside at_point⟩
      · exact ⟨_, _, spells_whole positive whole at_point normal⟩
    · exact ⟨_, _, spells_below_one below at_point⟩
  obtain ⟨whole, fraction, spells⟩ := positional
  unfold decimalChars
  dsimp only
  rw [← at_point]
  split
  · exact ⟨whole, fraction, none, spells⟩
  · split
    · exact ⟨whole, fraction, none, spells⟩
    · exact ⟨_, _, _, spells_exponent at_point⟩

theorem chars_of_finite {negative : Bool} {m : Fin (Binary64.infinity + 1)}
    (finite : m.val < Binary64.infinity) : layout.chars (.number negative m) =
      (if negative then ['-'] else []) ++ layout.decimalChars (Decimal.shortest layout.tie m.val) := by
  rw [chars, if_pos finite]

/-- Zero is written without a power. -/
theorem exponent_shortest {tie : TieRule} {m : Nat} (range : m ≤ Binary64.infinity)
    (zero : (Decimal.shortest tie m).digits = 0) : (Decimal.shortest tie m).exponent = 0 := by
  by_cases h : m = 0
  · rw [h]
    rfl
  · exact absurd zero (Decimal.digits_ne_zero (Decimal.readsAs_shortest tie range) h range)

/-- A finite double is the nearest to its text. -/
theorem nearest_of_chars (layout : NumberLayout) {x : Binary64} (finite : x.isFinite = true) :
    (ofChars? (layout.chars x)).map nearest = some x := by
  cases x with
  | nan => cases finite
  | number negative m =>
      have below := (Binary64.isFinite_number negative m).1 finite
      have range := Nat.le_of_lt below
      obtain ⟨whole, fraction, power, spells⟩ :=
        exists_spells layout (Decimal.shortest layout.tie m.val) (exponent_shortest range)
      have reads := Decimal.readsAs_iff.1 (Decimal.readsAs_shortest layout.tie range) negative
      rw [chars_of_finite below, spells.ofChars? negative, Option.map_some,
        (spells.value negative).nearest, reads]
      simp [Binary64.signed, Nat.min_eq_left range]

end NumberLayout

/-! ## Reading number text -/

namespace NumberLiteral

theorem foldl_digits_append (cs : List Char) (n : Nat) :
    n * 10 ^ cs.length ≤ cs.foldl (fun n c => n * 10 + (digitValue? c).getD 0) n := by
  induction cs generalizing n with
  | nil => simp
  | cons c cs ih =>
      rw [List.foldl_cons, List.length_cons, Nat.pow_succ]
      refine Nat.le_trans ?_ (ih _)
      rw [Nat.mul_comm (10 ^ cs.length), ← Nat.mul_assoc]
      exact Nat.mul_le_mul_right _ (Nat.le_add_right ..)

/-- Digits whose number is a significand are all taken. -/
theorem append_of_le {cs : List Char} {n : Nat}
    (h : cs.foldl (fun n c => n * 10 + (digitValue? c).getD 0) n ≤ maxSignificand) :
    append n cs = (cs.foldl (fun n c => n * 10 + (digitValue? c).getD 0) n, 0) := by
  induction cs generalizing n with
  | nil => rfl
  | cons c cs ih =>
      have start : n * 10 + (digitValue? c).getD 0 ≤ maxSignificand := by
        refine Nat.le_trans (Nat.le_trans ?_ (foldl_digits_append cs _)) h
        exact Nat.le_mul_of_pos_right _ (Nat.pow_pos (by decide))
      rw [List.foldl_cons] at h ⊢
      rw [append, if_pos start, ih h]

/-- A literal with few digits and a small power stands for the double that is the nearest to it. -/
theorem float?_of_few {literal : NumberLiteral} (few : literal.significand < 2 ^ 53)
    (least : -22 ≤ literal.exponent) (greatest : literal.exponent ≤ 22)
    (finite : literal.nearest.isFinite = true) : literal.float? = some literal.nearest := by
  have all : (literal.fraction.getD []).foldl (fun n c => n * 10 + (digitValue? c).getD 0)
      (digitsValue literal.whole) = literal.significand := (digitsValue_append ..).symm
  have room : 2 ^ 53 ≤ maxSignificand := by decide
  have fits : literal.significand ≤ maxSignificand := by omega
  have start : digitsValue literal.whole ≤ maxSignificand := by
    have le := foldl_digits_append (literal.fraction.getD []) (digitsValue literal.whole)
    rw [all] at le
    exact Nat.le_trans (Nat.le_mul_of_pos_right _ (Nat.pow_pos (by decide))) (Nat.le_trans le fits)
  have first : append 0 literal.whole = (digitsValue literal.whole, 0) := append_of_le start
  have second : append (digitsValue literal.whole) (literal.fraction.getD []) =
      (literal.significand, 0) := by
    rw [append_of_le (by rw [all]; exact fits), all]
  have power : literal.power.getD 0 + (0 : Nat) + (0 : Nat) - (literal.fraction.getD []).length =
      literal.exponent := by
    rw [exponent]
    omega
  unfold float?
  dsimp only
  rw [first]
  dsimp only
  rw [second]
  dsimp only
  rw [power, Binary64.scaled_eq_ofDecimal literal.negative few least greatest]
  exact if_pos finite

end NumberLiteral

namespace Binary64

open NumberLiteral

/-- The number text has a significand below `2^53` and a power of ten up to the twenty-second either
    way. -/
def Short (x : Binary64) : Prop :=
  ∃ literal, ofChars? (NumberLayout.json.chars x) = some literal ∧
    literal.significand < 2 ^ 53 ∧ -22 ≤ literal.exponent ∧ literal.exponent ≤ 22

theorem float?_of_short {x : Binary64} (finite : x.isFinite = true) (short : x.Short) :
    (ofChars? (NumberLayout.json.chars x)).bind float? = some x := by
  obtain ⟨literal, spelled, few, least, greatest⟩ := short
  have nearest := NumberLayout.json.nearest_of_chars finite
  rw [spelled, Option.map_some, Option.some.injEq] at nearest
  rw [spelled, Option.bind_some, float?_of_few few least greatest (nearest ▸ finite), nearest]

/-- Both zeros have short texts. -/
theorem short_zero (negative : Bool) : (signed negative 0).Short := by
  have digits : decimalDigits 0 = ['0'] := decimalDigits_of_lt (by decide)
  have text : NumberLayout.json.chars (signed negative 0) =
      (if negative then ['-'] else []) ++ ['0', '.', '0'] := by
    rw [signed, NumberLayout.chars_of_finite (by decide)]
    show _ ++ NumberLayout.json.decimalChars ⟨0, 0⟩ = _
    rw [NumberLayout.decimalChars, digits]
    rfl
  refine ⟨⟨negative, ['0'], some ['0'], none⟩, ?_, ?_⟩
  · rw [text]
    cases negative <;> rfl
  · cases negative <;> decide

end Binary64

end SettingsForge
