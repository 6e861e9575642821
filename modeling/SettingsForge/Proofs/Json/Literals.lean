import Mathlib.Data.List.Basic
import SettingsForge.Json.Token

set_option autoImplicit false

/-! # Number literals

What integers and doubles are written as are number literals: they are read as the parts that they are
put together from (`NumberLiteral.unsigned?_spelled`). A literal is a word, so the scanner keeps it whole
(`NumberLiteral.endsWord_of_mem`). -/

namespace SettingsForge

/-! ## Digits -/

theorem digitValue?_digitChar {d : Nat} (h : d < 10) : digitValue? (digitChar d) = some d :=
  (by decide : ∀ d < 10, digitValue? (digitChar d) = some d) d h

theorem isDigit_digitChar {d : Nat} (h : d < 10) : isDigit (digitChar d) = true := by
  rw [isDigit, digitValue?_digitChar h]
  rfl

theorem digitsValue_append (first rest : List Char) :
    digitsValue (first ++ rest) = rest.foldl (fun n c => n * 10 + (digitValue? c).getD 0)
      (digitsValue first) := List.foldl_append

theorem decimalDigits_ne_nil (n : Nat) : decimalDigits n ≠ [] := by
  rw [decimalDigits]
  split <;> simp

/-- The digits of a number spell it. -/
theorem digitsValue_decimalDigits (n : Nat) : digitsValue (decimalDigits n) = n := by
  induction n using Nat.strongRecOn with
  | _ n ih =>
      by_cases small : n < 10
      · rw [decimalDigits_of_lt small]
        simp [digitsValue, digitValue?_digitChar small]
      · have low : n % 10 < 10 := Nat.mod_lt _ (by decide)
        rw [decimalDigits_of_le (Nat.le_of_not_lt small), digitsValue_append,
          ih (n / 10) (by omega)]
        simp only [List.foldl_cons, List.foldl_nil, digitValue?_digitChar low, Option.getD_some]
        omega

theorem isDigit_of_mem_decimalDigits {n : Nat} {c : Char} (h : c ∈ decimalDigits n) :
    isDigit c = true := by
  induction n using Nat.strongRecOn with
  | _ n ih =>
      by_cases small : n < 10
      · rw [decimalDigits_of_lt small, List.mem_singleton] at h
        rw [h]
        exact isDigit_digitChar small
      · rw [decimalDigits_of_le (Nat.le_of_not_lt small)] at h
        rcases List.mem_append.1 h with h | h
        · exact ih (n / 10) (by omega) h
        · rw [List.mem_singleton.1 h]
          exact isDigit_digitChar (Nat.mod_lt _ (by decide))

/-- Only zero begins with a zero. -/
theorem head?_decimalDigits {n : Nat} (h : n ≠ 0) : (decimalDigits n).head? ≠ some '0' := by
  induction n using Nat.strongRecOn with
  | _ n ih =>
      by_cases small : n < 10
      · rw [decimalDigits_of_lt small]
        exact (by decide : ∀ d < 10, d ≠ 0 → [digitChar d].head? ≠ some '0') n small h
      · have nonempty := decimalDigits_ne_nil (n / 10)
        rw [decimalDigits_of_le (Nat.le_of_not_lt small), List.head?_append_of_ne_nil _ nonempty]
        exact ih (n / 10) (by omega) (by omega)

namespace NumberLiteral

/-! ## Parts -/

/-- Digits of a number, at least one. -/
def IsDigits (cs : List Char) : Prop := cs ≠ [] ∧ ∀ c ∈ cs, isDigit c = true

theorem isDigits_decimalDigits (n : Nat) : IsDigits (decimalDigits n) :=
  ⟨decimalDigits_ne_nil n, fun _ => isDigit_of_mem_decimalDigits⟩

theorem digits?_eq_some {cs : List Char} {n : Nat} :
    digits? cs = some n ↔ IsDigits cs ∧ n = digitsValue cs := by
  have refused : (cs.isEmpty || !cs.all isDigit) = true ↔ ¬ IsDigits cs := by
    unfold IsDigits
    simp [Classical.or_iff_not_imp_left]
  unfold digits?
  by_cases h : IsDigits cs
  · rw [if_neg fun bad => refused.1 bad h]
    simp [h, eq_comm]
  · rw [if_pos (refused.2 h)]
    simp [h]

theorem isCanonicalWhole_of_head? {cs : List Char} (h : cs.head? ≠ some '0') :
    isCanonicalWhole cs = true := by
  unfold isCanonicalWhole
  simp [h]

theorem isCanonicalWhole_decimalDigits (n : Nat) : isCanonicalWhole (decimalDigits n) = true := by
  by_cases zero : n = 0
  · rw [zero, decimalDigits_of_lt (by decide)]
    rfl
  · exact isCanonicalWhole_of_head? (head?_decimalDigits zero)

theorem splitAt_of_not_stop {stop : Char → Bool} {cs : List Char} (h : ∀ c ∈ cs, stop c = false) :
    splitAt stop cs = (cs, none) := by
  induction cs with
  | nil => rfl
  | cons c cs ih =>
      rw [splitAt, h c (List.mem_cons_self ..), ih fun d mem => h d (List.mem_cons_of_mem _ mem)]
      rfl

theorem splitAt_append {stop : Char → Bool} {cs : List Char} (h : ∀ c ∈ cs, stop c = false)
    {mark : Char} (stops : stop mark = true) (rest : List Char) :
    splitAt stop (cs ++ mark :: rest) = (cs, some rest) := by
  induction cs with
  | nil =>
      rw [List.nil_append, splitAt, stops]
      rfl
  | cons c cs ih =>
      rw [List.cons_append, splitAt, h c (List.mem_cons_self ..),
        ih fun d mem => h d (List.mem_cons_of_mem _ mem)]
      rfl

/-- What follows after the mark is split off, if anything does. -/
theorem splitAt_elim {stop : Char → Bool} {cs : List Char} (h : ∀ c ∈ cs, stop c = false)
    {mark : Char} (stops : stop mark = true) (rest : Option (List Char)) :
    splitAt stop (cs ++ rest.elim [] (mark :: ·)) = (cs, rest) := by
  cases rest with
  | none =>
      show splitAt stop (cs ++ []) = (cs, none)
      rw [List.append_nil]
      exact splitAt_of_not_stop h
  | some after => exact splitAt_append h stops after

/-- A split puts nothing but one mark between its halves. -/
theorem splitAt_spec (stop : Char → Bool) (cs : List Char) :
    (splitAt stop cs = (cs, none)) ∨
      ∃ before mark after, stop mark = true ∧ cs = before ++ mark :: after ∧
        splitAt stop cs = (before, some after) := by
  induction cs with
  | nil => exact Or.inl rfl
  | cons c cs ih =>
      rw [splitAt]
      by_cases stops : stop c = true
      · rw [if_pos stops]
        exact Or.inr ⟨[], c, cs, stops, rfl, rfl⟩
      · rw [if_neg stops]
        rcases ih with whole | ⟨before, mark, after, hmark, rfl, split⟩
        · rw [whole]
          exact Or.inl rfl
        · rw [split]
          exact Or.inr ⟨c :: before, mark, after, hmark, rfl, rfl⟩

/-- A number put together from its parts. -/
def spelled (whole : List Char) (fraction power : Option (List Char)) : List Char :=
  whole ++ (fraction.elim [] ('.' :: ·) ++ power.elim [] ('e' :: ·))

theorem not_mark_of_isDigit {c : Char} (h : isDigit c = true) :
    (c == 'e' || c == 'E') = false ∧ (c == '.') = false ∧ c ≠ '-' := by
  refine ⟨?_, ?_, ?_⟩
  · rw [Bool.or_eq_false_iff]
    constructor <;> refine beq_eq_false_iff_ne.2 ?_ <;> rintro rfl <;> exact absurd h (by decide)
  · refine beq_eq_false_iff_ne.2 ?_
    rintro rfl
    exact absurd h (by decide)
  · rintro rfl
    exact absurd h (by decide)

theorem unsigned?_spelled (negative : Bool) {whole : List Char} {fraction power : Option (List Char)}
    (digits : IsDigits whole) (canonical : isCanonicalWhole whole = true)
    (places : ∀ cs ∈ fraction, IsDigits cs) (exponent : ∀ cs ∈ power, (exponent? cs).isSome) :
    unsigned? negative (spelled whole fraction power) =
      some ⟨negative, whole, fraction, power.bind exponent?⟩ := by
  have plain : ∀ c ∈ whole ++ fraction.elim [] ('.' :: ·), (c == 'e' || c == 'E') = false := by
    intro c mem
    rcases List.mem_append.1 mem with mem | mem
    · exact (not_mark_of_isDigit (digits.2 c mem)).1
    · cases fraction with
      | none => cases mem
      | some cs =>
          rcases List.mem_cons.1 mem with rfl | mem
          · decide
          · exact (not_mark_of_isDigit ((places cs rfl).2 c mem)).1
  have mantissa : splitAt (fun c => c == 'e' || c == 'E') (spelled whole fraction power) =
      (whole ++ fraction.elim [] ('.' :: ·), power) := by
    rw [spelled, ← List.append_assoc]
    exact splitAt_elim plain rfl power
  have point : splitAt (· == '.') (whole ++ fraction.elim [] ('.' :: ·)) = (whole, fraction) :=
    splitAt_elim (fun c mem => (not_mark_of_isDigit (digits.2 c mem)).2.1) rfl fraction
  have whole_digits : digits? whole = some (digitsValue whole) := digits?_eq_some.2 ⟨digits, rfl⟩
  unfold unsigned?
  rw [mantissa]
  dsimp only
  rw [point]
  simp only [whole_digits, canonical, bind, Option.bind, Bool.not_true, Bool.false_eq_true, if_false]
  cases fraction with
  | none =>
      cases power with
      | none => rfl
      | some after =>
          obtain ⟨n, found⟩ := Option.isSome_iff_exists.1 (exponent after rfl)
          simp [found]
  | some cs =>
      have read : digits? cs = some (digitsValue cs) := digits?_eq_some.2 ⟨places cs rfl, rfl⟩
      cases power with
      | none => simp [read]
      | some after =>
          obtain ⟨n, found⟩ := Option.isSome_iff_exists.1 (exponent after rfl)
          simp [read, found]

/-- A literal that begins with a digit. -/
theorem ofChars?_of_isDigit {c : Char} (h : isDigit c = true) (cs : List Char) :
    ofChars? (c :: cs) = unsigned? false (c :: cs) := by
  unfold ofChars?
  split
  · next heq =>
    obtain ⟨rfl, -⟩ := List.cons.inj heq
    exact absurd h (by decide)
  · rfl

/-- A number put together from its parts, after its sign, is read as these parts. -/
theorem ofChars?_spelled (negative : Bool) {whole : List Char} {fraction power : Option (List Char)}
    (digits : IsDigits whole) (canonical : isCanonicalWhole whole = true)
    (places : ∀ cs ∈ fraction, IsDigits cs) (exponent : ∀ cs ∈ power, (exponent? cs).isSome) :
    ofChars? ((if negative then ['-'] else []) ++ spelled whole fraction power) =
      some ⟨negative, whole, fraction, power.bind exponent?⟩ := by
  rw [← unsigned?_spelled negative digits canonical places exponent]
  cases negative with
  | true => rfl
  | false =>
      obtain ⟨nonempty, digits⟩ := digits
      obtain ⟨c, cs, rfl⟩ := List.exists_cons_of_ne_nil nonempty
      exact ofChars?_of_isDigit (digits c (List.mem_cons_self ..)) _

/-! ## Integers -/

theorem spelled_whole (whole : List Char) : spelled whole none none = whole := List.append_nil whole

theorem intChars_eq (i : Int) :
    intChars i = (if decide (i < 0) then ['-'] else []) ++ decimalDigits i.natAbs := by
  unfold intChars
  by_cases negative : i < 0 <;> simp [negative]

theorem ofChars?_intChars (i : Int) :
    ofChars? (intChars i) = some ⟨decide (i < 0), decimalDigits i.natAbs, none, none⟩ := by
  have read := @ofChars?_spelled (decide (i < 0)) (decimalDigits i.natAbs) none none
    (isDigits_decimalDigits _) (isCanonicalWhole_decimalDigits _) nofun nofun
  rwa [spelled_whole, ← intChars_eq] at read

/-- An integer reads back. -/
theorem int?_intChars (i : Int64) :
    (ofChars? (intChars i.toInt)).bind int? = some i := by
  rw [ofChars?_intChars, Option.bind_some]
  unfold int?
  have value : (if decide (i.toInt < 0) = true then -(i.toInt.natAbs : Int) else i.toInt.natAbs) =
      i.toInt := by
    split
    · next h =>
      have := of_decide_eq_true h
      omega
    · next h =>
      have := of_decide_eq_false (Bool.not_eq_true _ ▸ h)
      omega
  have nonzero : (decide (i.toInt < 0) && i.toInt.natAbs == 0) = false := by
    rw [Bool.and_eq_false_iff]
    by_cases negative : i.toInt < 0
    · exact Or.inr (beq_eq_false_iff_ne.2 (by omega))
    · exact Or.inl (decide_eq_false negative)
  dsimp only
  rw [digitsValue_decimalDigits, value, nonzero]
  have least : Int64.minValue.toInt ≤ i.toInt := Int64.minValue_le_toInt i
  have greatest : i.toInt ≤ Int64.maxValue.toInt := Int64.toInt_le i
  rw [decide_eq_true least, decide_eq_true greatest]
  simp [isWhole, Int64.ofInt_toInt]

/-! ## Literals are words -/

theorem endsWord_of_isDigit {c : Char} (h : isDigit c = true) : Json.endsWord c = false := by
  by_contra ends
  have marks : c ∈ [' ', '\t', '\n', '\r', '"', '[', ']', '\x7b', '\x7d', ',', ':'] := by
    unfold Json.endsWord Json.isBlankChar Json.punctuation? at ends
    split at ends
    case h_7 =>
      rw [Bool.not_eq_false, Option.isSome_none, Bool.or_false] at ends
      simp only [Bool.or_eq_true, beq_iff_eq] at ends
      simp only [List.mem_cons]
      tauto
    all_goals simp
  have none :
      [' ', '\t', '\n', '\r', '"', '[', ']', '\x7b', '\x7d', ',', ':'].all (!isDigit ·) = true := rfl
  have not_digit := List.all_eq_true.1 none c marks
  rw [h] at not_digit
  cases not_digit

theorem endsWord_of_digits? {cs : List Char} (h : (digits? cs).isSome) :
    cs ≠ [] ∧ ∀ c ∈ cs, Json.endsWord c = false := by
  obtain ⟨n, found⟩ := Option.isSome_iff_exists.1 h
  obtain ⟨⟨nonempty, digits⟩, -⟩ := digits?_eq_some.1 found
  exact ⟨nonempty, fun c mem => endsWord_of_isDigit (digits c mem)⟩

theorem endsWord_of_exponent? {cs : List Char} (h : (exponent? cs).isSome) :
    ∀ c ∈ cs, Json.endsWord c = false := by
  obtain ⟨e, found⟩ := Option.isSome_iff_exists.1 h
  unfold exponent? at found
  have digits : ∀ {cs : List Char} {f : Int → Int},
      ((digits? cs).bind fun n => some (n : Int)).map f = some e →
      ∀ c ∈ cs, Json.endsWord c = false := by
    intro cs f found
    refine (endsWord_of_digits? ?_).2
    cases read : digits? cs with
    | none => simp [read] at found
    | some n => rfl
  intro c mem
  split at found
  · rcases List.mem_cons.1 mem with rfl | mem
    · rfl
    · exact digits found c mem
  · rcases List.mem_cons.1 mem with rfl | mem
    · rfl
    · exact digits found c mem
  · exact digits found c mem

/-- The parts of what is read as a number are numbers themselves. -/
theorem parts_of_unsigned? {negative : Bool} {cs mantissa whole : List Char}
    {power fraction : Option (List Char)} (h : (unsigned? negative cs).isSome)
    (first : splitAt (fun c => c == 'e' || c == 'E') cs = (mantissa, power))
    (second : splitAt (· == '.') mantissa = (whole, fraction)) :
    (digits? whole).isSome ∧ (∀ places ∈ fraction, (digits? places).isSome) ∧
      ∀ after ∈ power, (exponent? after).isSome := by
  unfold unsigned? at h
  rw [first] at h
  dsimp only at h
  rw [second] at h
  cases hw : digits? whole with
  | none => simp [hw] at h
  | some n =>
      cases canonical : isCanonicalWhole whole with
      | false => simp [hw, canonical] at h
      | true =>
          refine ⟨rfl, fun places hf => ?_, fun after hp => ?_⟩
          · obtain rfl := Option.mem_def.1 hf
            cases found : digits? places with
            | none => simp [hw, canonical, found] at h
            | some _ => rfl
          · obtain rfl := Option.mem_def.1 hp
            cases found : exponent? after with
            | some _ => rfl
            | none =>
                cases fraction with
                | none => simp [hw, canonical, found] at h
                | some places => cases places_read : digits? places <;> simp_all

/-- A literal has none of the characters that end words. -/
theorem endsWord_of_unsigned? {negative : Bool} {cs : List Char}
    (h : (unsigned? negative cs).isSome) : cs ≠ [] ∧ ∀ c ∈ cs, Json.endsWord c = false := by
  have mark_plain : ∀ c : Char, (c == 'e' || c == 'E') = true ∨ (c == '.') = true →
      Json.endsWord c = false := by
    rintro c (marks | marks)
    · rcases Bool.or_eq_true _ _ ▸ marks with marks | marks <;> rw [eq_of_beq marks] <;> rfl
    · rw [eq_of_beq marks]
      rfl
  have mantissa_plain : ∀ {mantissa whole : List Char} {fraction : Option (List Char)},
      splitAt (· == '.') mantissa = (whole, fraction) → (digits? whole).isSome →
      (∀ places ∈ fraction, (digits? places).isSome) →
      mantissa ≠ [] ∧ ∀ c ∈ mantissa, Json.endsWord c = false := by
    intro mantissa whole fraction second hw hf
    rcases splitAt_spec (· == '.') mantissa with split | ⟨before, mark, after, stops, rfl, split⟩ <;>
      rw [split] at second <;> cases second
    · exact endsWord_of_digits? hw
    · obtain ⟨nonempty, plain⟩ := endsWord_of_digits? hw
      refine ⟨by simp, fun c mem => ?_⟩
      rcases List.mem_append.1 mem with mem | mem
      · exact plain c mem
      · rcases List.mem_cons.1 mem with rfl | mem
        · exact mark_plain c (Or.inr stops)
        · exact (endsWord_of_digits? (hf _ rfl)).2 c mem
  rcases splitAt_spec (fun c => c == 'e' || c == 'E') cs with
    first | ⟨mantissa, mark, after, stops, rfl, first⟩
  · obtain ⟨hw, hf, -⟩ := parts_of_unsigned? h first rfl
    exact mantissa_plain rfl hw hf
  · obtain ⟨hw, hf, hp⟩ := parts_of_unsigned? h first rfl
    obtain ⟨nonempty, plain⟩ := mantissa_plain rfl hw hf
    refine ⟨by simp, fun c mem => ?_⟩
    rcases List.mem_append.1 mem with mem | mem
    · exact plain c mem
    · rcases List.mem_cons.1 mem with rfl | mem
      · exact mark_plain c (Or.inl stops)
      · exact endsWord_of_exponent? (hp _ rfl) c mem

/-- A literal is a word. -/
theorem endsWord_of_mem {cs : List Char} (h : (ofChars? cs).isSome) :
    cs ≠ [] ∧ ∀ c ∈ cs, Json.endsWord c = false := by
  unfold ofChars? at h
  split at h
  · obtain ⟨-, plain⟩ := endsWord_of_unsigned? h
    refine ⟨by simp, fun c mem => ?_⟩
    rcases List.mem_cons.1 mem with rfl | mem
    · rfl
    · exact plain c mem
  · exact endsWord_of_unsigned? h

end NumberLiteral

end SettingsForge
