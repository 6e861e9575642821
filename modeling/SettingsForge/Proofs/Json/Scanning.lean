import SettingsForge.Proofs.Json.Grammar

set_option autoImplicit false

/-! # Scanning

The scanner cuts a text into the tokens that it spells (`Json.tokens?_of_spells`). A word ends where
nothing that belongs to it comes next, and a quoted text comes back character by character, however each
of them is spelled. -/

namespace SettingsForge.Json

/-! ## Words -/

theorem scan_word {cs : List Char} (plain : ∀ c ∈ cs, endsWord c = false) {rest : List Char}
    (ends : EndsWord rest) (read : List Char) :
    scan (.word read) (cs ++ rest) = (wordToken? (read.reverse ++ cs)).bind fun token =>
      (scan .between rest).map (token :: ·) := by
  induction cs generalizing read with
  | nil =>
      rw [List.nil_append, List.append_nil]
      cases rest with
      | nil => cases found : wordToken? read.reverse <;> simp [scan, found]
      | cons c rest =>
          have stops := ends c rfl
          cases found : wordToken? read.reverse with
          | none => simp [scan, stops, found]
          | some token =>
              simp only [scan, stops, if_true, found, bind, Option.bind, Option.map_map]
              rfl
  | cons c cs ih =>
      have goes_on := plain c (List.mem_cons_self ..)
      rw [List.cons_append, scan, if_neg (by rw [goes_on]; decide),
        ih fun d mem => plain d (List.mem_cons_of_mem _ mem)]
      simp

/-- A word between two tokens. -/
theorem scan_between_word {cs : List Char} (nonempty : cs ≠ [])
    (plain : ∀ c ∈ cs, endsWord c = false) {rest : List Char} (ends : EndsWord rest) :
    scan .between (cs ++ rest) = (wordToken? cs).bind fun token =>
      (scan .between rest).map (token :: ·) := by
  obtain ⟨c, cs, rfl⟩ := List.exists_cons_of_ne_nil nonempty
  have begins : begin? c = (none, .word [c]) := by
    have h := plain c (List.mem_cons_self ..)
    simp only [endsWord, Bool.or_eq_false_iff, Option.isSome_eq_false_iff, Option.isNone_iff_eq_none,
      beq_eq_false_iff_ne] at h
    simp [begin?, h]
  rw [List.cons_append, scan, begins]
  have word := scan_word (fun d mem => plain d (List.mem_cons_of_mem _ mem)) ends [c]
  simp only [Option.toList, List.nil_append, Option.map_id']
  exact word

theorem wordToken?_of_spells {word : List Char} {j : Json} (h : SpellsWord word j) :
    wordToken? word = some (.word j) := by
  cases h with
  | null | yes | no => rfl
  | number literal =>
      obtain ⟨parts, read⟩ := Option.isSome_iff_exists.1 literal
      unfold wordToken?
      rw [if_neg, if_neg, if_neg, read]
      · rfl
      all_goals
        rintro rfl
        revert read
        exact fun read => nomatch read

theorem plain_of_all {cs : List Char} (h : cs.all (!endsWord ·) = true) :
    ∀ c ∈ cs, endsWord c = false := by
  simpa using h

theorem plain_of_spells {word : List Char} {j : Json} (h : SpellsWord word j) :
    word ≠ [] ∧ ∀ c ∈ word, endsWord c = false := by
  cases h with
  | null | yes | no => exact ⟨nofun, plain_of_all rfl⟩
  | number literal => exact NumberLiteral.endsWord_of_mem literal

/-! ## Quoted text -/

theorem scan_unit {digits : List Char} {n : Nat} (h : SpellsUnit digits n) (read : List TextPart)
    (rest : List Char) :
    scan (.unit read 0 4) (digits ++ rest) = scan (.text (.unit n :: read)) rest := by
  cases h with
  | digits first second third fourth => simp [scan, first, second, third, fourth]

/-- A unit that is no half of a surrogate pair stands for itself, whatever follows. -/
theorem textOf?_unit {n : Nat} (whole : ¬ (0xD800 ≤ n ∧ n ≤ 0xDFFF)) (parts : List TextPart) :
    textOf? (.unit n :: parts) = (textOf? parts).map (Char.ofNat n :: ·) := by
  have halves : ¬ (0xD800 ≤ n ∧ n ≤ 0xDBFF) ∧ ¬ (0xDC00 ≤ n ∧ n ≤ 0xDFFF) := by omega
  cases parts with
  | nil => simp [textOf?, whole]
  | cons part parts => cases part <;> simp [textOf?, halves, whole]

/-- What stands for a character is read as parts that spell it, whatever follows. -/
theorem scan_char {spelled : List Char} {c : Char} (h : SpellsChar spelled c) :
    ∃ parts : List TextPart,
      (∀ read rest, scan (.text read) (spelled ++ rest) = scan (.text (parts.reverse ++ read)) rest) ∧
      ∀ more, textOf? (parts ++ more) = (textOf? more).map (c :: ·) := by
  cases h with
  | itself unmarked printable =>
      refine ⟨[.char c], fun read rest => ?_, fun more => rfl⟩
      simp [scan, unmarked, Nat.not_lt.2 printable]
  | @escape mark _ escaped =>
      have letter : mark ≠ 'u' := by
        rintro rfl
        cases escaped
      refine ⟨[.char c], fun read rest => ?_, fun more => rfl⟩
      simp [scan, letter, escaped]
  | @unit digits n unit whole =>
      refine ⟨[.unit n], fun read rest => ?_, textOf?_unit whole⟩
      exact (show scan (.text read) ('\\' :: 'u' :: digits ++ rest) =
        scan (.unit read 0 4) (digits ++ rest) by simp [scan]).trans (scan_unit unit read rest)
  | @pair digits digits' high low first second is_high is_low =>
      refine ⟨[.unit high, .unit low], fun read rest => ?_, fun more => ?_⟩
      · have opened : ∀ (ds more : List Char) (read : List TextPart),
            scan (.text read) ('\\' :: 'u' :: (ds ++ more)) = scan (.unit read 0 4) (ds ++ more) :=
          fun ds more read => by simp [scan]
        rw [List.cons_append, List.cons_append, List.append_assoc, opened, scan_unit first,
          List.cons_append, List.cons_append, opened, scan_unit second]
        rfl
      · simp [textOf?, is_high, is_low]

/-- A quoted text is read as parts that spell it. -/
theorem scan_text {quoted text : List Char} (h : SpellsText quoted text) :
    ∃ parts : List TextPart,
      (∀ read rest, scan (.text read) (quoted ++ rest) = scan (.text (parts.reverse ++ read)) rest) ∧
      textOf? parts = some text := by
  induction h with
  | nil => exact ⟨[], fun read rest => rfl, rfl⟩
  | cons first _ ih =>
      obtain ⟨parts, scanned, spelled⟩ := scan_char first
      obtain ⟨later, scanned', spelled'⟩ := ih
      refine ⟨parts ++ later, fun read rest => ?_, ?_⟩
      · rw [List.append_assoc, scanned, scanned', List.reverse_append, List.append_assoc]
      · rw [spelled, spelled']
        rfl

theorem scan_quoted {quoted text : List Char} (h : SpellsText quoted text) (rest : List Char) :
    scan .between ('"' :: (quoted ++ '"' :: rest)) =
      (scan .between rest).map (.text (some (String.ofList text)) :: ·) := by
  obtain ⟨parts, scanned, spelled⟩ := scan_text h
  have opened : scan .between ('"' :: (quoted ++ '"' :: rest)) =
      scan (.text []) (quoted ++ '"' :: rest) := by
    have begins : begin? '"' = (none, .text []) := rfl
    simp [scan, begins]
  rw [opened, scanned, scan, if_pos rfl]
  simp [spelled]

/-! ## Texts -/

theorem begin?_of_blank {c : Char} (h : isBlankChar c = true) : begin? c = (none, .between) := by
  simp only [isBlankChar, Bool.or_eq_true, beq_iff_eq] at h
  rcases h with ((rfl | rfl) | rfl) | rfl <;> rfl

/-- The scanner finds the tokens that a text is cut into. -/
theorem scan_of_lexes {cs : List Char} {tokens : List Token} (h : Lexes cs tokens) :
    scan .between cs = some tokens := by
  induction h with
  | nil => rfl
  | blank is_blank _ ih =>
      rw [scan, begin?_of_blank is_blank]
      simp [ih]
  | mark is_mark _ ih =>
      rw [scan, begin?, is_mark]
      simp [ih]
  | text spelled _ ih => rw [scan_quoted spelled, ih, Option.map_some]
  | word spelled ends _ ih =>
      obtain ⟨nonempty, plain⟩ := plain_of_spells spelled
      rw [scan_between_word nonempty plain ends, wordToken?_of_spells spelled, ih]
      rfl

theorem tokens?_of_spells {cs : List Char} {j : Json} (h : Spells cs j) :
    tokens? cs = some (tokens j) := scan_of_lexes h

end SettingsForge.Json
