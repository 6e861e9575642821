import SettingsForge.Json.Writer
import SettingsForge.Proofs.Json.Literals

set_option autoImplicit false

/-! # The grammar of JSON

A text spells a tree when it is cut into the tokens of the tree, with blanks anywhere between them
(`Json.Spells`). The relation says what a reader has to take, whichever way it goes about it. What is
written without blanks spells the tree that it was written for (`Json.spells_compact`). -/

namespace SettingsForge.Json

/-! ## Tokens of trees -/

/-- Whether a list item or a member is followed by another. -/
def commaToken {α : Type} : List α → List Token
  | [] => []
  | _ :: _ => [.comma]

mutual

/-- The tokens of a tree. -/
def tokens : Json → List Token
  | .str s => [.text (some s)]
  | .arr items => .openList :: (itemTokens items ++ [.closeList])
  | .obj members => .openMap :: (memberTokens members ++ [.closeMap])
  | j => [.word j]

def itemTokens : List Json → List Token
  | [] => []
  | j :: items => tokens j ++ commaToken items ++ itemTokens items

def memberTokens : List (String × Json) → List Token
  | [] => []
  | (key, j) :: members =>
    .text (some key) :: .colon :: (tokens j ++ commaToken members ++ memberTokens members)

end

/-! ## Quoted text -/

/-- Four hexadecimal digits spell a UTF-16 unit. -/
inductive SpellsUnit : List Char → Nat → Prop where
  | digits {p q r s : Char} {a b c d : Nat} (first : hexValue? p = some a)
      (second : hexValue? q = some b) (third : hexValue? r = some c) (fourth : hexValue? s = some d) :
      SpellsUnit [p, q, r, s] (((a * 16 + b) * 16 + c) * 16 + d)

/-- What stands for a character in quoted text: itself, a mark after a backslash, or its UTF-16 units. -/
inductive SpellsChar : List Char → Char → Prop where
  | itself {c : Char} (unmarked : c ≠ '"' ∧ c ≠ '\\') (printable : 0x20 ≤ c.toNat) : SpellsChar [c] c
  | escape {mark c : Char} (escaped : escaped? mark = some c) : SpellsChar ['\\', mark] c
  | unit {digits : List Char} {n : Nat} (spelled : SpellsUnit digits n)
      (whole : ¬ (0xD800 ≤ n ∧ n ≤ 0xDFFF)) : SpellsChar ('\\' :: 'u' :: digits) (Char.ofNat n)
  | pair {digits digits' : List Char} {high low : Nat} (first : SpellsUnit digits high)
      (second : SpellsUnit digits' low) (is_high : 0xD800 ≤ high ∧ high ≤ 0xDBFF)
      (is_low : 0xDC00 ≤ low ∧ low ≤ 0xDFFF) :
      SpellsChar ('\\' :: 'u' :: (digits ++ '\\' :: 'u' :: digits'))
        (Char.ofNat (0x10000 + (high - 0xD800) * 0x400 + (low - 0xDC00)))

/-- What stands between the quotes for a text. -/
inductive SpellsText : List Char → List Char → Prop where
  | nil : SpellsText [] []
  | cons {spelled later text : List Char} {c : Char} (first : SpellsChar spelled c)
      (rest : SpellsText later text) : SpellsText (spelled ++ later) (c :: text)

/-! ## Words and tokens -/

/-- A word stands for null, a truth value or the number of its literal. -/
inductive SpellsWord : List Char → Json → Prop where
  | null : SpellsWord ['n', 'u', 'l', 'l'] .null
  | yes : SpellsWord ['t', 'r', 'u', 'e'] (.bool true)
  | no : SpellsWord ['f', 'a', 'l', 's', 'e'] (.bool false)
  | number {cs : List Char} (literal : (NumberLiteral.ofChars? cs).isSome = true) :
      SpellsWord cs (.number cs)

/-- Nothing that belongs to a word comes next. -/
def EndsWord (rest : List Char) : Prop := ∀ c ∈ rest.head?, endsWord c = true

/-- A text is a sequence of tokens, with blanks anywhere between them. -/
inductive Lexes : List Char → List Token → Prop where
  | nil : Lexes [] []
  | blank {c : Char} {cs : List Char} {tokens : List Token} (is_blank : isBlankChar c = true)
      (rest : Lexes cs tokens) : Lexes (c :: cs) tokens
  | mark {c : Char} {cs : List Char} {token : Token} {tokens : List Token}
      (is_mark : punctuation? c = some token) (rest : Lexes cs tokens) :
      Lexes (c :: cs) (token :: tokens)
  | text {quoted text cs : List Char} {tokens : List Token} (spelled : SpellsText quoted text)
      (rest : Lexes cs tokens) :
      Lexes ('"' :: (quoted ++ '"' :: cs)) (.text (some (String.ofList text)) :: tokens)
  | word {word cs : List Char} {j : Json} {tokens : List Token} (spelled : SpellsWord word j)
      (ends : EndsWord cs) (rest : Lexes cs tokens) : Lexes (word ++ cs) (.word j :: tokens)

/-- A text spells a tree. -/
def Spells (cs : List Char) (j : Json) : Prop := Lexes cs (tokens j)

/-! ## What is written -/

mutual

/-- The tree can be written: its numbers are literals, and no part of it is unreadable. -/
def Writable : Json → Prop
  | .number literal => (NumberLiteral.ofChars? literal).isSome = true
  | .arr items => ItemsWritable items
  | .obj members => MembersWritable members
  | .unreadable => False
  | _ => True

def ItemsWritable : List Json → Prop
  | [] => True
  | j :: items => Writable j ∧ ItemsWritable items

def MembersWritable : List (String × Json) → Prop
  | [] => True
  | (_, j) :: members => Writable j ∧ MembersWritable members

end

/-- The characters that are escaped by a letter or a mark. -/
def shortEscapes : List Char := ['"', '\\', '\n', '\t', '\r', '\x08', '\x0c']

theorem escapeChar_of_not_short {c : Char} (h : c ∉ shortEscapes) :
    escapeChar c = if c.toNat < 0x20 then
      ['\\', 'u', '0', '0', Text.hexChar (c.toNat / 16), Text.hexChar (c.toNat % 16)] else [c] := by
  simp only [shortEscapes, List.mem_cons, List.not_mem_nil, not_or] at h
  simp [escapeChar, h]

theorem hexValue?_hexChar {d : Nat} (h : d < 16) : hexValue? (Text.hexChar d) = some d :=
  (by decide : ∀ d < 16, hexValue? (Text.hexChar d) = some d) d h

theorem spellsChar_escapeChar (c : Char) : SpellsChar (escapeChar c) c := by
  by_cases short : c ∈ shortEscapes
  · simp only [shortEscapes, List.mem_cons, List.not_mem_nil, or_false] at short
    rcases short with rfl | rfl | rfl | rfl | rfl | rfl | rfl <;> exact .escape rfl
  · rw [escapeChar_of_not_short short]
    split
    · next small =>
      have zero : hexValue? '0' = some 0 := rfl
      have unit := SpellsUnit.digits zero zero
        (hexValue?_hexChar (d := c.toNat / 16) (by omega))
        (hexValue?_hexChar (d := c.toNat % 16) (by omega))
      have value : ((0 * 16 + 0) * 16 + c.toNat / 16) * 16 + c.toNat % 16 = c.toNat := by omega
      rw [value] at unit
      have whole := SpellsChar.unit unit (by omega)
      rwa [Char.ofNat_toNat] at whole
    · next large =>
      simp only [shortEscapes, List.mem_cons, not_or] at short
      exact .itself ⟨short.1, short.2.1⟩ (Nat.le_of_not_lt large)

theorem spellsText_escapes (text : List Char) : SpellsText (text.flatMap escapeChar) text := by
  induction text with
  | nil => exact .nil
  | cons c text ih => exact .cons (spellsChar_escapeChar c) ih

theorem lexes_textChars (s : String) {rest : List Char} {following : List Token}
    (h : Lexes rest following) : Lexes (textChars s ++ rest) (.text (some s) :: following) := by
  have quoted := Lexes.text (spellsText_escapes s.toList) h
  rw [String.ofList_toList] at quoted
  simpa [textChars] using quoted

theorem endsWord_nil : EndsWord [] := fun _ mem => by cases mem

theorem endsWord_cons {c : Char} {token : Token} (h : punctuation? c = some token)
    (rest : List Char) : EndsWord (c :: rest) := by
  rintro d mem
  obtain rfl := Option.mem_some_iff.1 mem
  rw [endsWord, h]
  simp

theorem lexes_commaBefore {α : Type} (items : List α) {rest : List Char} {following : List Token}
    (h : Lexes rest following) :
    Lexes (commaBefore items ++ rest) (commaToken items ++ following) := by
  cases items with
  | nil => exact h
  | cons => exact .mark rfl h

theorem endsWord_commaBefore {α : Type} (items : List α) {more rest : List Char}
    (none : items = [] → more = []) (ends : EndsWord rest) :
    EndsWord (commaBefore items ++ (more ++ rest)) := by
  cases items with
  | nil =>
      rw [none rfl]
      exact ends
  | cons => exact endsWord_cons rfl _

mutual

/-- What is written for a tree is cut into the tokens of the tree, in front of whatever ends a word. -/
theorem lexes_compactChars : (j : Json) → Writable j → {rest : List Char} → {following : List Token} →
    EndsWord rest → Lexes rest following → Lexes (compactChars j ++ rest) (tokens j ++ following)
  | .null, _, _, _, ends, h => .word .null ends h
  | .bool true, _, _, _, ends, h => .word .yes ends h
  | .bool false, _, _, _, ends, h => .word .no ends h
  | .number _, writable, _, _, ends, h => .word (.number writable) ends h
  | .unreadable, writable, _, _, _, _ => writable.elim
  | .str s, _, _, _, _, h => lexes_textChars s h
  | .arr items, writable, rest, following, _, h => by
    have inner := lexes_compactItems items writable (endsWord_cons (c := ']') rfl rest) (.mark rfl h)
    simp only [compactChars, tokens, List.cons_append, List.append_assoc, List.nil_append]
    exact .mark rfl inner
  | .obj members, writable, rest, following, _, h => by
    have inner :=
      lexes_compactMembers members writable (endsWord_cons (c := '\x7d') rfl rest) (.mark rfl h)
    simp only [compactChars, tokens, List.cons_append, List.append_assoc, List.nil_append]
    exact .mark rfl inner

theorem lexes_compactItems : (items : List Json) → ItemsWritable items → {rest : List Char} →
    {following : List Token} → EndsWord rest → Lexes rest following →
    Lexes (compactItems items ++ rest) (itemTokens items ++ following)
  | [], _, _, _, _, h => h
  | j :: items, writable, rest, following, ends, h => by
    have next := @endsWord_commaBefore _ items (compactItems items) rest
      (fun none => by rw [none, compactItems]) ends
    simp only [compactItems, itemTokens, List.append_assoc]
    exact lexes_compactChars j writable.1 next
      (lexes_commaBefore items (lexes_compactItems items writable.2 ends h))

theorem lexes_compactMembers : (members : List (String × Json)) → MembersWritable members →
    {rest : List Char} → {following : List Token} → EndsWord rest → Lexes rest following →
    Lexes (compactMembers members ++ rest) (memberTokens members ++ following)
  | [], _, _, _, _, h => h
  | (key, j) :: members, writable, rest, following, ends, h => by
    have next := @endsWord_commaBefore _ members (compactMembers members) rest
      (fun none => by rw [none, compactMembers]) ends
    simp only [compactMembers, memberTokens, List.append_assoc, List.cons_append]
    exact lexes_textChars key (.mark rfl (lexes_compactChars j writable.1 next
      (lexes_commaBefore members (lexes_compactMembers members writable.2 ends h))))

end

/-- What is written for a tree spells it. -/
theorem spells_compact {j : Json} (writable : Writable j) : Spells j.compact.toList j := by
  have whole := lexes_compactChars j writable endsWord_nil .nil
  rw [List.append_nil, List.append_nil] at whole
  rw [compact, String.toList_ofList]
  exact whole

end SettingsForge.Json
