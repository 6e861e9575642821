import SettingsForge.Json.Basic
import SettingsForge.Json.Number

set_option autoImplicit false

/-! # Tokens of JSON

`Json.tokens?` cuts a text into punctuation, quoted text and words, where a word is a longest run of
characters that are no blank, punctuation or quote. The words of JSON are `null`, `true`, `false` and
the number literals. The scanner is an automaton over the characters, one state at a time. -/

namespace SettingsForge.Json

/-- A part of quoted text: a character, or a UTF-16 unit spelled by an escape. -/
inductive TextPart where
  | char (c : Char)
  | unit (n : Nat)
  deriving DecidableEq, Repr

/-- The text that parts spell; none when half of a surrogate pair stands alone. -/
def textOf? : List TextPart → Option (List Char)
  | [] => some []
  | .char c :: rest => (textOf? rest).map (c :: ·)
  | .unit high :: .unit low :: rest =>
    if 0xD800 ≤ high ∧ high ≤ 0xDBFF then
      if 0xDC00 ≤ low ∧ low ≤ 0xDFFF then
        (textOf? rest).map
          (Char.ofNat (0x10000 + (high - 0xD800) * 0x400 + (low - 0xDC00)) :: ·)
      else none
    else if 0xDC00 ≤ high ∧ high ≤ 0xDFFF then none
    else (textOf? (.unit low :: rest)).map (Char.ofNat high :: ·)
  | .unit n :: rest =>
    if 0xD800 ≤ n ∧ n ≤ 0xDFFF then none else (textOf? rest).map (Char.ofNat n :: ·)

inductive Token where
  | openList
  | closeList
  | openMap
  | closeMap
  | comma
  | colon
  /-- Quoted text, none when it spells no text. -/
  | text (s : Option String)
  /-- A word: null, a truth value or a number. -/
  | word (j : Json)

/-- The token of a word. -/
def wordToken? (cs : List Char) : Option Token :=
  if cs = ['n', 'u', 'l', 'l'] then some (.word .null)
  else if cs = ['t', 'r', 'u', 'e'] then some (.word (.bool true))
  else if cs = ['f', 'a', 'l', 's', 'e'] then some (.word (.bool false))
  else (NumberLiteral.ofChars? cs).map fun _ => .word (.number cs)

/-- Where the scanner stands. What was read of the current token is kept in reverse. -/
inductive Scan where
  | between
  | word (read : List Char)
  | text (read : List TextPart)
  | escape (read : List TextPart)
  /-- Inside the four digits of an escape, `left` of them to come. -/
  | unit (read : List TextPart) (value left : Nat)

def isBlankChar (c : Char) : Bool := c == ' ' || c == '\t' || c == '\n' || c == '\r'

/-- The token of a punctuation mark. -/
def punctuation? (c : Char) : Option Token :=
  match c with
  | '[' => some .openList
  | ']' => some .closeList
  | '\x7b' => some .openMap
  | '\x7d' => some .closeMap
  | ',' => some .comma
  | ':' => some .colon
  | _ => none

/-- Whether a character ends a word. -/
def endsWord (c : Char) : Bool := isBlankChar c || c == '"' || (punctuation? c).isSome

/-- What a character does between two tokens: the token that it is, and the state after it. -/
def begin? (c : Char) : Option Token × Scan :=
  match punctuation? c with
  | some token => (some token, .between)
  | none =>
    if isBlankChar c then (none, .between)
    else if c = '"' then (none, .text [])
    else (none, .word [c])

/-- The value of a hexadecimal digit of either case. -/
def hexValue? (c : Char) : Option Nat :=
  if '0' ≤ c ∧ c ≤ '9' then some (c.toNat - '0'.toNat)
  else if 'a' ≤ c ∧ c ≤ 'f' then some (c.toNat - 'a'.toNat + 10)
  else if 'A' ≤ c ∧ c ≤ 'F' then some (c.toNat - 'A'.toNat + 10)
  else none

/-- The character after a backslash that stands for another one. -/
def escaped? (c : Char) : Option Char :=
  match c with
  | '"' => some '"'
  | '\\' => some '\\'
  | '/' => some '/'
  | 'b' => some '\x08'
  | 'f' => some '\x0c'
  | 'n' => some '\n'
  | 'r' => some '\r'
  | 't' => some '\t'
  | _ => none

/-- The tokens of a text, from a state of the scanner on. -/
def scan : Scan → List Char → Option (List Token)
  | .between, [] => some []
  | .word read, [] => (wordToken? read.reverse).map fun token => [token]
  | .text _, [] => none
  | .escape _, [] => none
  | .unit .., [] => none
  | .between, c :: cs =>
    match begin? c with
    | (token, next) => (scan next cs).map fun tokens => token.toList ++ tokens
  | .word read, c :: cs =>
    if endsWord c then do
      let token ← wordToken? read.reverse
      match begin? c with
      | (mark, next) => (scan next cs).map fun tokens => token :: (mark.toList ++ tokens)
    else scan (.word (c :: read)) cs
  | .text read, c :: cs =>
    if c = '"' then
      (scan .between cs).map (.text ((textOf? read.reverse).map String.ofList) :: ·)
    else if c = '\\' then scan (.escape read) cs
    else if c.toNat < 0x20 then none
    else scan (.text (.char c :: read)) cs
  | .escape read, c :: cs =>
    if c = 'u' then scan (.unit read 0 4) cs
    else match escaped? c with
      | some d => scan (.text (.char d :: read)) cs
      | none => none
  | .unit read value left, c :: cs =>
    match hexValue? c with
    | none => none
    | some d =>
      if left ≤ 1 then scan (.text (.unit (value * 16 + d) :: read)) cs
      else scan (.unit read (value * 16 + d) (left - 1)) cs

/-- The tokens of a text. -/
def tokens? (cs : List Char) : Option (List Token) := scan .between cs

end SettingsForge.Json
