import SettingsForge.Json.Basic
import SettingsForge.Text.Quoted

set_option autoImplicit false

/-! # Writing JSON

`Json.compact` writes without blanks, `Json.pretty` one item or member a line, indented by two blanks
a level. Only quotes, backslashes and controls are escaped in texts. -/

namespace SettingsForge.Json

/-- How a character stands in a JSON text. -/
def escapeChar (c : Char) : List Char :=
  if c = '"' then ['\\', '"']
  else if c = '\\' then ['\\', '\\']
  else if c = '\n' then ['\\', 'n']
  else if c = '\t' then ['\\', 't']
  else if c = '\r' then ['\\', 'r']
  else if c = '\x08' then ['\\', 'b']
  else if c = '\x0c' then ['\\', 'f']
  else if c.toNat < 0x20 then
    ['\\', 'u', '0', '0', Text.hexChar (c.toNat / 16), Text.hexChar (c.toNat % 16)]
  else [c]

/-- A text between quotes. -/
def textChars (s : String) : List Char := '"' :: (s.toList.flatMap escapeChar ++ ['"'])

/-- The words for null, truth values and numbers. -/
def wordChars : Json → List Char
  | .bool true => ['t', 'r', 'u', 'e']
  | .bool false => ['f', 'a', 'l', 's', 'e']
  | .number literal => literal
  | _ => ['n', 'u', 'l', 'l']

/-- Whether a list item or a member is followed by another. -/
def commaBefore {α : Type} : List α → List Char
  | [] => []
  | _ :: _ => [',']

mutual

/-- A value without blanks. -/
def compactChars : Json → List Char
  | .str s => textChars s
  | .arr items => '[' :: (compactItems items ++ [']'])
  | .obj members => '\x7b' :: (compactMembers members ++ ['\x7d'])
  | .null => wordChars .null
  | .bool b => wordChars (.bool b)
  | .number literal => literal
  | .unreadable => wordChars .null

def compactItems : List Json → List Char
  | [] => []
  | j :: items => compactChars j ++ commaBefore items ++ compactItems items

def compactMembers : List (String × Json) → List Char
  | [] => []
  | (key, j) :: members =>
    textChars key ++ ':' :: (compactChars j ++ commaBefore members ++ compactMembers members)

end

/-- A new line and the blanks of a level. -/
def lineBreak (level : Nat) : List Char := '\n' :: List.replicate (2 * level) ' '

mutual

/-- A value with its items and members on lines of their own; empty containers stay on one. -/
def prettyChars (level : Nat) : Json → List Char
  | .str s => textChars s
  | .arr [] => ['[', ']']
  | .arr (j :: items) => '[' :: (prettyItems (level + 1) (j :: items) ++ lineBreak level ++ [']'])
  | .obj [] => ['\x7b', '\x7d']
  | .obj (member :: members) =>
    '\x7b' :: (prettyMembers (level + 1) (member :: members) ++ lineBreak level ++ ['\x7d'])
  | .null => wordChars .null
  | .bool b => wordChars (.bool b)
  | .number literal => literal
  | .unreadable => wordChars .null

def prettyItems (level : Nat) : List Json → List Char
  | [] => []
  | j :: items =>
    lineBreak level ++ prettyChars level j ++ commaBefore items ++ prettyItems level items

def prettyMembers (level : Nat) : List (String × Json) → List Char
  | [] => []
  | (key, j) :: members =>
    lineBreak level ++ textChars key ++ ':' :: ' ' ::
      (prettyChars level j ++ commaBefore members ++ prettyMembers level members)

end

def compact (j : Json) : String := String.ofList (compactChars j)

def pretty (j : Json) : String := String.ofList (prettyChars 0 j)

end SettingsForge.Json
