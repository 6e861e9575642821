import SettingsForge.Text.GraphemeExtend
import SettingsForge.Decimal.Layout

set_option autoImplicit false

/-! # Quoted text

Quoted text stands between double quotes. Quotes and backslashes inside it are escaped, and so is
every character that would not be seen: the common controls by a letter, the others by their code
point in hexadecimal. -/

namespace SettingsForge.Text

/-- The character of a hexadecimal digit, in lower case. -/
def hexChar (d : Nat) : Char := if d < 10 then digitChar d else Char.ofNat ('a'.toNat + (d - 10))

/-- A natural number in hexadecimal, without leading zeros. -/
def hexDigits (n : Nat) : List Char :=
  if n < 16 then [hexChar n] else hexDigits (n / 16) ++ [hexChar (n % 16)]

/-- How a character stands in quoted text. -/
def quoteChar (c : Char) : List Char :=
  if c = '\x00' then ['\\', '0']
  else if c = '\t' then ['\\', 't']
  else if c = '\r' then ['\\', 'r']
  else if c = '\n' then ['\\', 'n']
  else if c = '"' then ['\\', '"']
  else if c = '\\' then ['\\', '\\']
  else if isGraphemeExtend c || isUnprintable c then
    ['\\', 'u', '\x7b'] ++ hexDigits c.toNat ++ ['\x7d']
  else [c]

/-- A text between quotes. -/
def quoted (s : String) : String :=
  String.ofList ('"' :: (s.toList.flatMap quoteChar ++ ['"']))

end SettingsForge.Text
