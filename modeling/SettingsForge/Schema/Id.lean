import SettingsForge.Text.Quoted
import SettingsForge.Json.Token

set_option autoImplicit false

/-! # Identities of schemas

Every built schema has an identity of its own, so that two schemas of one name are told apart. Its
text has thirty two hexadecimal digits in five groups. -/

namespace SettingsForge

/-- The identity of a schema, by its serial number. -/
structure SchemaId where
  serial : Nat
  deriving DecidableEq, Repr

namespace SchemaId

/-- The last `count` hexadecimal digits of a number. -/
def hexPadded : Nat → Nat → List Char
  | 0, _ => []
  | count + 1, n => hexPadded count (n / 16) ++ [Text.hexChar (n % 16)]

/-- Digits in groups of eight, four, four, four and twelve. -/
def grouped (digits : List Char) : List Char :=
  digits.take 8 ++ '-' :: (digits.drop 8).take 4 ++ '-' :: (digits.drop 12).take 4 ++
    '-' :: (digits.drop 16).take 4 ++ '-' :: digits.drop 20

/-- The text of an identity. -/
def text (id : SchemaId) : String := String.ofList (grouped (hexPadded 32 id.serial))

/-- The identity of a text that `text` writes. -/
def ofText? (s : String) : Option SchemaId := do
  let values ← (s.toList.filter (· != '-')).mapM Json.hexValue?
  let id : SchemaId := ⟨values.foldl (fun n d => n * 16 + d) 0⟩
  if id.text == s then some id else none

end SchemaId

end SettingsForge
