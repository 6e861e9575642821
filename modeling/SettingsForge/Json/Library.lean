import SettingsForge.Json.Reader

set_option autoImplicit false

/-! # JSON libraries

The JSON form of values is laid down here, numbers and texts are left to a library: how a double is
written, which double a number literal is read as, and which tree a text is read as. -/

namespace SettingsForge

structure JsonLibrary where
  /-- The number text of a finite double. -/
  floatChars : Binary64 → List Char
  /-- The finite double that a number literal is read as, if it is read as one. -/
  float? : NumberLiteral → Option Binary64
  /-- The tree of a text that is one JSON value. -/
  parse? : String → Option Json

namespace JsonLibrary

/-- The library that programs run with. -/
def standard : JsonLibrary := ⟨NumberLayout.json.chars, NumberLiteral.float?, Json.parse?⟩

/-- The double that the characters of a number literal are read as. -/
def floatOfChars? (library : JsonLibrary) (literal : List Char) : Option Binary64 :=
  (NumberLiteral.ofChars? literal).bind library.float?

end JsonLibrary

end SettingsForge
