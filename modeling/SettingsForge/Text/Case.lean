set_option autoImplicit false

/-! # Case of letters

Names that are compared without regard to case fold the letters `A` to `Z` only. -/

namespace SettingsForge.Text

/-- A text with the letters `A` to `Z` in lower case. -/
def lower (s : String) : String := String.ofList (s.toList.map Char.toLower)

end SettingsForge.Text
