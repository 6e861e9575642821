set_option autoImplicit false

/-! # Words -/

namespace SettingsForge

/-- Texts with a separator between neighbours. -/
def joined (separator : String) : List String → String
  | [] => ""
  | [s] => s
  | s :: t :: rest => s ++ separator ++ joined separator (t :: rest)

/-- The words for the truth values. -/
def boolText (b : Bool) : String := if b then "true" else "false"

end SettingsForge
