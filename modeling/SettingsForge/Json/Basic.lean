set_option autoImplicit false

/-! # JSON trees

Members of an object stay in the order of the text, repeated keys included. A number is its literal,
so that no digit is lost. -/

namespace SettingsForge

inductive Json where
  | null
  | bool (b : Bool)
  /-- A number, by the characters of its literal. -/
  | number (literal : List Char)
  | str (s : String)
  | arr (items : List Json)
  | obj (members : List (String × Json))
  /-- A part that is well formed but stands for nothing: text with half of a surrogate pair, an
      object with such a key, or a container inside too many others. It may only be passed over. -/
  | unreadable
  deriving Inhabited

namespace Json

mutual

/-- Whether every part of a tree stands for something, a number by its literal. -/
def isReadable (isNumber : List Char → Bool) : Json → Bool
  | .number literal => isNumber literal
  | .arr items => itemsReadable isNumber items
  | .obj members => membersReadable isNumber members
  | .unreadable => false
  | _ => true

def itemsReadable (isNumber : List Char → Bool) : List Json → Bool
  | [] => true
  | j :: items => j.isReadable isNumber && itemsReadable isNumber items

def membersReadable (isNumber : List Char → Bool) : List (String × Json) → Bool
  | [] => true
  | (_, j) :: members => j.isReadable isNumber && membersReadable isNumber members

end

end Json

end SettingsForge
