import SettingsForge.Schema.Basic
import SettingsForge.Error.Basic
import SettingsForge.Text.Blank

set_option autoImplicit false

/-! # Building schemas

A schema is built from a name, a base or none, and its own properties. No name may be blank, and no
property name may occur twice among the inherited and the own properties, which is found out as the
index of them all is filled. -/

namespace SettingsForge.Schema

/-- Put properties into an index, from a position on, unless one has a blank name or a name that is in the
    index already. -/
def fillIndex (schema : String) :
    Nat → PropertyIndex → List Property → Except SettingsError PropertyIndex
  | _, index, [] => .ok index
  | position, index, p :: properties =>
    if Text.isBlank p.name then
      .error (.invalidSchema ("Property #" ++ natText position ++ " of " ++ schema ++
        " has an empty name"))
    else
      match index.insert p.name position with
      | (some _, _) => .error (.duplicateProperty schema p.name)
      | (none, after) => fillIndex schema (position + 1) after properties

/-- The properties of a base, none without one. -/
def inherited (base : Option Schema) : List Property :=
  match base with
  | none => []
  | some b => b.properties

/-- Build a schema under a fresh identity. -/
def build (id : SchemaId) (name : String) (base : Option Schema) (own : List Property) :
    Except SettingsError Schema :=
  if Text.isBlank name then .error (.invalidSchema "Schema name cannot be empty")
  else (fillIndex name 0 [] (inherited base ++ own)).map (.mk id name base (inherited base ++ own))

end SettingsForge.Schema
