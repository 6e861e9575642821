import SettingsForge.Settings.Dictionary

set_option autoImplicit false

/-! # Paths into an instance

A path names dictionaries and keys in turn and leads to an entry at some depth. To read, it may be
followed in any instance; to edit, each dictionary on it has to be open to edits. -/

namespace SettingsForge

/-- Dictionary properties with the keys to follow in them. -/
abbrev Path := List (String × String)

/-- Why a path leads nowhere. -/
inductive PathFault where
  | failed (error : SettingsError)
  | noEntry

namespace Settings

/-- The instance at the end of a path. -/
def follow : Path → Settings → Except PathFault Settings
  | [], x => .ok x
  | (property, key) :: path, x =>
    match x.dict property with
    | .error e => .error (.failed e)
    | .ok (_, entries) =>
      match Entries.find? entries key with
      | some entry => follow path entry.settings
      | none => .error .noEntry

/-- The instance at the end of a path that is open to edits, and the context after the attempt. -/
def followForEdit : Path → Settings → Context → Except PathFault Settings × Context
  | [], x, c => (.ok x, c)
  | (property, key) :: path, x, c =>
    match x.dictForEdit property c with
    | ⟨.error e, _, after⟩ => (.error (.failed e), after)
    | ⟨.ok (_, entries), _, after⟩ =>
      match Entries.find? entries key with
      | some entry => followForEdit path entry.settings after
      | none => (.error .noEntry, after)

/-- Replace the instance at the end of a path. -/
def replaceAt : Path → Settings → Settings → Settings
  | [], _, y => y
  | (property, key) :: path, x, y =>
    match x.dict property with
    | .error _ => x
    | .ok (dict, entries) =>
      match Entries.find? entries key with
      | none => x
      | some entry =>
        x.setContent property (.dict dict
          (Entries.insert { entry with settings := replaceAt path entry.settings y } entries))

@[simp] theorem follow_nil (x : Settings) : follow [] x = .ok x := rfl

@[simp] theorem replaceAt_nil (x y : Settings) : replaceAt [] x y = y := rfl

/-- Following a path in two parts. -/
theorem follow_append (first rest : Path) (x : Settings) :
    follow (first ++ rest) x = (follow first x).bind (follow rest) := by
  induction first generalizing x with
  | nil => rfl
  | cons step first ih =>
    obtain ⟨property, key⟩ := step
    simp only [List.cons_append, follow]
    split
    · rfl
    · split
      · exact ih _
      · rfl

end Settings

end SettingsForge
