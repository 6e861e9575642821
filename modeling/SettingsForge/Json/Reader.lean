import SettingsForge.Json.Token

set_option autoImplicit false

/-! # Reading JSON

The reader runs over the tokens with a stack of the containers that are still open. It accepts one
value and nothing after it. Containers that are more than `maxDepth` deep inside each other are passed
over and stand for nothing. -/

namespace SettingsForge.Json

/-- The most containers inside each other that can be read. -/
def maxDepth : Nat := 127

/-- An open container: what it holds so far, last first, and the key that waits for its value. A key
    is none when it spells no text. -/
inductive Frame where
  | items (held : List Json)
  | members (held : List (Option String × Json)) (key : Option String)

/-- What may come next. -/
inductive Phase where
  | value
  | firstItem
  | firstKey
  | key
  | colon
  /-- After a value inside a container. -/
  | more
  /-- After the whole value. -/
  | finished (j : Json)

/-- The reader's state. -/
structure ReadState where
  frames : List Frame
  phase : Phase

/-- A value is complete: it goes to the innermost open container. -/
def ReadState.complete (j : Json) : List Frame → ReadState
  | [] => ⟨[], .finished j⟩
  | .items held :: frames => ⟨.items (j :: held) :: frames, .more⟩
  | .members held key :: frames => ⟨.members ((key, j) :: held) key :: frames, .more⟩

/-- The object with these members, unreadable when a key is. -/
def ofMembers (members : List (Option String × Json)) : Json :=
  match members.mapM fun member => member.1.map fun key => (key, member.2) with
  | some readable => .obj readable
  | none => .unreadable

/-- A container is complete: it stands for nothing inside too many others. -/
def ReadState.close (j : Json) (frames : List Frame) : ReadState :=
  complete (if frames.length < maxDepth then j else .unreadable) frames

/-- A token where a value may begin. -/
def ReadState.value (frames : List Frame) : Token → Option ReadState
  | .openList => some ⟨.items [] :: frames, .firstItem⟩
  | .openMap => some ⟨.members [] none :: frames, .firstKey⟩
  | .text (some s) => some (complete (.str s) frames)
  | .text none => some (complete .unreadable frames)
  | .word j => some (complete j frames)
  | _ => none

/-- One token. -/
def ReadState.step (state : ReadState) (token : Token) : Option ReadState :=
  match state.phase, token, state.frames with
  | .value, token, frames => value frames token
  | .firstItem, .closeList, .items _ :: frames => some (close (.arr []) frames)
  | .firstItem, token, frames => value frames token
  | .firstKey, .closeMap, .members _ _ :: frames => some (close (.obj []) frames)
  | .firstKey, .text key, .members held _ :: frames => some ⟨.members held key :: frames, .colon⟩
  | .key, .text key, .members held _ :: frames => some ⟨.members held key :: frames, .colon⟩
  | .colon, .colon, frames => some ⟨frames, .value⟩
  | .more, .comma, .items held :: frames => some ⟨.items held :: frames, .value⟩
  | .more, .comma, .members held key :: frames => some ⟨.members held key :: frames, .key⟩
  | .more, .closeList, .items held :: frames => some (close (.arr held.reverse) frames)
  | .more, .closeMap, .members held _ :: frames =>
    some (close (ofMembers held.reverse) frames)
  | _, _, _ => none

/-- Run over the tokens. -/
def ReadState.run : ReadState → List Token → Option ReadState
  | state, [] => some state
  | state, token :: tokens => (state.step token).bind fun next => next.run tokens

/-- The value of a text that is one JSON value, blanks around it allowed. -/
def parse? (text : String) : Option Json := do
  let tokens ← tokens? text.toList
  let state ← ReadState.run ⟨[], .value⟩ tokens
  match state.phase with
  | .finished j => some j
  | _ => none

end SettingsForge.Json
