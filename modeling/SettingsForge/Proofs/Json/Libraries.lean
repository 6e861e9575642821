import SettingsForge.Json.Library
import SettingsForge.Proofs.Json.NumberText
import SettingsForge.Proofs.Json.Reading

set_option autoImplicit false

/-! # What is relied on of a library

A library conforms when it reads by the grammar of JSON, down to the deepest level that it takes
(`JsonLibrary.Conforms`). Whether the number text of a double is read as the double again is a matter of
its own (`JsonLibrary.ReadsBack`): the library that programs run with rounds on the way and reads back
what has few digits (`JsonLibrary.readsBack_standard`), one that rounds once reads back every finite
double (`JsonLibrary.readsBack_nearest`). -/

namespace SettingsForge.JsonLibrary

/-- A text that spells a tree of no more levels than can be read is read as this tree, no deeper tree is
    read from any text, and no number literal is read as a double that is not finite. -/
structure Conforms (library : JsonLibrary) : Prop where
  reads : ∀ (text : String) (j : Json), Json.Spells text.toList j → j.depth ≤ Json.maxDepth →
    library.parse? text = some j
  shallow : ∀ (text : String) (j : Json), library.parse? text = some j → j.depth ≤ Json.maxDepth
  finite : ∀ (literal : NumberLiteral) (x : Binary64), library.float? literal = some x →
    x.isFinite = true

/-- The number text of a double is read as this double. -/
def ReadsBack (library : JsonLibrary) (x : Binary64) : Prop :=
  library.floatOfChars? (library.floatChars x) = some x

instance (library : JsonLibrary) (x : Binary64) : Decidable (library.ReadsBack x) :=
  inferInstanceAs (Decidable (_ = _))

/-- The reader reads by the grammar, so that a library with it conforms when it reads finite doubles
    only. -/
theorem conforms_of_parse? {library : JsonLibrary} (reader : library.parse? = Json.parse?)
    (finite : ∀ (literal : NumberLiteral) (x : Binary64), library.float? literal = some x →
      x.isFinite = true) : library.Conforms where
  reads text j spells fits := by
    rw [reader]
    exact Json.parse?_of_spells spells fits
  shallow text j parsed := by
    rw [reader] at parsed
    exact Json.depth_of_parse? parsed
  finite := finite

/-! ## The library that programs run with -/

theorem conforms_standard : standard.Conforms := by
  refine conforms_of_parse? rfl fun literal x read => ?_
  change literal.float? = some x at read
  unfold NumberLiteral.float? at read
  dsimp only at read
  split at read
  · next finite =>
    cases read
    exact finite
  · cases read

theorem readsBack_standard {x : Binary64} (finite : x.isFinite = true) (short : x.Short) :
    standard.ReadsBack x := Binary64.float?_of_short finite short

/-- It does not read back every finite double. -/
example : ¬ standard.ReadsBack (.ofBits 0x41617bb34989878a) := by decide +kernel

/-! ## Rounding once -/

/-- The library with number literals read as the doubles nearest to them. -/
def nearest : JsonLibrary where
  floatChars := NumberLayout.json.chars
  float? literal := if literal.nearest.isFinite then some literal.nearest else none
  parse? := Json.parse?

theorem conforms_nearest : nearest.Conforms := by
  refine conforms_of_parse? rfl fun literal x read => ?_
  obtain ⟨finite, same⟩ := Option.ite_none_right_eq_some.1 read
  exact Option.some.inj same ▸ finite

theorem readsBack_nearest {x : Binary64} (finite : x.isFinite = true) : nearest.ReadsBack x := by
  obtain ⟨literal, spelled, near⟩ :=
    Option.map_eq_some_iff.1 (NumberLayout.json.nearest_of_chars finite)
  change (NumberLiteral.ofChars? (NumberLayout.json.chars x)).bind nearest.float? = some x
  rw [spelled, Option.bind_some]
  exact (if_pos (near ▸ finite)).trans (congrArg some near)

end SettingsForge.JsonLibrary
