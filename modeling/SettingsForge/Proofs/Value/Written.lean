import SettingsForge.Proofs.Json.Libraries
import SettingsForge.Proofs.Keyed
import SettingsForge.Value.Json

set_option autoImplicit false

/-! # Values that were written

The JSON form of a value can be written when its floats are finite and their number texts are read back
(`Value.writable_toJson`). Read where it stands or held back, it is the same value again
(`Value.read?_toJson`). -/

namespace SettingsForge

namespace Value

/-! ## Floats inside values -/

mutual

/-- The floats inside a value, at any depth. -/
def floats : Value → List Binary64
  | .float x => [x]
  | .object _ fields => entriesFloats fields
  | .list items => itemsFloats items
  | .map entries => entriesFloats entries
  | _ => []

def itemsFloats : List Value → List Binary64
  | [] => []
  | v :: items => v.floats ++ itemsFloats items

def entriesFloats : List (String × Value) → List Binary64
  | [] => []
  | (_, v) :: entries => v.floats ++ entriesFloats entries

end

variable {library : JsonLibrary}

/-! ## Writing -/

theorem floatJson_of_finite {x : Binary64} (finite : x.isFinite = true) :
    floatJson library x = .number (library.floatChars x) := by
  rw [floatJson, if_pos finite]

theorem isSome_ofChars?_intChars (i : Int64) :
    (NumberLiteral.ofChars? (intChars i.toInt)).isSome = true :=
  Option.isSome_of_isSome_bind (by rw [NumberLiteral.int?_intChars]; rfl)

mutual

/-- What is written for a value is a tree that can be written. -/
theorem writable_toJson : (v : Value) → (∀ x ∈ v.floats, x.isFinite = true ∧ library.ReadsBack x) →
    (v.toJson library).Writable
  | .null, _ | .bool _, _ | .str _, _ => by simp [toJson, tagged, Json.Writable, Json.MembersWritable]
  | .int i, _ => ⟨trivial, isSome_ofChars?_intChars i, trivial⟩
  | .float x, returning => by
    obtain ⟨finite, back⟩ := returning x (List.mem_singleton_self x)
    refine ⟨trivial, ?_, trivial⟩
    rw [floatJson_of_finite finite]
    exact Option.isSome_of_isSome_bind (Option.isSome_of_eq_some back)
  | .enum _ ordinal, _ => ⟨trivial, ⟨trivial, isSome_ofChars?_intChars ordinal, trivial⟩, trivial⟩
  | .object _ fields, returning =>
    ⟨trivial, ⟨trivial, writable_entriesToJson fields returning, trivial⟩, trivial⟩
  | .list items, returning => ⟨trivial, writable_itemsToJson items returning, trivial⟩
  | .map entries, returning => ⟨trivial, writable_entriesToJson entries returning, trivial⟩

theorem writable_itemsToJson : (items : List Value) →
    (∀ x ∈ itemsFloats items, x.isFinite = true ∧ library.ReadsBack x) →
    Json.ItemsWritable (itemsToJson library items)
  | [], _ => trivial
  | v :: items, returning =>
    have returning := List.forall_mem_append.1 returning
    ⟨writable_toJson v returning.1, writable_itemsToJson items returning.2⟩

theorem writable_entriesToJson : (entries : List (String × Value)) →
    (∀ x ∈ entriesFloats entries, x.isFinite = true ∧ library.ReadsBack x) →
    Json.MembersWritable (entriesToJson library entries)
  | [], _ => trivial
  | (_, v) :: entries, returning =>
    have returning := List.forall_mem_append.1 returning
    ⟨writable_toJson v returning.1, writable_entriesToJson entries returning.2⟩

end

/-! ## Reading what was written -/

theorem tagIn?_tagged (timing : Timing) (tag : Tag) (content : Json) :
    tagIn? library timing [("type", .str tag.name), ("value", content)] = some tag := by
  simp [tagIn?, sole?, atMostOnce, heldContent?, Tag.underKey?]

theorem tagIn?_null (timing : Timing) :
    tagIn? library timing [("type", .str Tag.null.name)] = some .null := by
  simp [tagIn?, sole?, atMostOnce, heldContent?, Tag.underKey?]

theorem read?_tagged (timing : Timing) (tag : Tag) (content : Json) :
    read? library timing (tagged tag content) = readContent? library timing tag content := by
  rw [tagged, read?, tagIn?_tagged]
  simp [readContentIn?, Timing.ofContent, heldContent?]

theorem floatOf?_floatJson {x : Binary64} (finite : x.isFinite = true) (back : library.ReadsBack x) :
    floatOf? library (floatJson library x) = some x := by
  rw [floatJson_of_finite finite]
  exact back

theorem intOf?_intJson (i : Int64) : intOf? (intJson i) = some i := NumberLiteral.int?_intChars i

mutual

/-- A value is read as it was written. -/
theorem read?_toJson (timing : Timing) : (v : Value) → v.KeysSorted →
    (∀ x ∈ v.floats, x.isFinite = true ∧ library.ReadsBack x) →
    read? library timing (v.toJson library) = some v
  | .null, _, _ => by
    rw [toJson, read?, tagIn?_null]
    simp [readContentIn?]
  | .bool b, _, _ => read?_tagged timing .bool (.bool b)
  | .int i, _, _ => by
    rw [toJson, read?_tagged, readContent?, intOf?_intJson]
    rfl
  | .float x, _, returning => by
    obtain ⟨finite, back⟩ := returning x (List.mem_singleton_self x)
    rw [toJson, read?_tagged, readContent?, floatOf?_floatJson finite back]
    rfl
  | .str s, _, _ => by rw [toJson, read?_tagged, readContent?]
  | .enum typeName ordinal, _, _ => by
    rw [toJson, read?_tagged, readContent?]
    simp [enumOf?, sole?, textOf?, intOf?_intJson]
  | .object typeName fields, sorted, returning => by
    rw [toJson, read?_tagged, readContent?]
    simp [sole?, textOf?, readFieldsIn?, readFields?,
      readEntries?_entriesToJson timing fields sorted.2 returning, Keyed.ofList_of_sorted sorted.1]
  | .list items, sorted, returning => by
    rw [toJson, read?_tagged, readContent?, readItems?_itemsToJson timing items sorted returning]
    rfl
  | .map entries, sorted, returning => by
    rw [toJson, read?_tagged, readContent?,
      readEntries?_entriesToJson timing entries sorted.2 returning]
    simp [Keyed.ofList_of_sorted sorted.1]

theorem readItems?_itemsToJson (timing : Timing) : (items : List Value) → itemsKeysSorted items →
    (∀ x ∈ itemsFloats items, x.isFinite = true ∧ library.ReadsBack x) →
    readItems? library timing (itemsToJson library items) = some items
  | [], _, _ => rfl
  | v :: items, sorted, returning => by
    obtain ⟨first, rest⟩ := List.forall_mem_append.1 returning
    rw [itemsToJson, readItems?, read?_toJson timing v sorted.1 first,
      readItems?_itemsToJson timing items sorted.2 rest]
    rfl

theorem readEntries?_entriesToJson (timing : Timing) : (entries : List (String × Value)) →
    entriesKeysSorted entries →
    (∀ x ∈ entriesFloats entries, x.isFinite = true ∧ library.ReadsBack x) →
    readEntries? library timing (entriesToJson library entries) = some entries
  | [], _, _ => rfl
  | (key, v) :: entries, sorted, returning => by
    obtain ⟨first, rest⟩ := List.forall_mem_append.1 returning
    rw [entriesToJson, readEntries?, read?_toJson timing v sorted.1 first,
      readEntries?_entriesToJson timing entries sorted.2 rest]
    rfl

end

end Value

end SettingsForge
