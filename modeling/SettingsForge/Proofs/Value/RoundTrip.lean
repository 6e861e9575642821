import SettingsForge.Proofs.Value.Written

set_option autoImplicit false

/-! # JSON texts of values

Whatever a library reads is a value that can be stored (`Value.storable_of_read?`): it has its keys in
order, finite floats, and no more levels than the library takes. The text of such a value is read as the
value again when the library reads back the number texts of its floats
(`Value.json_text_reads_back`). -/

namespace SettingsForge

namespace Value

/-! ## Values that can be stored -/

/-- A value that can be written and read: the keys inside it ascend, the floats inside it are finite,
    and in its JSON form at most `levels` containers are inside each other. -/
structure Storable (library : JsonLibrary) (levels : Nat) (v : Value) : Prop where
  sorted : v.KeysSorted
  finite : ∀ x ∈ v.floats, x.isFinite = true
  shallow : (v.toJson library).depth ≤ levels

variable {library : JsonLibrary}

theorem Storable.mono {v : Value} {m n : Nat} (h : v.Storable library m) (le : m ≤ n) :
    v.Storable library n :=
  { h with shallow := Nat.le_trans h.shallow le }

theorem depth_tagged (tag : Tag) (content : Json) : (tagged tag content).depth = content.depth + 1 := by
  simp [tagged, Json.depth, Json.membersDepth]

theorem mem_itemsFloats {items : List Value} {x : Binary64} :
    x ∈ itemsFloats items ↔ ∃ v ∈ items, x ∈ v.floats := by
  induction items with
  | nil => simp [itemsFloats]
  | cons v items ih => simp [itemsFloats, ih]

theorem mem_entriesFloats {entries : List (String × Value)} {x : Binary64} :
    x ∈ entriesFloats entries ↔ ∃ entry ∈ entries, x ∈ entry.2.floats := by
  induction entries with
  | nil => simp [entriesFloats]
  | cons entry entries ih => simp [entriesFloats, ih]

theorem depth_entriesToJson {entries : List (String × Value)} {n : Nat}
    (h : ∀ entry ∈ entries, (entry.2.toJson library).depth ≤ n) :
    Json.membersDepth (entriesToJson library entries) ≤ n := by
  induction entries with
  | nil => exact Nat.zero_le n
  | cons entry entries ih =>
      rw [List.forall_mem_cons] at h
      exact Nat.max_le.2 ⟨h.1, ih h.2⟩

theorem storable_null : Storable library 1 .null := ⟨trivial, nofun, Nat.le_refl 1⟩

theorem storable_float {x : Binary64} (finite : x.isFinite = true) : Storable library 1 (.float x) := by
  refine ⟨trivial, fun y mem => ?_, ?_⟩
  · rw [List.mem_singleton.1 mem]
    exact finite
  · rw [toJson, depth_tagged, floatJson_of_finite finite]
    exact Nat.le_refl 1

theorem storable_list {items : List Value} {n : Nat} (h : ∀ v ∈ items, v.Storable library n) :
    Storable library (n + 2) (.list items) where
  sorted := (itemsKeysSorted_iff items).2 fun v mem => (h v mem).sorted
  finite x mem := by
    obtain ⟨v, mem, inside⟩ := mem_itemsFloats.1 mem
    exact (h v mem).finite x inside
  shallow := by
    rw [toJson, depth_tagged, itemsToJson_eq_map]
    refine Nat.succ_le_succ (Nat.succ_le_succ (Json.itemsDepth_le.2 fun j mem => ?_))
    obtain ⟨v, inside, rfl⟩ := List.mem_map.1 mem
    exact (h v inside).shallow

/-- What the entries of a map and the fields of an object have in common. -/
structure EntriesStorable (library : JsonLibrary) (levels : Nat) (entries : List (String × Value)) :
    Prop where
  ascending : Keyed.Sorted entries
  each : ∀ entry ∈ entries, entry.2.Storable library levels

theorem EntriesStorable.sorted {entries : List (String × Value)} {n : Nat}
    (h : EntriesStorable library n entries) : Keyed.Sorted entries ∧ entriesKeysSorted entries :=
  ⟨h.ascending, (entriesKeysSorted_iff entries).2 fun entry mem => (h.each entry mem).sorted⟩

theorem EntriesStorable.finite {entries : List (String × Value)} {n : Nat}
    (h : EntriesStorable library n entries) : ∀ x ∈ entriesFloats entries, x.isFinite = true := by
  intro x mem
  obtain ⟨entry, mem, inside⟩ := mem_entriesFloats.1 mem
  exact (h.each entry mem).finite x inside

theorem EntriesStorable.map {entries : List (String × Value)} {n : Nat}
    (h : EntriesStorable library n entries) : Storable library (n + 2) (.map entries) where
  sorted := h.sorted
  finite := h.finite
  shallow := by
    rw [toJson, depth_tagged]
    exact Nat.succ_le_succ (Nat.succ_le_succ
      (depth_entriesToJson fun entry mem => (h.each entry mem).shallow))

theorem EntriesStorable.object {fields : List (String × Value)} {n : Nat}
    (h : EntriesStorable library n fields) (typeName : String) :
    Storable library (n + 3) (.object typeName fields) where
  sorted := h.sorted
  finite := h.finite
  shallow := by
    have inner := depth_entriesToJson fun entry mem => (h.each entry mem).shallow
    rw [toJson, depth_tagged]
    simp only [Json.depth, Json.membersDepth]
    omega

/-- Read entries keep what each of them has when they are put in order. -/
theorem entriesStorable_ofList {pairs : List (String × Value)} {n : Nat}
    (h : ∀ pair ∈ pairs, pair.2.Storable library n) : EntriesStorable library n (Keyed.ofList pairs) :=
  ⟨Keyed.sorted_ofList pairs, fun entry mem => h entry (Keyed.mem_of_mem_ofList mem)⟩

/-! ## What the reader accepts -/

theorem isFinite_of_floatOf? (conforms : library.Conforms) {j : Json} {x : Binary64}
    (h : floatOf? library j = some x) : x.isFinite = true := by
  cases j with
  | number literal =>
      obtain ⟨parsed, -, read⟩ := Option.bind_eq_some_iff.1 h
      exact conforms.finite parsed x read
  | _ => cases h

theorem storable_of_enumOf? {j : Json} {v : Value} (h : enumOf? j = some v) :
    v.Storable library (j.depth + 1) := by
  have member : ∀ typeName ordinal, Storable library 2 (.enum typeName ordinal) := fun _ _ =>
    ⟨trivial, nofun, Nat.le_refl 2⟩
  unfold enumOf? at h
  split at h
  · obtain ⟨_, -, h⟩ := Option.bind_eq_some_iff.1 h
    obtain ⟨typeName, -, h⟩ := Option.bind_eq_some_iff.1 h
    obtain ⟨_, -, h⟩ := Option.bind_eq_some_iff.1 h
    obtain ⟨ordinal, -, h⟩ := Option.bind_eq_some_iff.1 h
    cases h
    exact (member typeName ordinal).mono (Nat.succ_le_succ (Nat.succ_le_succ (Nat.zero_le _)))
  · obtain ⟨typeName, -, h⟩ := Option.bind_eq_some_iff.1 h
    obtain ⟨ordinal, -, h⟩ := Option.bind_eq_some_iff.1 h
    cases h
    exact (member typeName ordinal).mono (Nat.succ_le_succ (Nat.succ_le_succ (Nat.zero_le _)))
  · cases h

mutual

theorem storable_of_readTree? (conforms : library.Conforms) : (j : Json) → {timing : Timing} →
    {v : Value} → read? library timing j = some v → v.Storable library j.depth
  | .obj members, timing, v, h => by
    rw [read?] at h
    obtain ⟨tag, -, h⟩ := Option.bind_eq_some_iff.1 h
    exact storable_of_readContentIn? conforms members h
  | .arr [tag, content], timing, v, h => by
    rw [read?] at h
    obtain ⟨tag, -, h⟩ := Option.bind_eq_some_iff.1 h
    refine (storable_of_readContent? conforms tag content h).mono ?_
    simp [Json.depth, Json.itemsDepth]
  | .arr [], _, _, h | .arr [_], _, _, h | .arr (_ :: _ :: _ :: _), _, _, h => by
    simp [read?] at h
  | .null, _, _, h | .bool _, _, _, h | .number _, _, _, h | .str _, _, _, h
  | .unreadable, _, _, h => by simp [read?] at h

theorem storable_of_readContentIn? (conforms : library.Conforms) : (members : List (String × Json)) →
    {timing : Timing} → {tag : Tag} → {v : Value} →
    readContentIn? library timing tag members = some v →
    v.Storable library (Json.membersDepth members + 1)
  | [], timing, tag, v, h => by
    rw [readContentIn?] at h
    split at h
    · cases h
      exact storable_null
    · cases h
  | (key, j) :: members, timing, tag, v, h => by
    rw [readContentIn?] at h
    rw [Json.membersDepth]
    split at h
    · exact (storable_of_readContent? conforms tag j h).mono (by omega)
    · exact (storable_of_readContentIn? conforms members h).mono (by omega)

theorem storable_of_readContent? (conforms : library.Conforms) : (tag : Tag) → (j : Json) →
    {timing : Timing} → {v : Value} → readContent? library timing tag j = some v →
    v.Storable library (j.depth + 1)
  | .null, j, timing, v, h => by
    cases j <;> simp [readContent?] at h
    subst h
    exact storable_null
  | .bool, j, timing, v, h => by
    cases j <;> simp [readContent?] at h
    subst h
    exact ⟨trivial, nofun, Nat.le_refl 1⟩
  | .int, j, timing, v, h => by
    rw [readContent?] at h
    obtain ⟨i, -, rfl⟩ := Option.map_eq_some_iff.1 h
    exact ⟨trivial, nofun, Nat.succ_le_succ (Nat.zero_le _)⟩
  | .float, j, timing, v, h => by
    rw [readContent?] at h
    obtain ⟨x, read, rfl⟩ := Option.map_eq_some_iff.1 h
    exact (storable_float (isFinite_of_floatOf? conforms read)).mono (Nat.succ_le_succ (Nat.zero_le _))
  | .str, j, timing, v, h => by
    cases j <;> simp [readContent?] at h
    subst h
    exact ⟨trivial, nofun, Nat.le_refl 1⟩
  | .enum, j, timing, v, h => by
    rw [readContent?] at h
    exact storable_of_enumOf? h
  | .object, .obj members, timing, v, h => by
    rw [readContent?] at h
    obtain ⟨_, -, h⟩ := Option.bind_eq_some_iff.1 h
    obtain ⟨typeName, -, h⟩ := Option.bind_eq_some_iff.1 h
    obtain ⟨_, -, h⟩ := Option.bind_eq_some_iff.1 h
    obtain ⟨fields, read, h⟩ := Option.bind_eq_some_iff.1 h
    cases h
    obtain ⟨n, lt, storable⟩ := storable_of_readFieldsIn? conforms members read
    exact (storable.object typeName).mono (Nat.succ_le_succ (Nat.succ_le_succ lt))
  | .object, .arr [typeName, fields], timing, v, h => by
    rw [readContent?] at h
    obtain ⟨name, -, h⟩ := Option.bind_eq_some_iff.1 h
    obtain ⟨values, read, h⟩ := Option.bind_eq_some_iff.1 h
    cases h
    obtain ⟨n, lt, storable⟩ := storable_of_readFields? conforms fields read
    refine (storable.object name).mono ?_
    simp only [Json.depth, Json.itemsDepth]
    omega
  | .object, .arr [], _, _, h | .object, .arr [_], _, _, h
  | .object, .arr (_ :: _ :: _ :: _), _, _, h => by simp [readContent?] at h
  | .object, .null, _, _, h | .object, .bool _, _, _, h | .object, .number _, _, _, h
  | .object, .str _, _, _, h | .object, .unreadable, _, _, h => by simp [readContent?] at h
  | .list, .arr items, timing, v, h => by
    rw [readContent?] at h
    obtain ⟨values, read, rfl⟩ := Option.map_eq_some_iff.1 h
    exact storable_list (storable_of_readItems? conforms items read)
  | .list, .null, _, _, h | .list, .bool _, _, _, h | .list, .number _, _, _, h
  | .list, .str _, _, _, h | .list, .obj _, _, _, h | .list, .unreadable, _, _, h => by
    simp [readContent?] at h
  | .map, .obj entries, timing, v, h => by
    rw [readContent?] at h
    obtain ⟨pairs, read, h⟩ := Option.bind_eq_some_iff.1 h
    cases h
    exact (entriesStorable_ofList (storable_of_readEntries? conforms entries read)).map
  | .map, .null, _, _, h | .map, .bool _, _, _, h | .map, .number _, _, _, h
  | .map, .str _, _, _, h | .map, .arr _, _, _, h | .map, .unreadable, _, _, h => by
    simp [readContent?] at h

theorem storable_of_readFieldsIn? (conforms : library.Conforms) : (members : List (String × Json)) →
    {timing : Timing} → {fields : List (String × Value)} →
    readFieldsIn? library timing members = some fields →
    ∃ n < Json.membersDepth members, EntriesStorable library n fields
  | [], timing, fields, h => by cases h
  | (key, j) :: members, timing, fields, h => by
    rw [readFieldsIn?] at h
    rw [Json.membersDepth]
    split at h
    · obtain ⟨n, lt, storable⟩ := storable_of_readFields? conforms j h
      exact ⟨n, by omega, storable⟩
    · obtain ⟨n, lt, storable⟩ := storable_of_readFieldsIn? conforms members h
      exact ⟨n, by omega, storable⟩

theorem storable_of_readFields? (conforms : library.Conforms) : (j : Json) → {timing : Timing} →
    {fields : List (String × Value)} → readFields? library timing j = some fields →
    ∃ n < j.depth, EntriesStorable library n fields
  | .obj members, timing, fields, h => by
    rw [readFields?] at h
    obtain ⟨pairs, read, rfl⟩ := Option.map_eq_some_iff.1 h
    exact ⟨_, Nat.lt_succ_self _,
      entriesStorable_ofList (storable_of_readEntries? conforms members read)⟩
  | .null, _, _, h | .bool _, _, _, h | .number _, _, _, h | .str _, _, _, h | .arr _, _, _, h
  | .unreadable, _, _, h => by simp [readFields?] at h

theorem storable_of_readItems? (conforms : library.Conforms) : (items : List Json) →
    {timing : Timing} → {values : List Value} → readItems? library timing items = some values →
    ∀ v ∈ values, v.Storable library (Json.itemsDepth items)
  | [], timing, values, h => by
    cases h
    nofun
  | j :: items, timing, values, h => by
    rw [readItems?] at h
    obtain ⟨v, first, h⟩ := Option.bind_eq_some_iff.1 h
    obtain ⟨rest, later, h⟩ := Option.bind_eq_some_iff.1 h
    cases h
    rw [Json.itemsDepth]
    refine List.forall_mem_cons.2
      ⟨(storable_of_readTree? conforms j first).mono (by omega), fun w mem => ?_⟩
    exact (storable_of_readItems? conforms items later w mem).mono (by omega)

theorem storable_of_readEntries? (conforms : library.Conforms) : (members : List (String × Json)) →
    {timing : Timing} → {pairs : List (String × Value)} →
    readEntries? library timing members = some pairs →
    ∀ pair ∈ pairs, pair.2.Storable library (Json.membersDepth members)
  | [], timing, pairs, h => by
    cases h
    nofun
  | (key, j) :: members, timing, pairs, h => by
    rw [readEntries?] at h
    obtain ⟨v, first, h⟩ := Option.bind_eq_some_iff.1 h
    obtain ⟨rest, later, h⟩ := Option.bind_eq_some_iff.1 h
    cases h
    rw [Json.membersDepth]
    refine List.forall_mem_cons.2
      ⟨(storable_of_readTree? conforms j first).mono (by omega), fun w mem => ?_⟩
    exact (storable_of_readEntries? conforms members later w mem).mono (by omega)

end

theorem storable_of_read? (conforms : library.Conforms) {text : String} {v : Value}
    (h : library.read? text = some v) : v.Storable library Json.maxDepth := by
  obtain ⟨j, parsed, read⟩ := Option.bind_eq_some_iff.1 h
  exact (storable_of_readTree? conforms j read).mono (conforms.shallow text j parsed)

/-! ## Reading texts back -/

theorem read?_write (conforms : library.Conforms) {v : Value}
    (storable : v.Storable library Json.maxDepth) (back : ∀ x ∈ v.floats, library.ReadsBack x) :
    library.read? (library.write v) = some v := by
  have returning : ∀ x ∈ v.floats, x.isFinite = true ∧ library.ReadsBack x :=
    fun x mem => ⟨storable.finite x mem, back x mem⟩
  have spells := Json.spells_compact (writable_toJson v returning)
  rw [JsonLibrary.read?, JsonLibrary.write, conforms.reads _ _ spells storable.shallow,
    Option.bind_some]
  exact read?_toJson .direct v storable.sorted returning

/-- What programs write is read back by them when the floats in it have few digits. -/
theorem parse?_jsonText {v : Value} (storable : v.Storable .standard Json.maxDepth)
    (short : ∀ x ∈ v.floats, x.Short) : parse? v.jsonText = some v :=
  read?_write JsonLibrary.conforms_standard storable fun x mem =>
    JsonLibrary.readsBack_standard (storable.finite x mem) (short x mem)

/-- With a library that reads the number text of every finite double as this double, the text of every
    value that can be stored is read as the value, and no two such values have one text. Every value that
    is read from any text can be stored, so that its own text is read as this value. -/
theorem json_text_reads_back (library : JsonLibrary) (conforms : library.Conforms)
    (number_texts_read_back : ∀ x : Binary64, x.isFinite = true → library.ReadsBack x) :
    (∀ v : Value, v.Storable library Json.maxDepth → library.read? (library.write v) = some v) ∧
    (∀ v w : Value, v.Storable library Json.maxDepth → w.Storable library Json.maxDepth →
      library.write v = library.write w → v = w) ∧
    (∀ (text : String) (v : Value), library.read? text = some v →
      v.Storable library Json.maxDepth ∧ library.read? (library.write v) = some v) := by
  have back : ∀ v : Value, v.Storable library Json.maxDepth →
      library.read? (library.write v) = some v := fun v storable =>
    read?_write conforms storable fun x mem => number_texts_read_back x (storable.finite x mem)
  refine ⟨back, fun v w storable storable' same => ?_, fun text v read => ?_⟩
  · have read := back v storable
    rw [same, back w storable'] at read
    exact (Option.some.inj read).symm
  · have storable := storable_of_read? conforms read
    exact ⟨storable, back v storable⟩

/-- An object with fields that are named like the keys of the JSON form, empty containers, a minus zero,
    the least integer, and a text of characters that are escaped. -/
def awkward : Value :=
  .object "type" [("", .list []), ("type", .map []),
    ("value", .list [.float (.signed true 0), .int Int64.minValue, .str "\"\\\n\x07é", .null])]

theorem storable_awkward (library : JsonLibrary) : awkward.Storable library Json.maxDepth := by
  have ascending : ["", "type", "value"].Pairwise (· < ·) := by decide
  have levels : (awkward.toJson library).depth = 6 := rfl
  refine ⟨⟨ascending, ?_⟩, ?_, by rw [levels]; decide⟩
  · exact ⟨trivial, ⟨List.Pairwise.nil, trivial⟩, ⟨trivial, trivial, trivial, trivial, trivial⟩, trivial⟩
  · rintro x mem
    rw [List.mem_singleton.1 (show x ∈ [Binary64.signed true 0] from mem)]
    rfl

/-- The library that rounds once reads it back, and so does the one that programs run with, from the same
    text. -/
theorem awkward_reads_back :
    JsonLibrary.nearest.Conforms ∧
      (∀ x : Binary64, x.isFinite = true → JsonLibrary.nearest.ReadsBack x) ∧
      awkward.Storable .nearest Json.maxDepth ∧
      JsonLibrary.nearest.read? (JsonLibrary.nearest.write awkward) = some awkward ∧
      JsonLibrary.nearest.write awkward = awkward.jsonText ∧
      parse? awkward.jsonText = some awkward := by
  have read := json_text_reads_back .nearest JsonLibrary.conforms_nearest
    fun _ => JsonLibrary.readsBack_nearest
  have storable := storable_awkward .nearest
  refine ⟨JsonLibrary.conforms_nearest, fun _ => JsonLibrary.readsBack_nearest, storable,
    read.1 awkward storable, rfl, parse?_jsonText (storable_awkward .standard) fun x mem => ?_⟩
  rw [List.mem_singleton.1 (show x ∈ [Binary64.signed true 0] from mem)]
  exact Binary64.short_zero true

end Value

end SettingsForge
