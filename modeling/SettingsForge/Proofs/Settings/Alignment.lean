import SettingsForge.Proofs.Settings.Places
import SettingsForge.Settings.Copy

set_option autoImplicit false

/-! # Instances side by side

A copy walks a source and a target side by side. If the source's schema is the target's or inherits from
it, the source has a slot for each of the target's, in order and of the same type
(`Settings.Alignable.begins`). In dictionaries the schema of the source's entries is again that of the
target's or inherits from it. Nothing is said here about the values themselves. -/

namespace SettingsForge

open Settings

variable {known : Schema → Prop} {catalogs : List Catalog}

/-! ## Entries -/

/-- Entries of a dictionary that may be copied into, at least those under these keys. -/
structure Entries.Open (known : Schema → Prop) (catalogs : List Catalog) (nested : Schema)
    (sources : List String) (entries : List Entry) : Prop where
  sorted : Sorted entries
  inside : ∀ key ∈ sources, ∀ e, find? entries key = some e →
    e.settings.Of known catalogs nested ∧ ∀ y ∈ e.settings.parts, y.kind.isWritable = true

/-- A dictionary's schema, and entries to copy from, of this schema or of ones that inherit from it. -/
structure Entries.Lent (known : Schema → Prop) (catalogs : List Catalog) (nested : Schema)
    (source : List Entry) : Prop where
  schema : known nested
  sorted : Sorted source
  inside : ∀ e ∈ source, e.settings.Conforms known catalogs ∧
    e.settings.schema.isA nested.id = true

theorem Entries.Lent.rest {nested : Schema} {e : Entry} {rest : List Entry}
    (lent : Lent known catalogs nested (e :: rest)) : Lent known catalogs nested rest :=
  ⟨lent.schema, (List.pairwise_cons.1 lent.sorted).2, (List.forall_mem_cons.1 lent.inside).2⟩

/-- The start of a merge keeps entries that the source has. -/
theorem Entries.Open.start {nested : Schema} {sources : List String} {entries : List Entry}
    {c dropped : Context} {start : Merging}
    (opened : Open known catalogs nested (keys entries) entries)
    (h : Merging.start sources entries c = (start, dropped)) :
    start.entries = entries.filter (fun e => sources.contains e.key) ∧
      Open known catalogs nested sources start.entries := by
  unfold Merging.start at h
  cases h
  refine ⟨rfl, sorted_filter opened.sorted _, fun key _ e found => ?_⟩
  obtain ⟨rfl, -⟩ := exists_of_find? found
  have mem := List.mem_of_mem_filter (List.mem_of_find?_eq_some found)
  exact opened.inside e.key (List.mem_map_of_mem mem) e (opened.sorted.find?_of_mem mem)

/-- The entries of a merge may be copied into while one of them changes. -/
theorem Entries.Open.insert {nested : Schema} {entries rest : List Entry} {e : Entry}
    {first : Entry} (opened : Open known catalogs nested (keys (first :: rest)) entries)
    (sorted : Sorted (first :: rest)) (at_key : e.key = first.key) :
    Open known catalogs nested (keys rest) (Entries.insert e entries) := by
  refine ⟨sorted_insert opened.sorted e, fun key mem e' found => ?_⟩
  have differ : e.key ≠ key := by
    rintro rfl
    exact (List.nodup_cons.1 sorted.nodup).1 (at_key ▸ mem)
  rw [find?_insert, if_neg differ] at found
  exact opened.inside key (List.mem_cons_of_mem _ mem) e' found

/-- A new instance of a dictionary's schema has no entries. -/
theorem Blueprint.MadeFor.of_make {nested : Schema} {blueprint : Blueprint}
    (made_for : blueprint.MadeFor catalogs nested) (hs : known nested) {engine : EngineId}
    {kind : Kind} {hub after : Hub} {made : Settings}
    (h : blueprint.make engine kind hub = (made, after)) :
    made.Of known catalogs nested ∧ slotParts made.slots = [] := by
  have conforms := made_for.conforms_make hs engine kind hub
  have empty := blueprint.slotParts_make engine kind hub
  rw [h] at conforms empty
  exact ⟨conforms, empty⟩

/-! ## Slots -/

/-- What a source holds for a property, and what a target holds for the same one. -/
inductive ContentOf.Aligned (known : Schema → Prop) (catalogs : List Catalog) :
    Content → Content → Prop
  | scalar {type : ValueType} {value old : Value} :
      Aligned known catalogs (.scalar type value) (.scalar type old)
  | list {theirs l : ListRef} {items old : List Value} : theirs.item = l.item →
      Aligned known catalogs (.list theirs items) (.list l old)
  | dict {nested : Schema} {theirs dict : DictRef} {source entries : List Entry} :
      theirs.blueprint.MadeFor catalogs nested → dict.blueprint.MadeFor catalogs nested →
      Entries.Lent known catalogs nested source →
      Entries.Open known catalogs nested (Entries.keys entries) entries →
      Aligned known catalogs (.dict theirs source) (.dict dict entries)

/-- What two instances hold for one property lies side by side. -/
theorem ContentOf.Conforms.aligned (registry : Schema.Registry known) {s t : Schema}
    (hs : known s) {p : Property} (mem : p ∈ s.properties)
    {content current : Content} (conforms : content.Conforms catalogs s p)
    (inside : ∀ e ∈ content.entries, e.settings.Conforms known catalogs)
    (conforms' : current.Conforms catalogs t p)
    (inside' : ∀ e ∈ current.entries, e.settings.Conforms known catalogs ∧
      ∀ y ∈ e.settings.parts, y.kind.isWritable = true) :
    content.Aligned known catalogs current := by
  -- both were made for the one type that the property has
  cases conforms with
  | scalar declared plain =>
      cases conforms' with
      | scalar declared' =>
          cases declared.symm.trans declared'
          exact .scalar
      | list declared' =>
          cases declared.symm.trans declared'
          exact absurd rfl (plain _)
      | dict declared' => cases declared.symm.trans declared'
  | list declared =>
      cases conforms' with
      | scalar declared' plain =>
          cases declared.symm.trans declared'
          exact absurd rfl (plain _)
      | list declared' =>
          have types := PropertyTypeOf.value.inj (declared.symm.trans declared')
          exact .list (ValueType.list.inj types)
      | dict declared' => cases declared.symm.trans declared'
  | @dict nested _ source declared made sorted schemas =>
      cases conforms' with
      | scalar declared' => cases declared.symm.trans declared'
      | list declared' => cases declared.symm.trans declared'
      | dict declared' made' sorted' schemas' =>
          cases declared.symm.trans declared'
          have there : nested ∈ s.nested := List.mem_filterMap.2 ⟨p, mem, by rw [declared]⟩
          refine .dict made made' ⟨registry.nested hs there, sorted, fun e he => ⟨inside e he, ?_⟩⟩
            ⟨sorted', fun key _ e found => ?_⟩
          · rw [schemas e he]
            exact Schema.isA_self _
          · have he := List.mem_of_find?_eq_some found
            exact ⟨⟨(inside' e he).1, schemas' e he⟩, (inside' e he).2⟩

/-- A source's slots begin with slots that lie side by side with those of a target. -/
def Settings.Begins (known : Schema → Prop) (catalogs : List Catalog) (source slots : List Slot) :
    Prop :=
  ∃ first rest, source = first ++ rest ∧
    List.Forall₂ (fun a b => a.name = b.name ∧ a.content.Aligned known catalogs b.content) first slots

theorem Settings.Begins.exists_cons {source slots : List Slot} {slot : Slot}
    (h : Begins known catalogs source (slot :: slots)) :
    ∃ a others, source = a :: others ∧ a.name = slot.name ∧
      a.content.Aligned known catalogs slot.content ∧ Begins known catalogs others slots := by
  obtain ⟨first, rest, rfl, pairs⟩ := h
  obtain ⟨a, later, own, others, rfl⟩ := List.forall₂_cons_right_iff.1 pairs
  exact ⟨a, later ++ rest, rfl, own.1, own.2, later, rest, rfl, others⟩

/-! ## Instances -/

/-- The source's schema is the target's or inherits from it, and all entries inside the target may be
    written. -/
structure Settings.Alignable (known : Schema → Prop) (catalogs : List Catalog)
    (source target : Settings) : Prop where
  conforms : source.Conforms known catalogs
  conforms' : target.Conforms known catalogs
  writable : ∀ y ∈ slotParts target.slots, y.kind.isWritable = true
  inherits : source.schema.isA target.schema.id = true

theorem Settings.Alignable.begins (registry : Schema.Registry known) {source target : Settings}
    (h : Alignable known catalogs source target) :
    Begins known catalogs source.slots target.slots := by
  have known_source := h.conforms.self.known
  -- the source's properties begin with the target's, so its slots do
  obtain ⟨own, split⟩ := registry.properties_of_isA known_source h.conforms'.self.known h.inherits
  have pairs := h.conforms.self.slots.flip
  rw [split, forall₂_append_right] at pairs
  obtain ⟨first, rest, slots_eq, pairs, -⟩ := pairs
  refine ⟨first, rest, slots_eq, forall₂_join pairs.flip h.conforms'.self.slots ?_⟩
  intro p a b hp ha hb fits fits'
  have ha : a ∈ source.slots := by
    rw [slots_eq]
    exact List.mem_append_left _ ha
  refine ⟨fits.1.symm.trans fits'.1, fits.2.aligned registry known_source ?_ ?_ fits'.2 ?_⟩
  · rw [split]
    exact List.mem_append_left _ hp
  · exact fun e he => h.conforms.entry ha he
  · refine fun e he => ⟨h.conforms'.entry hb he, fun y hy => h.writable y ?_⟩
    rw [slotParts_eq_flatMap]
    exact List.mem_flatMap.2 ⟨b, hb, ContentOf.mem_parts.2 ⟨e, he, hy⟩⟩

/-- A copy fills the slots of its target. -/
theorem Settings.assign_of_isA {source target : Settings}
    (h : source.schema.isA target.schema.id = true) (c : Context) :
    assign source target c =
      (assignSlots source.schema.name source.slots target.owner target.slots c).within fun after =>
        target.withSlots after := by
  cases source
  cases target
  rw [assign]
  exact if_pos h

/-- A copy between other instances does not begin. -/
theorem Settings.assign_of_not_isA {source target : Settings} (c : Context)
    (h : source.schema.isA target.schema.id = false) :
    assign source target c =
      ⟨.error (.schemaMismatch target.schema.name source.schema.name), target, c⟩ := by
  cases source
  cases target
  rw [assign]
  exact if_neg (Bool.eq_false_iff.1 h)

/-- The first entry lent and an instance of the dictionary's schema. -/
theorem Entries.Lent.first {nested : Schema} {e : Entry} {rest : List Entry}
    (lent : Lent known catalogs nested (e :: rest)) {target : Settings}
    (there : target.Of known catalogs nested)
    (writable : ∀ y ∈ slotParts target.slots, y.kind.isWritable = true) :
    Alignable known catalogs e.settings target := by
  obtain ⟨conforms, inherits⟩ := lent.inside e (List.mem_cons_self ..)
  exact ⟨conforms, there.1, writable, there.2 ▸ inherits⟩

end SettingsForge
