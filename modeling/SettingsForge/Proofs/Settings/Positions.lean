import SettingsForge.Proofs.Settings.Conformance
import SettingsForge.Proofs.Settings.Edits

set_option autoImplicit false

/-! # Slots by position

Instances find a property by the name of its slot. Here it is found as by an index: the schema gives the
position of the name, and the slot and the declared property are those at this position. Wherever
something could be missing on this way, or be unlike its declaration, an internal error is the answer.
In an instance that conforms this never happens: all of it is what the operations do by name
(`Settings.ConformsAt.contentAt_eq`, `Settings.ConformsAt.setAt_eq`, `Settings.ConformsAt.addEntryAt_eq`,
`Settings.ConformsAt.exists_source_at`). -/

namespace SettingsForge

/-- What conforms to properties of one type is of one shape. -/
theorem ContentOf.Conforms.shape_eq {catalogs : List Catalog} {s t : Schema} {p : Property}
    {content other : Content} (h : content.Conforms catalogs s p)
    (h' : other.Conforms catalogs t p) : content.shape = other.shape := by
  cases h with
  | scalar type plain =>
      cases h' with
      | scalar => rfl
      | list type' => rw [type] at type'; cases type'; exact absurd rfl (plain _)
      | dict type' => rw [type] at type'; cases type'
  | list type =>
      cases h' with
      | scalar type' plain => rw [type] at type'; cases type'; exact absurd rfl (plain _)
      | list => rfl
      | dict type' => rw [type] at type'; cases type'
  | dict type =>
      cases h' with
      | scalar type' => rw [type] at type'; cases type'
      | list type' => rw [type] at type'; cases type'
      | dict => rfl

/-- An entry that was added is in the dictionary. -/
theorem DictRef.subject_of_addEntry {dict : DictRef} {key : String} {entries : List Entry} {c : Context}
    {entry : Entry} (added : (dict.addEntry entries key c).answer = .ok entry) :
    entry.key = key ∧ (dict.addEntry entries key c).subject = Entries.insert entry entries := by
  have same_key : (dict.makeEntry key c.hub).1.key = key := rfl
  unfold addEntry at added ⊢
  cases free : Entries.find? entries key with
  | some e => rw [free] at added; cases added
  | none =>
      rw [free] at added
      dsimp only at added ⊢
      generalize dict.makeEntry key c.hub = made at added same_key
      cases added
      exact ⟨same_key, rfl⟩

/-! ## Reading and writing -/

namespace Settings

/-- The content of the slot at the position of a property. -/
def contentAt (x : Settings) (property : String) : Except SettingsError Content :=
  match x.schema.position? property with
  | none => .error (.unknownProperty x.schema.name property)
  | some i =>
    match x.slots[i]? with
    | some slot => .ok slot.content
    | none => .error (.internal ("no slot for " ++ property))

/-- Replace the content of the slot at a position. -/
def setContentAt (x : Settings) (i : Nat) (content : Content) : Settings :=
  x.withSlots (x.slots.modify i fun slot => { slot with content := content })

/-- Assign a property by its position. A scalar is converted to the type that the schema declares at
    this position, and not to one that the slot says. -/
def setAt (x : Settings) (property : String) (value : Value) (c : Context) : Done Settings Unit :=
  match x.schema.position? property with
  | none => ⟨.error (.unknownProperty x.schema.name property), x, c⟩
  | some i =>
    match x.schema.properties[i]?, x.slots[i]? with
    | some declared, some slot =>
      if x.kind.isWritable then
        match slot.content, declared.type.valueType? with
        | .scalar .., none =>
          ⟨.error (.internal ("scalar slot without a value type: " ++ property)), x, c⟩
        | .scalar _ current, some type =>
          (x.owner.write property (.scalar type current) value c).within (x.setContentAt i)
        | content, _ => (x.owner.write property content value c).within (x.setContentAt i)
      else x.refuse property c
    | _, _ => ⟨.error (.internal ("no slot for " ++ property)), x, c⟩

/-- Add an entry and then look it up under its key. -/
def addEntryAt (x : Settings) (property key : String) (c : Context) : Done Settings Entry :=
  let d := x.addEntry property key c
  match d.answer with
  | .error e => ⟨.error e, d.subject, d.context⟩
  | .ok _ =>
    match d.subject.contentAt property with
    | .error e => ⟨.error e, d.subject, d.context⟩
    | .ok content =>
      match Entries.find? content.entries key with
      | some entry => ⟨.ok entry, d.subject, d.context⟩
      | none =>
        ⟨.error (.internal ("entry " ++ key ++ " vanished from " ++ property)), d.subject, d.context⟩

variable {known : Schema → Prop} {catalogs : List Catalog} {x : Settings}

/-- At the position of a name there are a slot and a property, which it conforms to; no other position
    has the name. -/
theorem ConformsAt.exists_at (h : ConformsAt known catalogs x) (registry : Schema.Registry known)
    {property : String} {i : Nat} (position : x.schema.position? property = some i) :
    ∃ p slot, x.schema.properties[i]? = some p ∧ x.slots[i]? = some slot ∧ p.name = property ∧
      slot.name = property ∧ slot.content.Conforms catalogs x.schema p ∧
      x.content property = .ok slot.content ∧
      ∀ content, x.setContent property content = x.setContentAt i content := by
  obtain ⟨p, at_i, declared⟩ :=
    (Schema.position?_eq_some_iff (registry.index h.known)).1 position
  obtain ⟨bound', rfl⟩ := List.getElem?_eq_some_iff.1 at_i
  have bound : i < x.slots.length := h.slots.length_eq ▸ bound'
  obtain ⟨name, fits⟩ := h.slots.get bound' bound
  have named : x.slots[i].name = property := name.symm.trans declared
  have nodup := h.nodup registry
  refine ⟨x.schema.properties[i], x.slots[i], at_i, List.getElem?_eq_getElem bound, declared, named, fits,
    named ▸ content_of_mem nodup (List.getElem_mem bound), fun content => ?_⟩
  -- the slots of the name are the one at the position
  unfold setContent setContentAt
  congr 1
  refine List.ext_getElem (by simp) fun j hj _ => ?_
  have hj : j < x.slots.length := by simpa using hj
  rw [List.getElem_map, List.getElem_modify]
  by_cases same : i = j
  · subst same
    rw [if_pos rfl, if_pos (by simpa using named)]
  · have apart : x.slots[j].name ≠ property := by
      intro again
      have distinct := List.nodup_iff_injective_get.1 nodup
      have := @distinct ⟨i, by simpa [names] using bound⟩ ⟨j, by simpa [names] using hj⟩
        (by simpa [names] using named.trans again.symm)
      exact same (congrArg Fin.val this)
    rw [if_neg same, if_neg (by simpa using apart)]

theorem ConformsAt.content_of_position_eq_none (h : ConformsAt known catalogs x)
    (registry : Schema.Registry known) {property : String}
    (position : x.schema.position? property = none) :
    x.content property = .error (.unknownProperty x.schema.name property) := by
  have absent := (registry.index h.known).lookup_eq_none_iff.1 position
  rw [← h.names_eq] at absent
  have none : (x.slots.find? fun slot => slot.name == property) = none := by
    refine List.find?_eq_none.2 fun slot mem named => absent ?_
    rw [← beq_iff_eq.1 named]
    exact List.mem_map_of_mem mem
  unfold content
  rw [none]

theorem ConformsAt.contentAt_eq (h : ConformsAt known catalogs x) (registry : Schema.Registry known)
    (property : String) : x.contentAt property = x.content property := by
  unfold contentAt
  cases position : x.schema.position? property with
  | none => exact (h.content_of_position_eq_none registry position).symm
  | some i =>
      obtain ⟨p, slot, -, at_i, -, -, -, found, -⟩ := h.exists_at registry position
      dsimp only
      rw [at_i, found]

theorem ConformsAt.setAt_eq (h : ConformsAt known catalogs x) (registry : Schema.Registry known)
    (property : String) (value : Value) (c : Context) :
    x.setAt property value c = x.set property value c := by
  unfold setAt set
  cases position : x.schema.position? property with
  | none => rw [h.content_of_position_eq_none registry position]
  | some i =>
      obtain ⟨p, slot, declared, at_i, -, -, fits, found, stored⟩ := h.exists_at registry position
      have stored : x.setContentAt i = x.setContent property := funext fun content =>
        (stored content).symm
      dsimp only
      rw [declared, at_i, found, stored]
      dsimp only
      generalize slot.content = content at fits
      cases fits with
      | scalar type => rw [type]; rfl
      | list => rfl
      | dict => rfl

/-- An entry that was added is in the dictionary under its key. -/
theorem exists_of_addEntry {property key : String} {c : Context} {entry : Entry}
    (added : (x.addEntry property key c).answer = .ok entry) :
    entry.key = key ∧ ∃ dict entries, x.dict property = .ok (dict, entries) ∧
      (x.addEntry property key c).subject =
        x.setContent property (.dict dict (Entries.insert entry entries)) := by
  cases found : x.dict property with
  | error e =>
      unfold addEntry editDict dictForEdit at added
      rw [found] at added
      cases added
  | ok dict =>
      by_cases writable : x.kind.isWritable = true
      · rw [addEntry_eq found writable] at added ⊢
        obtain ⟨same_key, inserted⟩ := DictRef.subject_of_addEntry added
        exact ⟨same_key, _, _, rfl, by rw [Done.within, inserted]⟩
      · unfold addEntry editDict dictForEdit at added
        rw [found] at added
        dsimp only at added
        rw [if_neg writable] at added
        cases added

/-- The slot that is written is the one that is read. -/
theorem contentAt_setContentAt {property : String} {i : Nat} {slot : Slot}
    (position : x.schema.position? property = some i) (at_i : x.slots[i]? = some slot)
    (content : Content) : (x.setContentAt i content).contentAt property = .ok content := by
  obtain ⟨schema, kind, slots, notifier, provider⟩ := x
  have position : schema.position? property = some i := position
  have at_i : slots[i]? = some slot := at_i
  show contentAt (.mk schema kind (slots.modify i _) notifier provider) property = _
  simp only [contentAt, Settings.schema, Settings.slots, position, List.getElem?_modify_eq, at_i]
  rfl

theorem ConformsAt.addEntryAt_eq (h : ConformsAt known catalogs x) (registry : Schema.Registry known)
    (property key : String) (c : Context) :
    x.addEntryAt property key c = x.addEntry property key c := by
  have looked_up : ∀ entry, (x.addEntry property key c).answer = .ok entry →
      ∃ content, (x.addEntry property key c).subject.contentAt property = .ok content ∧
        Entries.find? content.entries key = some entry := by
    intro entry added
    obtain ⟨same_key, dict, entries, found, subject⟩ := exists_of_addEntry added
    have there := content_of_dict found
    cases position : x.schema.position? property with
    | none =>
        rw [h.content_of_position_eq_none registry position] at there
        cases there
    | some i =>
        obtain ⟨-, slot, -, at_i, -, -, -, -, stored⟩ := h.exists_at registry position
        refine ⟨.dict dict (Entries.insert entry entries), ?_, ?_⟩
        · rw [subject, stored]
          exact contentAt_setContentAt position at_i _
        · rw [ContentOf.entries, Entries.find?_insert, if_pos same_key]
  unfold addEntryAt
  generalize x.addEntry property key c = d at looked_up
  obtain ⟨answer, subject, after⟩ := d
  cases answer with
  | error e => rfl
  | ok entry =>
      obtain ⟨content, at_property, there⟩ := looked_up entry rfl
      dsimp only at at_property ⊢
      rw [at_property]
      dsimp only
      rw [there]

/-! ## Sources of copies -/

/-- Where the target of a copy has a slot, the source has one of the same name, which is what it holds
    under this name. So walking the two side by side is taking the properties of the source by name. -/
theorem ConformsAt.exists_source_at {source target : Settings} (h : ConformsAt known catalogs source)
    (h' : ConformsAt known catalogs target) (registry : Schema.Registry known)
    (inherits : source.schema.isA target.schema.id = true) {i : Nat} {slot : Slot}
    (at_i : target.slots[i]? = some slot) :
    ∃ other, source.slots[i]? = some other ∧ other.name = slot.name ∧
      source.content slot.name = .ok other.content ∧ other.content.shape = slot.content.shape := by
  obtain ⟨own, extended⟩ := registry.properties_of_isA h.known h'.known inherits
  obtain ⟨bound, rfl⟩ := List.getElem?_eq_some_iff.1 at_i
  have bound_p : i < target.schema.properties.length := h'.slots.length_eq ▸ bound
  have bound_s : i < source.schema.properties.length := by
    rw [extended, List.length_append]
    omega
  have bound_o : i < source.slots.length := h.slots.length_eq ▸ bound_s
  have same : source.schema.properties[i] = target.schema.properties[i] := by
    simp [extended, List.getElem_append_left bound_p]
  obtain ⟨name, fits⟩ := h'.slots.get bound_p bound
  obtain ⟨name', fits'⟩ := h.slots.get bound_s bound_o
  simp only [List.get_eq_getElem] at name fits name' fits'
  have names : source.slots[i].name = target.slots[i].name := by
    rw [← name', ← name, same]
  refine ⟨source.slots[i], List.getElem?_eq_getElem bound_o, names, ?_, ?_⟩
  · exact names ▸ content_of_mem (h.nodup registry) (List.getElem_mem bound_o)
  · rw [same] at fits'
    exact fits'.shape_eq fits

end Settings

end SettingsForge
