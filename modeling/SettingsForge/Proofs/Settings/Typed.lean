import SettingsForge.Proofs.Settings.Agreement

set_option autoImplicit false

/-! # What an instance holds

The schemas of the entries inside an instance are nested in the instance's own (`Conforms.reaches`), and
there is one slot for each property (`Conforms.exists_content`). If the first values of a schema and of
all that it nests fit their types exactly, then so does everything that an instance of it holds, at any
depth (`Conforms.typed`). -/

namespace SettingsForge

open Settings

variable {known : Schema → Prop} {catalogs : List Catalog}

/-! ## Properties and nested schemas -/

namespace Settings

variable {x y : Settings}

/-- An instance holds something for each property of its schema. -/
theorem Conforms.exists_content (registry : Schema.Registry known) (h : x.Conforms known catalogs)
    {p : Property} (hp : p ∈ x.schema.properties) :
    ∃ content, x.content p.name = .ok content ∧ content.Conforms catalogs x.schema p := by
  obtain ⟨slot, mem, same, fits⟩ := exists_right_of_forall₂ h.self.slots hp
  exact ⟨slot.content, same ▸ content_of_mem (h.self.nodup registry) mem, fits⟩

/-- A dictionary has the blueprint of a schema that its owner's schema nests. -/
theorem Conforms.made_of_dict (h : x.Conforms known catalogs) {property : String}
    {dict : DictRef} {entries : List Entry} (found : x.dict property = .ok (dict, entries)) :
    ∃ nested ∈ x.schema.nested, dict.blueprint.MadeFor catalogs nested := by
  obtain ⟨slot, mem, content⟩ := exists_slot (content_of_dict found)
  obtain ⟨p, hp, -, fits⟩ := exists_left_of_forall₂ h.self.slots mem
  rw [content] at fits
  cases fits with
  | dict type made => exact ⟨_, List.mem_filterMap.2 ⟨p, hp, by rw [type]⟩, made⟩

/-- An entry's schema is nested in its owner's. -/
theorem Conforms.nested_of_entry (h : x.Conforms known catalogs) {slot : Slot} (hs : slot ∈ x.slots)
    {e : Entry} (he : e ∈ slot.content.entries) : e.settings.schema ∈ x.schema.nested := by
  obtain ⟨p, hp, -, fits⟩ := exists_left_of_forall₂ h.self.slots hs
  obtain ⟨name, content⟩ := slot
  cases fits with
  | dict type made sorted schemas =>
      exact List.mem_filterMap.2 ⟨p, hp, by rw [type, schemas e he]⟩
  | _ => cases he

/-- The schemas of the entries at any depth are reached from the instance's. -/
theorem Conforms.reaches (h : x.Conforms known catalogs) (mem : y ∈ x.parts) :
    x.schema.Reaches y.schema := by
  induction x using tree_induction with
  | step x ih =>
      rcases mem_parts.1 mem with rfl | ⟨slot, hs, inside⟩
      · exact .refl _
      · obtain ⟨e, he, inside⟩ := ContentOf.mem_parts.1 inside
        exact .step (h.nested_of_entry hs he) (ih slot hs e he (h.entry hs he) inside)

end Settings

/-! ## Values of their types -/

theorem Schema.Exact.reaches {s t : Schema} (exact : s.Exact catalogs) (h : s.Reaches t) :
    t.Exact catalogs := fun u reaches => exact u (h.trans reaches)

/-- Everything inside an instance of an exact schema fits its type exactly. -/
theorem Settings.Conforms.typed {x : Settings} (h : x.Conforms known catalogs)
    (exact : x.schema.Exact catalogs) {y : Settings} (mem : y ∈ x.parts) :
    ∀ slot ∈ y.slots, slot.content.Typed := by
  intro slot hs
  obtain ⟨p, hp, -, fits⟩ := exists_left_of_forall₂ (h y mem).slots hs
  exact fits.typed (exact.reaches (h.reaches mem)) hp

/-- What fits exactly can be written where it is. -/
theorem ContentOf.Typed.write {content : Content} (h : content.Typed)
    (plain : ∀ d entries, content ≠ .dict d entries) (owner : Owner)
    (property : String) (c : Context) :
    (owner.write property content content.value c).answer = .ok () := by
  cases h with
  | scalar exact => exact (owner.write_scalar property c exact _).1
  | list exact => exact (owner.write_list property c exact _).1
  | dict => exact absurd rfl (plain _ _)

end SettingsForge
