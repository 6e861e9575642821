import SettingsForge.Proofs.Settings.Operations

set_option autoImplicit false

/-! # Instances of the reading kind

An instance of the reading kind refuses every edit (`Settings.Conforms.unwritable`). `Schema.refusal`
says with which error: that of an unknown name or of another shape comes before the one that the
instance may not be changed. A refusal leaves the instance and the hub, and no path leads through such an
instance to an entry that is open to edits (`Settings.Unwritable.followForEdit_eq`). -/

namespace SettingsForge

/-- The error with which an instance of the reading kind meets an edit of a property, which has to hold
    something of the wanted shape if there is one. -/
def Schema.refusal (s : Schema) (property : String) (wanted : Option String) : SettingsError :=
  match s.property? property, wanted with
  | none, _ => .unknownProperty s.name property
  | some _, none => .readOnlyViolation s.name property
  | some p, some shape =>
    if p.type.shape = shape then .readOnlyViolation s.name property
    else .propertyShapeMismatch s.name property shape p.type.shape

/-- The operation fails with this error, and changes nothing but the journal. -/
structure Done.Refused {α : Type} (d : Done Settings α) (x : Settings) (c : Context)
    (e : SettingsError) : Prop where
  answer : d.answer = .error e
  subject : d.subject = x
  hub : d.context.hub = c.hub

theorem Done.Refused.map {α β : Type} {d : Done Settings α} {x : Settings} {c : Context}
    {e : SettingsError} (h : d.Refused x c e) (f : α → β) :
    Done.Refused ⟨d.answer.map f, d.subject, d.context⟩ x c e :=
  ⟨by rw [h.answer]; rfl, h.subject, h.hub⟩

/-- Every operation that would change the instance is refused, whatever it is given. -/
structure Settings.Unwritable (x : Settings) : Prop where
  set : ∀ property value c, (x.set property value c).Refused x c (x.schema.refusal property none)
  editList : ∀ property edit c,
    (x.editList property edit c).Refused x c (x.schema.refusal property (some "collection"))
  dictForEdit : ∀ property c,
    (x.dictForEdit property c).Refused x c (x.schema.refusal property (some "dictionary"))
  copy : ∀ source c, (x.copy source c).Refused x c (.readOnlyViolation x.schema.name "contents")
  copyUntyped : ∀ candidate c,
    (x.copyUntyped candidate c).Refused x c (.readOnlyViolation x.schema.name "contents")

variable {known : Schema → Prop} {catalogs : List Catalog}

/-! ## What a property holds -/

/-- What a slot holds is of the shape that the property declares. -/
theorem ContentOf.Conforms.shape_declared {s : Schema} {p : Property} {content : Content}
    (h : content.Conforms catalogs s p) : content.shape = p.type.shape := by
  cases h with
  | scalar declared plain =>
      rw [declared]
      unfold PropertyTypeOf.shape
      split
      · next item same =>
        cases same
        exact absurd rfl (plain item)
      · rfl
      · next same => cases same
  | list declared =>
      rw [declared]
      rfl
  | dict declared =>
      rw [declared]
      rfl

namespace Settings

variable {x : Settings}

/-- A name that the schema does not have leads nowhere, and any other one to something of the declared
    shape. -/
theorem Conforms.content_cases (registry : Schema.Registry known) (h : x.Conforms known catalogs)
    (property : String) :
    (x.schema.property? property = none ∧
      x.content property = .error (.unknownProperty x.schema.name property)) ∨
    ∃ p content, x.schema.property? property = some p ∧ x.content property = .ok content ∧
      content.shape = p.type.shape := by
  have indexed := registry.index h.self.known
  cases declared : x.schema.property? property with
  | none =>
      refine Or.inl ⟨rfl, ?_⟩
      have absent : property ∉ x.names := by
        rw [h.self.names_eq]
        intro mem
        obtain ⟨p, hp, same⟩ := List.mem_map.1 mem
        exact Option.some_ne_none p
          (((Schema.property?_eq_some_iff indexed).2 ⟨hp, same⟩).symm.trans declared)
      unfold content
      cases found : x.slots.find? fun slot => slot.name == property with
      | none => rfl
      | some slot =>
          have named : slot.name = property := by simpa using List.find?_some found
          exact absurd (named ▸ List.mem_map_of_mem (List.mem_of_find?_eq_some found)) absent
  | some p =>
      obtain ⟨hp, named⟩ := (Schema.property?_eq_some_iff indexed).1 declared
      obtain ⟨slot, mem, same, fits⟩ := exists_right_of_forall₂ h.self.slots hp
      refine Or.inr ⟨p, slot.content, rfl, ?_, fits.shape_declared⟩
      rw [← named, same]
      exact content_of_mem (h.self.nodup registry) mem

/-- An instance of the reading kind looks up the property and then refuses. -/
theorem Conforms.refused_set (registry : Schema.Registry known) (h : x.Conforms known catalogs)
    (reading : x.kind = .read) (property : String) (value : Value) (c : Context) :
    (x.set property value c).Refused x c (x.schema.refusal property none) := by
  have closed : x.kind.isWritable = false := by rw [reading]; rfl
  unfold Settings.set Schema.refusal
  rcases h.content_cases registry property with ⟨declared, found⟩ | ⟨p, content, declared, found, -⟩
  · rw [declared, found]
    exact ⟨rfl, rfl, rfl⟩
  · rw [declared, found, closed]
    exact ⟨rfl, rfl, rfl⟩

theorem Conforms.refused_editList (registry : Schema.Registry known) (h : x.Conforms known catalogs)
    (reading : x.kind = .read) (property : String) (edit : ListEdit) (c : Context) :
    (x.editList property edit c).Refused x c (x.schema.refusal property (some "collection")) := by
  have closed : x.kind.isWritable = false := by rw [reading]; rfl
  unfold Settings.editList Settings.list Schema.refusal
  rcases h.content_cases registry property with
    ⟨declared, found⟩ | ⟨p, content, declared, found, shape⟩
  · rw [declared, found]
    exact ⟨rfl, rfl, rfl⟩
  · rw [declared, found]
    dsimp only
    rw [← shape]
    cases content with
    | list list items =>
        have fits : (ContentOf.list list items : Content).shape = "collection" := rfl
        rw [if_pos fits, closed]
        exact ⟨rfl, rfl, rfl⟩
    | scalar type value => exact ⟨rfl, rfl, rfl⟩
    | dict dict entries => exact ⟨rfl, rfl, rfl⟩

theorem Conforms.refused_dictForEdit (registry : Schema.Registry known)
    (h : x.Conforms known catalogs) (reading : x.kind = .read) (property : String) (c : Context) :
    (x.dictForEdit property c).Refused x c (x.schema.refusal property (some "dictionary")) := by
  have closed : x.kind.isWritable = false := by rw [reading]; rfl
  unfold Settings.dictForEdit Settings.dict Schema.refusal
  rcases h.content_cases registry property with
    ⟨declared, found⟩ | ⟨p, content, declared, found, shape⟩
  · rw [declared, found]
    exact ⟨rfl, rfl, rfl⟩
  · rw [declared, found]
    dsimp only
    rw [← shape]
    cases content with
    | dict dict entries =>
        have fits : (ContentOf.dict dict entries : Content).shape = "dictionary" := rfl
        rw [if_pos fits, closed]
        exact ⟨rfl, rfl, rfl⟩
    | scalar type value => exact ⟨rfl, rfl, rfl⟩
    | list list items => exact ⟨rfl, rfl, rfl⟩

/-- An instance of the reading kind refuses every edit. -/
theorem Conforms.unwritable (registry : Schema.Registry known) (h : x.Conforms known catalogs)
    (reading : x.kind = .read) : x.Unwritable where
  set := h.refused_set registry reading
  editList := h.refused_editList registry reading
  dictForEdit := h.refused_dictForEdit registry reading
  copy source c := by
    unfold Settings.copy
    rw [reading]
    exact ⟨rfl, rfl, rfl⟩
  copyUntyped candidate c := by
    unfold Settings.copyUntyped
    rw [reading]
    exact ⟨rfl, rfl, rfl⟩

namespace Unwritable

/-- Asking for the dictionary is as far as an edit of its entries comes. -/
theorem refused_editDict (h : x.Unwritable) {α : Type} (property : String)
    (edit : DictRef → List Entry → Context → Done (List Entry) α) (c : Context) :
    (x.editDict property edit c).Refused x c (x.schema.refusal property (some "dictionary")) := by
  obtain ⟨answer, subject, hub⟩ := h.dictForEdit property c
  unfold editDict
  generalize x.dictForEdit property c = asked at answer subject hub
  obtain ⟨_, _, after⟩ := asked
  cases answer
  exact ⟨rfl, rfl, hub⟩

/-- No path leads through the instance to an entry that is open to edits. -/
theorem followForEdit_eq (h : x.Unwritable) (property key : String) (path : Path) (c : Context) :
    ∃ after, after.hub = c.hub ∧ followForEdit ((property, key) :: path) x c =
      (.error (.failed (x.schema.refusal property (some "dictionary"))), after) := by
  obtain ⟨answer, -, hub⟩ := h.dictForEdit property c
  rw [followForEdit]
  generalize x.dictForEdit property c = asked at answer hub
  obtain ⟨_, _, after⟩ := asked
  cases answer
  exact ⟨after, hub, rfl⟩

/-- A reset is refused too, by the engine if it has no defaults for the schema, else by the copy. -/
theorem refused_reset (h : x.Unwritable) (engine : Engine) (c : Context) :
    (engine.reset x c).1.Refused x c
      (match (engine.factory x.schema .read).answer with
        | .error e => e
        | .ok _ => .readOnlyViolation x.schema.name "contents") := by
  unfold Engine.reset
  dsimp only
  obtain ⟨hub_same, answers⟩ :=
    engine.create_read x.schema (c.note [.resetStarted x.schema.name x.kind])
  generalize engine.create x.schema .read none (c.note [.resetStarted x.schema.name x.kind]) = made
    at hub_same answers
  obtain ⟨answer, after, context⟩ := made
  have hub_same : context.hub = c.hub := hub_same
  have answers : answer = _ := answers
  cases offered : (engine.factory x.schema .read).answer with
  | error e =>
      rw [offered] at answers
      cases answers
      exact ⟨rfl, rfl, hub_same⟩
  | ok factory =>
      rw [offered] at answers
      cases answers
      obtain ⟨refused, subject, hub⟩ :=
        h.copy (some (factory.blueprint.make factory.engine .read {}).1) context
      exact ⟨refused, subject, hub.trans hub_same⟩

end Unwritable

end Settings

end SettingsForge
