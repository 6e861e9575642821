import SettingsForge.Proofs.Schema.Registry
import SettingsForge.Proofs.Settings.Evolution

set_option autoImplicit false

/-! # Instances conform to their schemas

An instance has a slot for each property of its schema, in order, which holds what the property's type
says. A dictionary has the blueprint of its nested schema and entries of just that schema, under
ascending keys. A value is one that its type makes, or a first value as the schema declares it, which
may be of any shape. Lists and dictionaries are bound to the instance that has them, under the names of
their properties (`ContentOf.BoundTo`). All of this lasts while an instance evolves
(`Settings.Evolves.conforms`). -/

namespace SettingsForge

/-- The blueprint that an engine with one of the catalogs makes for the schema. -/
def Blueprint.MadeFor (catalogs : List Catalog) (s : Schema) (blueprint : Blueprint) : Prop :=
  ∃ catalog ∈ catalogs, (s.resolve catalog).blueprint = .ok blueprint

/-- The value that an engine with one of the catalogs first gives to the property of a type. -/
def Schema.Gives (catalogs : List Catalog) (s : Schema) (p : Property) (type : ValueType)
    (value : Value) : Prop :=
  ∃ catalog ∈ catalogs, ∃ initializer,
    Initializer.resolve s.name p catalog = .ok initializer ∧ initializer.produce type = value

/-- What a slot for the property of a schema may hold. -/
inductive ContentOf.Conforms (catalogs : List Catalog) (s : Schema) (p : Property) : Content → Prop
  | scalar {type : ValueType} {value : Value} :
      p.type = .value type → (∀ item, type ≠ .list item) →
      type.Makes value ∨ s.Gives catalogs p type value → Conforms catalogs s p (.scalar type value)
  | list {l : ListRef} {items : List Value} :
      p.type = .value (.list l.item) →
      (∀ v ∈ items, l.item.Makes v ∨
        ∃ given, s.Gives catalogs p (.list l.item) (.list given) ∧ v ∈ given) →
      Conforms catalogs s p (.list l items)
  | dict {nested : Schema} {d : DictRef} {entries : List Entry} :
      p.type = .dict nested → d.blueprint.MadeFor catalogs nested → Entries.Sorted entries →
      (∀ e ∈ entries, e.settings.schema = nested) → Conforms catalogs s p (.dict d entries)

/-! ## Bindings -/

/-- A list of an owner, under the name of a property. -/
structure ListRef.BoundTo (list : ListRef) (owner : Owner) (name : String) : Prop where
  schema : list.schema = owner.schema
  property : list.property = name
  binding : list.binding = owner.binding name

/-- A dictionary of an owner, under the name of a property. -/
structure DictRef.BoundTo (dict : DictRef) (owner : Owner) (name : String) : Prop where
  kind : dict.kind = owner.kind
  property : dict.property = name
  binding : dict.binding = owner.binding name

/-- What an owner has under a name. -/
def ContentOf.BoundTo (owner : Owner) (name : String) : Content → Prop
  | .scalar .. => True
  | .list l _ => l.BoundTo owner name
  | .dict d _ => d.BoundTo owner name

theorem SlotPlan.boundTo_content (plan : SlotPlan) (engine : EngineId) (owner : Owner) :
    (plan.content engine owner).BoundTo owner plan.name := by
  unfold content
  split
  · exact ⟨rfl, rfl, rfl⟩
  · trivial
  · exact ⟨rfl, rfl, rfl⟩

/-- A slot is bound to the instance that it was made for. -/
theorem Blueprint.boundTo_make (blueprint : Blueprint) (engine : EngineId) (kind : Kind) (hub : Hub) :
    ∀ slot ∈ (blueprint.make engine kind hub).1.slots,
      slot.content.BoundTo (blueprint.make engine kind hub).1.owner slot.name := by
  rw [slots_make, List.forall_mem_map]
  exact fun plan _ => plan.boundTo_content engine _

theorem ContentOf.Rewritten.boundTo {content other : Content} (h : content.Rewritten other)
    {owner : Owner} {name : String} (bound : content.BoundTo owner name) :
    other.BoundTo owner name := by
  cases h with
  | scalar => trivial
  | list => exact bound

/-- What a bound dictionary makes is of the owner's kind. -/
theorem DictRef.BoundTo.make_eq {dict : DictRef} {owner : Owner} {name : String}
    (h : dict.BoundTo owner name) (hub : Hub) :
    dict.make hub = dict.blueprint.make dict.engine owner.kind hub := by
  rw [make, h.kind]

namespace Settings

/-- An instance conforms, whatever its entries do inside. -/
structure ConformsAt (known : Schema → Prop) (catalogs : List Catalog) (x : Settings) : Prop where
  known : known x.schema
  slots : List.Forall₂
    (fun p slot => p.name = slot.name ∧ slot.content.Conforms catalogs x.schema p)
    x.schema.properties x.slots
  bound : ∀ slot ∈ x.slots, slot.content.BoundTo x.owner slot.name

/-- An instance and all entries inside it conform. -/
def Conforms (known : Schema → Prop) (catalogs : List Catalog) (x : Settings) : Prop :=
  ∀ y ∈ x.parts, ConformsAt known catalogs y

/-- An instance of a schema conforms. -/
def Of (known : Schema → Prop) (catalogs : List Catalog) (s : Schema) (x : Settings) : Prop :=
  x.Conforms known catalogs ∧ x.schema = s

end Settings

section

variable {known : Schema → Prop} {catalogs : List Catalog}

/-! ## Later schemas and catalogs -/

theorem ContentOf.Conforms.mono {s : Schema} {p : Property} {content : Content}
    (h : content.Conforms catalogs s p) {more : List Catalog} (sub : catalogs ⊆ more) :
    content.Conforms more s p := by
  have given : ∀ {type value}, s.Gives catalogs p type value → s.Gives more p type value :=
    fun ⟨catalog, mem, rest⟩ => ⟨catalog, sub mem, rest⟩
  cases h with
  | scalar type plain value => exact .scalar type plain (value.imp_right given)
  | list type items =>
      refine .list type fun v mem => (items v mem).imp_right ?_
      exact fun ⟨all, gives, mem⟩ => ⟨all, given gives, mem⟩
  | dict type made sorted entries =>
      obtain ⟨catalog, mem, rest⟩ := made
      exact .dict type ⟨catalog, sub mem, rest⟩ sorted entries

theorem Settings.Conforms.mono {x : Settings} (h : x.Conforms known catalogs)
    {later : Schema → Prop} (wider : ∀ s, known s → later s) {more : List Catalog}
    (sub : catalogs ⊆ more) : x.Conforms later more := by
  intro y mem
  refine ⟨wider _ (h y mem).known, (h y mem).slots.imp ?_, (h y mem).bound⟩
  exact fun p slot fits => ⟨fits.1, fits.2.mono sub⟩

/-! ## Slots -/

namespace Settings

variable {x : Settings}

theorem Conforms.self (h : x.Conforms known catalogs) : ConformsAt known catalogs x :=
  h x (self_mem_parts x)

theorem Conforms.part (h : x.Conforms known catalogs) {y : Settings} (mem : y ∈ x.parts) :
    y.Conforms known catalogs :=
  fun z hz => h z (parts_trans mem hz)

theorem Conforms.entry (h : x.Conforms known catalogs) {slot : Slot} (hs : slot ∈ x.slots)
    {e : Entry} (he : e ∈ slot.content.entries) : e.settings.Conforms known catalogs :=
  h.part (mem_parts_of_entry hs he (self_mem_parts _))

theorem ConformsAt.names_eq (h : ConformsAt known catalogs x) :
    x.names = x.schema.properties.map PropertyOf.name :=
  (map_eq_of_forall₂ (h.slots.imp fun _ _ fits => fits.1)).symm

theorem ConformsAt.nodup (h : ConformsAt known catalogs x) (registry : Schema.Registry known) :
    x.names.Nodup := by
  rw [h.names_eq]
  exact registry.names h.known

end Settings

/-- What fills a frame conforms to a property, and everything else that does may fill it as well. -/
theorem Frame.conforms_fill {f : Frame} {content : Content}
    (h : (f.fill content).Conforms known catalogs) :
    ∃ p ∈ f.schema.properties, p.name = f.property ∧ content.Conforms catalogs f.schema p ∧
      content.BoundTo f.owner f.property ∧
      ∀ {other : Content}, other.Conforms catalogs f.schema p → other.BoundTo f.owner f.property →
        (∀ e ∈ other.entries, e.settings.Conforms known catalogs) →
        (f.fill other).Conforms known catalogs := by
  have own := h.self
  have bound := own.bound
  simp only [f.mem_slots_fill content, forall_eq_or_imp] at bound
  obtain ⟨first, p, rest, heq, before, fits, after⟩ := forall₂_middle_right.1 own.slots
  have heq : f.schema.properties = first ++ p :: rest := heq
  refine ⟨p, by simp [heq], fits.1, fits.2, bound.1, fun {other} conforms bound' entries => ?_⟩
  -- the instance itself, its parts in the new content, and those in the other slots
  intro y mem
  rcases (f.mem_parts_fill other).1 mem with rfl | mem | mem
  · refine ⟨own.known, ?_, ?_⟩
    · show List.Forall₂ _ f.schema.properties (f.before ++ ⟨f.property, other⟩ :: f.after)
      rw [heq]
      exact forall₂_middle_right.2 ⟨first, p, rest, rfl, before, ⟨fits.1, conforms⟩, after⟩
    · simp only [f.mem_slots_fill other, forall_eq_or_imp]
      exact ⟨bound', bound.2⟩
  · obtain ⟨e, he, mem⟩ := ContentOf.mem_parts.1 mem
    exact entries e he y mem
  · exact h y ((f.mem_parts_fill content).2 (Or.inr (Or.inr mem)))

/-- A dictionary in a frame is one of a known schema, and other entries of this schema may take the
    place of those in it. -/
theorem Frame.conforms_dict (registry : Schema.Registry known) {f : Frame} {dict : DictRef}
    {entries : List Entry} (h : (f.fill (.dict dict entries)).Conforms known catalogs) :
    ∃ nested, known nested ∧ dict.blueprint.MadeFor catalogs nested ∧ Entries.Sorted entries ∧
      (∀ e ∈ entries, e.settings.Of known catalogs nested) ∧
      ∀ others, Entries.Sorted others → (∀ e ∈ others, e.settings.Of known catalogs nested) →
        (f.fill (.dict dict others)).Conforms known catalogs := by
  obtain ⟨p, hp, -, fits, bound, fill⟩ := Frame.conforms_fill h
  have slot_mem := (f.mem_slots_fill (.dict dict entries)).2 (Or.inl rfl)
  cases fits with
  | @dict nested _ _ type made sorted schemas =>
      have known_nested : known nested := by
        refine registry.nested h.self.known (List.mem_filterMap.2 ⟨p, hp, ?_⟩)
        rw [type]
      refine ⟨nested, known_nested, made, sorted, fun e he => ⟨h.entry slot_mem he, schemas e he⟩, ?_⟩
      exact fun others sorted' there =>
        fill (.dict type made sorted' fun e he => (there e he).2) bound fun e he => (there e he).1

/-- A dictionary in a frame is bound to the instance. -/
theorem Frame.boundTo_of_conforms {f : Frame} {content : Content}
    (h : (f.fill content).Conforms known catalogs) : content.BoundTo f.owner f.property :=
  h.self.bound ⟨f.property, content⟩ ((f.mem_slots_fill content).2 (Or.inl rfl))

/-- A list or a dictionary is bound to the instance under the name that it is found by. -/
theorem Settings.Conforms.boundTo {x : Settings} (h : x.Conforms known catalogs) {property : String}
    {content : Content} (found : x.content property = .ok content) :
    content.BoundTo x.owner property := by
  unfold Settings.content at found
  split at found
  · next slot there =>
    cases found
    have name : slot.name = property := by simpa using List.find?_some there
    exact name ▸ h.self.bound slot (List.mem_of_find?_eq_some there)
  · cases found

/-! ## New instances -/

/-- The first content of a slot conforms. -/
theorem SlotPlanOf.For.conforms {catalog : Catalog} (mem : catalog ∈ catalogs) {s : Schema}
    {p : Property} {plan : SlotPlan} (h : plan.For catalog s.name p) (engine : EngineId)
    (owner : Owner) : (SlotPlan.content plan engine owner).Conforms catalogs s p := by
  cases h with
  | @value name type defaults initializer resolved =>
      have gives : ∀ v, initializer.produce type = v →
          s.Gives catalogs ⟨name, .value type, defaults⟩ type v :=
        fun v same => ⟨catalog, mem, initializer, resolved, same⟩
      cases type with
      | list item =>
          refine .list rfl fun v hv => Or.inr ?_
          cases made : initializer.produce (.list item) with
          | list items =>
              rw [made] at hv
              exact ⟨items, gives _ made, hv⟩
          | _ =>
              rw [made] at hv
              cases hv
      | _ => exact .scalar rfl (fun _ => ValueType.noConfusion) (Or.inr (gives _ rfl))
  | @entries name nested defaults blueprint resolved =>
      exact .dict rfl ⟨catalog, mem, resolved⟩ List.Pairwise.nil (fun e he => by cases he)

theorem Blueprint.MadeFor.schema_eq {s : Schema} {blueprint : Blueprint}
    (h : blueprint.MadeFor catalogs s) : blueprint.schema = s := by
  obtain ⟨_, -, resolved⟩ := h
  exact (Blueprint.plans_of_resolve resolved).1

theorem Blueprint.MadeFor.conforms_make {s : Schema} {blueprint : Blueprint}
    (h : blueprint.MadeFor catalogs s) (hs : known s) (engine : EngineId) (kind : Kind) (hub : Hub) :
    (blueprint.make engine kind hub).1.Of known catalogs s := by
  obtain ⟨catalog, mem, resolved⟩ := h
  obtain ⟨same, plans⟩ := Blueprint.plans_of_resolve resolved
  have schema_eq : (blueprint.make engine kind hub).1.schema = s :=
    (blueprint.schema_make engine kind hub).trans same
  refine ⟨fun y hy => ?_, schema_eq⟩
  rw [blueprint.parts_make, List.mem_singleton] at hy
  subst hy
  refine ⟨schema_eq ▸ hs, ?_, blueprint.boundTo_make engine kind hub⟩
  rw [schema_eq, blueprint.slots_make, List.forall₂_map_right_iff]
  exact plans.imp fun p plan fits => ⟨fits.name_eq, fits.conforms mem engine _⟩

/-- What a dictionary makes conforms. -/
theorem Frame.conforms_made (registry : Schema.Registry known) {f : Frame} {dict : DictRef}
    {entries : List Entry} (h : (f.fill (.dict dict entries)).Conforms known catalogs)
    {engine : EngineId} {kind : Kind} {hub after : Hub} {made : Settings}
    (hmake : dict.blueprint.make engine kind hub = (made, after)) : made.Conforms known catalogs := by
  obtain ⟨nested, known_nested, made_for, -⟩ := Frame.conforms_dict registry h
  have conforms := (made_for.conforms_make known_nested engine kind hub).1
  rwa [hmake] at conforms

/-! ## Conformance lasts -/

theorem ContentOf.Rewritten.conforms {content other : Content} {s : Schema} {p : Property}
    (h : content.Rewritten other) (conforms : content.Conforms catalogs s p) :
    other.Conforms catalogs s p := by
  cases h with
  | scalar makes =>
      cases conforms with
      | scalar type plain => exact .scalar type plain (Or.inl makes)
  | list items =>
      cases conforms with
      | list type old =>
          refine .list type fun v mem => ?_
          rcases items v mem with mem | makes
          · exact old v mem
          · exact Or.inl makes

namespace Settings

variable {x y : Settings} {hub after : Hub} {ns : List Notice}

theorem Evolves.conforms (registry : Schema.Registry known) (h : Evolves x hub ns y after)
    (conforms : x.Conforms known catalogs) : y.Conforms known catalogs := by
  induction h with
  | refl | announce | discard => exact conforms
  | trans _ _ ih ih' => exact ih' (ih conforms)
  | link x link =>
      refine forall_parts_setProvider x link conforms fun own => ?_
      exact ⟨by simpa using own.known, by simpa using own.slots, by simpa [owner] using own.bound⟩
  | rewrite f hub rewritten =>
      obtain ⟨p, -, -, fits, bound, fill⟩ := Frame.conforms_fill conforms
      refine fill (rewritten.conforms fits) (rewritten.boundTo bound) fun e he => ?_
      rw [rewritten.entries.2] at he
      cases he
  | drop f dict before e after hub =>
      obtain ⟨nested, -, -, sorted, entries, fill⟩ := Frame.conforms_dict registry conforms
      have sub : (before ++ after).Sublist (before ++ e :: after) :=
        (List.sublist_cons_self ..).append_left _
      exact fill _ (sorted.sublist (sub.map _)) fun e' mem => entries e' (sub.subset mem)
  | @add f dict before after key heard made y ns hub₁ hub₂ hub₃ hub₄ hmake evolves _ sorted ih =>
      obtain ⟨nested, known_nested, made_for, -, entries, fill⟩ := Frame.conforms_dict registry conforms
      obtain ⟨made_conforms, schema⟩ := made_for.conforms_make known_nested dict.engine f.kind hub₁
      rw [hmake] at made_conforms schema
      refine fill _ sorted ?_
      rw [List.forall_mem_append, List.forall_mem_cons]
      rw [List.forall_mem_append] at entries
      exact ⟨entries.1, ⟨ih made_conforms, evolves.alike.schema.trans schema⟩, entries.2⟩
  | inside f dict before e after evolves ih =>
      obtain ⟨nested, -, -, sorted, entries, fill⟩ := Frame.conforms_dict registry conforms
      -- the keys are the same
      refine fill _ (by simpa [Entries.Sorted, Entries.keys] using sorted) ?_
      rw [List.forall_mem_append, List.forall_mem_cons] at entries ⊢
      obtain ⟨before, ⟨entry, schema⟩, after⟩ := entries
      exact ⟨before, ⟨ih entry, evolves.alike.schema.trans schema⟩, after⟩

end Settings

end

end SettingsForge
