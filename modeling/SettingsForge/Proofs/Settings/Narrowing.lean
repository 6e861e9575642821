import SettingsForge.Proofs.Settings.Agreement

set_option autoImplicit false

/-! # Narrow copies of wide instances

One blueprint may begin with the plans of another one. Then a new instance of the wide one holds the
same as a new instance of the narrow one, wherever that has a property (`Blueprint.get_make`): what a
plan makes reads the same whoever it is made for (`SlotPlan.value_content`). A narrow copy of it reads
as a new narrow instance, if the narrow plans produce values that fit exactly
(`Blueprint.create_narrow`); nothing is asked of the other plans, nor of what is nested, since the
dictionaries of new instances are empty. -/

namespace SettingsForge

open Settings

/-- What the plan produces fits its type exactly. -/
def SlotPlan.Exact (plan : SlotPlan) : Prop :=
  ∀ type initializer, plan.plan = .value type initializer →
    type.fit (initializer.produce type) = some .exact

/-! ## Contents that may be written over themselves -/

/-- The content fits its type exactly, or is an empty dictionary. -/
inductive ContentOf.Storable : Content → Prop
  | scalar {type : ValueType} {value : Value} :
      type.fit value = some .exact → Storable (.scalar type value)
  | list {l : ListRef} {items : List Value} :
      (∀ v ∈ items, l.item.fit v = some .exact) → Storable (.list l items)
  | empty {d : DictRef} : Storable (.dict d [])

/-- A value is written over itself. -/
theorem ContentOf.Storable.written {content : Content} (h : content.Storable)
    (plain : ∀ d entries, content ≠ .dict d entries) (owner : Owner) (name : String) (c : Context) :
    (owner.write name content content.value c).answer = .ok () ∧
      (owner.write name content content.value c).subject.value.unsigned = content.value.unsigned := by
  cases h with
  | scalar exact => exact owner.write_scalar name c exact _
  | list exact => exact owner.write_list name c exact _
  | empty => exact absurd rfl (plain _ _)

namespace SlotPlan

variable (plan : SlotPlan) (engine engine' : EngineId) (owner other : Owner)

theorem Exact.storable {plan : SlotPlan} (h : plan.Exact) :
    (plan.content engine owner).Storable := by
  obtain ⟨name, plan⟩ := plan
  cases plan with
  | entries blueprint => exact .empty
  | value type initializer =>
      have fits := h type initializer rfl
      cases type with
      | list item =>
          refine .list fun v mem => ?_
          cases made : initializer.produce (.list item) with
          | list items =>
              rw [made] at mem fits
              rw [ValueType.fit_list, Fit.ofItems_eq_exact_iff] at fits
              exact fits _ (List.mem_map_of_mem mem)
          | _ =>
              rw [made] at mem
              cases mem
      | _ => exact .scalar fits

/-- What a plan makes reads the same, whoever it is made for. -/
theorem value_content : (plan.content engine owner).value = (plan.content engine' other).value := by
  unfold content
  split <;> rfl

end SlotPlan

namespace Settings

variable {source : String} {owner : Owner} {name : String} {slots rest : List Slot} {c : Context}

/-- An empty dictionary has nothing to merge into one of the same schema. -/
theorem assignSlots_cons_of_empty {theirs ours : DictRef} (same : theirs.blueprint = ours.blueprint) :
    assignSlots source (⟨name, .dict theirs []⟩ :: rest) owner (⟨name, .dict ours []⟩ :: slots) c =
      (assignSlots source rest owner slots c).within (⟨name, .dict ours []⟩ :: ·) := by
  rw [assignSlots, same, if_pos (Schema.isA_self _)]
  rfl

/-- A write that works goes on with the slots after it. -/
theorem assignSlots_cons_of_written {content current : Content}
    (plain : ∀ d entries, current ≠ .dict d entries)
    (works : (owner.write name current content.value c).answer = .ok ()) :
    assignSlots source (⟨name, content⟩ :: rest) owner (⟨name, current⟩ :: slots) c =
      (assignSlots source rest owner slots (owner.write name current content.value c).context).within
        (⟨name, (owner.write name current content.value c).subject⟩ :: ·) := by
  rw [assignSlots]
  · rw [works]
  · exact fun _ _ d entries _ => plain d entries

section

variable {plans : List SlotPlan} (engine engine' : EngineId) (theirs ours : Owner)

/-- Slots of exact plans are brought to slots of the same plans, and read as before. -/
theorem assignSlots_of_exact (exact : ∀ plan ∈ plans, SlotPlan.Exact plan) (source : String)
    (owner : Owner) (rest : List Slot) (c : Context) :
    (assignSlots source ((plans.map fun plan => SlotPlan.slot plan engine theirs) ++ rest) owner
        (plans.map fun plan => SlotPlan.slot plan engine' ours) c).answer = .ok () ∧
      slotViews (assignSlots source ((plans.map fun plan => SlotPlan.slot plan engine theirs) ++ rest)
          owner (plans.map fun plan => SlotPlan.slot plan engine' ours) c).subject =
        slotViews (plans.map fun plan => SlotPlan.slot plan engine' ours) := by
  induction plans generalizing c with
  | nil =>
      simp only [List.map_nil, assignSlots, and_self]
  | cons plan plans ih =>
      obtain ⟨own, others⟩ := List.forall_mem_cons.1 exact
      have ih := ih others
      have storable := own.storable engine' ours
      have same := plan.value_content engine engine' theirs ours
      rw [List.map_cons, List.map_cons, List.cons_append, SlotPlan.slot, SlotPlan.slot]
      obtain ⟨name, plan⟩ := plan
      cases plan with
      | entries blueprint =>
          obtain ⟨answer, views⟩ := ih c
          dsimp only [SlotPlan.content]
          rw [assignSlots_cons_of_empty]
          · exact ⟨answer, by rw [Done.within, slotViews_cons, slotViews_cons, views]⟩
          · rfl
      | value type initializer =>
          have plain : ∀ d entries,
              SlotPlan.content ⟨name, .value type initializer⟩ engine' ours ≠ .dict d entries := by
            intro d entries same
            cases type <;> cases same
          obtain ⟨works, reads⟩ := storable.written plain owner name c
          rw [← same] at works reads
          rw [assignSlots_cons_of_written plain works]
          obtain ⟨answer, views⟩ := ih (owner.write name _ _ c).context
          exact ⟨answer, by rw [Done.within, slotViews_cons, slotViews_cons, views, reads, same]⟩

/-- A copy that writes every slot of exact plans over itself reads as before. -/
theorem assign_of_exact (exact : ∀ plan ∈ plans, SlotPlan.Exact plan) {source target : Settings}
    (inherits : source.schema.isA target.schema.id = true)
    (wide : source.slots = (plans.map fun plan => SlotPlan.slot plan engine theirs) ++ rest)
    (narrow : target.slots = plans.map fun plan => SlotPlan.slot plan engine' ours) (c : Context) :
    (assign source target c).answer = .ok () ∧
      (assign source target c).subject.snapshot.unsigned = target.snapshot.unsigned := by
  obtain ⟨sourceSchema, sourceKind, sourceSlots, sourceNotifier, sourceProvider⟩ := source
  obtain ⟨schema, kind, slots, notifier, provider⟩ := target
  have wide : sourceSlots = _ := wide
  have narrow : slots = _ := narrow
  subst wide narrow
  have inherits : sourceSchema.isA schema.id = true := inherits
  rw [assign, if_pos inherits]
  obtain ⟨answer, views⟩ := assignSlots_of_exact engine engine' theirs ours exact sourceSchema.name
    ⟨schema.name, kind, notifier⟩ rest c
  refine ⟨answer, ?_⟩
  rw [unsigned_snapshot, unsigned_snapshot]
  exact congrArg (fun views => Value.object schema.name (Keyed.ofList views)) views

end

end Settings

/-! ## Blueprints that begin with others -/

namespace Blueprint

variable {wide narrow : Blueprint} (engine engine' : EngineId) (kind kind' : Kind) (hub hub' : Hub)

/-- New instances of a blueprint read the same, whichever engine made them and of whichever kinds. -/
theorem snapshot_make (blueprint : Blueprint) : (blueprint.make engine kind hub).1.snapshot =
    (blueprint.make engine' kind' hub').1.snapshot := by
  have values := fun plan : SlotPlan => plan.value_content engine engine'
    (blueprint.make engine kind hub).1.owner (blueprint.make engine' kind' hub').1.owner
  rw [snapshot_eq, snapshot_eq, schema_make, schema_make, slots_make, slots_make]
  simp only [slotValues_eq_map, List.map_map, Function.comp_def, SlotPlan.slot, values]

/-- A property reads as what the first plan for it makes. -/
theorem get_make_of_find? {blueprint : Blueprint} {property : String} {plan : SlotPlan}
    (found : (blueprint.slots.find? fun plan => plan.name == property) = some plan) :
    (blueprint.make engine kind hub).1.get property =
      .ok (plan.content engine (blueprint.make engine kind hub).1.owner).value := by
  have names : ∀ owner, (fun slot : Slot => slot.name == property) ∘
      (fun plan => SlotPlan.slot plan engine owner) = fun plan => plan.name == property := fun _ => rfl
  unfold Settings.get Settings.content
  rw [slots_make, List.find?_map, names, found]
  rfl

/-- So every property of new instances of a blueprint reads the same. -/
theorem get_make_eq (blueprint : Blueprint) :
    (blueprint.make engine kind hub).1.get = (blueprint.make engine' kind' hub').1.get := by
  funext property
  cases found : blueprint.slots.find? fun plan => plan.name == property with
  | some plan =>
      rw [get_make_of_find? engine kind hub found, get_make_of_find? engine' kind' hub' found]
      exact congrArg Except.ok (plan.value_content ..)
  | none =>
      have missing : ∀ owner serial, (blueprint.slots.map fun plan =>
          SlotPlan.slot plan serial owner).find? (fun slot => slot.name == property) = none := by
        intro owner serial
        rw [List.find?_map]
        exact Option.map_eq_none_iff.2 found
      unfold Settings.get Settings.content
      rw [slots_make, slots_make, missing, missing, schema_make, schema_make]

/-- New instances hold the same in the properties of both. -/
theorem get_make (begins : narrow.slots <+: wide.slots) {plan : SlotPlan}
    (mem : plan ∈ narrow.slots) :
    ∃ v, (wide.make engine kind hub).1.get plan.name = .ok v ∧
      (narrow.make engine' kind' hub').1.get plan.name = .ok v := by
  obtain ⟨rest, extended⟩ := begins
  obtain ⟨found, h⟩ := Option.isSome_iff_exists.1
    (List.find?_isSome (p := fun other => other.name == plan.name).2
      ⟨plan, mem, beq_self_eq_true plan.name⟩)
  have wide_found : (wide.slots.find? fun other => other.name == plan.name) = some found := by
    rw [← extended, List.find?_append, h]
    rfl
  refine ⟨_, get_make_of_find? engine kind hub wide_found, ?_⟩
  rw [get_make_of_find? engine' kind' hub' h]
  exact congrArg Except.ok (found.value_content ..)

/-- A narrow copy of a new wide instance reads as a new narrow instance. -/
theorem create_narrow (begins : narrow.slots <+: wide.slots)
    (inherits : wide.schema.isA narrow.schema.id = true)
    (exact : ∀ plan ∈ narrow.slots, SlotPlan.Exact plan) (c : Context) :
    ∃ x after, narrow.create engine kind (some (wide.make engine' kind' hub).1) c = (.ok x, after) ∧
      x.snapshot.unsigned = (narrow.make engine kind hub').1.snapshot.unsigned := by
  obtain ⟨rest, extended⟩ := begins
  have slots := wide.slots_make engine' kind' hub
  rw [← extended, List.map_append] at slots
  have inherits : (wide.make engine' kind' hub).1.schema.isA
      (narrow.make engine kind c.hub).1.schema.id = true := by
    rw [schema_make, schema_make]
    exact inherits
  obtain ⟨works, reads⟩ := assign_of_exact _ _ _ _ exact inherits slots
    (narrow.slots_make engine kind c.hub) { c with hub := (narrow.make engine kind c.hub).2 }
  unfold create
  dsimp only
  rw [works, narrow.snapshot_make engine engine kind kind hub' c.hub]
  exact ⟨_, _, rfl, reads⟩

end Blueprint

end SettingsForge
