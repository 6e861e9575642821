import SettingsForge.Settings.Context

set_option autoImplicit false

/-! # Making instances

A new instance holds the values that its blueprint's initializers make; its dictionaries are empty. If
it has a notifier, its lists and dictionaries are bound to that under the names of their properties. -/

namespace SettingsForge

namespace SlotPlan

/-- The first content of a slot of an owner, made for an engine. A list property whose initializer makes
    no list starts empty. -/
def content (plan : SlotPlan) (engine : EngineId) (owner : Owner) : Content :=
  match plan.plan with
  | .value (.list item) initializer =>
    .list ⟨owner.schema, plan.name, item, owner.binding plan.name⟩
      ((initializer.produce (.list item)).items?.getD [])
  | .value type initializer => .scalar type (initializer.produce type)
  | .entries blueprint =>
    .dict ⟨engine, blueprint, owner.kind, plan.name, owner.binding plan.name⟩ []

/-- The slot of a plan. -/
def slot (plan : SlotPlan) (engine : EngineId) (owner : Owner) : Slot :=
  ⟨plan.name, SlotPlan.content plan engine owner⟩

end SlotPlan

namespace Blueprint

/-- The slots of a new instance with a notifier or none. -/
def slotsFor (blueprint : Blueprint) (engine : EngineId) (kind : Kind) (notifier : Option NotifierId) :
    List Slot :=
  blueprint.slots.map fun plan =>
    SlotPlan.slot plan engine ⟨blueprint.schema.name, kind, notifier⟩

/-- A new instance of a kind, made for an engine. Observable ones get a notifier. -/
def make (blueprint : Blueprint) (engine : EngineId) (kind : Kind) (hub : Hub) : Settings × Hub :=
  if kind.isObservable then
    let (n, after) := hub.alloc
    (.mk blueprint.schema kind (blueprint.slotsFor engine kind (some n)) (some n) none, after)
  else (.mk blueprint.schema kind (blueprint.slotsFor engine kind none) none none, hub)

variable (blueprint : Blueprint) (engine : EngineId) (kind : Kind) (hub : Hub)

@[simp] theorem schema_make : (blueprint.make engine kind hub).1.schema = blueprint.schema := by
  unfold make; split <;> rfl

@[simp] theorem kind_make : (blueprint.make engine kind hub).1.kind = kind := by
  unfold make; split <;> rfl

/-- The slots are those of the plans, for the instance itself as their owner. -/
theorem slots_make : (blueprint.make engine kind hub).1.slots = blueprint.slots.map fun plan =>
    SlotPlan.slot plan engine (blueprint.make engine kind hub).1.owner := by
  unfold make; split <;> rfl

end Blueprint

/-- Let an owner hear of an entry's changes, if there is a binding to it. -/
def Hub.forward (hub : Hub) (entry : Option NotifierId) (binding : Option Binding) :
    Option SubscriptionId × Hub :=
  match entry, binding with
  | some n, some b =>
    let (id, after) := hub.attach n (.forwarder b.notifier b.property)
    (some id, after)
  | _, _ => (none, hub)

/-- Stop an owner hearing of an entry's changes. -/
def Hub.unforward (hub : Hub) (entry : Entry) : Hub :=
  match entry.settings.notifier, entry.forwarder with
  | some n, some id => (hub.detach n id).2
  | _, _ => hub

end SettingsForge
