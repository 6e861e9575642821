import SettingsForge.Proofs.Settings.Wiring
import SettingsForge.Proofs.ValueType.Coercion

set_option autoImplicit false

/-! # How an instance evolves

`Settings.Evolves` says what operations do to an instance and to the hub: contents are rewritten,
providers linked, changes announced, entries dropped and added, and entries evolve inside their owner.
What is announced is listed as notices, each with the path of the part that announces it. A new
instance starts without entries, and with a notifier that nobody heard of before. -/

namespace SettingsForge

/-- A scalar is replaced by one of its type, a list by items of it and others of its type. -/
inductive ContentOf.Rewritten : Content → Content → Prop
  | scalar {type : ValueType} {old new : Value} :
      type.Makes new → Rewritten (.scalar type old) (.scalar type new)
  | list {list : ListRef} {old new : List Value} :
      (∀ v ∈ new, v ∈ old ∨ list.item.Makes v) → Rewritten (.list list old) (.list list new)

theorem ContentOf.Rewritten.entries {content other : Content} (h : content.Rewritten other) :
    content.entries = [] ∧ other.entries = [] := by
  cases h <;> exact ⟨rfl, rfl⟩

theorem ContentOf.Rewritten.notifiers {content other : Content} (h : content.Rewritten other) :
    content.notifiers = [] ∧ other.notifiers = [] := by
  cases h <;> exact ⟨rfl, rfl⟩

/-- A change that a part of an instance announces. -/
structure Notice where
  path : Path
  property : String

namespace Notice

/-- What the whole instance announces: a part's change is one of the dictionary that it is in. -/
def topic : Notice → String
  | ⟨[], property⟩ => property
  | ⟨(property, _) :: _, _⟩ => property

/-- The notice of an entry, as one of its owner. -/
def within (property key : String) (t : Notice) : Notice := ⟨(property, key) :: t.path, t.property⟩

@[simp] theorem topic_within (property key : String) (t : Notice) :
    (t.within property key).topic = property := rfl

end Notice

/-- Announce a change of a property, if there is a notifier. -/
def Hub.announce (hub : Hub) (notifier : Option NotifierId) (property : String) : Hub :=
  match notifier with
  | some n => hub.notify n property
  | none => hub

theorem Hub.forward_some (hub : Hub) (n owner : NotifierId) (property : String) :
    hub.forward (some n) (some ⟨property, owner⟩) =
      (some (hub.attach n (.forwarder owner property)).1,
        (hub.attach n (.forwarder owner property)).2) := rfl

@[simp] theorem Context.hub_announce (c : Context) (notifier : Option NotifierId)
    (property : String) : (c.announce notifier property).hub = c.hub.announce notifier property := by
  cases notifier <;> rfl

theorem Owner.binding_eq_some_iff {owner : Owner} {property : String} {b : Binding} :
    owner.binding property = some b ↔ owner.notifier = some b.notifier ∧ property = b.property := by
  obtain ⟨inner, n⟩ := b
  simp [binding, Option.map_eq_some_iff, and_comm]

/-- What is bound to an owner is announced by it. -/
theorem Context.tell_binding (c : Context) (owner : Owner) (property : String) :
    c.tell (owner.binding property) = c.announce owner.notifier property := by
  unfold Owner.binding
  cases owner.notifier <;> rfl

namespace Settings

/-- The instance and the hub before, what is announced, and both after. -/
inductive Evolves : Settings → Hub → List Notice → Settings → Hub → Prop
  | refl (x : Settings) (hub : Hub) : Evolves x hub [] x hub
  | trans {x y z : Settings} {hub₁ hub₂ hub₃ : Hub} {ns ms : List Notice} :
      Evolves x hub₁ ns y hub₂ → Evolves y hub₂ ms z hub₃ → Evolves x hub₁ (ns ++ ms) z hub₃
  | rewrite (f : Frame) {content other : Content} (hub : Hub) :
      content.Rewritten other → Evolves (f.fill content) hub [] (f.fill other) hub
  | link (x : Settings) (link : Option ProviderLink) (hub : Hub) :
      Evolves x hub [] (x.setProvider link) hub
  | announce (x : Settings) (hub : Hub) {property : String} :
      property ∈ x.names → Evolves x hub [⟨[], property⟩] x (hub.announce x.notifier property)
  | drop (f : Frame) (dict : DictRef) (before : List Entry) (e : Entry) (after : List Entry)
      (hub : Hub) :
      Evolves (f.fill (.dict dict (before ++ e :: after))) hub []
        (f.fill (.dict dict (before ++ after))) (hub.unforward e)
  /-- An entry is made, evolves by itself, and is put among the others. -/
  | add (f : Frame) {dict : DictRef} {before after : List Entry} {key : String}
      {heard : Option SubscriptionId} {made y : Settings} {ns : List Notice}
      {hub₁ hub₂ hub₃ hub₄ : Hub} :
      dict.blueprint.make dict.engine f.kind hub₁ = (made, hub₂) → Evolves made hub₂ ns y hub₃ →
      hub₃.forward y.notifier (f.owner.binding f.property) = (heard, hub₄) →
      Entries.Sorted (before ++ ⟨key, heard, y⟩ :: after) →
      Evolves (f.fill (.dict dict (before ++ after))) hub₁ []
        (f.fill (.dict dict (before ++ ⟨key, heard, y⟩ :: after))) hub₄
  /-- An entry is made and given up. -/
  | discard (x : Settings) {blueprint : Blueprint} {engine : EngineId} {kind : Kind} {made y : Settings}
      {ns : List Notice} {hub₁ hub₂ hub₃ : Hub} :
      blueprint.make engine kind hub₁ = (made, hub₂) → Evolves made hub₂ ns y hub₃ →
      Evolves x hub₁ [] x hub₃
  | inside (f : Frame) (dict : DictRef) (before : List Entry) (e : Entry) (after : List Entry)
      {y : Settings} {ns : List Notice} {hub₁ hub₂ : Hub} :
      Evolves e.settings hub₁ ns y hub₂ →
      Evolves (f.fill (.dict dict (before ++ e :: after))) hub₁
        (ns.map (Notice.within f.property e.key))
        (f.fill (.dict dict (before ++ { e with settings := y } :: after))) hub₂

/-! ## What stays -/

/-- Two instances differ at most in what their slots hold and in their providers. -/
structure Alike (x y : Settings) : Prop where
  schema : y.schema = x.schema
  kind : y.kind = x.kind
  notifier : y.notifier = x.notifier
  names : y.names = x.names

theorem Alike.trans {x y z : Settings} (first : Alike x y) (second : Alike y z) : Alike x z where
  schema := second.schema.trans first.schema
  kind := second.kind.trans first.kind
  notifier := second.notifier.trans first.notifier
  names := second.names.trans first.names

theorem alike_fill (f : Frame) (content other : Content) :
    Alike (f.fill content) (f.fill other) :=
  ⟨rfl, rfl, rfl, f.names_fill other content⟩

variable {x y : Settings} {hub after : Hub} {ns : List Notice}

theorem Evolves.alike (h : Evolves x hub ns y after) : Alike x y := by
  induction h with
  | trans _ _ ih ih' => exact ih.trans ih'
  | refl | announce | discard => exact ⟨rfl, rfl, rfl, rfl⟩
  | link x => exact ⟨by simp, by simp, by simp, by simp [names]⟩
  | rewrite | drop | add | inside => exact alike_fill ..

/-- Only properties of the instance are announced. -/
theorem Evolves.topic_mem_names (h : Evolves x hub ns y after) :
    ∀ t ∈ ns, t.topic ∈ x.names := by
  induction h with
  | trans first _ ih ih' =>
      intro t mem
      rcases List.mem_append.1 mem with mem | mem
      · exact ih t mem
      · rw [← first.alike.names]
        exact ih' t mem
  | announce x hub mem =>
      intro t ht
      rw [List.mem_singleton.1 ht]
      exact mem
  | inside f dict before e after =>
      intro t mem
      obtain ⟨t, -, rfl⟩ := List.mem_map.1 mem
      exact f.property_mem_names _
  | refl | rewrite | link | drop | add | discard =>
      intro t mem
      cases mem

end Settings

/-! ## New instances -/

namespace Blueprint

variable (blueprint : Blueprint) (engine : EngineId) (kind : Kind) (hub : Hub)

theorem snd_make :
    (blueprint.make engine kind hub).2 = if kind.isObservable then hub.alloc.2 else hub := by
  unfold make
  dsimp only
  split <;> rfl

theorem notifier_make :
    (blueprint.make engine kind hub).1.notifier = if kind.isObservable then some hub.size else none := by
  unfold make
  dsimp only
  split <;> rfl

@[simp] theorem provider_make : (blueprint.make engine kind hub).1.provider = none := by
  unfold make
  dsimp only
  split <;> rfl

variable {engine} in
/-- The dictionaries of a new instance are empty. -/
theorem entries_make {slot : Slot} (mem : slot ∈ (blueprint.make engine kind hub).1.slots) :
    slot.content.entries = [] := by
  rw [slots_make] at mem
  obtain ⟨plan, -, rfl⟩ := List.mem_map.1 mem
  unfold SlotPlan.slot SlotPlan.content
  dsimp only
  split <;> rfl

theorem slotParts_make : Settings.slotParts (blueprint.make engine kind hub).1.slots = [] := by
  rw [Settings.slotParts_eq_flatMap, List.flatMap_eq_nil_iff]
  intro slot mem
  rw [ContentOf.parts, blueprint.entries_make kind hub mem]
  rfl

theorem parts_make : (blueprint.make engine kind hub).1.parts = [(blueprint.make engine kind hub).1] := by
  rw [Settings.parts_eq_cons, slotParts_make]

theorem inner_make : (blueprint.make engine kind hub).1.inner = [] := by
  rw [Settings.inner, slotParts_make]
  rfl

theorem notifiers_make :
    (blueprint.make engine kind hub).1.notifiers = if kind.isObservable then [hub.size] else [] := by
  rw [Settings.notifiers_eq_append, inner_make, notifier_make, List.append_nil]
  split <;> rfl

variable {engine} in
/-- The notifier of a new instance is new. -/
theorem fresh_of_make {made : Settings} {after : Hub} (h : blueprint.make engine kind hub = (made, after))
    {m : NotifierId} (mem : m ∈ made.notifiers) : hub.size ≤ m := by
  have notifiers := blueprint.notifiers_make engine kind hub
  rw [h] at notifiers
  rw [notifiers] at mem
  split at mem
  · exact Nat.le_of_eq (List.mem_singleton.1 mem).symm
  · cases mem

@[simp] theorem subscribers_make (n : NotifierId) :
    (blueprint.make engine kind hub).2.subscribers n = hub.subscribers n := by
  rw [snd_make]
  split
  · exact Hub.subscribers_alloc hub n
  · rfl

@[simp] theorem forwarders_make (n : NotifierId) :
    (blueprint.make engine kind hub).2.forwarders n = hub.forwarders n := by
  simp [Hub.forwarders]

theorem leads_make (dropped : NotifierId → Prop) :
    Hub.Leads dropped hub (blueprint.make engine kind hub).2 := by
  rw [snd_make]
  split
  · exact Hub.leads_alloc ..
  · exact Hub.Leads.refl ..

variable {engine} in
theorem leads_of_make {made : Settings} {after : Hub} (h : blueprint.make engine kind hub = (made, after))
    (dropped : NotifierId → Prop) : Hub.Leads dropped hub after := by
  have leads := blueprint.leads_make engine kind hub dropped
  rwa [h] at leads

variable {engine} in
theorem size_le_of_make {made : Settings} {after : Hub}
    (h : blueprint.make engine kind hub = (made, after)) : hub.size ≤ after.size :=
  (blueprint.leads_of_make kind hub h fun _ => False).size

theorem wired_make :
    Settings.Wired (blueprint.make engine kind hub).2 (blueprint.make engine kind hub).1 where
  nodup := by
    rw [notifiers_make]
    split <;> simp
  parts y mem := by
    rw [parts_make, List.mem_singleton] at mem
    subst mem
    refine ⟨?_, fun n hn => ?_, fun slot hs e he => ?_⟩
    · rw [notifier_make, kind_make]
      cases kind.isObservable <;> rfl
    · rw [notifier_make] at hn
      rw [snd_make]
      split at hn
      · next observable =>
        cases hn
        rw [if_pos observable, Hub.size_alloc]
        exact Nat.lt_succ_self _
      · cases hn
    · rw [blueprint.entries_make kind hub hs] at he
      cases he

variable {engine} in
theorem wired_of_make {made : Settings} {after : Hub}
    (h : blueprint.make engine kind hub = (made, after)) :
    Settings.Wired after made := by
  have wired := blueprint.wired_make engine kind hub
  rwa [h] at wired

end Blueprint

namespace Settings

variable {x y : Settings} {hub after : Hub} {ns : List Notice}

theorem Evolves.size_le (h : Evolves x hub ns y after) : hub.size ≤ after.size := by
  induction h with
  | refl | rewrite | link => exact Nat.le_refl _
  | trans _ _ ih ih' => exact Nat.le_trans ih ih'
  | announce x hub =>
      unfold Hub.announce
      split
      · exact Nat.le_of_eq (Hub.size_notify ..).symm
      · exact Nat.le_refl _
  | drop f dict before e after hub =>
      unfold Hub.unforward
      split
      · exact Nat.le_of_eq (Hub.size_detach ..).symm
      · exact Nat.le_refl _
  | @add f dict before after key heard made y ns hub₁ hub₂ hub₃ hub₄ hmake _ hforward _ ih =>
      have last : hub₃.size ≤ (hub₃.forward y.notifier (f.owner.binding f.property)).2.size := by
        unfold Hub.forward
        split
        · exact Nat.le_of_eq (Hub.size_attach ..).symm
        · exact Nat.le_refl _
      rw [hforward] at last
      exact Nat.le_trans (dict.blueprint.size_le_of_make _ _ hmake) (Nat.le_trans ih last)
  | @discard x blueprint engine kind made y ns hub₁ hub₂ hub₃ hmake _ ih =>
      exact Nat.le_trans (blueprint.size_le_of_make _ _ hmake) ih
  | inside _ _ _ _ _ _ ih => exact ih

/-- Notifiers are those that were there, or new. -/
theorem Evolves.mem_notifiers (h : Evolves x hub ns y after) :
    ∀ m ∈ y.notifiers, m ∈ x.notifiers ∨ hub.size ≤ m := by
  induction h with
  | refl | announce | discard => exact fun m mem => Or.inl mem
  | link x link => exact fun m mem => Or.inl (x.notifiers_setProvider link ▸ mem)
  | trans first _ ih ih' =>
      intro m mem
      rcases ih' m mem with mem | le
      · exact ih m mem
      · exact Or.inr (Nat.le_trans first.size_le le)
  | rewrite f hub rewritten =>
      intro m mem
      rw [Frame.mem_notifiers_fill, rewritten.notifiers.2] at mem
      rw [Frame.mem_notifiers_fill, rewritten.notifiers.1]
      exact Or.inl mem
  | drop f dict before e after =>
      exact fun m mem => Or.inl (f.mem_notifiers_entry.2 (Or.inr mem))
  | @add f dict before after key heard made y ns hub₁ hub₂ hub₃ hub₄ hmake _ _ _ ih =>
      intro m mem
      rcases f.mem_notifiers_entry.1 mem with mem | mem
      · -- inside the new entry, everything is new
        refine Or.inr ?_
        rcases ih m mem with mem | le
        · exact dict.blueprint.fresh_of_make _ _ hmake mem
        · exact Nat.le_trans (dict.blueprint.size_le_of_make _ _ hmake) le
      · exact Or.inl mem
  | inside f dict before e after _ ih =>
      intro m mem
      rcases f.mem_notifiers_entry.1 mem with mem | mem
      · exact (ih m mem).imp_left fun mem => f.mem_notifiers_entry.2 (Or.inl mem)
      · exact Or.inl (f.mem_notifiers_entry.2 (Or.inr mem))

end Settings

end SettingsForge
