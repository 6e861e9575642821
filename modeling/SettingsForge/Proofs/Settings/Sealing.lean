import SettingsForge.Proofs.Hub.Recorded
import SettingsForge.Proofs.Settings.Evolution

set_option autoImplicit false

/-! # Numbers of owners

An owner hears of its entries under numbers that no client was given: the entries are sealed
(`Settings.Sealed`). So a dictionary that drops an entry ends its own subscription and nobody else's,
and a hub stays recorded while instances evolve (`Settings.Evolves.follows`). -/

namespace SettingsForge

open Hub

/-- The number under which the owner hears of the entry was given to no client. -/
def EntryOf.Sealed (e : Entry) (hub : Hub) : Prop :=
  ∀ id n, e.forwarder = some id → e.settings.notifier = some n → hub.Reserved n id

variable {hub after : Hub} {x y : Settings}

theorem EntryOf.Sealed.follows {e : Entry} (h : e.Sealed hub) (follows : Follows hub after) :
    e.Sealed after := fun id n hid hn => follows.reserved (h id n hid hn)

namespace Settings

/-- All entries inside an instance are sealed. -/
def Sealed (hub : Hub) (x : Settings) : Prop :=
  ∀ y ∈ x.parts, ∀ slot ∈ y.slots, ∀ e ∈ slot.content.entries, e.Sealed hub

theorem Sealed.follows (h : Sealed hub x) (follows : Follows hub after) : Sealed after x :=
  fun y part slot hs e he => (h y part slot hs e he).follows follows

theorem sealed_iff : Sealed hub x ↔
    ∀ slot ∈ x.slots, ∀ e ∈ slot.content.entries, e.Sealed hub ∧ Sealed hub e.settings := by
  constructor
  · intro h slot hs e he
    refine ⟨h x (self_mem_parts x) slot hs e he, fun y part => h y ?_⟩
    exact mem_parts.2 (Or.inr ⟨slot, hs, ContentOf.mem_parts.2 ⟨e, he, part⟩⟩)
  · intro h y part
    rcases mem_parts.1 part with rfl | ⟨slot, hs, inside⟩
    · exact fun slot hs e he => (h slot hs e he).1
    · obtain ⟨e, he, part⟩ := ContentOf.mem_parts.1 inside
      exact (h slot hs e he).2 y part

theorem sealed_setProvider (link : Option ProviderLink) :
    Sealed hub (x.setProvider link) ↔ Sealed hub x := by
  rw [sealed_iff, sealed_iff, slots_setProvider]

end Settings

open Settings

namespace Frame

variable (f : Frame) {content other : Content} {dict : DictRef} {before rest : List Entry}
  {e : Entry}

theorem sealed_fill : Sealed hub (f.fill content) ↔
    (∀ e ∈ content.entries, e.Sealed hub ∧ Sealed hub e.settings) ∧
      ∀ slot ∈ f.before ++ f.after, ∀ e ∈ slot.content.entries,
        e.Sealed hub ∧ Sealed hub e.settings := by
  rw [sealed_iff]
  simp only [f.mem_slots_fill, forall_eq_or_imp]

/-- An instance with an entry, and without it. -/
theorem sealed_entry : Sealed hub (f.fill (.dict dict (before ++ e :: rest))) ↔
    (e.Sealed hub ∧ Sealed hub e.settings) ∧
      Sealed hub (f.fill (.dict dict (before ++ rest))) := by
  rw [f.sealed_fill, f.sealed_fill, ← and_assoc]
  refine and_congr_left' ?_
  simp only [ContentOf.entries, List.mem_append, List.mem_cons]
  grind

end Frame

/-! ## Evolution -/

theorem Hub.follows_announce (hub : Hub) (notifier : Option NotifierId) (property : String) :
    Follows hub (hub.announce notifier property) := by
  cases notifier with
  | none => exact .refl hub
  | some n => exact (serves_notify hub n property).follows

theorem EntryOf.Sealed.follows_unforward {e : Entry} (h : e.Sealed hub) :
    Follows hub (hub.unforward e) := by
  unfold Hub.unforward
  split
  · next n id hn hid => exact follows_detach (h id n hid hn)
  · exact .refl hub

/-- A new instance has no entries yet. -/
theorem Blueprint.follows_of_make {blueprint : Blueprint} {engine : EngineId} {kind : Kind}
    {made : Settings} (h : blueprint.make engine kind hub = (made, after)) :
    Follows hub after ∧ Sealed after made := by
  have made_eq : (blueprint.make engine kind hub).1 = made := congrArg Prod.fst h
  have after_eq : (blueprint.make engine kind hub).2 = after := congrArg Prod.snd h
  constructor
  · rw [← after_eq, blueprint.snd_make]
    split
    · exact follows_alloc hub
    · exact .refl hub
  · rw [← made_eq, sealed_iff]
    intro slot hs e he
    rw [blueprint.entries_make kind hub hs] at he
    cases he

/-- An owner comes to hear of an instance, under a number that no client was given. -/
theorem Hub.follows_forward {entry : Option NotifierId} {binding : Option Binding}
    {heard : Option SubscriptionId} (lt : ∀ n, entry = some n → n < hub.size)
    (h : hub.forward entry binding = (heard, after)) :
    Follows hub after ∧
      (hub.Recorded → ∀ id n, heard = some id → entry = some n → after.Reserved n id) := by
  unfold Hub.forward at h
  split at h
  · next n b =>
    cases h
    refine ⟨follows_attach (lt n rfl) b.notifier b.property, fun recorded id m hid hm => ?_⟩
    cases hid
    cases hm
    exact reserved_attach recorded (lt n rfl) b.notifier b.property
  · cases h
    exact ⟨.refl hub, fun _ id n hid => by cases hid⟩

/-- What evolves stays sealed, and keeps the hub recorded. -/
theorem Settings.Evolves.follows {ns : List Notice} (h : Evolves x hub ns y after)
    (recorded : hub.Recorded) (sealed : Sealed hub x) : Follows hub after ∧ Sealed after y := by
  induction h with
  | refl => exact ⟨.refl _, sealed⟩
  | trans _ _ ih ih' =>
      obtain ⟨first, between⟩ := ih recorded sealed
      obtain ⟨second, last⟩ := ih' (first.recorded recorded) between
      exact ⟨first.trans second, last⟩
  | rewrite f hub rewritten =>
      refine ⟨.refl hub, f.sealed_fill.2 ⟨fun e he => ?_, (f.sealed_fill.1 sealed).2⟩⟩
      rw [rewritten.entries.2] at he
      cases he
  | link x link hub => exact ⟨.refl hub, (sealed_setProvider link).2 sealed⟩
  | @announce x hub property =>
      have follows := hub.follows_announce x.notifier property
      exact ⟨follows, sealed.follows follows⟩
  | drop f dict before e rest hub =>
      obtain ⟨⟨own, -⟩, others⟩ := f.sealed_entry.1 sealed
      exact ⟨own.follows_unforward, others.follows own.follows_unforward⟩
  | @add f dict before rest key heard made y ns hub₁ hub₂ hub₃ hub₄ hmake evolves hforward _ ih =>
      obtain ⟨first, made_sealed⟩ := dict.blueprint.follows_of_make hmake
      obtain ⟨second, inside⟩ := ih (first.recorded recorded) made_sealed
      -- the notifier of what was made is still there
      have lt : ∀ n, y.notifier = some n → n < hub₃.size := fun n hn =>
        Nat.lt_of_lt_of_le
          ((dict.blueprint.wired_of_make f.kind hub₁ hmake).self.lt n (evolves.alike.notifier ▸ hn))
          evolves.size_le
      obtain ⟨third, reserved⟩ := follows_forward lt hforward
      have follows := (first.trans second).trans third
      refine ⟨follows, f.sealed_entry.2 ⟨⟨?_, inside.follows third⟩, sealed.follows follows⟩⟩
      exact reserved ((first.trans second).recorded recorded)
  | @discard x blueprint engine kind made y ns hub₁ hub₂ hub₃ hmake _ ih =>
      obtain ⟨first, made_sealed⟩ := blueprint.follows_of_make hmake
      have follows := first.trans (ih (first.recorded recorded) made_sealed).1
      exact ⟨follows, sealed.follows follows⟩
  | inside f dict before e rest evolves ih =>
      obtain ⟨⟨own, inner⟩, others⟩ := f.sealed_entry.1 sealed
      obtain ⟨follows, inner⟩ := ih recorded inner
      refine ⟨follows, f.sealed_entry.2 ⟨⟨fun id n hid hn => ?_, inner⟩, others.follows follows⟩⟩
      exact follows.reserved (own id n hid (evolves.alike.notifier ▸ hn))

/-- A new instance is sealed, however it has evolved. -/
theorem Settings.Evolves.follows_of_make {blueprint : Blueprint} {engine : EngineId} {kind : Kind}
    {made : Settings} {between : Hub} {ns : List Notice}
    (hmake : blueprint.make engine kind hub = (made, between))
    (h : Evolves made between ns y after) (recorded : hub.Recorded) :
    Follows hub after ∧ Sealed after y := by
  obtain ⟨first, sealed⟩ := blueprint.follows_of_make hmake
  obtain ⟨second, sealed⟩ := h.follows (first.recorded recorded) sealed
  exact ⟨first.trans second, sealed⟩

end SettingsForge
