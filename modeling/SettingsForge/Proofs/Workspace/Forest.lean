import Mathlib.Data.List.Flatten
import SettingsForge.Proofs.Keyed
import SettingsForge.Proofs.Settings.Announcing

set_option autoImplicit false

/-! # Forests

The named instances of a workspace are the roots of a forest (`Forest`): each is wired, nobody is told
of a root's own changes but its clients, and no two have a notifier in common. A forest stays one when
an instance evolves, comes or goes, for no other loses a forwarder by that (`Forest.replace`,
`Forest.insert`). -/

namespace SettingsForge

open Hub Settings

/-! ## Roots -/

/-- A wired instance whose own changes only clients hear. -/
structure Settings.Rooted (hub : Hub) (x : Settings) : Prop extends Wired hub x where
  top : ∀ n, x.notifier = some n → hub.forwarders n = []

/-- An instance in a tree is the root, or an entry of another one in the tree. -/
theorem Settings.exists_owner {x y : Settings} (h : y ∈ x.parts) :
    y = x ∨ ∃ z ∈ x.parts, ∃ slot ∈ z.slots, ∃ e ∈ slot.content.entries, e.settings = y := by
  induction x using tree_induction with
  | step x ih =>
      rcases mem_parts.1 h with same | ⟨slot, hs, inside⟩
      · exact Or.inl same
      · obtain ⟨e, he, inside⟩ := ContentOf.mem_parts.1 inside
        refine Or.inr ?_
        rcases ih slot hs e he inside with same | ⟨z, hz, rest⟩
        · exact ⟨x, self_mem_parts x, slot, hs, e, he, same.symm⟩
        · exact ⟨z, mem_parts_of_entry hs he hz, rest⟩

/-- A forwarder of an entry announces its dictionary at its owner. -/
theorem Settings.Wired.forwarder_eq {hub : Hub} {x : Settings} (wired : Wired hub x) {slot : Slot}
    (hs : slot ∈ x.slots) {e : Entry} (he : e ∈ slot.content.entries) {m : NotifierId}
    (own : e.settings.notifier = some m) {f : SubscriptionId × NotifierId × String}
    (hf : f ∈ hub.forwarders m) : x.notifier = some f.2.1 ∧ slot.name = f.2.2 := by
  obtain ⟨n, id, hn, heard⟩ := wired.exists_heard hs he own
  rw [heard.only f hf]
  exact ⟨hn, rfl⟩

/-- A forwarder of an instance in a tree announces the dictionary that the instance is an entry of. -/
theorem Settings.Rooted.exists_of_forwarder {hub : Hub} {x y : Settings} (rooted : Rooted hub x)
    (part : y ∈ x.parts) {m : NotifierId} (own : y.notifier = some m)
    {f : SubscriptionId × NotifierId × String} (hf : f ∈ hub.forwarders m) :
    ∃ z ∈ x.parts, z.notifier = some f.2.1 ∧
      ∃ slot ∈ z.slots, slot.name = f.2.2 ∧ ∃ e ∈ slot.content.entries, e.settings = y := by
  rcases exists_owner part with rfl | ⟨z, hz, slot, hs, e, he, rfl⟩
  · rw [rooted.top m own] at hf
    cases hf
  · obtain ⟨owner, property⟩ := (rooted.toWired.part hz).forwarder_eq hs he own hf
    exact ⟨z, hz, owner, slot, hs, property, e, he, rfl⟩

/-- What is announced in a tree stays in the tree. -/
theorem Settings.Rooted.closed {hub : Hub} {x : Settings} (rooted : Rooted hub x) :
    hub.Closed fun m => m ∈ x.notifiers ∨ hub.size ≤ m := by
  rintro m (there | fresh) f hf
  · obtain ⟨y, hy, hm⟩ := mem_notifiers.1 there
    obtain ⟨z, hz, hn, -⟩ := rooted.exists_of_forwarder hy hm hf
    exact Or.inl (mem_notifiers.2 ⟨z, hz, hn⟩)
  · rw [forwarders_of_size_le fresh] at hf
    cases hf

structure Forest (hub : Hub) (instances : List (String × Settings)) : Prop where
  sorted : Keyed.Sorted instances
  rooted : ∀ entry ∈ instances, Rooted hub entry.2
  apart : (instances.flatMap fun entry => entry.2.notifiers).Nodup

variable {dropped : NotifierId → Prop} {hub after : Hub} {instances : List (String × Settings)}

theorem forest_nil (hub : Hub) : Forest hub [] := ⟨List.Pairwise.nil, by simp, by simp⟩

theorem Settings.Rooted.leads {x : Settings} (rooted : Rooted hub x) (leads : Leads dropped hub after)
    (tidy : hub.Tidy) (free : ∀ m ∈ x.inner, ¬ dropped m) : Rooted after x := by
  refine ⟨rooted.toWired.leads leads tidy free, fun n hn => ?_⟩
  have sub := leads.sublist n (rooted.self.lt n hn)
  rw [rooted.top n hn] at sub
  exact List.sublist_nil.1 sub

theorem Forest.leads (forest : Forest hub instances) (leads : Leads (fun _ => False) hub after)
    (tidy : hub.Tidy) : Forest after instances :=
  ⟨forest.sorted, fun entry mem => (forest.rooted entry mem).leads leads tidy fun _ _ => id,
    forest.apart⟩

/-- Two hubs with the same notifiers. -/
theorem Forest.of_views (forest : Forest hub instances) (size : after.size = hub.size)
    (forwarders : ∀ m, after.forwarders m = hub.forwarders m)
    (disciplined : after.Disciplined → hub.Disciplined) : Forest after instances := by
  refine ⟨forest.sorted, fun entry mem => ?_, forest.apart⟩
  have rooted := forest.rooted entry mem
  refine ⟨⟨wiredAt_of_keeps rooted.parts (Nat.le_of_eq size.symm) fun m _ => ?_, rooted.nodup⟩, ?_⟩
  · exact ⟨by rw [forwarders m], fun later => ⟨disciplined later, forwarders m⟩⟩
  · intro n hn
    rw [forwarders n]
    exact rooted.top n hn

theorem Forest.sublist (forest : Forest hub instances) {fewer : List (String × Settings)}
    (sub : fewer.Sublist instances) : Forest hub fewer :=
  ⟨forest.sorted.sublist (sub.map _), fun entry mem => forest.rooted entry (sub.subset mem),
    forest.apart.sublist (sub.flatMap _)⟩

/-- Notifiers of different roots differ. -/
theorem Forest.eq_of_mem_notifiers (forest : Forest hub instances) {a b : String × Settings}
    (ha : a ∈ instances) (hb : b ∈ instances) {m : NotifierId} (hm : m ∈ a.2.notifiers)
    (hm' : m ∈ b.2.notifiers) : a = b := eq_of_nodup_flatMap forest.apart ha hb hm hm'

/-- A root comes in the place of at most one other, and only the one that goes may lose forwarders. -/
theorem Forest.put (forest : Forest hub instances) (tidy : hub.Tidy) {name : String} {y : Settings}
    (leads : Leads dropped hub after) (rooted : Rooted after y)
    (own : ∀ m, dropped m → ∃ x, (name, x) ∈ instances ∧ m ∈ x.notifiers)
    (fresh : ∀ m ∈ y.notifiers,
      (∃ x, (name, x) ∈ instances ∧ m ∈ x.notifiers) ∨ hub.size ≤ m) :
    Forest after (Keyed.insert name y instances) := by
  obtain ⟨before, removed, rest, split, inserted, others, -⟩ :=
    Keyed.exists_insert forest.sorted name y
  have kept : ∀ entry ∈ before ++ rest, entry ∈ instances := by
    intro entry mem
    rw [split]
    simp only [List.mem_append] at mem ⊢
    exact mem.imp_right Or.inr
  -- the other roots share no notifier with the one of this name
  have apart : ∀ entry ∈ before ++ rest, ∀ m ∈ entry.2.notifiers,
      ∀ x, (name, x) ∈ instances → m ∉ x.notifiers := by
    intro entry mem m hm x hx hm'
    exact others entry mem (congrArg Prod.fst (forest.eq_of_mem_notifiers (kept entry mem) hx hm hm'))
  have sub : (before ++ rest).Sublist instances := by
    rw [split]
    exact (List.sublist_append_right ..).append_left _
  have fewer := forest.sublist sub
  refine ⟨Keyed.sorted_insert forest.sorted name y, fun entry mem => ?_, ?_⟩
  · have either : entry = (name, y) ∨ entry ∈ before ++ rest := by
      rw [inserted] at mem
      simp only [List.mem_append, List.mem_cons] at mem ⊢
      rcases mem with mem | mem | mem
      · exact Or.inr (Or.inl mem)
      · exact Or.inl mem
      · exact Or.inr (Or.inr mem)
    rcases either with rfl | mem
    · exact rooted
    · refine (fewer.rooted entry mem).leads leads tidy fun m hm hd => ?_
      obtain ⟨x, hx, hm'⟩ := own m hd
      exact apart entry mem m (mem_notifiers_iff.2 (Or.inr hm)) x hx hm'
  · have perm : ((Keyed.insert name y instances).flatMap fun entry => entry.2.notifiers).Perm
        (y.notifiers ++ (before ++ rest).flatMap fun entry => entry.2.notifiers) := by
      rw [inserted, List.flatMap_append, List.flatMap_cons, List.flatMap_append]
      exact List.perm_append_comm_assoc ..
    rw [perm.nodup_iff, List.nodup_append]
    refine ⟨rooted.nodup, fewer.apart, ?_⟩
    rintro m hm _ hm' rfl
    obtain ⟨entry, mem, hm'⟩ := List.mem_flatMap.1 hm'
    rcases fresh m hm with ⟨x, hx, there⟩ | le
    · exact apart entry mem m hm' x hx there
    · exact Nat.not_lt.2 le ((fewer.rooted entry mem).lt_size hm')

/-- A root evolves. -/
theorem Forest.replace (forest : Forest hub instances) (tidy : hub.Tidy) {name : String}
    {x y : Settings} {ns : List Notice} (there : (name, x) ∈ instances)
    (evolves : Evolves x hub ns y after) : Forest after (Keyed.insert name y instances) := by
  have rooted := forest.rooted _ there
  have carried := evolves.carries tidy rooted.toWired
  refine forest.put tidy carried.leads ⟨carried.wired, fun n hn => ?_⟩ (fun m hm => ?_) fun m hm => ?_
  · have own : x.notifier = some n := evolves.alike.notifier.symm.trans hn
    have sub := carried.leads.sublist n (rooted.self.lt n own)
    rw [rooted.top n own] at sub
    exact List.sublist_nil.1 sub
  · exact ⟨x, there, mem_notifiers_iff.2 (Or.inr hm)⟩
  · exact (evolves.mem_notifiers m hm).imp_left fun hm => ⟨x, there, hm⟩

/-- A new root comes. -/
theorem Forest.insert (forest : Forest hub instances) (tidy : hub.Tidy) (name : String)
    {blueprint : Blueprint} {engine : EngineId} {kind : Kind} {made y : Settings} {between : Hub}
    {ns : List Notice} (hmake : blueprint.make engine kind hub = (made, between))
    (evolves : Evolves made between ns y after) :
    Leads (fun _ => False) hub after ∧ Forest after (Keyed.insert name y instances) := by
  have first := blueprint.leads_of_make kind hub hmake fun _ => False
  have carried := evolves.carries (first.tidy tidy) (blueprint.wired_of_make _ _ hmake)
  obtain ⟨leads, fresh⟩ := carried.of_make hmake evolves
  refine ⟨leads, forest.put tidy leads ⟨carried.wired, fun n hn => ?_⟩ (fun m => False.elim)
    fun m hm => Or.inr (fresh m hm)⟩
  rw [Hub.forwarders, carried.subscribers_of_make hmake evolves hn]
  rfl

end SettingsForge
