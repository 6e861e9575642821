import SettingsForge.Proofs.Hub.Reacting
import SettingsForge.Proofs.Workspace.Forest

set_option autoImplicit false

/-! # Who stays subscribed through an evolution

An evolution drops no forwarder of an entry that it keeps, at any depth, and its clients come and go at
their own wish (`Settings.Evolves.reacts`). It brings no client to where none was
(`Settings.Evolves.quiet`), and is heard only inside the instance and above
(`Settings.Wired.closed_above`). -/

namespace SettingsForge

open Hub

/-! ## Single steps -/

namespace Hub

variable {area : NotifierId → Prop} {dropped : NotifierId → Prop} {hub after : Hub}

theorem reacts_announce (dropped : NotifierId → Prop) (hub : Hub) (notifier : Option NotifierId)
    (property : String) : Reacts dropped hub (hub.announce notifier property) := by
  cases notifier with
  | none => exact .refl ..
  | some n => exact reacts_notify ..

theorem reacts_unforward (hub : Hub) (e : Entry) :
    Reacts (fun m => e.settings.notifier = some m) hub (hub.unforward e) := by
  unfold Hub.unforward
  split
  · next n id hn _ => exact (reacts_detach hub n id).mono fun m _ same => same ▸ hn
  · exact .refl ..

theorem reacts_make (dropped : NotifierId → Prop) (hub : Hub) (blueprint : Blueprint)
    (engine : EngineId) (kind : Kind) : Reacts dropped hub (blueprint.make engine kind hub).2 := by
  refine reacts_of_silent (blueprint.leads_make engine kind hub dropped).size
    (blueprint.deliveries_make engine kind hub) ?_ fun m _ _ =>
      blueprint.subscribers_make engine kind hub m
  rw [blueprint.snd_make]
  split <;> rfl

/-- An owner hears of an instance that was made on the way. -/
theorem Reacts.forward (h : Reacts dropped hub after) {entry : Option NotifierId}
    (fresh : ∀ n, entry = some n → hub.size ≤ n) (binding : Option Binding) :
    Reacts dropped hub (after.forward entry binding).2 := by
  unfold Hub.forward
  split
  · next n b => exact h.attach (fresh n rfl) _
  · exact h

theorem Quiet.announce (quiet : hub.Quiet area) (notifier : Option NotifierId) (property : String) :
    (hub.announce notifier property).Quiet area := by
  cases notifier with
  | none => exact quiet
  | some n => exact quiet.notify n property

theorem Quiet.unforward (quiet : hub.Quiet area) (e : Entry) : (hub.unforward e).Quiet area := by
  unfold Hub.unforward
  split
  · exact fun m inside s mem => quiet m inside s (news_detach _ _ m _ mem)
  · exact quiet

theorem Quiet.make (quiet : hub.Quiet area) (blueprint : Blueprint) (engine : EngineId)
    (kind : Kind) : (blueprint.make engine kind hub).2.Quiet area := by
  intro n inside
  rw [blueprint.subscribers_make engine kind hub]
  exact quiet n inside

theorem Quiet.forward (quiet : hub.Quiet area) (entry : Option NotifierId)
    (binding : Option Binding) : (hub.forward entry binding).2.Quiet area := by
  unfold Hub.forward
  split
  · intro n inside s mem
    rcases mem_subscribers_attach mem with mem | ⟨-, rfl⟩
    · exact quiet n inside s mem
    · rfl
  · exact quiet

theorem size_unforwards (entries : List Entry) (hub : Hub) :
    (entries.foldl (fun hub e => hub.unforward e) hub).size = hub.size := by
  induction entries generalizing hub with
  | nil => rfl
  | cons e entries ih =>
      rw [List.foldl_cons, ih]
      unfold Hub.unforward
      split
      · exact size_detach ..
      · rfl

/-- A notifier at which no entry is given up keeps its subscribers. -/
theorem subscribers_unforwards {entries : List Entry} {n : NotifierId}
    (others : ∀ e ∈ entries, e.settings.notifier ≠ some n) (hub : Hub) :
    (entries.foldl (fun hub e => hub.unforward e) hub).subscribers n = hub.subscribers n := by
  induction entries generalizing hub with
  | nil => rfl
  | cons e entries ih =>
      obtain ⟨other, others⟩ := List.forall_mem_cons.1 others
      rw [List.foldl_cons, ih others]
      unfold Hub.unforward
      split
      · next m id hm _ => exact subscribers_detach_of_ne (by rintro rfl; exact other hm) _
      · rfl

/-- A notifier at which one entry is given up loses the subscriber that heard of it. -/
theorem subscribers_unforwards_of_mem {before rest : List Entry} {e : Entry} {n : NotifierId}
    {id : SubscriptionId} (own : e.settings.notifier = some n) (forwarder : e.forwarder = some id)
    (others : ∀ e ∈ before ++ rest, e.settings.notifier ≠ some n) (hub : Hub) :
    ((before ++ e :: rest).foldl (fun hub e => hub.unforward e) hub).subscribers n =
      (hub.subscribers n).filter fun s => s.1 != id := by
  obtain ⟨earlier, later⟩ := List.forall_mem_append.1 others
  rw [List.foldl_append, List.foldl_cons, subscribers_unforwards later]
  unfold Hub.unforward
  rw [own, forwarder]
  dsimp only
  rw [subscribers_detach_self]
  exact congrArg _ (subscribers_unforwards earlier hub)

end Hub

namespace Settings

variable {area : NotifierId → Prop} {hub after : Hub} {x y : Settings} {ns : List Notice}

theorem mem_notifiers_of_entry {f : Frame} {dict : DictRef} {entries : List Entry} {e : Entry}
    (he : e ∈ entries) {m : NotifierId} (mem : m ∈ e.settings.notifiers) :
    m ∈ (f.fill (.dict dict entries)).notifiers :=
  (f.mem_notifiers_fill _).2 (Or.inr (Or.inl (ContentOf.mem_notifiers_dict.2 ⟨e, he, mem⟩)))

/-- A notifier of an entry is inside the owner, and with the entry it goes. -/
theorem Wired.mem_entry {f : Frame} {dict : DictRef} {before rest : List Entry} {e : Entry}
    (wired : Wired hub (f.fill (.dict dict (before ++ e :: rest)))) {m : NotifierId}
    (mem : m ∈ e.settings.notifiers) :
    m ∈ (f.fill (.dict dict (before ++ e :: rest))).inner ∧
      m ∉ (f.fill (.dict dict (before ++ rest))).notifiers := by
  have perm := f.notifiers_splice_perm dict before [e] rest
  rw [List.flatMap_singleton] at perm
  refine ⟨(f.mem_inner_fill _).2 (Or.inl (ContentOf.mem_notifiers_dict.2 ⟨e, by simp, mem⟩)), ?_⟩
  exact fun mem' => (List.nodup_append.1 (perm.nodup_iff.1 wired.nodup)).2.2 m mem m mem' rfl

/-- What an instance in the making drops was not there before. -/
theorem reacts_of_make {blueprint : Blueprint} {engine : EngineId} {kind : Kind} {made : Settings}
    {between : Hub}
    (hmake : blueprint.make engine kind hub = (made, between))
    (h : Reacts (fun m => m ∈ made.inner ∧ m ∉ y.notifiers) between after) :
    Reacts (fun _ => False) hub after := by
  have first := reacts_make (fun _ => False) hub blueprint engine kind
  have inner := blueprint.inner_make engine kind hub
  rw [hmake] at first inner
  refine first.trans (h.mono fun m _ gone => ?_)
  rw [inner] at gone
  cases gone.1

/-! ## Evolutions -/

/-- Only entries that are gone lose their forwarders. -/
theorem Evolves.reacts (h : Evolves x hub ns y after) (tidy : hub.Tidy) (wired : Wired hub x) :
    Reacts (fun m => m ∈ x.inner ∧ m ∉ y.notifiers) hub after := by
  induction h with
  | refl | rewrite | link => exact .refl ..
  | @trans x y z hub₁ hub₂ hub₃ ns ms first second ih ih' =>
      have carried := first.carries tidy wired
      -- what goes later was there before, or is new; what went earlier does not come back
      let gone : NotifierId → Prop := fun m => m ∈ x.inner ∧ m ∉ z.notifiers ∨ hub₁.size ≤ m
      have early : Reacts gone hub₁ hub₂ := (ih tidy wired).mono fun m lt ⟨there, absent⟩ =>
        Or.inl ⟨there, fun mem => (second.mem_notifiers m mem).elim absent
          fun le => Nat.not_le.2 lt (Nat.le_trans carried.leads.size le)⟩
      have late : Reacts gone hub₂ hub₃ := by
        refine (ih' (carried.leads.tidy tidy) carried.wired).mono fun m _ ⟨there, absent⟩ => ?_
        rcases first.mem_notifiers m (mem_notifiers_iff.2 (Or.inr there)) with before | le
        · refine Or.inl ⟨(mem_notifiers_iff.1 before).resolve_left fun own => ?_, absent⟩
          exact carried.wired.not_mem_inner (first.alike.notifier.trans own) (Nat.le_refl _) there
        · exact Or.inr le
      exact (early.trans late).mono fun m lt mem => mem.resolve_right (Nat.not_le.2 lt)
  | announce => exact reacts_announce ..
  | drop f dict before e after hub =>
      exact (reacts_unforward hub e).mono fun m _ own => wired.mem_entry (mem_notifiers_self own)
  | @add f dict before after key heard made y ns hub₁ hub₂ hub₃ hub₄ hmake evolves hforward _ ih =>
      have first := dict.blueprint.leads_of_make f.kind hub₁ hmake fun _ => False
      have made_reacts := ih (first.tidy tidy) (dict.blueprint.wired_of_make _ _ hmake)
      have fresh : ∀ n, y.notifier = some n → hub₁.size ≤ n := fun n hn =>
        dict.blueprint.fresh_of_make _ _ hmake (mem_notifiers_self (evolves.alike.notifier.symm.trans hn))
      have last := (reacts_of_make hmake made_reacts).forward fresh (f.owner.binding f.property)
      rw [hforward] at last
      exact last.mono fun _ _ => False.elim
  | @discard x blueprint engine kind made y ns hub₁ hub₂ hub₃ hmake evolves ih =>
      have first := blueprint.leads_of_make kind hub₁ hmake fun _ => False
      have made_reacts := ih (first.tidy tidy) (blueprint.wired_of_make _ _ hmake)
      exact (reacts_of_make hmake made_reacts).mono fun _ _ => False.elim
  | @inside f dict before e after y ns hub₁ hub₂ evolves ih =>
      obtain ⟨-, wired_entry⟩ := Frame.wired_entry wired
      refine (ih tidy wired_entry).mono fun m _ ⟨there, absent⟩ => ?_
      obtain ⟨inside, gone⟩ := wired.mem_entry (mem_notifiers_iff.2 (Or.inr there))
      exact ⟨inside, fun mem => (f.mem_notifiers_entry.1 mem).elim absent gone⟩

/-- No client comes to where none is. -/
theorem Evolves.quiet (h : Evolves x hub ns y after) (quiet : hub.Quiet area) : after.Quiet area := by
  induction h with
  | refl | rewrite | link => exact quiet
  | trans _ _ ih ih' => exact ih' (ih quiet)
  | announce x hub => exact Quiet.announce quiet x.notifier _
  | drop _ _ _ e => exact Quiet.unforward quiet e
  | @add f dict before after key heard made y ns hub₁ hub₂ hub₃ hub₄ hmake _ hforward _ ih =>
      have first := quiet.make dict.blueprint dict.engine f.kind
      rw [hmake] at first
      have last := (ih first).forward y.notifier (f.owner.binding f.property)
      rwa [hforward] at last
  | @discard x blueprint engine kind made y ns hub₁ hub₂ hub₃ hmake _ ih =>
      have first := quiet.make blueprint engine kind
      rw [hmake] at first
      exact ih first
  | inside _ _ _ _ _ _ ih => exact ih quiet

/-- What is announced inside an instance or above it stays there. -/
theorem Wired.closed_above (wired : Wired hub x) (tidy : hub.Tidy) {n : NotifierId}
    (own : x.notifier = some n) :
    hub.Closed fun m => m ∈ x.notifiers ∨ m < n ∨ hub.size ≤ m := by
  rintro m (there | above | fresh) f hf
  · obtain ⟨y, part, hm⟩ := mem_notifiers.1 there
    rcases exists_owner part with rfl | ⟨z, hz, slot, hs, e, he, rfl⟩
    · cases own.symm.trans hm
      exact Or.inr (Or.inl (tidy.down _ f hf))
    · obtain ⟨owner, -⟩ := (wired.part hz).forwarder_eq hs he hm hf
      exact Or.inl (mem_notifiers.2 ⟨z, hz, owner⟩)
  · exact Or.inr (Or.inl (Nat.lt_trans (tidy.down m f hf) above))
  · rw [forwarders_of_size_le fresh] at hf
    cases hf

/-- At a notifier that the instance keeps, clients come and go at their own wish. -/
theorem Evolves.explains (h : Evolves x hub ns y after) (tidy : hub.Tidy) (wired : Wired hub x)
    {m : NotifierId} (before : m ∈ x.notifiers) (later : m ∈ y.notifiers) :
    ∃ calls, after.calls = calls ++ hub.calls ∧
      Call.Explain calls m (hub.subscribers m) (after.subscribers m) := by
  obtain ⟨-, calls, -, heq, -, explain⟩ := (h.reacts tidy wired).exists_calls
  exact ⟨calls, heq, explain m (wired.lt_size before) fun gone => gone.2 later⟩

/-- Where nothing of the instance is, and nothing above it, nobody hears of it. -/
theorem Evolves.subscribers_elsewhere (h : Evolves x hub ns y after) (tidy : hub.Tidy)
    (wired : Wired hub x) {n : NotifierId} (own : x.notifier = some n) {m : NotifierId}
    (lt : m < hub.size) (elsewhere : m ∉ x.notifiers) (below : n ≤ m) :
    after.subscribers m = hub.subscribers m := by
  obtain ⟨-, notes, deliveries, inside⟩ := h.confined (fun k mem => Or.inl mem)
    (fun k le => Or.inr (Or.inr le)) (wired.closed_above tidy own)
  refine (h.reacts tidy wired).subscribers_eq deliveries lt
    (fun gone => elsewhere (mem_notifiers_iff.2 (Or.inr gone.1))) fun d mem here => ?_
  rcases inside d mem with there | above | fresh
  · exact elsewhere (here ▸ there)
  · exact Nat.not_lt.2 below (here ▸ above)
  · exact Nat.not_lt.2 fresh (here ▸ lt)

end Settings

end SettingsForge
