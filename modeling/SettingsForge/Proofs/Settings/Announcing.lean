import SettingsForge.Proofs.Settings.Evolution

set_option autoImplicit false

/-! # Who hears of an evolution

`Settings.Evolves` speaks about one instance at a time. What it does to the hub follows: instances in
the making go unnoticed (`Settings.Evolves.unheard`), the wiring of the instance and of every other tree
lasts (`Settings.Evolves.carries`), notes are taken inside the tree and above only
(`Settings.Evolves.confined`), and who is subscribed all along takes exactly one note of every notice
(`Settings.Evolves.heard`). -/

namespace SettingsForge

open Hub

/-! ## Closed areas -/

namespace Hub

variable {area : NotifierId → Prop} {hub : Hub}

theorem Closed.announce (closed : hub.Closed area) (notifier : Option NotifierId)
    (property : String) : (hub.announce notifier property).Closed area := by
  cases notifier with
  | none => exact closed
  | some n => exact closed.notify n property

theorem Closed.unforward (closed : hub.Closed area) (e : Entry) :
    (hub.unforward e).Closed area := by
  unfold Hub.unforward
  split
  · exact closed.of_sublist fun m => sublist_forwarders_detach ..
  · exact closed

theorem Closed.make (closed : hub.Closed area) (blueprint : Blueprint) (engine : EngineId)
    (kind : Kind) : (blueprint.make engine kind hub).2.Closed area := by
  intro n hn f hf
  rw [blueprint.forwarders_make engine kind hub] at hf
  exact closed n hn f hf

theorem Closed.forward (closed : hub.Closed area) (entry : Option NotifierId)
    {binding : Option Binding} (inside : ∀ b, binding = some b → area b.notifier) :
    (hub.forward entry binding).2.Closed area := by
  unfold Hub.forward
  split
  · next m b =>
    rintro k hk ⟨id, owner, outer⟩ hf
    rcases mem_subscribers_attach (mem_forwarders.1 hf) with hs | ⟨-, same⟩
    · exact closed k hk _ (mem_forwarders.2 hs)
    · cases same
      exact inside b rfl
  · exact closed

theorem deliveries_unforward (hub : Hub) (e : Entry) :
    (hub.unforward e).deliveries = hub.deliveries := by
  unfold Hub.unforward
  split <;> rfl

theorem deliveries_forward (hub : Hub) (entry : Option NotifierId) (binding : Option Binding) :
    (hub.forward entry binding).2.deliveries = hub.deliveries := by
  unfold Hub.forward
  split <;> rfl

end Hub

theorem Blueprint.deliveries_make (blueprint : Blueprint) (engine : EngineId) (kind : Kind)
    (hub : Hub) : (blueprint.make engine kind hub).2.deliveries = hub.deliveries := by
  rw [snd_make]
  split <;> rfl

/-! ## Unnoticed work -/

/-- Everything but the forwarders of a closed area without clients stays. -/
structure Hub.Unnoticed (area : NotifierId → Prop) (hub after : Hub) : Prop where
  closed : after.Closed area
  quiet : after.Quiet area
  deliveries : after.deliveries = hub.deliveries
  calls : after.calls = hub.calls
  last : after.last = hub.last
  subscribers : ∀ m, ¬ area m → after.subscribers m = hub.subscribers m
  next : ∀ m, ¬ area m → after.next m = hub.next m

namespace Hub.Unnoticed

variable {area : NotifierId → Prop} {hub between after : Hub}

theorem refl (closed : hub.Closed area) (quiet : hub.Quiet area) : Unnoticed area hub hub :=
  ⟨closed, quiet, rfl, rfl, rfl, fun _ _ => rfl, fun _ _ => rfl⟩

theorem trans (first : Unnoticed area hub between) (second : Unnoticed area between after) :
    Unnoticed area hub after where
  closed := second.closed
  quiet := second.quiet
  deliveries := second.deliveries.trans first.deliveries
  calls := second.calls.trans first.calls
  last := second.last.trans first.last
  subscribers m h := (second.subscribers m h).trans (first.subscribers m h)
  next m h := (second.next m h).trans (first.next m h)

theorem announce (closed : hub.Closed area) (quiet : hub.Quiet area) {notifier : Option NotifierId}
    (inside : ∀ n, notifier = some n → area n) (property : String) :
    Unnoticed area hub (hub.announce notifier property) := by
  cases notifier with
  | none => exact refl closed quiet
  | some n =>
      unfold Hub.announce
      dsimp only
      rw [notify_of_quiet closed quiet (inside n rfl)]
      exact refl closed quiet

theorem unforward (closed : hub.Closed area) (quiet : hub.Quiet area) {e : Entry}
    (inside : ∀ m, e.settings.notifier = some m → area m) :
    Unnoticed area hub (hub.unforward e) := by
  have closed' := closed.unforward e
  unfold Hub.unforward at closed' ⊢
  split
  · next n id hn hid =>
    rw [hn, hid] at closed'
    refine ⟨closed', fun m hm s mem => quiet m hm s (news_detach hub n m id mem), rfl, rfl, rfl,
      fun m out => subscribers_detach_of_ne (fun same => out ?_) id, fun m _ => next_detach ..⟩
    exact same ▸ inside n hn
  · exact refl closed quiet

theorem make (closed : hub.Closed area) (quiet : hub.Quiet area) (blueprint : Blueprint)
    (engine : EngineId) (kind : Kind) : Unnoticed area hub (blueprint.make engine kind hub).2 := by
  refine ⟨closed.make blueprint engine kind, ?quiet, blueprint.deliveries_make engine kind hub,
    ?calls, ?last, fun m _ => blueprint.subscribers_make engine kind hub m, ?next⟩
  case quiet =>
    intro n hn s hs
    rw [blueprint.subscribers_make engine kind hub] at hs
    exact quiet n hn s hs
  case calls | last =>
    rw [blueprint.snd_make]
    split <;> rfl
  case next =>
    intro m _
    rw [blueprint.snd_make]
    split
    · exact next_alloc ..
    · rfl

theorem forward (closed : hub.Closed area) (quiet : hub.Quiet area)
    {entry : Option NotifierId} {binding : Option Binding}
    (entry_inside : ∀ m, entry = some m → area m)
    (owner_inside : ∀ b, binding = some b → area b.notifier) :
    Unnoticed area hub (hub.forward entry binding).2 := by
  have closed' := closed.forward entry owner_inside
  unfold Hub.forward at closed' ⊢
  split at closed'
  · next m b =>
    have apart : ∀ k, ¬ area k → k ≠ m := fun k out same => out (same ▸ entry_inside m rfl)
    refine ⟨closed', fun k hk s hs => ?_, rfl, rfl, rfl,
      fun k out => subscribers_attach_of_ne (apart k out) _,
      fun k out => next_attach_of_ne (apart k out) _⟩
    rcases mem_subscribers_attach hs with hs | ⟨-, same⟩
    · exact quiet k hk s hs
    · cases same
      rfl
  · exact refl closed quiet

end Hub.Unnoticed

/-- An entry that evolves stays the one that its owner hears. -/
theorem EntryOf.Wired.alike {e : Entry} {hub : Hub} {kind : Kind} {notifier : Option NotifierId}
    {property : String} (h : e.Wired hub kind notifier property) {y : Settings}
    (alike : Settings.Alike e.settings y) :
    EntryOf.Wired { e with settings := y } hub kind notifier property := by
  refine ⟨alike.kind.trans h.1, ?_⟩
  have heard := h.2
  cases notifier with
  | none => exact heard
  | some n =>
      obtain ⟨id, m, heard⟩ := heard
      exact ⟨id, m, heard.forwarder, alike.notifier.trans heard.notifier, heard.lt, heard.only,
        heard.kept⟩

namespace Settings

variable {area : NotifierId → Prop} {hub between after : Hub} {x y made : Settings}
  {ns : List Notice} {blueprint : Blueprint} {engine : EngineId} {kind : Kind}

/-- What evolves in an area without clients goes unnoticed. -/
theorem Evolves.unnoticed (h : Evolves x hub ns y after) (inside : ∀ m ∈ x.notifiers, area m)
    (fresh : ∀ m, hub.size ≤ m → area m) (closed : hub.Closed area) (quiet : hub.Quiet area) :
    Unnoticed area hub after := by
  -- an entry in the making stays in the area, for it is new
  have of_make : ∀ {hub : Hub} {blueprint : Blueprint} {engine : EngineId} {kind : Kind}
      {made : Settings} {hub' : Hub},
      (∀ m, hub.size ≤ m → area m) → blueprint.make engine kind hub = (made, hub') →
      (∀ m ∈ made.notifiers, area m) ∧ ∀ m, hub'.size ≤ m → area m := by
    intro hub blueprint engine kind made hub' fresh hmake
    exact ⟨fun m mem => fresh m (blueprint.fresh_of_make _ _ hmake mem),
      fun m le => fresh m (Nat.le_trans (blueprint.size_le_of_make _ _ hmake) le)⟩
  induction h with
  | refl | rewrite | link => exact .refl closed quiet
  | trans first _ ih ih' =>
      have early := ih inside fresh closed quiet
      refine early.trans (ih' (fun m mem => ?_) (fun m le => ?_) early.closed early.quiet)
      · exact (first.mem_notifiers m mem).elim (inside m) (fresh m)
      · exact fresh m (Nat.le_trans first.size_le le)
  | announce x hub mem =>
      exact .announce closed quiet (fun n hn => inside n (mem_notifiers_self hn)) _
  | drop f dict before e after =>
      exact .unforward closed quiet fun m hm =>
        inside m (f.mem_notifiers_entry.2 (Or.inl (mem_notifiers_self hm)))
  | @add f dict before after key heard made y ns hub₁ hub₂ hub₃ hub₄ hmake evolves hforward _ ih =>
      obtain ⟨inside_made, fresh_made⟩ := of_make fresh hmake
      have first := Unnoticed.make closed quiet dict.blueprint dict.engine f.kind
      rw [hmake] at first
      have second := ih inside_made fresh_made first.closed first.quiet
      have inside_y : ∀ m ∈ y.notifiers, area m := fun m mem =>
        (evolves.mem_notifiers m mem).elim (inside_made m) (fresh_made m)
      have owner_inside : ∀ b, f.owner.binding f.property = some b → area b.notifier :=
        fun b bound => inside _ (mem_notifiers_self (Owner.binding_eq_some_iff.1 bound).1)
      have third := Unnoticed.forward second.closed second.quiet
        (fun m hm => inside_y m (mem_notifiers_self hm)) owner_inside
      rw [hforward] at third
      exact (first.trans second).trans third
  | @discard x blueprint engine kind made y ns hub₁ hub₂ hub₃ hmake _ ih =>
      obtain ⟨inside_made, fresh_made⟩ := of_make fresh hmake
      have first := Unnoticed.make closed quiet blueprint engine kind
      rw [hmake] at first
      exact first.trans (ih inside_made fresh_made first.closed first.quiet)
  | inside f dict before e after _ ih =>
      exact ih (fun m mem => inside m (f.mem_notifiers_entry.2 (Or.inl mem))) fresh closed quiet

/-- Nobody hears of an instance in the making. -/
theorem Evolves.unheard (hmake : blueprint.make engine kind hub = (made, between))
    (h : Evolves made between ns y after) : Unnoticed (hub.size ≤ ·) hub after := by
  have closed : hub.Closed (hub.size ≤ ·) := by
    intro n le f mem
    rw [forwarders_of_size_le le] at mem
    cases mem
  have first := Unnoticed.make closed (quiet_of_size_le hub) blueprint engine kind
  rw [hmake] at first
  exact first.trans (h.unnoticed (fun m mem => blueprint.fresh_of_make _ _ hmake mem)
    (fun m le => Nat.le_trans (blueprint.size_le_of_make _ _ hmake) le) first.closed first.quiet)

/-! ## Wiring lasts -/

/-- What an evolution carries on: the instance stays wired, and only its entries lose forwarders. -/
structure Carried (hub : Hub) (x : Settings) (after : Hub) (y : Settings) : Prop where
  leads : Leads (· ∈ x.inner) hub after
  wired : Wired after y

theorem Carried.of_leads {f : Frame} {dict : DictRef} {before rest : List Entry}
    (old new : List Entry)
    (wired : Wired hub (f.fill (.dict dict (before ++ (old ++ rest))))) (tidy : hub.Tidy)
    (leads : Leads (· ∈ old.flatMap fun e => e.settings.notifiers) hub after)
    (entries : ∀ e ∈ new, e.Wired after f.kind f.notifier f.property ∧
      ∀ y ∈ e.settings.parts, WiredAt after y)
    (nodup : (new.flatMap fun e => e.settings.notifiers).Nodup)
    (fresh : ∀ m ∈ new.flatMap fun e => e.settings.notifiers,
      m ∈ (old.flatMap fun e => e.settings.notifiers) ∨ hub.size ≤ m) :
    Carried hub (f.fill (.dict dict (before ++ (old ++ rest)))) after
      (f.fill (.dict dict (before ++ (new ++ rest)))) := by
  refine ⟨leads.mono fun m _ mem => ?_, Frame.wired_splice wired tidy leads entries nodup fresh⟩
  simp only [Frame.mem_inner_fill, ContentOf.notifiers_dict, List.flatMap_append, List.mem_append]
  exact Or.inl (Or.inr (Or.inl mem))

/-- An entry in the making drops nothing that was there before. -/
theorem Carried.of_make (hmake : blueprint.make engine kind hub = (made, between))
    (h : Evolves made between ns y after) (carried : Carried between made after y) :
    Leads (fun _ => False) hub after ∧ ∀ m ∈ y.notifiers, hub.size ≤ m := by
  have first := blueprint.leads_of_make kind hub hmake fun _ => False
  have inner := blueprint.inner_make engine kind hub
  rw [hmake] at inner
  refine ⟨first.trans (carried.leads.mono fun m _ mem => ?_), fun m mem => ?_⟩
  · rw [inner] at mem
    cases mem
  · rcases h.mem_notifiers m mem with mem | le
    · exact blueprint.fresh_of_make _ _ hmake mem
    · exact Nat.le_trans first.size le

theorem leads_unforward (hub : Hub) (e : Entry) :
    Leads (fun m => e.settings.notifier = some m) hub (hub.unforward e) := by
  unfold Hub.unforward
  split
  · next n id hn _ =>
    exact (leads_detach hub n id).mono fun m _ same => same ▸ hn
  · exact Leads.refl ..

theorem leads_announce (dropped : NotifierId → Prop) (hub : Hub) (notifier : Option NotifierId)
    (property : String) : Leads dropped hub (hub.announce notifier property) := by
  cases notifier with
  | none => exact Leads.refl ..
  | some n => exact leads_notify ..

/-- Nobody is subscribed at the notifier of an instance that was just made. -/
theorem Carried.subscribers_of_make (hmake : blueprint.make engine kind hub = (made, between))
    (h : Evolves made between ns y after) (carried : Carried between made after y) {n : NotifierId}
    (hn : y.notifier = some n) : after.subscribers n = [] := by
  have there : n ∈ made.notifiers := mem_notifiers_self (h.alike.notifier.symm.trans hn)
  have fresh := blueprint.fresh_of_make _ _ hmake there
  have wired := blueprint.wired_of_make kind hub hmake
  have forwarders := blueprint.forwarders_make engine kind hub n
  rw [hmake] at forwarders
  rw [List.eq_nil_iff_forall_not_mem]
  rintro ⟨id, l⟩ mem
  cases l with
  | client => cases (Evolves.unheard hmake h).quiet n fresh _ mem
  | forwarder owner outer =>
      have earlier := (carried.leads.sublist n (wired.lt_size there)).subset (mem_forwarders.2 mem)
      rw [forwarders, forwarders_of_size_le fresh] at earlier
      cases earlier

/-- An entry that was made is wired once its owner hears of it. -/
theorem Carried.forward {f : Frame} {later : Hub} {heard : Option SubscriptionId} (key : String)
    (own : f.notifier.isSome = f.kind.isObservable) (lt : ∀ n, f.notifier = some n → n < hub.size)
    (hmake : blueprint.make engine f.kind hub = (made, between)) (h : Evolves made between ns y after)
    (carried : Carried between made after y)
    (hforward : after.forward y.notifier (f.owner.binding f.property) = (heard, later)) :
    Leads (fun _ => False) hub later ∧
      EntryOf.Wired ⟨key, heard, y⟩ later f.kind f.notifier f.property ∧
      ∀ z ∈ y.parts, WiredAt later z := by
  have notifier := blueprint.notifier_make engine f.kind hub
  have kind := blueprint.kind_make engine f.kind hub
  rw [hmake] at notifier kind
  rw [← h.alike.notifier] at notifier
  rw [← h.alike.kind] at kind
  have leads := (carried.of_make hmake h).1
  have wired := carried.wired
  cases hn : f.notifier with
  | none =>
      -- an owner without a notifier makes entries without one
      rw [hn] at own
      rw [Owner.binding, show f.owner.notifier = none from hn] at hforward
      rw [← own] at notifier
      have notifier : y.notifier = none := notifier
      rw [notifier] at hforward
      cases hforward
      exact ⟨leads, ⟨kind, rfl⟩, wired.parts⟩
  | some n =>
      rw [hn] at own
      rw [Owner.binding, show f.owner.notifier = some n from hn] at hforward
      rw [← own] at notifier
      have notifier : y.notifier = some hub.size := notifier
      rw [notifier, Option.map_some, forward_some] at hforward
      obtain ⟨rfl, rfl⟩ := Prod.mk.inj hforward
      have there : hub.size < after.size := wired.lt_size (mem_notifiers_self notifier)
      have unheard := carried.subscribers_of_make hmake h notifier
      refine ⟨leads.forward (Nat.le_refl _) there unheard (lt n hn) f.property, ⟨kind, ?_⟩, ?_⟩
      · have forwarders : (after.attach hub.size (.forwarder n f.property)).2.forwarders hub.size =
            [(after.next hub.size, n, f.property)] := by
          rw [forwarders, subscribers_attach_self there, unheard]
          rfl
        refine ⟨after.next hub.size, hub.size, rfl, notifier, lt n hn, fun g mem => ?_,
          fun _ => forwarders⟩
        rw [forwarders] at mem
        exact List.mem_singleton.1 mem
      · refine wiredAt_of_keeps wired.parts (Nat.le_of_eq (size_attach ..).symm) fun m mem => ?_
        have apart : m ≠ hub.size :=
          fun same => wired.not_mem_inner notifier (Nat.le_of_eq same) mem
        have same : (after.attach hub.size (.forwarder n f.property)).2.forwarders m =
            after.forwarders m := forwarders_attach_of_ne apart _
        exact ⟨by rw [same], fun disciplined => ⟨disciplined, same⟩⟩

/-- The wiring of an instance lasts. -/
theorem Evolves.carries (h : Evolves x hub ns y after) (tidy : hub.Tidy) (wired : Wired hub x) :
    Carried hub x after y := by
  induction h with
  | refl => exact ⟨Leads.refl .., wired⟩
  | @trans x y z hub₁ hub₂ hub₃ ns ms evolves _ ih ih' =>
      have first := ih tidy wired
      have second := ih' (first.leads.tidy tidy) first.wired
      -- what is dropped later was there before, or is new
      have early : Leads (fun m => m ∈ x.inner ∨ hub₁.size ≤ m) hub₁ hub₂ :=
        first.leads.mono fun m _ mem => Or.inl mem
      have late : Leads (fun m => m ∈ x.inner ∨ hub₁.size ≤ m) hub₂ hub₃ := by
        refine second.leads.mono fun m _ mem => ?_
        rcases evolves.mem_notifiers m (mem_notifiers_iff.2 (Or.inr mem)) with there | le
        · refine Or.inl ((mem_notifiers_iff.1 there).resolve_left fun own => ?_)
          exact first.wired.not_mem_inner (evolves.alike.notifier.trans own) (Nat.le_refl _) mem
        · exact Or.inr le
      exact ⟨(early.trans late).mono fun m lt mem => mem.resolve_right (Nat.not_le.2 lt),
        second.wired⟩
  | rewrite f hub rewritten =>
      refine ⟨Leads.refl .., Frame.wiredAt_fill wired.parts (Nat.le_refl _) (fun m _ => ?_) ?_, ?_⟩
      · exact ⟨List.Sublist.refl _, fun disciplined => ⟨disciplined, rfl⟩⟩
      · rw [rewritten.entries.2]
        intro e mem
        cases mem
      · have old := wired.nodup
        rw [notifiers_eq_append, (f.inner_fill_perm _).append_left _ |>.nodup_iff] at old ⊢
        rwa [rewritten.notifiers.1, ← rewritten.notifiers.2] at old
  | link x link =>
      refine ⟨Leads.refl .., forall_parts_setProvider x link wired.parts fun own => ?_, ?_⟩
      · refine ⟨?_, fun n hn => own.lt n ?_, fun slot hs e he => ?_⟩
        · simpa using own.notifier
        · simpa using hn
        · simpa using own.entries slot (by simpa using hs) e he
      · rw [notifiers_setProvider]
        exact wired.nodup
  | announce x hub mem =>
      exact ⟨leads_announce .., wired.leads (leads_announce (fun _ => False) ..) tidy fun _ _ => id⟩
  | drop f dict before e after hub =>
      refine Carried.of_leads [e] [] wired tidy ?_ ?_ ?_ ?_
      · refine (leads_unforward hub e).mono fun m _ same => ?_
        simpa using mem_notifiers_self same
      · simp
      · simp
      · simp
  | @add f dict before after key heard made y ns hub₁ hub₂ hub₃ hub₄ hmake evolves hforward _ ih =>
      have first := dict.blueprint.leads_of_make f.kind hub₁ hmake fun _ => False
      have carried := ih (first.tidy tidy) (dict.blueprint.wired_of_make _ _ hmake)
      obtain ⟨-, fresh⟩ := carried.of_make hmake evolves
      obtain ⟨leads, entry, parts⟩ :=
        carried.forward key wired.self.notifier wired.self.lt hmake evolves hforward
      refine Carried.of_leads [] [⟨key, heard, y⟩] wired tidy
        (leads.mono fun m _ mem => mem.elim) ?_ ?_ ?_
      · simpa using ⟨entry, parts⟩
      · simpa using carried.wired.nodup
      · simpa using fresh
  | @discard x blueprint engine kind made y ns hub₁ hub₂ hub₃ hmake evolves ih =>
      have first := blueprint.leads_of_make kind hub₁ hmake fun _ => False
      have carried := ih (first.tidy tidy) (blueprint.wired_of_make _ _ hmake)
      obtain ⟨leads, -⟩ := carried.of_make hmake evolves
      exact ⟨leads.mono fun m _ mem => mem.elim, wired.leads leads tidy fun _ _ => id⟩
  | @inside f dict before e after y ns hub₁ hub₂ evolves ih =>
      obtain ⟨entry, wired_entry⟩ := Frame.wired_entry wired
      have carried := ih tidy wired_entry
      -- only forwarders deeper inside are dropped, never the entry's own
      have heard : EntryOf.Wired { e with settings := y } hub₂ f.kind f.notifier f.property := by
        refine EntryOf.Wired.alike (entry.keeps fun m hm => ?_) evolves.alike
        exact carried.leads.keeps tidy (wired_entry.self.lt m hm)
          (wired_entry.not_mem_inner hm (Nat.le_refl _))
      refine Carried.of_leads [e] [{ e with settings := y }] wired tidy
        (carried.leads.mono fun m _ mem => ?_) ?_ ?_ ?_
      · simpa using mem_notifiers_iff.2 (Or.inr mem)
      · simpa using ⟨heard, carried.wired.parts⟩
      · simpa using carried.wired.nodup
      · simpa using evolves.mem_notifiers

/-! ## Notes -/

/-- Notes are taken in the area in which an instance evolves, and the area stays closed. -/
structure Confined (area : NotifierId → Prop) (hub after : Hub) : Prop where
  closed : after.Closed area
  deliveries : ∃ added, after.deliveries = hub.deliveries ++ added ∧ ∀ d ∈ added, area d.notifier

theorem Confined.of_eq (closed : after.Closed area) (h : after.deliveries = hub.deliveries) :
    Confined area hub after :=
  ⟨closed, [], by simp [h], by simp⟩

theorem Confined.trans (first : Confined area hub between) (second : Confined area between after) :
    Confined area hub after := by
  obtain ⟨added, heq, there⟩ := first.deliveries
  obtain ⟨more, heq', there'⟩ := second.deliveries
  refine ⟨second.closed, added ++ more, by rw [heq', heq, List.append_assoc], fun d mem => ?_⟩
  exact (List.mem_append.1 mem).elim (there d) (there' d)

/-- Nobody outside a closed area takes note of what happens in it. -/
theorem Evolves.confined (h : Evolves x hub ns y after) (inside : ∀ m ∈ x.notifiers, area m)
    (fresh : ∀ m, hub.size ≤ m → area m) (closed : hub.Closed area) : Confined area hub after := by
  induction h with
  | refl | rewrite | link => exact .of_eq closed rfl
  | trans first _ ih ih' =>
      have early := ih inside fresh closed
      refine early.trans (ih' (fun m mem => ?_) (fun m le => ?_) early.closed)
      · exact (first.mem_notifiers m mem).elim (inside m) (fresh m)
      · exact fresh m (Nat.le_trans first.size_le le)
  | announce x hub mem =>
      refine ⟨closed.announce _ _, ?_⟩
      unfold Hub.announce
      split
      · next n hn => exact closed.deliveries_notify (inside n (mem_notifiers_self hn)) _
      · exact ⟨[], by simp, by simp⟩
  | drop f dict before e after hub =>
      exact .of_eq (closed.unforward e) (deliveries_unforward hub e)
  | @add f dict before after key heard made y ns hub₁ hub₂ hub₃ hub₄ hmake evolves hforward _ ih =>
      have first := closed.make dict.blueprint dict.engine f.kind
      rw [hmake] at first
      have second := ih (fun m mem => fresh m (dict.blueprint.fresh_of_make _ _ hmake mem))
        (fun m le => fresh m (Nat.le_trans (dict.blueprint.size_le_of_make _ _ hmake) le)) first
      have owner_inside : ∀ b, f.owner.binding f.property = some b → area b.notifier :=
        fun b bound => inside _ (mem_notifiers_self (Owner.binding_eq_some_iff.1 bound).1)
      have third := second.closed.forward y.notifier owner_inside
      have same := deliveries_forward hub₃ y.notifier (f.owner.binding f.property)
      rw [hforward] at third same
      exact .of_eq third (same.trans (evolves.unheard hmake).deliveries)
  | @discard x blueprint engine kind made y ns hub₁ hub₂ hub₃ hmake evolves ih =>
      have first := closed.make blueprint engine kind
      rw [hmake] at first
      have second := ih (fun m mem => fresh m (blueprint.fresh_of_make _ _ hmake mem))
        (fun m le => fresh m (Nat.le_trans (blueprint.size_le_of_make _ _ hmake) le)) first
      exact .of_eq second.closed (evolves.unheard hmake).deliveries
  | inside f dict before e after _ ih =>
      exact ih (fun m mem => inside m (f.mem_notifiers_entry.2 (Or.inl mem))) fresh closed

/-- Who is subscribed all along takes one note of every notice, and nothing else is noted there. -/
structure Heard (hub after : Hub) (ns : List Notice) (f : String → String) (k : NotifierId) :
    Prop where
  exists_notice : ∃ added, after.deliveries = hub.deliveries ++ added ∧
    (∀ d ∈ added, d.notifier = k → ∃ t ∈ ns, d.property = f t.topic) ∧
    ∀ id name reaction, (id, .client name reaction) ∈ hub.subscribers k →
      (id, .client name reaction) ∈ after.subscribers k →
      added.filter (fun d => d.notifier == k && d.subscription == id) =
        ns.map fun t => ⟨k, id, name, f t.topic⟩

theorem Heard.of_eq {f : String → String} {k : NotifierId} (h : after.deliveries = hub.deliveries) :
    Heard hub after [] f k :=
  ⟨[], by simp [h], by simp, fun _ _ _ _ _ => rfl⟩

theorem Heard.trans {ms : List Notice} {f : String → String} {k : NotifierId}
    (first : Heard hub between ns f k) (second : Heard between after ms f k)
    (stays : ∀ s ∈ hub.subscribers k, s ∈ after.subscribers k → s ∈ between.subscribers k) :
    Heard hub after (ns ++ ms) f k := by
  obtain ⟨added, heq, only, notes⟩ := first.exists_notice
  obtain ⟨more, heq', only', notes'⟩ := second.exists_notice
  refine ⟨added ++ more, by rw [heq', heq, List.append_assoc], fun d mem at_k => ?_,
    fun id name reaction early late => ?_⟩
  · rcases List.mem_append.1 mem with mem | mem
    · obtain ⟨t, ht, same⟩ := only d mem at_k
      exact ⟨t, List.mem_append_left _ ht, same⟩
    · obtain ⟨t, ht, same⟩ := only' d mem at_k
      exact ⟨t, List.mem_append_right _ ht, same⟩
  · have between := stays _ early late
    rw [List.filter_append, notes id name reaction early between,
      notes' id name reaction between late, List.map_append]

/-- A change that is announced is heard as one notice. -/
theorem Heard.announce (tidy : hub.Tidy) {n k : NotifierId} {f : String → String}
    (hears : Hears hub n f k) (property : String) :
    Heard hub (hub.announce (some n) property) [⟨[], property⟩] f k := by
  -- what is noted at the listener's own notifier is one note of each subscriber there
  refine ⟨hub.bubble n property, tidy.deliveries_notify n property, fun d mem at_k => ?_,
    fun id name reaction early _ => ?_⟩
  · have there : d ∈ (hub.bubble n property).filter (fun d => d.notifier == k) :=
      List.mem_filter.2 ⟨mem, beq_iff_eq.2 at_k⟩
    rw [hears.filter_bubble tidy] at there
    exact ⟨_, List.mem_singleton_self _, (mem_notes there).2⟩
  · have at_id := tidy.filter_notes early
    simp only [Bool.and_comm (_ == k)]
    rw [← List.filter_filter, hears.filter_bubble tidy, at_id]
    rfl

theorem Evolves.heard (h : Evolves x hub ns y after) (tidy : hub.Tidy) (wired : Wired hub x)
    (disciplined : after.Disciplined) {n k : NotifierId} (own : x.notifier = some n)
    {f : String → String} (hears : Hears hub n f k) : Heard hub after ns f k := by
  induction h generalizing n f with
  | refl => exact Heard.of_eq rfl
  | @trans x y z hub₁ hub₂ hub₃ ns ms evolves evolves' ih ih' =>
      -- the instance is wired between the two as well, and whoever stays is there all the time
      have first := evolves.carries tidy wired
      have second := evolves'.carries (first.leads.tidy tidy) first.wired
      have lt := wired.self.lt n own
      have at_k := hears.le tidy
      refine (ih tidy wired (second.leads.disciplined disciplined) own hears).trans
        (ih' (first.leads.tidy tidy) first.wired disciplined (evolves.alike.notifier.trans own)
          (hears.leads first.leads tidy (second.leads.disciplined disciplined) lt fun m le =>
            wired.not_mem_inner own le)) ?_
      intro s early late
      refine second.leads.stays ?_ late (Nat.lt_of_lt_of_le (tidy.below k s early) (first.leads.next k))
      exact Nat.lt_of_le_of_lt at_k (Nat.lt_of_lt_of_le lt first.leads.size)
  | rewrite | link => exact Heard.of_eq rfl
  | announce x hub mem =>
      rw [own]
      exact Heard.announce tidy hears _
  | drop f dict before e after hub => exact Heard.of_eq (deliveries_unforward hub e)
  | @add g dict before after key heard made y ns hub₁ hub₂ hub₃ hub₄ hmake evolves hforward =>
      have same := deliveries_forward hub₃ y.notifier (g.owner.binding g.property)
      rw [hforward] at same
      exact Heard.of_eq (same.trans (evolves.unheard hmake).deliveries)
  | @discard x blueprint engine kind made y ns hub₁ hub₂ hub₃ hmake evolves ih =>
      exact Heard.of_eq (evolves.unheard hmake).deliveries
  | @inside g dict before e after y ns hub₁ hub₂ evolves ih =>
      obtain ⟨entry, wired_entry⟩ := Frame.wired_entry wired
      have carried := evolves.carries tidy wired_entry
      have heard := entry.2
      rw [show g.notifier = some n from own] at heard
      obtain ⟨id, m, heard⟩ := heard
      -- the entry's forwarder leads to the owner, whose topics are the dictionary's property
      have := ih tidy wired_entry disciplined heard.notifier
        (.up (heard.kept (carried.leads.disciplined disciplined)) hears)
      obtain ⟨added, heq, only, notes⟩ := this.exists_notice
      refine ⟨added, heq, fun d mem at_k => ?_, fun id name reaction early late => ?_⟩
      · obtain ⟨t, ht, same⟩ := only d mem at_k
        exact ⟨t.within g.property e.key, List.mem_map_of_mem ht, same⟩
      · rw [notes id name reaction early late, List.map_map]
        rfl

end Settings

end SettingsForge
