import SettingsForge.Proofs.Hub.Hearing

set_option autoImplicit false

/-! # What clients ask for while they are told

A client acts only when it is told of a change, and only at the notifier where it is told. So who is
subscribed somewhere stays there, in the same order, until a client ends the subscription, and who comes
later has asked for it (`Hub.Reacts`). Where no client is, none comes (`Hub.Quiet.notify`). -/

namespace SettingsForge

/-- The calls explain how the subscribers of a notifier changed: all are left that no client ended, in
    the order in which they were, and behind them clients came who asked for it. -/
def Call.Explain (calls : List Call) (n : NotifierId)
    (before after : List (SubscriptionId × Listener)) : Prop :=
  ∃ came, after = before.filter (fun s => .unsubscribed n s.1 ∉ calls) ++ came ∧
    ∀ s ∈ came, s.2.isClient = true ∧ .subscribed n s.1 ∈ calls

namespace Call

variable {calls more : List Call} {n : NotifierId}
  {before between after : List (SubscriptionId × Listener)}

/-- Calls elsewhere end nothing. -/
theorem filter_elsewhere (elsewhere : ∀ call ∈ calls, call.notifier ≠ n) :
    before.filter (fun s => .unsubscribed n s.1 ∉ calls) = before := by
  rw [List.filter_eq_self]
  exact fun s _ => decide_eq_true fun mem => elsewhere _ mem rfl

theorem explain_self (elsewhere : ∀ call ∈ calls, call.notifier ≠ n) :
    Explain calls n before before :=
  ⟨[], by rw [filter_elsewhere elsewhere, List.append_nil], fun _ mem => by cases mem⟩

theorem Explain.eq_of_elsewhere (h : Explain calls n before after)
    (elsewhere : ∀ call ∈ calls, call.notifier ≠ n) : after = before := by
  obtain ⟨came, rfl, asked⟩ := h
  have none_came : came = [] :=
    List.eq_nil_iff_forall_not_mem.2 fun s mem => elsewhere _ (asked s mem).2 rfl
  rw [none_came, List.append_nil, filter_elsewhere elsewhere]

/-- The later calls are listed first. -/
theorem Explain.trans (first : Explain calls n before between) (second : Explain more n between after) :
    Explain (more ++ calls) n before after := by
  obtain ⟨came, rfl, asked⟩ := first
  obtain ⟨came', rfl, asked'⟩ := second
  refine ⟨came.filter (fun s => .unsubscribed n s.1 ∉ more) ++ came', ?_, fun s mem => ?_⟩
  · rw [List.filter_append, List.filter_filter, List.append_assoc]
    simp only [List.mem_append, not_or, Bool.decide_and]
  · rcases List.mem_append.1 mem with mem | mem
    · obtain ⟨client, there⟩ := asked s (List.mem_of_mem_filter mem)
      exact ⟨client, List.mem_append_right _ there⟩
    · obtain ⟨client, there⟩ := asked' s mem
      exact ⟨client, List.mem_append_left _ there⟩

end Call

namespace Hub

variable {dropped : NotifierId → Prop} {area : NotifierId → Prop} {hub between after : Hub}
  {n : NotifierId} {property : String}

/-! ## Acting -/

/-- Clients act at a notifier. -/
def Acts (n : NotifierId) (hub after : Hub) : Prop :=
  ∃ calls, after.calls = calls ++ hub.calls ∧ (∀ call ∈ calls, call.notifier = n) ∧
    ∀ m, Call.Explain calls m (hub.subscribers m) (after.subscribers m)

theorem acts_refl (n : NotifierId) (hub : Hub) : Acts n hub hub :=
  ⟨[], rfl, fun _ mem => (by cases mem), fun _ => Call.explain_self fun _ mem => by cases mem⟩

theorem Acts.trans (first : Acts n hub between) (second : Acts n between after) : Acts n hub after := by
  obtain ⟨calls, heq, own, explain⟩ := first
  obtain ⟨more, heq', own', explain'⟩ := second
  refine ⟨more ++ calls, by rw [heq', heq, List.append_assoc], fun call mem => ?_,
    fun m => (explain m).trans (explain' m)⟩
  exact (List.mem_append.1 mem).elim (own' call) (own call)

theorem acts_subscribe (lt : n < hub.size) (client : String) (reaction : Reaction) :
    Acts n hub (hub.subscribe n client reaction) := by
  refine ⟨[.subscribed n (hub.next n)], rfl, fun call mem => by rw [List.mem_singleton.1 mem]; rfl,
    fun m => ?_⟩
  by_cases same : m = n
  · subst same
    refine ⟨[(hub.next m, .client client reaction)], ?_, fun s mem => ?_⟩
    · have stays : (hub.subscribers m).filter
          (fun s => Call.unsubscribed m s.1 ∉ [Call.subscribed m (hub.next m)]) =
          hub.subscribers m := by
        rw [List.filter_eq_self]
        exact fun s _ => decide_eq_true fun mem => by cases List.mem_singleton.1 mem
      rw [stays]
      exact subscribers_attach_self lt _
    · rw [List.mem_singleton.1 mem]
      exact ⟨rfl, List.mem_singleton_self _⟩
  · have others : (hub.subscribe n client reaction).subscribers m = hub.subscribers m :=
      subscribers_attach_of_ne same _
    rw [others]
    exact Call.explain_self fun call mem here => same (by rw [← here, List.mem_singleton.1 mem]; rfl)

theorem acts_unsubscribe (hub : Hub) (n : NotifierId) (id : SubscriptionId) :
    Acts n hub (hub.unsubscribe n id).2 := by
  refine ⟨[.unsubscribed n id], rfl, fun call mem => by rw [List.mem_singleton.1 mem]; rfl,
    fun m => ?_⟩
  by_cases same : m = n
  · subst same
    refine ⟨[], ?_, fun _ mem => by cases mem⟩
    have ended : (hub.unsubscribe m id).2.subscribers m =
        (hub.subscribers m).filter fun s => s.1 != id := subscribers_detach_self ..
    rw [ended, List.append_nil]
    congr 1
    funext s
    simp [bne, Bool.beq_eq_decide_eq]
  · have others : (hub.unsubscribe n id).2.subscribers m = hub.subscribers m :=
      subscribers_detach_of_ne same id
    rw [others]
    exact Call.explain_self fun call mem here => same (by rw [← here, List.mem_singleton.1 mem]; rfl)

theorem acts_react (lt : n < hub.size) (reaction : Reaction) : Acts n hub (hub.react n reaction) := by
  have second : ∀ {between}, Acts n hub between → between.size = hub.size →
      ∀ client, Acts n hub (between.subscribe n client {}) := fun first size client =>
    first.trans (acts_subscribe (size ▸ lt) client {})
  unfold react
  cases reaction.unsubscribe.bind hub.last? with
  | none =>
      cases reaction.subscribe with
      | none => exact acts_refl n hub
      | some client => exact second (acts_refl n hub) rfl client
  | some id =>
      have first := acts_unsubscribe hub n id
      cases reaction.subscribe with
      | none => exact first
      | some client => exact second first (size_detach hub n id) client

/-! ## Reacting -/

/-- The second hub comes about from the first one, and clients called only where they were told.
    Their calls explain who is subscribed at the notifiers that are not dropped. -/
structure Reacts (dropped : NotifierId → Prop) (hub after : Hub) : Prop where
  size : hub.size ≤ after.size
  exists_calls : ∃ notes calls, after.deliveries = hub.deliveries ++ notes ∧
    after.calls = calls ++ hub.calls ∧ (∀ call ∈ calls, ∃ d ∈ notes, d.notifier = call.notifier) ∧
    ∀ m < hub.size, ¬ dropped m → Call.Explain calls m (hub.subscribers m) (after.subscribers m)

/-- Nobody is told, and only dropped notifiers lose subscribers. -/
theorem reacts_of_silent (size : hub.size ≤ after.size) (deliveries : after.deliveries = hub.deliveries)
    (calls : after.calls = hub.calls)
    (same : ∀ m < hub.size, ¬ dropped m → after.subscribers m = hub.subscribers m) :
    Reacts dropped hub after := by
  refine ⟨size, [], [], by rw [deliveries, List.append_nil], by rw [calls, List.nil_append],
    fun _ mem => (by cases mem), fun m lt free => ?_⟩
  rw [same m lt free]
  exact Call.explain_self fun _ mem => by cases mem

theorem Reacts.refl (dropped : NotifierId → Prop) (hub : Hub) : Reacts dropped hub hub :=
  reacts_of_silent (Nat.le_refl _) rfl rfl fun _ _ _ => rfl

theorem Reacts.mono {wider : NotifierId → Prop} (h : Reacts dropped hub after)
    (sub : ∀ m < hub.size, dropped m → wider m) : Reacts wider hub after := by
  obtain ⟨notes, calls, deliveries, heq, told, explain⟩ := h.exists_calls
  exact ⟨h.size, notes, calls, deliveries, heq, told,
    fun m lt free => explain m lt fun d => free (sub m lt d)⟩

theorem Reacts.trans (first : Reacts dropped hub between) (second : Reacts dropped between after) :
    Reacts dropped hub after := by
  obtain ⟨notes, calls, deliveries, heq, told, explain⟩ := first.exists_calls
  obtain ⟨notes', calls', deliveries', heq', told', explain'⟩ := second.exists_calls
  refine ⟨Nat.le_trans first.size second.size, notes ++ notes', calls' ++ calls,
    by rw [deliveries', deliveries, List.append_assoc], by rw [heq', heq, List.append_assoc],
    fun call mem => ?_, fun m lt free => (explain m lt free).trans
      (explain' m (Nat.lt_of_lt_of_le lt first.size) free)⟩
  rcases List.mem_append.1 mem with mem | mem
  · obtain ⟨d, there, at_call⟩ := told' call mem
    exact ⟨d, List.mem_append_right _ there, at_call⟩
  · obtain ⟨d, there, at_call⟩ := told call mem
    exact ⟨d, List.mem_append_left _ there, at_call⟩

/-- Who is subscribed where nobody was told stays. -/
theorem Reacts.subscribers_eq (h : Reacts dropped hub after) {notes : List Delivery}
    (deliveries : after.deliveries = hub.deliveries ++ notes) {m : NotifierId} (lt : m < hub.size)
    (free : ¬ dropped m) (untold : ∀ d ∈ notes, d.notifier ≠ m) :
    after.subscribers m = hub.subscribers m := by
  obtain ⟨notes', calls, deliveries', -, told, explain⟩ := h.exists_calls
  cases List.append_cancel_left (deliveries.symm.trans deliveries')
  refine (explain m lt free).eq_of_elsewhere fun call mem here => ?_
  obtain ⟨d, there, at_call⟩ := told call mem
  exact untold d there (at_call.trans here)

/-- A client is told and reacts. -/
theorem reacts_told (dropped : NotifierId → Prop) (lt : n < hub.size) (d : Delivery)
    (there : d.notifier = n) (reaction : Reaction) :
    Reacts dropped hub ((hub.record d).react n reaction) := by
  have recorded : n < (hub.record d).size := lt
  obtain ⟨calls, heq, own, explain⟩ := acts_react recorded reaction
  refine ⟨Nat.le_of_eq (size_react (hub.record d) n reaction).symm, [d], calls,
    deliveries_react .., heq, fun call mem => ?_, fun m _ _ => explain m⟩
  exact ⟨d, List.mem_singleton_self _, there.trans (own call mem).symm⟩

theorem reacts_notify (dropped : NotifierId → Prop) (hub : Hub) (n : NotifierId) (property : String) :
    Reacts dropped hub (hub.notify n property) := by
  induction n using Nat.strongRecOn generalizing hub property with
  | ind n ih =>
      rw [notify_eq]
      by_cases lt : n < hub.size
      · -- the subscribers are called one after the other
        generalize hub.subscribers n = subscribers
        induction subscribers generalizing hub with
        | nil => exact .refl ..
        | cons s subscribers ih' =>
            have first : Reacts dropped hub (hear n property hub s) := by
              unfold hear
              split
              · exact reacts_told dropped lt _ rfl _
              · split
                · next below => exact ih _ below hub _
                · exact .refl ..
            exact first.trans (ih' _ (Nat.lt_of_lt_of_le lt first.size))
      · rw [subscribers_of_size_le (Nat.not_lt.1 lt)]
        exact .refl ..

theorem reacts_detach (hub : Hub) (n : NotifierId) (id : SubscriptionId) :
    Reacts (· = n) hub (hub.detach n id).2 :=
  reacts_of_silent (Nat.le_of_eq (size_detach hub n id).symm) rfl rfl
    fun _ _ other => subscribers_detach_of_ne other id

/-- A notifier that was made on the way may get any listener. -/
theorem Reacts.attach (h : Reacts dropped hub after) (fresh : hub.size ≤ n) (listener : Listener) :
    Reacts dropped hub (after.attach n listener).2 := by
  obtain ⟨notes, calls, deliveries, heq, told, explain⟩ := h.exists_calls
  refine ⟨by rw [size_attach]; exact h.size, notes, calls, deliveries, heq, told, fun m lt free => ?_⟩
  rw [subscribers_attach_of_ne (Nat.ne_of_lt (Nat.lt_of_lt_of_le lt fresh))]
  exact explain m lt free

/-! ## Places without clients -/

theorem Quiet.react (quiet : hub.Quiet area) (lt : n < hub.size) (outside : ¬ area n)
    (reaction : Reaction) : (hub.react n reaction).Quiet area := by
  obtain ⟨calls, -, own, explain⟩ := acts_react lt reaction
  intro m inside
  rw [(explain m).eq_of_elsewhere fun call mem here => outside (own call mem ▸ here ▸ inside)]
  exact quiet m inside

/-- Clients come only where clients are. -/
theorem Quiet.notify (quiet : hub.Quiet area) (n : NotifierId) (property : String) :
    (hub.notify n property).Quiet area := by
  induction n using Nat.strongRecOn generalizing hub property with
  | ind n ih =>
      rw [notify_eq]
      by_cases lt : n < hub.size
      · have clients : ∀ s ∈ hub.subscribers n, s.2.isClient = true → ¬ area n := by
          intro s mem client inside
          rw [quiet n inside s mem] at client
          cases client
        revert clients
        generalize hub.subscribers n = subscribers
        intro clients
        -- a client that is told is not in the area
        induction subscribers generalizing hub with
        | nil => exact quiet
        | cons s subscribers ih' =>
            have heard : (hear n property hub s).Quiet area := by
              have outside := clients s (List.mem_cons_self ..)
              obtain ⟨id, l⟩ := s
              cases l with
              | client name reaction =>
                  have recorded : (hub.record ⟨n, id, name, property⟩).Quiet area := quiet
                  exact recorded.react lt (outside rfl) reaction
              | forwarder owner outer =>
                  unfold hear
                  dsimp only
                  split
                  · next below => exact ih owner below quiet outer
                  · exact quiet
            exact ih' heard (by rwa [size_hear]) fun s' mem => clients s' (List.mem_cons_of_mem _ mem)
      · rw [subscribers_of_size_le (Nat.not_lt.1 lt)]
        exact quiet

/-- Without its forwarder, a notifier has the clients that it had. -/
theorem Tidy.filter_forwarder (tidy : hub.Tidy) {id : SubscriptionId} {target : NotifierId × String}
    (h : hub.forwarders n = [(id, target)]) :
    (hub.subscribers n).filter (fun s => s.1 != id) =
      (hub.subscribers n).filter fun s => s.2.isClient := by
  rcases tidy.subscribers_cases n with ⟨h', -⟩ | ⟨id', owner, outer, clients, subscribers, h', -, rest⟩
  · rw [h] at h'
    cases h'
  · cases h.symm.trans h'
    -- the numbers of the clients are others
    have nodup := tidy.nodup n
    rw [subscribers, List.map_cons, List.nodup_cons] at nodup
    have others : ∀ s ∈ clients, (s.1 != id) = true := by
      intro s mem
      refine bne_iff_ne.2 fun same => nodup.1 ?_
      exact List.mem_map.2 ⟨s, mem, same⟩
    rw [subscribers, List.filter_cons_of_neg (by simp),
      List.filter_cons_of_neg (by simp [Listener.isClient]), List.filter_eq_self.2 others,
      List.filter_eq_self.2 rest]

end Hub

end SettingsForge
