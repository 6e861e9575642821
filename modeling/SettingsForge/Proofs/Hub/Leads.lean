import Mathlib.Data.List.Nodup
import SettingsForge.Proofs.Hub.Views

set_option autoImplicit false

/-! # How a hub comes about from an earlier one

`Hub.Tidy` holds of every hub that the operations make: a notifier's numbers are its own, and at most
its first subscriber is a forwarder, which leads to an older notifier. `Hub.Leads` relates a hub to a
later one. Between the two, clients come with new numbers, and while they end subscriptions with
numbers of their own only, no forwarder is lost but those of a given set of notifiers. It holds of
every operation of the hub, and is transitive, so it holds of whatever is made from them. -/

namespace SettingsForge.Hub

structure Tidy (hub : Hub) : Prop where
  nodup : ∀ n, ((hub.subscribers n).map Prod.fst).Nodup
  below : ∀ n, ∀ s ∈ hub.subscribers n, s.1 < hub.next n
  /-- Only the first subscriber may be a forwarder. -/
  clients : ∀ n, ∀ s ∈ (hub.subscribers n).tail, s.2.isClient = true
  down : ∀ n, ∀ f ∈ hub.forwarders n, f.2.1 < n
  /-- The numbers that clients were given are not those of forwarders. -/
  issued : ∀ n id, .subscribed n id ∈ hub.calls →
    id < hub.next n ∧ ∀ f ∈ hub.forwarders n, f.1 ≠ id

/-- The second hub comes about from the first one, and only the notifiers in `dropped` may have lost
    their forwarders on purpose. -/
structure Leads (dropped : NotifierId → Prop) (hub after : Hub) : Prop where
  size : hub.size ≤ after.size
  tidy : hub.Tidy → after.Tidy
  next : ∀ m, hub.next m ≤ after.next m
  deliveries : ∃ added, after.deliveries = hub.deliveries ++ added
  calls : ∃ added, after.calls = added ++ hub.calls ∧
    ∀ m < hub.size, ¬ dropped m → (∀ call ∈ added, call.notifier ≠ m) →
      after.subscribers m = hub.subscribers m ∧ after.next m = hub.next m
  sublist : ∀ m < hub.size, (after.forwarders m).Sublist (hub.forwarders m)
  kept : hub.Tidy → after.Disciplined → ∀ m < hub.size, ¬ dropped m →
    after.forwarders m = hub.forwarders m
  /-- Who is there later was there before, or is a client with a new number. -/
  news : ∀ m < hub.size, ∀ s ∈ after.subscribers m,
    s ∈ hub.subscribers m ∨ hub.next m ≤ s.1 ∧ s.2.isClient = true

variable {dropped : NotifierId → Prop} {hub after : Hub}

/-! ## Laws of `Leads` -/

theorem Leads.refl (dropped : NotifierId → Prop) (hub : Hub) : Leads dropped hub hub where
  size := Nat.le_refl _
  tidy := id
  next _ := Nat.le_refl _
  deliveries := ⟨[], by simp⟩
  calls := ⟨[], rfl, fun _ _ _ _ => ⟨rfl, rfl⟩⟩
  sublist _ _ := List.Sublist.refl _
  kept _ _ _ _ _ := rfl
  news _ _ _ mem := Or.inl mem

theorem Leads.disciplined (h : Leads dropped hub after) (disciplined : after.Disciplined) :
    hub.Disciplined := by
  obtain ⟨added, heq, -⟩ := h.calls
  unfold Disciplined at disciplined ⊢
  rw [heq] at disciplined
  exact disciplined.of_append

/-- More notifiers may be named, as long as they were there at the start. -/
theorem Leads.mono {wider : NotifierId → Prop} (h : Leads dropped hub after)
    (sub : ∀ m < hub.size, dropped m → wider m) : Leads wider hub after where
  size := h.size
  tidy := h.tidy
  next := h.next
  deliveries := h.deliveries
  calls := by
    obtain ⟨added, heq, same⟩ := h.calls
    exact ⟨added, heq, fun m lt not => same m lt fun d => not (sub m lt d)⟩
  sublist := h.sublist
  kept tidy disciplined m lt not := h.kept tidy disciplined m lt fun d => not (sub m lt d)
  news := h.news

theorem Leads.trans {between : Hub} (first : Leads dropped hub between)
    (second : Leads dropped between after) : Leads dropped hub after where
  size := Nat.le_trans first.size second.size
  tidy tidy := second.tidy (first.tidy tidy)
  next m := Nat.le_trans (first.next m) (second.next m)
  deliveries := by
    obtain ⟨a, ha⟩ := first.deliveries
    obtain ⟨b, hb⟩ := second.deliveries
    exact ⟨a ++ b, by rw [hb, ha, List.append_assoc]⟩
  calls := by
    obtain ⟨a, ha, same⟩ := first.calls
    obtain ⟨b, hb, same'⟩ := second.calls
    refine ⟨b ++ a, by rw [hb, ha, List.append_assoc], fun m lt not apart => ?_⟩
    obtain ⟨s, n⟩ := same m lt not fun call mem => apart call (List.mem_append_right _ mem)
    obtain ⟨s', n'⟩ := same' m (Nat.lt_of_lt_of_le lt first.size) not
      fun call mem => apart call (List.mem_append_left _ mem)
    exact ⟨s'.trans s, n'.trans n⟩
  sublist m lt := (second.sublist m (Nat.lt_of_lt_of_le lt first.size)).trans (first.sublist m lt)
  kept tidy disciplined m lt not := by
    rw [second.kept (first.tidy tidy) disciplined m (Nat.lt_of_lt_of_le lt first.size) not,
      first.kept tidy (second.disciplined disciplined) m lt not]
  news m lt s mem := by
    rcases second.news m (Nat.lt_of_lt_of_le lt first.size) s mem with mem | ⟨fresh, client⟩
    · exact first.news m lt s mem
    · exact Or.inr ⟨Nat.le_trans (first.next m) fresh, client⟩

/-- A subscriber before and after is the same one all the time: numbers are not given twice. -/
theorem Leads.stays {s : SubscriptionId × Listener} (h : Leads dropped hub after)
    {m : NotifierId} (lt : m < hub.size) (later : s ∈ after.subscribers m)
    (early : s.1 < hub.next m) : s ∈ hub.subscribers m :=
  (h.news m lt s later).resolve_right fun fresh => Nat.not_lt.2 fresh.1 early

/-! ## Operations of the hub -/

theorem tidy_empty : Tidy {} where
  nodup _ := by simp [subscribers, notifier?]
  below _ := by simp [subscribers, notifier?]
  clients _ := by simp [subscribers, notifier?]
  down _ := by simp [forwarders, subscribers, notifier?]
  issued _ _ mem := by simp at mem

/-- Tidiness is seen in the subscribers, the next numbers and the calls. -/
theorem Tidy.of_views (h : hub.Tidy) (subscribers : ∀ n, after.subscribers n = hub.subscribers n)
    (next : ∀ n, after.next n = hub.next n) (calls : after.calls = hub.calls) : after.Tidy where
  nodup n := subscribers n ▸ h.nodup n
  below n := by
    rw [subscribers n, next n]
    exact h.below n
  clients n := subscribers n ▸ h.clients n
  down n := by
    have := h.down n
    unfold forwarders at this ⊢
    rwa [subscribers n]
  issued n id mem := by
    have := h.issued n id (calls ▸ mem)
    unfold forwarders at this ⊢
    rwa [subscribers n, next n]

theorem leads_alloc (dropped : NotifierId → Prop) (hub : Hub) : Leads dropped hub hub.alloc.2 where
  size := by
    rw [size_alloc]
    exact Nat.le_succ _
  tidy h := h.of_views (subscribers_alloc hub) (next_alloc hub) rfl
  next m := by simp
  deliveries := ⟨[], by simp⟩
  calls := ⟨[], rfl, by simp⟩
  sublist m _ := by
    rw [forwarders_alloc]
  kept := by simp
  news m _ s mem := Or.inl (by simpa using mem)

/-- A notifier may get a subscriber: a client, or an owner if it has no subscriber yet. -/
theorem Tidy.attach (tidy : hub.Tidy) {n : NotifierId} (lt : n < hub.size) {listener : Listener}
    (first : listener.isClient = true ∨ hub.subscribers n = [])
    (down : ∀ owner property, listener = .forwarder owner property → owner < n) :
    (hub.attach n listener).2.Tidy := by
  have below : ∀ m, ∀ s ∈ hub.subscribers m, s.1 < (hub.attach n listener).2.next m := fun m s mem =>
    Nat.lt_of_lt_of_le (tidy.below m s mem) (next_le_attach ..)
  refine ⟨fun m => ?nodup, fun m s mem => ?below, fun m => ?clients, fun m f mem => ?down,
    fun m id mem => ⟨?issued, fun f hf => ?apart⟩⟩
  case nodup =>
    by_cases h : m = n
    · subst h
      rw [subscribers_attach_self lt, List.map_append, List.nodup_append]
      refine ⟨tidy.nodup m, List.nodup_singleton _, ?_⟩
      -- the new number is above those of all subscribers
      intro id mem id' mem' same
      obtain ⟨s, hs, rfl⟩ := List.mem_map.1 mem
      exact Nat.ne_of_lt (tidy.below m s hs) (same.trans (List.mem_singleton.1 mem'))
    · rw [subscribers_attach_of_ne h]
      exact tidy.nodup m
  case below =>
    rcases mem_subscribers_attach mem with mem | ⟨rfl, rfl⟩
    · exact below m s mem
    · rw [next_attach_self lt]
      exact Nat.lt_succ_self _
  case clients =>
    by_cases h : m = n
    · subst h
      intro s mem
      rw [subscribers_attach_self lt] at mem
      cases hs : hub.subscribers m with
      | nil =>
          rw [hs] at mem
          cases mem
      | cons head rest =>
          rw [hs, List.cons_append, List.tail_cons, List.mem_append, List.mem_singleton] at mem
          rcases mem with mem | rfl
          · exact tidy.clients m s (by rw [hs]; exact mem)
          · exact first.resolve_right (by simp [hs])
    · rw [subscribers_attach_of_ne h]
      exact tidy.clients m
  case down =>
    obtain ⟨id, owner, property⟩ := f
    rcases mem_subscribers_attach (mem_forwarders.1 mem) with mem | ⟨rfl, same⟩
    · exact tidy.down m _ (mem_forwarders.2 mem)
    · exact down owner property (congrArg Prod.snd same).symm
  case issued => exact Nat.lt_of_lt_of_le (tidy.issued m id mem).1 (next_le_attach ..)
  case apart =>
    obtain ⟨id', owner, property⟩ := f
    rcases mem_subscribers_attach (mem_forwarders.1 hf) with hs | ⟨rfl, same⟩
    · exact (tidy.issued m id mem).2 _ (mem_forwarders.2 hs)
    · -- numbers that clients were given are below the new one
      cases same
      exact Nat.ne_of_gt (tidy.issued m id mem).1

/-- A client may subscribe at any notifier that exists. -/
theorem leads_subscribe (dropped : NotifierId → Prop) {hub : Hub} {n : NotifierId}
    (lt : n < hub.size) (client : String) (reaction : Reaction) :
    Leads dropped hub (hub.subscribe n client reaction) := by
  have forwarders_eq : ∀ m, (hub.subscribe n client reaction).forwarders m = hub.forwarders m := by
    intro m
    by_cases h : m = n
    · subst h
      have subscribers_self : (hub.subscribe m client reaction).subscribers m =
          hub.subscribers m ++ [(hub.next m, .client client reaction)] := subscribers_attach_self lt _
      rw [forwarders, subscribers_self, forwarders, List.filterMap_append]
      simp [Listener.target?]
    · exact forwarders_attach_of_ne h _
  refine ⟨?size, ?tidy, ?next, ⟨[], ?deliveries⟩, ⟨[.subscribed n (hub.next n)], rfl, ?calls⟩,
    ?sublist, ?kept, ?news⟩
  case size => exact Nat.le_of_eq (size_attach hub n _).symm
  case deliveries => simp [subscribe_eq]
  case tidy =>
    intro tidy
    have attached : (hub.attach n (.client client reaction)).2.Tidy :=
      tidy.attach lt (Or.inl rfl) fun _ _ same => by cases same
    refine ⟨attached.nodup, attached.below, attached.clients, attached.down, fun m id mem => ?_⟩
    rcases List.mem_cons.1 mem with same | mem
    · -- the call is new, and so is its number
      cases same
      rw [forwarders_eq]
      refine ⟨attached.below n (hub.next n, .client client reaction) ?_, fun f hf => ?_⟩
      · rw [subscribers_attach_self lt]
        exact List.mem_append_right _ (List.mem_singleton_self _)
      · obtain ⟨id, owner, property⟩ := f
        exact Nat.ne_of_lt (tidy.below _ _ (mem_forwarders.1 hf))
    · exact attached.issued m id mem
  case next => exact fun m => next_le_attach ..
  case calls =>
    intro m _ _ apart
    have h : m ≠ n := fun h => apart _ (List.mem_singleton_self _) h.symm
    exact ⟨subscribers_attach_of_ne h _, next_attach_of_ne h _⟩
  case sublist =>
    intro m _
    rw [forwarders_eq]
  case kept =>
    intros
    exact forwarders_eq _
  case news =>
    intro m _ s mem
    rcases mem_subscribers_attach mem with mem | ⟨rfl, rfl⟩
    · exact Or.inl mem
    · exact Or.inr ⟨Nat.le_refl _, rfl⟩

theorem Tidy.detach (tidy : hub.Tidy) (n : NotifierId) (id : SubscriptionId) :
    (hub.detach n id).2.Tidy := by
  have sub : ∀ m, ((hub.detach n id).2.subscribers m).Sublist (hub.subscribers m) := by
    intro m
    by_cases h : m = n
    · subst h
      rw [subscribers_detach_self]
      exact List.filter_sublist
    · rw [subscribers_detach_of_ne h]
  refine ⟨fun m => ?_, fun m s mem => ?_, fun m s mem => ?_, fun m f mem => ?_, fun m id' mem => ?_⟩
  · exact ((sub m).map Prod.fst).nodup (tidy.nodup m)
  · rw [next_detach]
    exact tidy.below m s ((sub m).subset mem)
  · exact tidy.clients m s ((sub m).tail.subset mem)
  · exact tidy.down m f ((sublist_forwarders_detach hub n m id).subset mem)
  · rw [next_detach]
    have := tidy.issued m id' mem
    exact ⟨this.1, fun f hf => this.2 f ((sublist_forwarders_detach hub n m id).subset hf)⟩

theorem news_detach (hub : Hub) (n m : NotifierId) (id : SubscriptionId)
    {s : SubscriptionId × Listener} (mem : s ∈ (hub.detach n id).2.subscribers m) :
    s ∈ hub.subscribers m := by
  by_cases h : m = n
  · subst h
    rw [subscribers_detach_self] at mem
    exact List.mem_of_mem_filter mem
  · rwa [subscribers_detach_of_ne h] at mem

/-- A notifier may be dropped: it loses its forwarder. -/
theorem leads_detach (hub : Hub) (n : NotifierId) (id : SubscriptionId) :
    Leads (· = n) hub (hub.detach n id).2 where
  size := Nat.le_of_eq (size_detach hub n id).symm
  tidy tidy := tidy.detach n id
  next m := Nat.le_of_eq (next_detach hub n m id).symm
  deliveries := ⟨[], by simp⟩
  calls := ⟨[], rfl, fun m _ not _ => ⟨subscribers_detach_of_ne not id, next_detach ..⟩⟩
  sublist m _ := sublist_forwarders_detach hub n m id
  kept _ _ m _ not := forwarders_detach_of_ne not id
  news m _ s mem := Or.inl (news_detach hub n m id mem)

/-- A client may end any subscription; with a number of its own it ends no forwarder. -/
theorem leads_unsubscribe (dropped : NotifierId → Prop) (hub : Hub) (n : NotifierId)
    (id : SubscriptionId) : Leads dropped hub (hub.unsubscribe n id).2 := by
  refine ⟨?size, ?tidy, ?next, ⟨[], ?deliveries⟩, ⟨[.unsubscribed n id], rfl, ?calls⟩,
    ?sublist, ?kept, ?news⟩
  case size => exact Nat.le_of_eq (size_detach hub n id).symm
  case deliveries => simp [snd_unsubscribe]
  case tidy =>
    intro tidy
    have detached := tidy.detach n id
    refine ⟨detached.nodup, detached.below, detached.clients, detached.down, fun m id' mem => ?_⟩
    rcases List.mem_cons.1 mem with h | mem
    · cases h
    · exact detached.issued m id' mem
  case next => exact fun m => Nat.le_of_eq (next_detach hub n m id).symm
  case calls =>
    intro m _ _ apart
    have h : m ≠ n := fun h => apart _ (List.mem_singleton_self _) h.symm
    exact ⟨subscribers_detach_of_ne h id, next_detach ..⟩
  case sublist => exact fun m _ => sublist_forwarders_detach hub n m id
  case kept =>
    intro tidy disciplined m _ _
    by_cases h : m = n
    · subst h
      have own : .subscribed m id ∈ hub.calls := disciplined.1
      show (hub.detach m id).2.forwarders m = _
      -- no forwarder has the number of a client
      rw [forwarders_detach_self, List.filter_eq_self]
      intro f mem
      exact bne_iff_ne.2 ((tidy.issued m id own).2 f mem)
    · exact forwarders_detach_of_ne h id
  case news => exact fun m _ s mem => Or.inl (news_detach hub n m id mem)

/-- A notifier that was made on the way, and that nobody hears yet, may get a forwarder. -/
theorem Leads.forward (leads : Leads dropped hub after) {n owner : NotifierId}
    (fresh : hub.size ≤ n) (lt : n < after.size) (unheard : after.subscribers n = [])
    (below : owner < n) (property : String) :
    Leads dropped hub (after.attach n (.forwarder owner property)).2 := by
  -- what is said of notifiers from before is not about the new one
  have elsewhere : ∀ {m}, m < hub.size → m ≠ n := fun h => Nat.ne_of_lt (Nat.lt_of_lt_of_le h fresh)
  refine ⟨?size, fun tidy => ?tidy, fun m => ?next, leads.deliveries, ?calls, fun m old => ?sublist,
    fun tidy disciplined m old not => ?kept, fun m old s mem => ?news⟩
  case size =>
    rw [size_attach]
    exact leads.size
  case tidy =>
    refine (leads.tidy tidy).attach lt (Or.inr unheard) fun _ _ same => ?_
    cases same
    exact below
  case next => exact Nat.le_trans (leads.next m) (next_le_attach ..)
  case calls =>
    obtain ⟨added, heq, same⟩ := leads.calls
    refine ⟨added, heq, fun m old not apart => ?_⟩
    rw [subscribers_attach_of_ne (elsewhere old), next_attach_of_ne (elsewhere old)]
    exact same m old not apart
  case sublist =>
    rw [forwarders_attach_of_ne (elsewhere old)]
    exact leads.sublist m old
  case kept =>
    rw [forwarders_attach_of_ne (elsewhere old)]
    exact leads.kept tidy disciplined m old not
  case news =>
    rw [subscribers_attach_of_ne (elsewhere old)] at mem
    exact leads.news m old s mem

end SettingsForge.Hub
