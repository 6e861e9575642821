import SettingsForge.Proofs.Hub.Leads

set_option autoImplicit false

/-! # Who hears of a change

`Hub.bubble` lists the notes that are taken when a change is announced: first, through the forwarder,
those at the owner and above, then those of the notifier's own clients. In a tidy hub this is what
`Hub.notify` does (`Hub.Tidy.deliveries_notify`), whatever the clients do when they hear of it: each
list of subscribers is read before the first of them is called, and clients act at their own notifier
only. `Hub.Hears` says under which property a change at one notifier is heard at another one. -/

namespace SettingsForge.Hub

/-! ## The notes of a change -/

/-- The note that a subscriber takes itself. -/
def note? (n : NotifierId) (property : String) (s : SubscriptionId × Listener) : Option Delivery :=
  match s.2 with
  | .client name _ => some ⟨n, s.1, name, property⟩
  | .forwarder .. => none

/-- The notes that the clients of a notifier take. -/
def notes (hub : Hub) (n : NotifierId) (property : String) : List Delivery :=
  (hub.subscribers n).filterMap (note? n property)

/-- All notes that are taken when a change is announced, in order. -/
def bubble (hub : Hub) (n : NotifierId) (property : String) : List Delivery :=
  (hub.subscribers n).flatMap fun s =>
    match s.2 with
    | .client name _ => [⟨n, s.1, name, property⟩]
    | .forwarder owner outer => if _h : owner < n then hub.bubble owner outer else []
  termination_by n

/-- A subscriber is called. -/
def hear (n : NotifierId) (property : String) (hub : Hub) (s : SubscriptionId × Listener) : Hub :=
  match s.2 with
  | .client name reaction => (hub.record ⟨n, s.1, name, property⟩).react n reaction
  | .forwarder owner outer => if owner < n then hub.notify owner outer else hub

theorem notify_eq (hub : Hub) (n : NotifierId) (property : String) :
    hub.notify n property = (hub.subscribers n).foldl (hear n property) hub := by
  rw [notify, subscribers]
  cases hub.notifier? n with
  | none => rfl
  | some notifier => rfl

/-! ## A change leads on -/

variable {hub : Hub} {n : NotifierId} {property : String}

theorem leads_record (dropped : NotifierId → Prop) (hub : Hub) (delivery : Delivery) :
    Leads dropped hub (hub.record delivery) where
  size := Nat.le_refl _
  tidy tidy := tidy.of_views (fun _ => rfl) (fun _ => rfl) rfl
  next _ := Nat.le_refl _
  deliveries := ⟨[delivery], rfl⟩
  calls := ⟨[], rfl, fun _ _ _ _ => ⟨rfl, rfl⟩⟩
  sublist _ _ := List.Sublist.refl _
  kept _ _ _ _ _ := rfl
  news _ _ _ mem := Or.inl mem

theorem leads_react (dropped : NotifierId → Prop) (lt : n < hub.size) (reaction : Reaction) :
    Leads dropped hub (hub.react n reaction) := by
  have second : ∀ {between}, Leads dropped hub between →
      ∀ client, Leads dropped hub (between.subscribe n client {}) := fun first client =>
    first.trans (leads_subscribe _ (Nat.lt_of_lt_of_le lt first.size) client {})
  unfold react
  cases reaction.unsubscribe.bind hub.last? with
  | none =>
      cases reaction.subscribe with
      | none => exact Leads.refl ..
      | some client => exact second (Leads.refl ..) client
  | some id =>
      have first := leads_unsubscribe dropped hub n id
      cases reaction.subscribe with
      | none => exact first
      | some client => exact second first client

theorem leads_hear (dropped : NotifierId → Prop) (lt : n < hub.size)
    (owners : ∀ m < n, ∀ outer, Leads dropped hub (hub.notify m outer))
    (s : SubscriptionId × Listener) : Leads dropped hub (hear n property hub s) := by
  unfold hear
  split
  · next name reaction _ =>
    have noted := leads_record dropped hub ⟨n, s.1, name, property⟩
    exact noted.trans (leads_react dropped (Nat.lt_of_lt_of_le lt noted.size) reaction)
  · split
    · next h => exact owners _ h _
    · exact Leads.refl ..

theorem leads_notify (dropped : NotifierId → Prop) (hub : Hub) (n : NotifierId)
    (property : String) : Leads dropped hub (hub.notify n property) := by
  induction n using Nat.strongRecOn generalizing hub property with
  | ind n ih =>
      rw [notify_eq]
      by_cases lt : n < hub.size
      · generalize hub.subscribers n = subscribers
        induction subscribers generalizing hub with
        | nil => exact Leads.refl ..
        | cons s subscribers ih' =>
            have first : Leads dropped hub (hear n property hub s) :=
              leads_hear dropped lt (fun m hm outer => ih m hm hub outer) s
            exact first.trans (ih' _ (Nat.lt_of_lt_of_le lt first.size))
      · rw [subscribers_of_size_le (Nat.not_lt.1 lt)]
        exact Leads.refl ..

/-! ## The notes in order -/

theorem deliveries_react (hub : Hub) (n : NotifierId) (reaction : Reaction) :
    (hub.react n reaction).deliveries = hub.deliveries := by
  unfold react
  dsimp only
  split <;> split <;> rfl

theorem deliveries_hear_client {s : SubscriptionId × Listener} (client : s.2.isClient = true)
    (hub : Hub) : (hear n property hub s).deliveries =
      hub.deliveries ++ (note? n property s).toList := by
  obtain ⟨id, l⟩ := s
  cases l with
  | client name reaction =>
      simp only [hear, deliveries_react, note?]
      rfl
  | forwarder => cases client

theorem deliveries_hear_clients {subscribers : List (SubscriptionId × Listener)}
    (clients : ∀ s ∈ subscribers, s.2.isClient = true) (hub : Hub) :
    (subscribers.foldl (hear n property) hub).deliveries =
      hub.deliveries ++ subscribers.filterMap (note? n property) := by
  induction subscribers generalizing hub with
  | nil => simp
  | cons s subscribers ih =>
      rw [List.foldl_cons, ih fun s' mem => clients s' (List.mem_cons_of_mem _ mem),
        deliveries_hear_client (clients s (List.mem_cons_self ..)), List.filterMap_cons,
        List.append_assoc]
      cases note? n property s <;> rfl

/-- A tidy notifier has clients only, or one forwarder in front of its clients. -/
theorem Tidy.subscribers_cases (tidy : hub.Tidy) (n : NotifierId) :
    (hub.forwarders n = [] ∧ ∀ s ∈ hub.subscribers n, s.2.isClient = true) ∨
      ∃ id owner outer clients,
        hub.subscribers n = (id, .forwarder owner outer) :: clients ∧
        hub.forwarders n = [(id, owner, outer)] ∧ owner < n ∧
        ∀ s ∈ clients, s.2.isClient = true := by
  have rest := tidy.clients n
  have down := tidy.down n
  unfold forwarders at down ⊢
  have none_of_clients : ∀ {subscribers : List (SubscriptionId × Listener)},
      (∀ s ∈ subscribers, s.2.isClient = true) →
      subscribers.filterMap (fun s => s.2.target?.map fun target => (s.1, target)) = [] := by
    intro subscribers clients
    rw [List.filterMap_eq_nil_iff]
    intro s mem
    rw [Listener.target?_eq_none_iff.2 (clients s mem)]
    rfl
  cases h : hub.subscribers n with
  | nil => exact Or.inl ⟨rfl, by simp⟩
  | cons s clients =>
      rw [h] at rest down
      obtain ⟨id, l⟩ := s
      cases l with
      | client name reaction =>
          have all : ∀ s ∈ (id, Listener.client name reaction) :: clients, s.2.isClient = true := by
            intro s mem
            rcases List.mem_cons.1 mem with rfl | mem
            · rfl
            · exact rest s mem
          exact Or.inl ⟨none_of_clients all, all⟩
      | forwarder owner outer =>
          have forwarders : ((id, Listener.forwarder owner outer) :: clients).filterMap
              (fun s => s.2.target?.map fun target => (s.1, target)) = [(id, owner, outer)] := by
            rw [List.tail_cons] at rest
            rw [List.filterMap_cons, none_of_clients rest]
            rfl
          refine Or.inr ⟨id, owner, outer, clients, rfl, forwarders, down (id, owner, outer) ?_, rest⟩
          rw [forwarders]
          exact List.mem_singleton_self _

theorem bubble_of_clients (clients : ∀ s ∈ hub.subscribers n, s.2.isClient = true) :
    hub.bubble n property = hub.notes n property := by
  rw [bubble, notes]
  revert clients
  induction hub.subscribers n with
  | nil => simp
  | cons s subscribers ih =>
      intro clients
      have tail := ih fun s' mem => clients s' (List.mem_cons_of_mem _ mem)
      obtain ⟨id, l⟩ := s
      cases l with
      | client name reaction =>
          rw [List.flatMap_cons, tail, List.filterMap_cons]
          rfl
      | forwarder => simpa [Listener.isClient] using clients _ (List.mem_cons_self ..)

theorem bubble_of_forwarder {id : SubscriptionId} {owner : NotifierId} {outer : String}
    {clients : List (SubscriptionId × Listener)}
    (h : hub.subscribers n = (id, .forwarder owner outer) :: clients) (lt : owner < n)
    (rest : ∀ s ∈ clients, s.2.isClient = true) :
    hub.bubble n property = hub.bubble owner outer ++ hub.notes n property := by
  have tail : (clients.flatMap fun s => match s.2 with
      | .client name _ => [(⟨n, s.1, name, property⟩ : Delivery)]
      | .forwarder owner outer => if _h : owner < n then hub.bubble owner outer else []) =
      clients.filterMap (note? n property) := by
    clear h
    induction clients with
    | nil => rfl
    | cons s clients ih =>
        have tail := ih fun s' mem => rest s' (List.mem_cons_of_mem _ mem)
        obtain ⟨id, l⟩ := s
        cases l with
        | client name reaction =>
            rw [List.flatMap_cons, tail, List.filterMap_cons]
            rfl
        | forwarder => simpa [Listener.isClient] using rest _ (List.mem_cons_self ..)
  rw [bubble, notes, h, List.flatMap_cons, tail, List.filterMap_cons]
  simp only [lt, dite_true]
  rfl

theorem Tidy.bubble_of_none (tidy : hub.Tidy) (h : hub.forwarders n = []) (property : String) :
    hub.bubble n property = hub.notes n property := by
  rcases tidy.subscribers_cases n with ⟨-, clients⟩ | ⟨_, _, _, _, -, h', -⟩
  · exact bubble_of_clients clients
  · rw [h] at h'
    cases h'

theorem Tidy.bubble_of_some (tidy : hub.Tidy) {id : SubscriptionId} {owner : NotifierId}
    {outer : String} (h : hub.forwarders n = [(id, owner, outer)]) (property : String) :
    hub.bubble n property = hub.bubble owner outer ++ hub.notes n property := by
  rcases tidy.subscribers_cases n with ⟨h', -⟩ | ⟨_, _, _, _, hs, h', lt, rest⟩
  · rw [h] at h'
    cases h'
  · rw [h] at h'
    cases h'
    exact bubble_of_forwarder hs lt rest

/-- In a tidy hub, announcing a change adds the notes of `bubble` in their order. -/
theorem Tidy.deliveries_notify (tidy : hub.Tidy) (n : NotifierId) (property : String) :
    (hub.notify n property).deliveries = hub.deliveries ++ hub.bubble n property := by
  induction n using Nat.strongRecOn generalizing property with
  | ind n ih =>
      rcases tidy.subscribers_cases n with ⟨-, clients⟩ | ⟨id, owner, outer, clients, h, -, lt, rest⟩
      · rw [notify_eq, deliveries_hear_clients clients, bubble_of_clients clients, notes]
      · rw [notify_eq, h, List.foldl_cons, deliveries_hear_clients rest,
          bubble_of_forwarder h lt rest]
        simp only [hear, lt, if_true]
        rw [ih owner lt, notes, h, List.append_assoc]
        rfl

end SettingsForge.Hub
