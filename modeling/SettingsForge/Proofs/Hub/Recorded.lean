import SettingsForge.Proofs.Hub.Hearing

set_option autoImplicit false

/-! # What the calls of clients say

`Call.Live` reads off the calls of clients whether the subscription of a number stands. In a recorded
hub (`Hub.Recorded`) it stands just if a client is subscribed under this number. `Hub.Serves` is what
clients have a hub do, announcing a change included; it keeps a hub recorded, and no client is ever
given a number that a notifier has given before (`Hub.Follows`). Numbers that went to owners are
reserved (`Hub.Reserved`), so that dropping an owner leaves all clients. -/

namespace SettingsForge

/-- A client was given the number at this notifier, and nobody has ended the subscription of this
    number there since. The calls are listed latest first. -/
def Call.Live (n : NotifierId) (id : SubscriptionId) : List Call → Prop
  | [] => False
  | .subscribed m i :: earlier => (m = n ∧ i = id) ∨ Live n id earlier
  | .unsubscribed m i :: earlier => ¬ (m = n ∧ i = id) ∧ Live n id earlier

theorem Call.mem_of_live {n : NotifierId} {id : SubscriptionId} {calls : List Call}
    (h : Live n id calls) : .subscribed n id ∈ calls := by
  induction calls with
  | nil => exact h.elim
  | cons call earlier ih =>
      cases call with
      | subscribed m i =>
          rcases h with ⟨rfl, rfl⟩ | h
          · exact List.mem_cons_self ..
          · exact List.mem_cons_of_mem _ (ih h)
      | unsubscribed m i => exact List.mem_cons_of_mem _ (ih h.2)

namespace Hub

/-- A client is subscribed under the number. -/
def HasClient (hub : Hub) (n : NotifierId) (id : SubscriptionId) : Prop :=
  ∃ name reaction, (id, .client name reaction) ∈ hub.subscribers n

/-- The calls say which clients are subscribed. -/
structure Recorded (hub : Hub) : Prop where
  live : ∀ n id, Call.Live n id hub.calls ↔ hub.HasClient n id
  issued : ∀ n id, .subscribed n id ∈ hub.calls → id < hub.next n

/-- A number that the notifier has given, but not to a client. -/
def Reserved (hub : Hub) (n : NotifierId) (id : SubscriptionId) : Prop :=
  id < hub.next n ∧ .subscribed n id ∉ hub.calls

/-- The second hub comes about from the first one, and clients were given new numbers only. -/
structure Follows (hub after : Hub) : Prop where
  next : ∀ m, hub.next m ≤ after.next m
  given : ∀ m id, id < hub.next m → .subscribed m id ∈ after.calls → .subscribed m id ∈ hub.calls
  recorded : hub.Recorded → after.Recorded

variable {hub between after : Hub} {n m : NotifierId} {id : SubscriptionId}

/-! ## Laws of `Follows` -/

theorem Follows.refl (hub : Hub) : Follows hub hub := ⟨fun _ => Nat.le_refl _, fun _ _ _ => id, id⟩

theorem Follows.trans (first : Follows hub between) (second : Follows between after) :
    Follows hub after where
  next m := Nat.le_trans (first.next m) (second.next m)
  given m id lt mem :=
    first.given m id lt (second.given m id (Nat.lt_of_lt_of_le lt (first.next m)) mem)
  recorded h := second.recorded (first.recorded h)

/-- What is reserved stays reserved. -/
theorem Follows.reserved (follows : Follows hub after) (h : hub.Reserved n id) :
    after.Reserved n id :=
  ⟨Nat.lt_of_lt_of_le h.1 (follows.next n), fun mem => h.2 (follows.given n id h.1 mem)⟩

/-- Two hubs with the same numbers, calls and clients. -/
theorem Follows.of_views (next : ∀ m, after.next m = hub.next m) (calls : after.calls = hub.calls)
    (clients : ∀ m id, hub.Recorded → (after.HasClient m id ↔ hub.HasClient m id)) :
    Follows hub after where
  next m := Nat.le_of_eq (next m).symm
  given m id _ mem := calls ▸ mem
  recorded h := by
    refine ⟨fun m id => ?_, fun m id mem => ?_⟩
    · rw [calls, clients m id h]
      exact h.live m id
    · rw [next m]
      exact h.issued m id (calls ▸ mem)

/-! ## Operations of the hub -/

theorem recorded_empty : Recorded {} where
  live n id := by simp [Call.Live, HasClient, subscribers, notifier?]
  issued n id mem := by simp at mem

theorem follows_alloc (hub : Hub) : Follows hub hub.alloc.2 :=
  .of_views (next_alloc hub) rfl fun m id _ => by simp [HasClient]

theorem follows_record (hub : Hub) (delivery : Delivery) : Follows hub (hub.record delivery) :=
  .of_views (fun _ => rfl) rfl fun _ _ _ => Iff.rfl

/-- A client may subscribe at any notifier that exists. -/
theorem follows_subscribe (lt : n < hub.size) (client : String) (reaction : Reaction) :
    Follows hub (hub.subscribe n client reaction) := by
  have next_le : ∀ m, hub.next m ≤ (hub.subscribe n client reaction).next m :=
    fun m => next_le_attach ..
  refine ⟨next_le, fun m id old mem => ?given, fun h => ⟨fun m id => ?live, fun m id mem => ?issued⟩⟩
  case given =>
    rcases List.mem_cons.1 mem with same | mem
    · cases same
      exact absurd old (Nat.lt_irrefl _)
    · exact mem
  case live =>
    have earlier := h.live m id
    show (n = m ∧ hub.next n = id) ∨ Call.Live m id hub.calls ↔
      (hub.attach n (.client client reaction)).2.HasClient m id
    by_cases same : n = m
    · subst same
      rw [earlier, HasClient, HasClient, subscribers_attach_self lt]
      constructor
      · rintro (⟨-, rfl⟩ | ⟨name, r, mem⟩)
        · exact ⟨client, reaction, List.mem_append_right _ (List.mem_singleton_self _)⟩
        · exact ⟨name, r, List.mem_append_left _ mem⟩
      · rintro ⟨name, r, mem⟩
        rcases List.mem_append.1 mem with mem | mem
        · exact Or.inr ⟨name, r, mem⟩
        · exact Or.inl ⟨rfl, (congrArg Prod.fst (List.mem_singleton.1 mem)).symm⟩
    · rw [earlier, HasClient, HasClient, subscribers_attach_of_ne (Ne.symm same)]
      exact ⟨fun h => h.resolve_left fun both => same both.1, Or.inr⟩
  case issued =>
    rcases List.mem_cons.1 mem with same | mem
    · cases same
      show hub.next n < (hub.attach n _).2.next n
      rw [next_attach_self lt]
      exact Nat.lt_succ_self _
    · exact Nat.lt_of_lt_of_le (h.issued m id mem) (next_le m)

/-- Who is there after a number was dropped. -/
theorem mem_subscribers_detach {s : SubscriptionId × Listener} :
    s ∈ (hub.detach n id).2.subscribers m ↔ s ∈ hub.subscribers m ∧ ¬ (m = n ∧ s.1 = id) := by
  by_cases same : m = n
  · subst same
    rw [subscribers_detach_self, List.mem_filter]
    simp
  · rw [subscribers_detach_of_ne same]
    simp [same]

theorem hasClient_detach {i : SubscriptionId} :
    (hub.detach n id).2.HasClient m i ↔ hub.HasClient m i ∧ ¬ (m = n ∧ i = id) := by
  unfold HasClient
  simp only [mem_subscribers_detach]
  constructor
  · rintro ⟨name, reaction, mem, other⟩
    exact ⟨⟨name, reaction, mem⟩, other⟩
  · rintro ⟨⟨name, reaction, mem⟩, other⟩
    exact ⟨name, reaction, mem, other⟩

/-- A client may end the subscription of any number. -/
theorem follows_unsubscribe (hub : Hub) (n : NotifierId) (id : SubscriptionId) :
    Follows hub (hub.unsubscribe n id).2 := by
  refine ⟨fun m => Nat.le_of_eq (next_detach hub n m id).symm, fun m i _ mem => ?given,
    fun h => ⟨fun m i => ?live, fun m i mem => ?issued⟩⟩
  case given =>
    rcases List.mem_cons.1 mem with same | mem
    · cases same
    · exact mem
  case live =>
    show ¬ (n = m ∧ id = i) ∧ Call.Live m i hub.calls ↔ (hub.detach n id).2.HasClient m i
    rw [hasClient_detach, h.live m i, and_comm, eq_comm (a := n), eq_comm (a := id)]
  case issued =>
    show i < (hub.detach n id).2.next m
    rw [next_detach]
    rcases List.mem_cons.1 mem with same | mem
    · cases same
    · exact h.issued m i mem

/-- An owner may be dropped. -/
theorem follows_detach (reserved : hub.Reserved n id) : Follows hub (hub.detach n id).2 := by
  refine .of_views (fun m => next_detach hub n m id) rfl fun m i h => ?_
  rw [hasClient_detach]
  refine ⟨And.left, fun client => ⟨client, ?_⟩⟩
  rintro ⟨rfl, rfl⟩
  exact reserved.2 (Call.mem_of_live ((h.live m i).2 client))

/-- An owner may subscribe at a notifier that exists, and gets a reserved number. -/
theorem follows_attach (lt : n < hub.size) (owner : NotifierId) (property : String) :
    Follows hub (hub.attach n (.forwarder owner property)).2 := by
  refine ⟨fun m => next_le_attach .., fun m id _ mem => mem,
    fun h => ⟨fun m id => ?live, fun m id mem => ?issued⟩⟩
  case live =>
    rw [calls_attach, h.live m id, HasClient, HasClient]
    by_cases same : m = n
    · subst same
      rw [subscribers_attach_self lt]
      simp
    · rw [subscribers_attach_of_ne same]
  case issued => exact Nat.lt_of_lt_of_le (h.issued m id mem) (next_le_attach ..)

theorem reserved_attach (recorded : hub.Recorded) (lt : n < hub.size) (owner : NotifierId)
    (property : String) :
    (hub.attach n (.forwarder owner property)).2.Reserved n (hub.next n) := by
  refine ⟨?_, fun mem => Nat.lt_irrefl _ (recorded.issued n _ mem)⟩
  rw [next_attach_self lt]
  exact Nat.lt_succ_self _

/-! ## Serving clients -/

/-- What clients have the hub do, one thing after the other. -/
inductive Serves (hub : Hub) : Hub → Prop
  | nothing : Serves hub hub
  | alloc {after : Hub} : Serves hub after → Serves hub after.alloc.2
  | record {after : Hub} (delivery : Delivery) : Serves hub after → Serves hub (after.record delivery)
  | subscribe {after : Hub} {n : NotifierId} (client : String) (reaction : Reaction) :
      n < after.size → Serves hub after → Serves hub (after.subscribe n client reaction)
  | unsubscribe {after : Hub} (n : NotifierId) (id : SubscriptionId) :
      Serves hub after → Serves hub (after.unsubscribe n id).2

theorem Serves.trans (first : Serves hub between) (second : Serves between after) :
    Serves hub after := by
  induction second with
  | nothing => exact first
  | alloc _ ih => exact .alloc ih
  | record delivery _ ih => exact .record delivery ih
  | subscribe client reaction lt _ ih => exact .subscribe client reaction lt ih
  | unsubscribe n id _ ih => exact .unsubscribe n id ih

theorem Serves.follows (h : Serves hub after) : Follows hub after := by
  induction h with
  | nothing => exact .refl hub
  | alloc _ ih => exact ih.trans (follows_alloc _)
  | record delivery _ ih => exact ih.trans (follows_record _ delivery)
  | subscribe client reaction lt _ ih => exact ih.trans (follows_subscribe lt client reaction)
  | unsubscribe n id _ ih => exact ih.trans (follows_unsubscribe _ n id)

theorem Serves.react (h : Serves hub after) (lt : n < after.size) (reaction : Reaction) :
    Serves hub (after.react n reaction) := by
  unfold Hub.react
  cases reaction.unsubscribe.bind after.last? with
  | none =>
      cases reaction.subscribe with
      | none => exact h
      | some client => exact h.subscribe client {} lt
  | some id =>
      cases reaction.subscribe with
      | none => exact h.unsubscribe n id
      | some client =>
          refine (h.unsubscribe n id).subscribe client {} ?_
          rwa [← size_detach after n id] at lt

/-- Announcing a change is a service to clients, whatever they do when they hear of it. -/
theorem serves_notify (hub : Hub) (n : NotifierId) (property : String) :
    Serves hub (hub.notify n property) := by
  induction n using Nat.strongRecOn generalizing hub property with
  | ind n ih =>
      rw [notify_eq]
      by_cases lt : n < hub.size
      · generalize hub.subscribers n = subscribers
        induction subscribers generalizing hub with
        | nil => exact .nothing
        | cons s subscribers ih' =>
            have first : Serves hub (hear n property hub s) := by
              unfold hear
              split
              · next name reaction _ =>
                have noted : Serves hub (hub.record ⟨n, s.1, name, property⟩) := .record _ .nothing
                exact noted.react lt reaction
              · split
                · next lt => exact ih _ lt hub _
                · exact .nothing
            exact first.trans (ih' _ (by rwa [size_hear]))
      · rw [subscribers_of_size_le (Nat.not_lt.1 lt)]
        exact .nothing

end Hub

end SettingsForge
