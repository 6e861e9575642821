import Mathlib.Data.List.Nodup
import SettingsForge.Settings.Make

set_option autoImplicit false

/-! # What there is to see of a hub

The subscribers of a notifier, the number it gives next, and its forwarders, as functions of the hub;
and for each operation of the hub what it does to them. A notifier that does not exist has no
subscribers. -/

namespace SettingsForge

namespace Listener

def isClient : Listener → Bool
  | .client .. => true
  | .forwarder .. => false

/-- The owner and the property that a forwarder announces. -/
def target? : Listener → Option (NotifierId × String)
  | .client .. => none
  | .forwarder owner property => some (owner, property)

theorem target?_eq_none_iff {l : Listener} : l.target? = none ↔ l.isClient = true := by
  cases l <;> simp [target?, isClient]

end Listener

/-- The notifier that a call of a client is about. -/
def Call.notifier : Call → NotifierId
  | .subscribed n _ => n
  | .unsubscribed n _ => n

/-- Clients end subscriptions only with numbers that the same notifier gave to a client before. The
    calls are listed latest first. -/
def Call.Disciplined : List Call → Prop
  | [] => True
  | .subscribed .. :: earlier => Disciplined earlier
  | .unsubscribed n id :: earlier => .subscribed n id ∈ earlier ∧ Disciplined earlier

instance Call.decidableDisciplined : (calls : List Call) → Decidable (Call.Disciplined calls)
  | [] => isTrue trivial
  | .subscribed .. :: earlier => decidableDisciplined earlier
  | .unsubscribed n id :: earlier =>
    have := decidableDisciplined earlier
    inferInstanceAs (Decidable (.subscribed n id ∈ earlier ∧ Disciplined earlier))

theorem Call.Disciplined.of_append {later earlier : List Call} (h : Disciplined (later ++ earlier)) :
    Disciplined earlier := by
  induction later with
  | nil => exact h
  | cons call later ih =>
      cases call with
      | subscribed n id => exact ih h
      | unsubscribed n id => exact ih h.2

namespace Hub

/-- Clients ended subscriptions only with numbers of the same notifier. -/
def Disciplined (hub : Hub) : Prop := Call.Disciplined hub.calls

def size (hub : Hub) : Nat := hub.notifiers.length

/-- The subscribers of a notifier in the order in which they came. -/
def subscribers (hub : Hub) (n : NotifierId) : List (SubscriptionId × Listener) :=
  ((hub.notifier? n).map Notifier.subscribers).getD []

/-- The number that a notifier gives next. -/
def next (hub : Hub) (n : NotifierId) : SubscriptionId :=
  ((hub.notifier? n).map Notifier.next).getD 0

/-- The subscribers of a notifier that announce its changes elsewhere: number, owner and property. -/
def forwarders (hub : Hub) (n : NotifierId) : List (SubscriptionId × NotifierId × String) :=
  (hub.subscribers n).filterMap fun s => s.2.target?.map fun target => (s.1, target)

theorem mem_forwarders {hub : Hub} {n : NotifierId} {id : SubscriptionId} {owner : NotifierId}
    {property : String} :
    (id, owner, property) ∈ hub.forwarders n ↔
      (id, .forwarder owner property) ∈ hub.subscribers n := by
  unfold forwarders
  rw [List.mem_filterMap]
  constructor
  · rintro ⟨⟨id', l⟩, mem, h⟩
    cases l with
    | client => simp [Listener.target?] at h
    | forwarder => simp_all [Listener.target?]
  · intro mem
    exact ⟨_, mem, rfl⟩

theorem subscribers_of_size_le {hub : Hub} {n : NotifierId} (h : hub.size ≤ n) :
    hub.subscribers n = [] := by
  simp [subscribers, notifier?, List.getElem?_eq_none_iff.2 h]

theorem next_of_size_le {hub : Hub} {n : NotifierId} (h : hub.size ≤ n) : hub.next n = 0 := by
  simp [next, notifier?, List.getElem?_eq_none_iff.2 h]

theorem forwarders_of_size_le {hub : Hub} {n : NotifierId} (h : hub.size ≤ n) :
    hub.forwarders n = [] := by
  simp [forwarders, subscribers_of_size_le h]

theorem notifier?_of_lt {hub : Hub} {n : NotifierId} (h : n < hub.size) :
    hub.notifier? n = some ⟨hub.next n, hub.subscribers n⟩ := by
  simp [subscribers, next, notifier?, List.getElem?_eq_getElem h]

/-! ## A new notifier -/

theorem size_alloc (hub : Hub) : hub.alloc.2.size = hub.size + 1 := by simp [alloc, size]

theorem fst_alloc (hub : Hub) : hub.alloc.1 = hub.size := rfl

@[simp] theorem subscribers_alloc (hub : Hub) (n : NotifierId) :
    hub.alloc.2.subscribers n = hub.subscribers n := by
  rcases Nat.lt_trichotomy n hub.size with h | rfl | h
  · unfold subscribers
    rw [notifier?_alloc_of_lt h]
  · rw [subscribers_of_size_le (Nat.le_refl _)]
    unfold subscribers
    rw [← fst_alloc, notifier?_alloc]
    rfl
  · rw [subscribers_of_size_le (Nat.le_of_lt h),
      subscribers_of_size_le (by rw [size_alloc]; exact h)]

@[simp] theorem next_alloc (hub : Hub) (n : NotifierId) : hub.alloc.2.next n = hub.next n := by
  rcases Nat.lt_trichotomy n hub.size with h | rfl | h
  · unfold next
    rw [notifier?_alloc_of_lt h]
  · rw [next_of_size_le (Nat.le_refl _)]
    unfold next
    rw [← fst_alloc, notifier?_alloc]
    rfl
  · rw [next_of_size_le (Nat.le_of_lt h), next_of_size_le (by rw [size_alloc]; exact h)]

@[simp] theorem forwarders_alloc (hub : Hub) (n : NotifierId) :
    hub.alloc.2.forwarders n = hub.forwarders n := by simp [forwarders]

@[simp] theorem calls_alloc (hub : Hub) : hub.alloc.2.calls = hub.calls := rfl

@[simp] theorem deliveries_alloc (hub : Hub) : hub.alloc.2.deliveries = hub.deliveries := rfl

/-! ## A new subscriber -/

@[simp] theorem size_attach (hub : Hub) (n : NotifierId) (listener : Listener) :
    (hub.attach n listener).2.size = hub.size := by simp [attach, size]

@[simp] theorem calls_attach (hub : Hub) (n : NotifierId) (listener : Listener) :
    (hub.attach n listener).2.calls = hub.calls := rfl

@[simp] theorem deliveries_attach (hub : Hub) (n : NotifierId) (listener : Listener) :
    (hub.attach n listener).2.deliveries = hub.deliveries := rfl

theorem subscribers_attach_self {hub : Hub} {n : NotifierId} (h : n < hub.size)
    (listener : Listener) :
    (hub.attach n listener).2.subscribers n = hub.subscribers n ++ [(hub.next n, listener)] := by
  rw [subscribers, notifier?_attach_self (notifier?_of_lt h)]
  rfl

theorem next_attach_self {hub : Hub} {n : NotifierId} (h : n < hub.size) (listener : Listener) :
    (hub.attach n listener).2.next n = hub.next n + 1 := by
  rw [next, notifier?_attach_self (notifier?_of_lt h)]
  rfl

theorem subscribers_attach_of_ne {hub : Hub} {n m : NotifierId} (h : m ≠ n)
    (listener : Listener) : (hub.attach n listener).2.subscribers m = hub.subscribers m := by
  rw [subscribers, notifier?_attach_of_ne h]
  rfl

theorem next_attach_of_ne {hub : Hub} {n m : NotifierId} (h : m ≠ n) (listener : Listener) :
    (hub.attach n listener).2.next m = hub.next m := by
  rw [next, notifier?_attach_of_ne h]
  rfl

theorem forwarders_attach_of_ne {hub : Hub} {n m : NotifierId} (h : m ≠ n)
    (listener : Listener) : (hub.attach n listener).2.forwarders m = hub.forwarders m := by
  rw [forwarders, subscribers_attach_of_ne h]
  rfl

theorem next_le_attach (hub : Hub) (n m : NotifierId) (listener : Listener) :
    hub.next m ≤ (hub.attach n listener).2.next m := by
  by_cases h : m = n
  · subst h
    by_cases lt : m < hub.size
    · rw [next_attach_self lt]
      exact Nat.le_succ _
    · rw [next_of_size_le (Nat.not_lt.1 lt)]
      exact Nat.zero_le _
  · exact Nat.le_of_eq (next_attach_of_ne h _).symm

theorem mem_subscribers_attach {hub : Hub} {n m : NotifierId} {listener : Listener}
    {s : SubscriptionId × Listener} (mem : s ∈ (hub.attach n listener).2.subscribers m) :
    s ∈ hub.subscribers m ∨ m = n ∧ s = (hub.next n, listener) := by
  by_cases h : m = n
  · subst h
    by_cases lt : m < hub.size
    · rw [subscribers_attach_self lt, List.mem_append, List.mem_singleton] at mem
      rcases mem with mem | rfl
      · exact Or.inl mem
      · exact Or.inr ⟨rfl, rfl⟩
    · rw [subscribers_of_size_le (by rw [size_attach]; exact Nat.not_lt.1 lt)] at mem
      cases mem
  · rw [subscribers_attach_of_ne h] at mem
    exact Or.inl mem

/-! ## The end of a subscription -/

@[simp] theorem size_detach (hub : Hub) (n : NotifierId) (id : SubscriptionId) :
    (hub.detach n id).2.size = hub.size := by simp [detach, size]

@[simp] theorem calls_detach (hub : Hub) (n : NotifierId) (id : SubscriptionId) :
    (hub.detach n id).2.calls = hub.calls := rfl

@[simp] theorem deliveries_detach (hub : Hub) (n : NotifierId) (id : SubscriptionId) :
    (hub.detach n id).2.deliveries = hub.deliveries := rfl

theorem notifier?_detach_self (hub : Hub) (n : NotifierId) (id : SubscriptionId) :
    (hub.detach n id).2.notifier? n = (hub.notifier? n).map fun notifier => notifier.detach id := by
  simp [detach, notifier?, List.getElem?_modify_eq]

theorem notifier?_detach_of_ne {hub : Hub} {n m : NotifierId} (h : m ≠ n) (id : SubscriptionId) :
    (hub.detach n id).2.notifier? m = hub.notifier? m := by
  simp [detach, notifier?, List.getElem?_modify_ne _ _ (Ne.symm h)]

theorem subscribers_detach_self (hub : Hub) (n : NotifierId) (id : SubscriptionId) :
    (hub.detach n id).2.subscribers n = (hub.subscribers n).filter fun s => s.1 != id := by
  rw [subscribers, notifier?_detach_self, subscribers]
  cases hub.notifier? n <;> rfl

@[simp] theorem next_detach (hub : Hub) (n m : NotifierId) (id : SubscriptionId) :
    (hub.detach n id).2.next m = hub.next m := by
  by_cases h : m = n
  · subst h
    rw [next, notifier?_detach_self, next]
    cases hub.notifier? m <;> rfl
  · rw [next, notifier?_detach_of_ne h, next]

theorem subscribers_detach_of_ne {hub : Hub} {n m : NotifierId} (h : m ≠ n)
    (id : SubscriptionId) : (hub.detach n id).2.subscribers m = hub.subscribers m := by
  rw [subscribers, notifier?_detach_of_ne h, subscribers]

theorem forwarders_detach_of_ne {hub : Hub} {n m : NotifierId} (h : m ≠ n)
    (id : SubscriptionId) : (hub.detach n id).2.forwarders m = hub.forwarders m := by
  rw [forwarders, subscribers_detach_of_ne h, forwarders]

theorem forwarders_detach_self (hub : Hub) (n : NotifierId) (id : SubscriptionId) :
    (hub.detach n id).2.forwarders n = (hub.forwarders n).filter fun f => f.1 != id := by
  rw [forwarders, subscribers_detach_self, forwarders, List.filter_filterMap, List.filterMap_filter]
  refine List.filterMap_congr fun s _ => ?_
  obtain ⟨id', l⟩ := s
  cases l <;> by_cases h : id' = id <;> simp [Listener.target?, Option.filter, h]

theorem sublist_forwarders_detach (hub : Hub) (n m : NotifierId) (id : SubscriptionId) :
    ((hub.detach n id).2.forwarders m).Sublist (hub.forwarders m) := by
  by_cases h : m = n
  · subst h
    rw [forwarders, subscribers_detach_self]
    exact List.filter_sublist.filterMap _
  · rw [forwarders_detach_of_ne h]

/-! ## What clients ask for -/

theorem subscribe_eq (hub : Hub) (n : NotifierId) (client : String) (reaction : Reaction) :
    hub.subscribe n client reaction =
      { (hub.attach n (.client client reaction)).2 with
        last := Keyed.insert client (hub.next n) hub.last
        calls := .subscribed n (hub.next n) :: hub.calls } := rfl

theorem snd_unsubscribe (hub : Hub) (n : NotifierId) (id : SubscriptionId) :
    (hub.unsubscribe n id).2 =
      { (hub.detach n id).2 with calls := .unsubscribed n id :: hub.calls } := rfl

end Hub

end SettingsForge
