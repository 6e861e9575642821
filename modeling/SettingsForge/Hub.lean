import SettingsForge.Decimal.Layout
import SettingsForge.Keyed

set_option autoImplicit false

/-! # Change notification

Every observable instance has a notifier, an ordered list of subscribers. A change is announced to the
subscribers that are there when it happens, in the order in which they came. A subscriber is a client,
who takes note of the property, or a forwarder, through which an entry of a dictionary announces its
changes as changes of the dictionary.

All notifiers live in a hub and are never removed from it, so that a client may hold on to one. A
notifier is made after those that it forwards to; `Hub.notify` therefore ends. -/

namespace SettingsForge

/-- A notifier, by its place in the hub. -/
abbrev NotifierId := Nat

/-- A subscription, by its number at its notifier. Every notifier counts from zero. -/
abbrev SubscriptionId := Nat

/-- What a client does at its notifier after it took note of a change: end the subscription that a
    client took last, then subscribe a client. -/
structure Reaction where
  unsubscribe : Option String := none
  subscribe : Option String := none
  deriving DecidableEq, Repr

/-- Who hears of a change. -/
inductive Listener where
  | client (name : String) (reaction : Reaction)
  /-- Announce a change of this property at the owner's notifier. -/
  | forwarder (owner : NotifierId) (property : String)
  deriving DecidableEq, Repr

structure Notifier where
  next : SubscriptionId := 0
  subscribers : List (SubscriptionId × Listener) := []
  deriving DecidableEq, Repr

namespace Notifier

/-- Add a subscriber at the end. -/
def attach (n : Notifier) (listener : Listener) : Notifier :=
  ⟨n.next + 1, n.subscribers ++ [(n.next, listener)]⟩

/-- Drop the subscriber of a number. -/
def detach (n : Notifier) (id : SubscriptionId) : Notifier :=
  { n with subscribers := n.subscribers.filter fun s => s.1 != id }

/-- Whether there is a subscriber of a number. -/
def has (n : Notifier) (id : SubscriptionId) : Bool := n.subscribers.any fun s => s.1 == id

end Notifier

/-- A note that a client took: where, under which number, and of which property. -/
structure Delivery where
  notifier : NotifierId
  subscription : SubscriptionId
  client : String
  property : String
  deriving DecidableEq, Repr

/-- What a client asked of a notifier: a subscription, with the number that it was given, or the end of
    the subscription of a number. -/
inductive Call where
  | subscribed (notifier : NotifierId) (id : SubscriptionId)
  | unsubscribed (notifier : NotifierId) (id : SubscriptionId)
  deriving DecidableEq, Repr

structure Hub where
  notifiers : List Notifier := []
  /-- All notes, earliest first. -/
  deliveries : List Delivery := []
  /-- The number that each client was given last. -/
  last : List (String × SubscriptionId) := []
  /-- What clients asked for, latest first. -/
  calls : List Call := []
  deriving DecidableEq, Repr

namespace Hub

/-- A new notifier without subscribers. -/
def alloc (hub : Hub) : NotifierId × Hub :=
  (hub.notifiers.length, { hub with notifiers := hub.notifiers ++ [{}] })

def notifier? (hub : Hub) (n : NotifierId) : Option Notifier := hub.notifiers[n]?

/-- How many subscribers a notifier has. -/
def count (hub : Hub) (n : NotifierId) : Nat :=
  ((hub.notifier? n).map fun notifier => notifier.subscribers.length).getD 0

/-- Subscribe a listener; the answer is its number. -/
def attach (hub : Hub) (n : NotifierId) (listener : Listener) : SubscriptionId × Hub :=
  (((hub.notifier? n).map Notifier.next).getD 0,
    { hub with notifiers := hub.notifiers.modify n fun notifier => notifier.attach listener })

/-- Drop a subscriber; the answer is whether there was one of this number. -/
def detach (hub : Hub) (n : NotifierId) (id : SubscriptionId) : Bool × Hub :=
  (((hub.notifier? n).map fun notifier => notifier.has id).getD false,
    { hub with notifiers := hub.notifiers.modify n fun notifier => notifier.detach id })

/-- The number that a client was given last. -/
def last? (hub : Hub) (client : String) : Option SubscriptionId := hub.last.lookup client

/-- Subscribe a client and remember its number. -/
def subscribe (hub : Hub) (n : NotifierId) (client : String) (reaction : Reaction) : Hub :=
  match hub.attach n (.client client reaction) with
  | (id, after) =>
    { after with
      last := Keyed.insert client id after.last
      calls := .subscribed n id :: after.calls }

/-- End a subscription for a client, who may name any number; the answer is whether there was a
    subscriber of this number. -/
def unsubscribe (hub : Hub) (n : NotifierId) (id : SubscriptionId) : Bool × Hub :=
  match hub.detach n id with
  | (had, after) => (had, { after with calls := .unsubscribed n id :: after.calls })

/-- Take note of a change. -/
def record (hub : Hub) (delivery : Delivery) : Hub :=
  { hub with deliveries := hub.deliveries ++ [delivery] }

/-- What a client does after it took note of a change. -/
def react (hub : Hub) (n : NotifierId) (reaction : Reaction) : Hub :=
  let hub := match reaction.unsubscribe.bind hub.last? with
    | some id => (hub.unsubscribe n id).2
    | none => hub
  match reaction.subscribe with
  | some client => hub.subscribe n client {}
  | none => hub

/-- Announce a change of a property at a notifier. -/
def notify (hub : Hub) (n : NotifierId) (property : String) : Hub :=
  match hub.notifier? n with
  | none => hub
  | some notifier =>
    notifier.subscribers.foldl (fun hub subscriber =>
      match subscriber.2 with
      | .client name reaction =>
        (hub.record ⟨n, subscriber.1, name, property⟩).react n reaction
      | .forwarder owner outer => if _h : owner < n then hub.notify owner outer else hub) hub
  termination_by n

/-- The debug text of a notifier. -/
def debug (hub : Hub) (n : NotifierId) : String :=
  "ChangeNotifier \x7b subscribers: " ++ natText (hub.count n) ++ " \x7d"

/-! ## Equations -/

theorem notifier?_alloc (hub : Hub) : hub.alloc.2.notifier? hub.alloc.1 = some {} := by
  simp [alloc, notifier?]

theorem notifier?_alloc_of_lt {hub : Hub} {n : NotifierId} (h : n < hub.notifiers.length) :
    hub.alloc.2.notifier? n = hub.notifier? n := by
  simp [alloc, notifier?, List.getElem?_append_left h]

theorem notifier?_attach_self {hub : Hub} {n : NotifierId} {notifier : Notifier}
    (h : hub.notifier? n = some notifier) (listener : Listener) :
    (hub.attach n listener).2.notifier? n = some (notifier.attach listener) := by
  simp only [attach, notifier?] at h ⊢
  simp [List.getElem?_modify_eq, h]

theorem notifier?_attach_of_ne {hub : Hub} {n m : NotifierId} (h : m ≠ n)
    (listener : Listener) : (hub.attach n listener).2.notifier? m = hub.notifier? m := by
  simp [attach, notifier?, List.getElem?_modify_ne _ _ (Ne.symm h)]

end Hub

end SettingsForge
