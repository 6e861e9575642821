import SettingsForge.Proofs.Workspace.Turns

set_option autoImplicit false

/-! # Whose subscription a number ends

A client ends a subscription at an instance by a number, and every notifier counts from zero. So what
counts is who has the number at that instance, not where it was given
(`Workspace.ends_what_has_the_number`). With numbers that the same instance gave to clients, the calls
of clients say which subscriptions stand, and entries keep their owners. A number from elsewhere may be
the one under which an owner hears of an entry (`Workspace.cuts_the_entry_off`). -/

namespace SettingsForge.Workspace

open Hub Settings

variable {known : Schema → Prop} {w after : Workspace}

/-- The calls of clients say which clients are subscribed, and no owner has a client's number. -/
structure Recorded (w : Workspace) : Prop where
  hub : w.context.hub.Recorded
  sealed : ∀ entry ∈ w.instances, Sealed w.context.hub entry.2

theorem recorded_start (name : String) (catalog : Catalog) : (start name catalog).Recorded where
  hub := recorded_empty
  sealed entry mem := by cases mem

theorem Recorded.fresh (h : w.Recorded) : w.fresh.Recorded := by
  have follows : Follows w.context.hub w.fresh.context.hub :=
    .of_views (fun _ => rfl) rfl fun _ _ _ => Iff.rfl
  exact ⟨follows.recorded h.hub, fun entry mem => (h.sealed entry mem).follows follows⟩

/-- What comes of a recorded workspace is recorded. -/
theorem Turn.recorded (turn : Turn w after) (h : w.Recorded) : after.Recorded := by
  cases turn with
  | served serves sub =>
      have follows := serves.follows
      exact ⟨follows.recorded h.hub, fun entry mem => (h.sealed entry (sub mem)).follows follows⟩
  | evolved there evolves put =>
      obtain ⟨follows, sealed⟩ := evolves.follows h.hub (h.sealed _ there)
      refine ⟨follows.recorded h.hub, fun entry mem => ?_⟩
      rw [put] at mem
      rcases Keyed.mem_insert mem with rfl | mem
      · exact sealed
      · exact (h.sealed entry mem).follows follows
  | made hmake evolves put =>
      obtain ⟨follows, sealed⟩ := evolves.follows_of_make hmake h.hub
      refine ⟨follows.recorded h.hub, fun entry mem => ?_⟩
      rcases put entry mem with rfl | mem
      · exact sealed
      · exact (h.sealed entry mem).follows follows

/-- Every run keeps the workspace recorded, whatever numbers clients use. -/
theorem Reachable.recorded (reachable : w.Reachable) : w.Recorded := by
  obtain ⟨name, catalog, actions, rfl⟩ := reachable
  refine (@run_induction (fun w => (∃ known, w.Sound known) ∧ w.Recorded) ?_ actions _
    ⟨⟨_, sound_start name catalog⟩, recorded_start name catalog⟩).2
  rintro w action ⟨⟨known, sound⟩, recorded⟩
  obtain ⟨later, -, sound_after⟩ := sound.perform action
  exact ⟨⟨later, sound_after⟩, (sound.fresh.turn action).recorded recorded.fresh⟩

/-! ## The end of a subscription -/

theorem has_iff {hub : Hub} {n : NotifierId} {id : SubscriptionId} :
    (hub.detach n id).1 = true ↔ ∃ s ∈ hub.subscribers n, s.1 = id := by
  unfold Hub.detach subscribers Notifier.has
  cases hub.notifier? n <;> simp

/-- A number belongs to a client or to an owner. -/
theorem exists_subscriber_iff {hub : Hub} {n : NotifierId} {id : SubscriptionId} :
    (∃ s ∈ hub.subscribers n, s.1 = id) ↔
      hub.HasClient n id ∨ ∃ f ∈ hub.forwarders n, f.1 = id := by
  constructor
  · rintro ⟨⟨_, l⟩, mem, rfl⟩
    cases l with
    | client name reaction => exact Or.inl ⟨name, reaction, mem⟩
    | forwarder owner property => exact Or.inr ⟨_, mem_forwarders.2 mem, rfl⟩
  · rintro (⟨name, reaction, mem⟩ | ⟨⟨_, owner, property⟩, mem, rfl⟩)
    · exact ⟨_, mem, rfl⟩
    · exact ⟨_, mem_forwarders.1 mem, rfl⟩

/-- An owner hears of its entries as long as clients use numbers where they were given. -/
theorem Sound.forwarders_entry (sound : w.Sound known) (disciplined : w.context.hub.Disciplined)
    {place : Location} {x : Settings} {n : NotifierId} (read : w.read place = .ok x)
    (own : x.notifier = some n) {slot : Slot} (hs : slot ∈ x.slots) {e : Entry}
    (he : e ∈ slot.content.entries) :
    ∃ id m, e.forwarder = some id ∧ e.settings.notifier = some m ∧
      w.context.hub.forwarders m = [(id, n, slot.name)] := by
  obtain ⟨root, there, -, part, -⟩ := sound.read read
  obtain ⟨-, heard⟩ := ((sound.forest.rooted _ there).parts x part).entries slot hs e he
  rw [own] at heard
  obtain ⟨id, m, heard⟩ := heard
  exact ⟨id, m, heard.forwarder, heard.notifier, heard.kept disciplined⟩

theorem unsubscribe_eq {place : Location} {x : Settings} {n : NotifierId} {client : String}
    {id : SubscriptionId} (read : w.read place = .ok x) (own : x.notifier = some n)
    (last : w.context.hub.last? client = some id) :
    w.unsubscribe place client = ⟨.ok (.flag (w.context.hub.detach n id).1),
      { w with context := { w.context with hub := (w.context.hub.unsubscribe n id).2 } }⟩ := by
  unfold Workspace.unsubscribe
  rw [read, last]
  dsimp only
  rw [own]
  rfl

/-- Take a workspace that a run reaches, whatever numbers clients have used where, and let a client end
    the subscription of the number it was given last at an observable instance. The answer says whether
    the number is there that of a client whose subscription stands, or that of an owner. Nobody is
    dropped but who has this number at this instance, and that is one subscriber at most. If the
    instance gave the number to a client, the answer says whether that subscription stands, and no
    owner is dropped. And where clients have always used numbers at the instance that gave them, every
    entry of an observable instance still has the one forwarder that its owner put there. -/
theorem ends_what_has_the_number (reachable : w.Reachable) {place : Location} {x : Settings}
    (read : w.read place = .ok x) {n : NotifierId} (own : x.notifier = some n) {client : String}
    {id : SubscriptionId} (last : w.context.hub.last? client = some id) :
    ∃ had, (w.perform (.unsubscribe place client)).answer = .ok (.flag had) ∧
      (had = true ↔ Call.Live n id w.context.hub.calls ∨
        ∃ f ∈ w.context.hub.forwarders n, f.1 = id) ∧
      (∀ m s, s ∈ (w.perform (.unsubscribe place client)).subject.context.hub.subscribers m ↔
        s ∈ w.context.hub.subscribers m ∧ ¬ (m = n ∧ s.1 = id)) ∧
      ((w.context.hub.subscribers n).map Prod.fst).Nodup ∧
      (.subscribed n id ∈ w.context.hub.calls →
        (had = true ↔ Call.Live n id w.context.hub.calls) ∧
        ∀ m, (w.perform (.unsubscribe place client)).subject.context.hub.forwarders m =
          w.context.hub.forwarders m) ∧
      ((w.perform (.unsubscribe place client)).subject.context.hub.Disciplined →
        ∀ other z k, (w.perform (.unsubscribe place client)).subject.read other = .ok z →
          z.notifier = some k → ∀ slot ∈ z.slots, ∀ e ∈ slot.content.entries,
            ∃ i m, e.forwarder = some i ∧ e.settings.notifier = some m ∧
              (w.perform (.unsubscribe place client)).subject.context.hub.forwarders m =
                [(i, k, slot.name)]) := by
  obtain ⟨known, sound⟩ := reachable.sound
  obtain ⟨later, -, sound_after⟩ := sound.perform (.unsubscribe place client)
  have recorded := reachable.recorded.hub
  -- the notes of earlier steps play no part
  have performed : w.perform (.unsubscribe place client) =
      ⟨.ok (.flag (w.context.hub.detach n id).1),
        { w.fresh with context :=
          { w.fresh.context with hub := (w.fresh.context.hub.unsubscribe n id).2 } }⟩ :=
    unsubscribe_eq (w := w.fresh) read own last
  have had_iff : (w.context.hub.detach n id).1 = true ↔
      Call.Live n id w.context.hub.calls ∨ ∃ f ∈ w.context.hub.forwarders n, f.1 = id := by
    rw [has_iff, exists_subscriber_iff, recorded.live n id]
  have hub_eq : (w.perform (.unsubscribe place client)).subject.context.hub =
      (w.fresh.context.hub.unsubscribe n id).2 := by rw [performed]
  refine ⟨_, by rw [performed], had_iff, fun m s => ?_, sound.tidy.nodup n,
    fun given => ⟨?_, fun m => ?_⟩, fun disciplined other z k read own slot hs e he =>
      sound_after.forwarders_entry disciplined read own hs he⟩
  · rw [hub_eq]
    exact @mem_subscribers_detach w.fresh.context.hub n m id s
  · -- no owner has a number that was given to a client
    rw [had_iff, or_iff_left]
    rintro ⟨f, mem, same⟩
    exact (sound.tidy.issued n id given).2 f mem same
  · rw [hub_eq]
    show (w.context.hub.detach n id).2.forwarders m = _
    by_cases same : m = n
    · subst same
      rw [forwarders_detach_self, List.filter_eq_self]
      exact fun f mem => bne_iff_ne.2 ((sound.tidy.issued m id given).2 f mem)
    · exact forwarders_detach_of_ne same id

/-! ### One shelf -/

/-- A shelf that announces its changes, with an entry, and a client at the shelf. -/
def viewedShelf : Workspace :=
  (start "engine" .empty).run [
    .build "entry" "Entry" none [⟨"count", .value .int, []⟩],
    .build "shelf" "Shelf" none [⟨"entries", .dict "entry", []⟩],
    .create "shelf" (.schema "shelf" .inpc "engine") none,
    .addEntry ⟨"shelf", []⟩ "entries" "a",
    .subscribe ⟨"shelf", []⟩ "view" {}]

theorem reachable_viewedShelf : viewedShelf.Reachable := ⟨"engine", .empty, _, rfl⟩

theorem last?_viewedShelf : viewedShelf.context.hub.last? "view" = some 0 := by decide +kernel

/-- The client ends its subscription where it was given the number, and the shelf still hears of its
    entry. -/
theorem ends_the_view_of_the_shelf :
    (viewedShelf.perform (.unsubscribe ⟨"shelf", []⟩ "view")).answer = .ok (.flag true) ∧
      (∀ m, (viewedShelf.perform (.unsubscribe ⟨"shelf", []⟩ "view")).subject.context.hub.forwarders m =
        viewedShelf.context.hub.forwarders m) ∧
      (viewedShelf.perform (.unsubscribe ⟨"shelf", []⟩ "view")).subject.context.hub.Disciplined := by
  have calls : viewedShelf.context.hub.calls = [.subscribed 0 0] := by decide +kernel
  obtain ⟨had, answer, -, -, -, given, -⟩ :=
    @ends_what_has_the_number viewedShelf reachable_viewedShelf ⟨"shelf", []⟩ _ rfl 0 rfl "view" 0
      last?_viewedShelf
  rw [calls] at given
  obtain ⟨stands, owners⟩ := given (List.mem_singleton_self _)
  have had_eq : had = true := stands.2 (Or.inl ⟨rfl, rfl⟩)
  refine ⟨had_eq ▸ answer, owners, ?_⟩
  unfold Hub.Disciplined
  decide +kernel

/-- The same number, used at the entry, ends the subscription of the shelf there, though the entry gave
    no number to a client. The client was told of a change of the entry before, and is not told any
    more. -/
theorem cuts_the_entry_off :
    viewedShelf.Reachable ∧
      ∃ x n, viewedShelf.read ⟨"shelf", [("entries", "a")]⟩ = .ok x ∧ x.notifier = some n ∧
      viewedShelf.context.hub.last? "view" = some 0 ∧
      .subscribed n 0 ∉ viewedShelf.context.hub.calls ∧
      (viewedShelf.perform (.unsubscribe ⟨"shelf", [("entries", "a")]⟩ "view")).answer =
        .ok (.flag true) ∧
      (viewedShelf.perform
        (.set ⟨"shelf", [("entries", "a")]⟩ "count" (.int 1))).subject.context.hub.deliveries =
          [⟨0, 0, "view", "entries"⟩] ∧
      ((viewedShelf.perform (.unsubscribe ⟨"shelf", [("entries", "a")]⟩ "view")).subject.perform
        (.set ⟨"shelf", [("entries", "a")]⟩ "count" (.int 1))).subject.context.hub.deliveries = [] := by
  have unsubscribed := congrArg Attempt.answer (@unsubscribe_eq viewedShelf.fresh
    ⟨"shelf", [("entries", "a")]⟩ _ 1 "view" 0 rfl rfl last?_viewedShelf)
  have had : (viewedShelf.context.hub.detach 1 0).1 = true := by decide +kernel
  refine ⟨reachable_viewedShelf, _, 1, rfl, rfl, last?_viewedShelf, by decide +kernel, unsubscribed.trans ?_,
    by decide +kernel, by decide +kernel⟩
  exact congrArg (fun had => Except.ok (Report.flag had)) had

end SettingsForge.Workspace
