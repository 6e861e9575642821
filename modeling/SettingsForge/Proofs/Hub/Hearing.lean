import SettingsForge.Proofs.Hub.Notify

set_option autoImplicit false

/-! # Where a change is heard

`Hub.Hears` follows forwarders from a notifier to another one and says under which property a change
at the first is heard at the second. Who is subscribed at the second one takes exactly one note of the
change (`Hub.Hears.filter_bubble`). An area of notifiers that forward to each other only keeps a change
inside (`Hub.Closed`), and an area without clients takes no note at all (`Hub.notify_of_quiet`). -/

namespace SettingsForge.Hub

variable {hub after : Hub} {n k : NotifierId} {f : String → String}

/-! ## Notes -/

theorem mem_notes {property : String} {d : Delivery} (mem : d ∈ hub.notes n property) :
    d.notifier = n ∧ d.property = property := by
  obtain ⟨⟨id, l⟩, -, h⟩ := List.mem_filterMap.1 mem
  cases l with
  | client name reaction =>
      cases h
      exact ⟨rfl, rfl⟩
  | forwarder => cases h

/-- A client takes one note. -/
theorem Tidy.filter_notes (tidy : hub.Tidy) {id : SubscriptionId} {name : String}
    {reaction : Reaction} (mem : (id, .client name reaction) ∈ hub.subscribers n)
    (property : String) :
    (hub.notes n property).filter (fun d => d.subscription == id) = [⟨n, id, name, property⟩] := by
  have nodup := tidy.nodup n
  unfold notes
  revert mem nodup
  induction hub.subscribers n with
  | nil =>
      intro mem
      cases mem
  | cons s subscribers ih =>
      intro mem nodup
      rw [List.map_cons, List.nodup_cons] at nodup
      rw [List.filterMap_cons]
      rcases List.mem_cons.1 mem with rfl | later
      · -- the numbers of the others differ
        have others : (subscribers.filterMap (note? n property)).filter
            (fun d => d.subscription == id) = [] := by
          rw [List.filter_eq_nil_iff]
          intro d hd same
          obtain ⟨⟨id', l⟩, hs, h⟩ := List.mem_filterMap.1 hd
          cases l with
          | client =>
              cases h
              exact nodup.1 (List.mem_map.2 ⟨_, hs, by simpa using same⟩)
          | forwarder => cases h
        simp [note?, others]
      · have ne : s.1 ≠ id := fun same => nodup.1 (List.mem_map.2 ⟨_, later, same.symm⟩)
        obtain ⟨id', l⟩ := s
        cases l with
        | client name' reaction' =>
            simpa [note?, List.filter_cons, beq_eq_false_iff_ne.2 ne] using ih later nodup.2
        | forwarder => simpa [note?] using ih later nodup.2

/-- Changes are heard at older notifiers only. -/
theorem Tidy.le_of_mem_bubble (tidy : hub.Tidy) {property : String} {d : Delivery}
    (mem : d ∈ hub.bubble n property) : d.notifier ≤ n := by
  induction n using Nat.strongRecOn generalizing property with
  | ind n ih =>
      rcases tidy.subscribers_cases n with ⟨-, clients⟩ | ⟨id, owner, outer, clients, h, -, lt, rest⟩
      · rw [bubble_of_clients clients] at mem
        exact Nat.le_of_eq (mem_notes mem).1
      · rw [bubble_of_forwarder h lt rest, List.mem_append] at mem
        rcases mem with mem | mem
        · exact Nat.le_of_lt (Nat.lt_of_le_of_lt (ih owner lt mem) lt)
        · exact Nat.le_of_eq (mem_notes mem).1

/-! ## Hearing -/

/-- A change of a property `p` at the first notifier is heard as a change of `f p` at the second. -/
inductive Hears (hub : Hub) : NotifierId → (String → String) → NotifierId → Prop
  | self (n : NotifierId) : Hears hub n id n
  | up {n owner k : NotifierId} {id : SubscriptionId} {outer : String} {f : String → String} :
      hub.forwarders n = [(id, owner, outer)] → Hears hub owner f k → Hears hub n (fun _ => f outer) k

theorem Tidy.owner_lt (tidy : hub.Tidy) {id : SubscriptionId} {owner : NotifierId} {outer : String}
    (h : hub.forwarders n = [(id, owner, outer)]) : owner < n :=
  tidy.down n (id, owner, outer) (h ▸ List.mem_singleton_self _)

theorem Hears.le (tidy : hub.Tidy) (hears : Hears hub n f k) : k ≤ n := by
  induction hears with
  | self => exact Nat.le_refl _
  | up h _ ih => exact Nat.le_trans ih (Nat.le_of_lt (tidy.owner_lt h))

theorem Hears.filter_bubble (tidy : hub.Tidy) (hears : Hears hub n f k) (property : String) :
    (hub.bubble n property).filter (fun d => d.notifier == k) = hub.notes k (f property) := by
  have own : ∀ (n : NotifierId) (property : String),
      (hub.notes n property).filter (fun d => d.notifier == n) = hub.notes n property :=
    fun n property => List.filter_eq_self.2 fun d mem => beq_iff_eq.2 (mem_notes mem).1
  induction hears generalizing property with
  | self n =>
      rcases tidy.subscribers_cases n with ⟨-, clients⟩ | ⟨id, owner, outer, clients, h, -, lt, rest⟩
      · rw [bubble_of_clients clients, own]
        rfl
      · -- what the owner's listeners note is noted at older notifiers
        have above : (hub.bubble owner outer).filter (fun d => d.notifier == n) = [] := by
          rw [List.filter_eq_nil_iff]
          intro d mem same
          have le := tidy.le_of_mem_bubble mem
          rw [beq_iff_eq.1 same] at le
          exact Nat.not_lt.2 le lt
        rw [bubble_of_forwarder h lt rest, List.filter_append, above, own]
        rfl
  | @up n owner k id outer f h hears ih =>
      have lt : k < n := Nat.lt_of_le_of_lt (hears.le tidy) (tidy.owner_lt h)
      have below : (hub.notes n property).filter (fun d => d.notifier == k) = [] := by
        rw [List.filter_eq_nil_iff]
        intro d mem same
        exact Nat.ne_of_lt lt ((beq_iff_eq.1 same).symm.trans (mem_notes mem).1)
      rw [tidy.bubble_of_some h, List.filter_append, below, ih, List.append_nil]

/-- Hearing lasts as long as no forwarder on the way is dropped. -/
theorem Hears.leads {dropped : NotifierId → Prop} (hears : Hears hub n f k)
    (leads : Leads dropped hub after) (tidy : hub.Tidy) (disciplined : after.Disciplined)
    (lt : n < hub.size) (free : ∀ m ≤ n, ¬ dropped m) : Hears after n f k := by
  induction hears with
  | self => exact .self _
  | up h _ ih =>
      have below := tidy.owner_lt h
      have kept := leads.kept tidy disciplined _ lt (free _ (Nat.le_refl _))
      exact .up (kept.trans h) (ih (Nat.lt_trans below lt) fun m le =>
        free m (Nat.le_trans le (Nat.le_of_lt below)))

/-! ## Areas -/

/-- What is announced in the area stays in the area. -/
def Closed (hub : Hub) (area : NotifierId → Prop) : Prop :=
  ∀ n, area n → ∀ f ∈ hub.forwarders n, area f.2.1

/-- What is announced of these topics, each a property at a notifier, is announced again as another of
    them. -/
def Carries (hub : Hub) (topics : NotifierId → String → Prop) : Prop :=
  ∀ n property, topics n property → ∀ f ∈ hub.forwarders n, topics f.2.1 f.2.2

/-- Nobody but forwarders is subscribed in the area. -/
def Quiet (hub : Hub) (area : NotifierId → Prop) : Prop :=
  ∀ n, area n → ∀ s ∈ hub.subscribers n, s.2.isClient = false

variable {area : NotifierId → Prop} {topics : NotifierId → String → Prop} {property : String}

theorem Closed.carries (closed : hub.Closed area) : hub.Carries fun n _ => area n :=
  fun n _ => closed n

theorem Carries.of_sublist (carries : hub.Carries topics)
    (sub : ∀ n, (after.forwarders n).Sublist (hub.forwarders n)) : after.Carries topics :=
  fun n property among f mem => carries n property among f ((sub n).subset mem)

theorem Closed.of_sublist (closed : hub.Closed area)
    (sub : ∀ n, (after.forwarders n).Sublist (hub.forwarders n)) : after.Closed area :=
  fun n inside f mem => closed n inside f ((sub n).subset mem)

/-- Nobody is subscribed where no notifier is yet. -/
theorem quiet_of_size_le (hub : Hub) : hub.Quiet (hub.size ≤ ·) := by
  intro n le s mem
  rw [subscribers_of_size_le le] at mem
  cases mem

/-- Where there are no clients, a change goes unnoticed. -/
theorem notify_of_quiet (closed : hub.Closed area) (quiet : hub.Quiet area) (inside : area n)
    (property : String) : hub.notify n property = hub := by
  induction n using Nat.strongRecOn generalizing property with
  | ind n ih =>
      rw [notify_eq]
      -- one subscriber after the other leaves the hub as it is
      have each : ∀ s ∈ hub.subscribers n, hear n property hub s = hub := by
        rintro ⟨id, l⟩ mem
        cases l with
        | client => cases quiet n inside _ mem
        | forwarder owner outer =>
            unfold hear
            dsimp only
            split
            · next lt => exact ih owner lt (closed n inside _ (mem_forwarders.2 mem)) outer
            · rfl
      revert each
      induction hub.subscribers n with
      | nil =>
          intro _
          rfl
      | cons s subscribers ih' =>
          intro each
          rw [List.foldl_cons, each s (List.mem_cons_self ..)]
          exact ih' fun s' mem => each s' (List.mem_cons_of_mem _ mem)

/-! ## No notifiers are made by announcing -/

theorem size_react (hub : Hub) (n : NotifierId) (reaction : Reaction) :
    (hub.react n reaction).size = hub.size := by
  unfold react
  dsimp only
  split <;> split <;> simp [subscribe_eq, snd_unsubscribe, size, attach, detach]

theorem size_notify (hub : Hub) (n : NotifierId) (property : String) :
    (hub.notify n property).size = hub.size := by
  induction n using Nat.strongRecOn generalizing hub property with
  | ind n ih =>
      rw [notify_eq]
      generalize hub.subscribers n = subscribers
      induction subscribers generalizing hub with
      | nil => rfl
      | cons s subscribers ih' =>
          rw [List.foldl_cons, ih']
          unfold hear
          split
          · exact size_react ..
          · split
            · next lt => exact ih _ lt hub _
            · rfl

theorem size_hear (hub : Hub) (n : NotifierId) (property : String)
    (s : SubscriptionId × Listener) : (hear n property hub s).size = hub.size := by
  unfold hear
  split
  · exact size_react ..
  · split
    · exact size_notify ..
    · rfl

theorem Leads.sublist_forwarders {dropped : NotifierId → Prop} (leads : Leads dropped hub after)
    (size : after.size = hub.size) (m : NotifierId) :
    (after.forwarders m).Sublist (hub.forwarders m) := by
  by_cases lt : m < hub.size
  · exact leads.sublist m lt
  · rw [forwarders_of_size_le (by rw [size]; exact Nat.not_lt.1 lt)]
    exact List.nil_sublist _

theorem sublist_forwarders_notify (hub : Hub) (n : NotifierId) (property : String) (m : NotifierId) :
    ((hub.notify n property).forwarders m).Sublist (hub.forwarders m) :=
  (leads_notify (fun _ => False) hub n property).sublist_forwarders (size_notify ..) m

theorem Closed.notify (closed : hub.Closed area) (n : NotifierId) (property : String) :
    (hub.notify n property).Closed area := closed.of_sublist (sublist_forwarders_notify hub n property)

theorem Carries.notify (carries : hub.Carries topics) (n : NotifierId) (property : String) :
    (hub.notify n property).Carries topics :=
  carries.of_sublist (sublist_forwarders_notify hub n property)

/-- What is announced of some topics is noted of them. -/
theorem Carries.deliveries_notify (carries : hub.Carries topics) (among : topics n property) :
    ∃ added, (hub.notify n property).deliveries = hub.deliveries ++ added ∧
      ∀ d ∈ added, topics d.notifier d.property := by
  induction n using Nat.strongRecOn generalizing hub property with
  | ind n ih =>
      by_cases lt : hub.size ≤ n
      · rw [notify_eq, subscribers_of_size_le lt]
        exact ⟨[], by simp, by simp⟩
      rw [notify_eq]
      have owners : ∀ s ∈ hub.subscribers n, ∀ owner outer, s.2 = .forwarder owner outer →
          topics owner outer := by
        rintro ⟨id, l⟩ mem owner outer rfl
        exact carries n property among _ (mem_forwarders.2 mem)
      revert owners
      generalize hub.subscribers n = subscribers
      intro owners
      -- the forwarders carry the topics on while clients react
      induction subscribers generalizing hub with
      | nil => exact ⟨[], by simp, by simp⟩
      | cons s subscribers ih' =>
          have step : ∃ added, (hear n property hub s).deliveries = hub.deliveries ++ added ∧
              ∀ d ∈ added, topics d.notifier d.property := by
            obtain ⟨id, l⟩ := s
            cases l with
            | client name reaction =>
                refine ⟨[⟨n, id, name, property⟩], deliveries_hear_client rfl hub, ?_⟩
                intro d mem
                rwa [List.mem_singleton.1 mem]
            | forwarder owner outer =>
                unfold hear
                dsimp only
                split
                · next lt => exact ih owner lt carries (owners _ (List.mem_cons_self ..) _ _ rfl)
                · exact ⟨[], by simp, by simp⟩
          have carries' : (hear n property hub s).Carries topics :=
            carries.of_sublist ((leads_hear (fun _ => False) (Nat.not_le.1 lt)
              (fun m _ outer => leads_notify _ hub m outer) s).sublist_forwarders (size_hear ..))
          obtain ⟨added, heq, hin⟩ := step
          obtain ⟨more, heq', hin'⟩ := ih' carries' (by rwa [size_hear])
            fun s' mem => owners s' (List.mem_cons_of_mem _ mem)
          refine ⟨added ++ more, by rw [List.foldl_cons, heq', heq, List.append_assoc], fun d mem => ?_⟩
          exact (List.mem_append.1 mem).elim (hin d) (hin' d)

/-- What is announced in a closed area is noted there. -/
theorem Closed.deliveries_notify (closed : hub.Closed area) (inside : area n) (property : String) :
    ∃ added, (hub.notify n property).deliveries = hub.deliveries ++ added ∧
      ∀ d ∈ added, area d.notifier := closed.carries.deliveries_notify inside

/-! ## Several changes -/

/-- Changes of some topics are announced, one after the other. -/
inductive Announced (topics : NotifierId → String → Prop) : Hub → Hub → Prop
  | nothing (hub : Hub) : Announced topics hub hub
  | change {hub after : Hub} {n : NotifierId} {property : String} :
      topics n property → Announced topics (hub.notify n property) after → Announced topics hub after

theorem Announced.one (hub : Hub) (among : topics n property) :
    Announced topics hub (hub.notify n property) := .change among (.nothing _)

theorem Announced.trans {between : Hub} (first : Announced topics hub between)
    (second : Announced topics between after) : Announced topics hub after := by
  induction first with
  | nothing => exact second
  | change among _ ih => exact .change among (ih second)

theorem Announced.mono {wider : NotifierId → String → Prop} (h : Announced topics hub after)
    (sub : ∀ n property, topics n property → wider n property) : Announced wider hub after := by
  induction h with
  | nothing => exact .nothing _
  | change among _ ih => exact .change (sub _ _ among) ih

/-- Without topics there is nothing to announce. -/
theorem Announced.eq_of_none (h : Announced topics hub after)
    (none : ∀ n property, ¬ topics n property) : after = hub := by
  cases h with
  | nothing => rfl
  | change among _ => exact absurd among (none _ _)

theorem Announced.deliveries (h : Announced topics hub after) (carries : hub.Carries topics) :
    ∃ added, after.deliveries = hub.deliveries ++ added ∧
      ∀ d ∈ added, topics d.notifier d.property := by
  induction h with
  | nothing => exact ⟨[], by simp, by simp⟩
  | @change hub after n property among _ ih =>
      obtain ⟨added, heq, hin⟩ := carries.deliveries_notify among
      obtain ⟨more, heq', hin'⟩ := ih (carries.notify n property)
      refine ⟨added ++ more, by rw [heq', heq, List.append_assoc], fun d mem => ?_⟩
      exact (List.mem_append.1 mem).elim (hin d) (hin' d)

end SettingsForge.Hub
