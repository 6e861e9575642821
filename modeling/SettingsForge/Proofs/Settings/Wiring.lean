import SettingsForge.Proofs.Hub.Hearing
import SettingsForge.Proofs.Lists
import SettingsForge.Proofs.Settings.Parts

set_option autoImplicit false

/-! # How instances are wired

In a tree of observable instances every entry has a notifier that is younger than its owner's, and its
only forwarder announces there the property of the dictionary that the entry is in. Other trees have
no notifiers and no forwarders. The wiring of a tree lasts through every operation of the hub that
drops no forwarder of the tree's entries (`Settings.Wired.leads`). Clients may cut a forwarder
only by using a number that they were not given. -/

namespace SettingsForge

/-- What the notifier `n` hears of the entry is announced as a change of the property. -/
structure EntryOf.HeardBy (e : Entry) (hub : Hub) (n : NotifierId) (property : String)
    (id : SubscriptionId) (m : NotifierId) : Prop where
  forwarder : e.forwarder = some id
  notifier : e.settings.notifier = some m
  lt : n < m
  only : ∀ f ∈ hub.forwarders m, f = (id, n, property)
  kept : hub.Disciplined → hub.forwarders m = [(id, n, property)]

/-- An entry of a dictionary of an owner. -/
def EntryOf.Wired (e : Entry) (hub : Hub) (kind : Kind) (notifier : Option NotifierId)
    (property : String) : Prop :=
  e.settings.kind = kind ∧
    match notifier with
    | none => e.forwarder = none
    | some n => ∃ id m, e.HeardBy hub n property id m

namespace Settings

/-- An instance is wired, whatever its entries do inside. -/
structure WiredAt (hub : Hub) (x : Settings) : Prop where
  notifier : x.notifier.isSome = x.kind.isObservable
  lt : ∀ n, x.notifier = some n → n < hub.size
  entries : ∀ slot ∈ x.slots, ∀ e ∈ slot.content.entries,
    e.Wired hub x.kind x.notifier slot.name

/-- An instance and all entries inside it are wired, each with a notifier of its own. -/
structure Wired (hub : Hub) (x : Settings) : Prop where
  parts : ∀ y ∈ x.parts, WiredAt hub y
  nodup : x.notifiers.Nodup

variable {hub after : Hub} {x : Settings}

theorem Wired.self (h : Wired hub x) : WiredAt hub x := h.parts x (self_mem_parts x)

theorem mem_parts_of_entry {slot : Slot} (hs : slot ∈ x.slots) {e : Entry}
    (he : e ∈ slot.content.entries) {y : Settings} (h : y ∈ e.settings.parts) : y ∈ x.parts :=
  mem_parts.2 (Or.inr ⟨slot, hs, ContentOf.mem_parts.2 ⟨e, he, h⟩⟩)

/-- An entry with a notifier is heard by its owner. -/
theorem Wired.exists_heard (h : Wired hub x) {slot : Slot} (hs : slot ∈ x.slots) {e : Entry}
    (he : e ∈ slot.content.entries) {m : NotifierId} (own : e.settings.notifier = some m) :
    ∃ n id, x.notifier = some n ∧ e.HeardBy hub n slot.name id m := by
  obtain ⟨kind, heard⟩ := h.self.entries slot hs e he
  cases hn : x.notifier with
  | none =>
      -- entries of an instance without a notifier have none either
      have owner := h.self.notifier
      have entry := (h.parts _ (mem_parts_of_entry hs he (self_mem_parts _))).notifier
      rw [kind, ← owner, hn, own] at entry
      cases entry
  | some n =>
      rw [hn] at heard
      obtain ⟨id, k, heard⟩ := heard
      cases own.symm.trans heard.notifier
      exact ⟨n, id, rfl, heard⟩

/-- A notifier inside is younger than the owner's and exists. -/
theorem lt_of_mem_inner (h : ∀ y ∈ x.parts, WiredAt hub y) {m : NotifierId} (mem : m ∈ x.inner) :
    m < hub.size ∧ ∀ n, x.notifier = some n → n < m := by
  induction x using tree_induction with
  | step x ih =>
      obtain ⟨slot, hs, e, he, mem⟩ := mem_inner.1 mem
      have own := h x (self_mem_parts x)
      have entry := own.entries slot hs e he
      have parts : ∀ y ∈ e.settings.parts, WiredAt hub y :=
        fun y hy => h y (mem_parts_of_entry hs he hy)
      have at_entry := parts _ (self_mem_parts _)
      -- the entry's notifier is younger than the owner's, and those inside it are younger still
      have first : ∀ n, x.notifier = some n → ∀ k, e.settings.notifier = some k → n < k := by
        intro n hn k hk
        have heard := entry.2
        rw [hn] at heard
        obtain ⟨id, m', heard⟩ := heard
        rw [heard.notifier] at hk
        cases hk
        exact heard.lt
      rcases mem_notifiers_iff.1 mem with same | deeper
      · exact ⟨at_entry.lt m same, fun n hn => first n hn m same⟩
      · have below := ih slot hs e he parts deeper
        refine ⟨below.1, fun n hn => ?_⟩
        have heard := entry.2
        rw [hn] at heard
        obtain ⟨id, k, heard⟩ := heard
        exact Nat.lt_trans heard.lt (below.2 k heard.notifier)

theorem Wired.lt_size (h : Wired hub x) {m : NotifierId} (mem : m ∈ x.notifiers) :
    m < hub.size := by
  rcases mem_notifiers_iff.1 mem with same | inside
  · exact h.self.lt m same
  · exact (lt_of_mem_inner h.parts inside).1

/-- An observable instance's own notifier is not among those inside. -/
theorem Wired.not_mem_inner (h : Wired hub x) {n : NotifierId} (hn : x.notifier = some n) {m : NotifierId}
    (le : m ≤ n) : m ∉ x.inner :=
  fun mem => Nat.not_lt.2 le ((lt_of_mem_inner h.parts mem).2 n hn)

end Settings

namespace Settings

/-- The entries inside a part come in the order in which the whole has them. -/
theorem parts_sublist {x y : Settings} (h : y ∈ x.parts) : y.parts.Sublist x.parts := by
  induction x using tree_induction with
  | step x ih =>
      rcases mem_parts.1 h with rfl | ⟨slot, hs, inside⟩
      · exact List.Sublist.refl _
      · obtain ⟨e, he, inside⟩ := ContentOf.mem_parts.1 inside
        have in_slot : e.settings.parts.Sublist slot.content.parts := by
          rw [ContentOf.parts, entryParts_eq_flatMap, List.flatMap]
          exact List.sublist_flatten_of_mem (List.mem_map_of_mem he)
        have in_slots : slot.content.parts.Sublist (slotParts x.slots) := by
          rw [slotParts_eq_flatMap, List.flatMap]
          exact List.sublist_flatten_of_mem (List.mem_map.2 ⟨slot, hs, rfl⟩)
        rw [parts_eq_cons x]
        exact ((ih slot hs e he inside).trans (in_slot.trans in_slots)).cons x

/-- A part of a wired instance is wired. -/
theorem Wired.part {hub : Hub} {x y : Settings} (h : Wired hub x) (mem : y ∈ x.parts) : Wired hub y :=
  ⟨fun z hz => h.parts z (parts_trans mem hz), h.nodup.sublist ((parts_sublist mem).filterMap _)⟩

/-- Instances inside a wired one are of its kind. -/
theorem Wired.kind_eq {hub : Hub} {x y : Settings} (h : Wired hub x) (mem : y ∈ x.parts) :
    y.kind = x.kind := by
  induction x using tree_induction with
  | step x ih =>
      rcases mem_parts.1 mem with rfl | ⟨slot, hs, inside⟩
      · rfl
      · obtain ⟨e, he, inside⟩ := ContentOf.mem_parts.1 inside
        have there := mem_parts_of_entry hs he (self_mem_parts _)
        exact (ih slot hs e he (h.part there) inside).trans (h.self.entries slot hs e he).1

/-- A tree with a writable part is writable throughout. -/
theorem Wired.writable {hub : Hub} {x y : Settings} (h : Wired hub x) (mem : y ∈ x.parts)
    (writable : y.kind.isWritable = true) : ∀ z ∈ x.parts, z.kind.isWritable = true := by
  intro z hz
  rw [h.kind_eq hz, ← h.kind_eq mem]
  exact writable

/-- What may be written may be written inside. -/
theorem Wired.writable_inside {hub : Hub} {x : Settings} (h : Wired hub x)
    (writable : x.kind.isWritable = true) : ∀ y ∈ slotParts x.slots, y.kind.isWritable = true :=
  fun y hy => h.writable (self_mem_parts x) writable y (slotParts_subset hy)

/-- An entry is told from the others by any notifier inside it. -/
theorem Wired.entry_unique {hub : Hub} {x : Settings} (h : Wired hub x) {slot slot' : Slot}
    (hs : slot ∈ x.slots) (hs' : slot' ∈ x.slots) {e e' : Entry} (he : e ∈ slot.content.entries)
    (he' : e' ∈ slot'.content.entries) {m : NotifierId} (mem : m ∈ e.settings.notifiers)
    (mem' : m ∈ e'.settings.notifiers) : slot = slot' ∧ e = e' := by
  have nodup := h.nodup
  have inner_eq : x.inner = x.slots.flatMap fun slot =>
      slot.content.entries.flatMap fun e => e.settings.notifiers := by
    unfold inner
    rw [slotParts_eq_flatMap, List.filterMap_flatMap]
    congr 1
    funext slot
    rw [ContentOf.parts, entryParts_eq_flatMap, List.filterMap_flatMap]
    rfl
  rw [notifiers_eq_append, List.nodup_append, inner_eq] at nodup
  have in_slot : ∀ {slot : Slot} {e : Entry}, e ∈ slot.content.entries → m ∈ e.settings.notifiers →
      m ∈ slot.content.entries.flatMap fun e => e.settings.notifiers :=
    fun he mem => List.mem_flatMap.2 ⟨_, he, mem⟩
  have same := eq_of_nodup_flatMap nodup.2.1 hs hs' (in_slot he mem) (in_slot he' mem')
  subst same
  have own := (List.nodup_flatMap.1 nodup.2.1).1 slot hs
  exact ⟨rfl, eq_of_nodup_flatMap own he he' mem mem'⟩

end Settings

/-! ## Wiring lasts -/

/-- A notifier keeps its forwarders. A client may still cut them with numbers that it was not given. -/
structure Hub.Keeps (hub after : Hub) (m : NotifierId) : Prop where
  sublist : (after.forwarders m).Sublist (hub.forwarders m)
  kept : after.Disciplined → hub.Disciplined ∧ after.forwarders m = hub.forwarders m

open Hub

variable {dropped : NotifierId → Prop} {hub after : Hub}

theorem Hub.Leads.keeps (leads : Leads dropped hub after) (tidy : hub.Tidy) {m : NotifierId}
    (lt : m < hub.size) (free : ¬ dropped m) : Keeps hub after m :=
  ⟨leads.sublist m lt, fun disciplined =>
    ⟨leads.disciplined disciplined, leads.kept tidy disciplined m lt free⟩⟩

theorem EntryOf.Wired.keeps {e : Entry} {kind : Kind} {notifier : Option NotifierId}
    {property : String} (h : e.Wired hub kind notifier property)
    (keeps : ∀ m, e.settings.notifier = some m → Keeps hub after m) :
    e.Wired after kind notifier property := by
  refine ⟨h.1, ?_⟩
  have heard := h.2
  cases notifier with
  | none => exact heard
  | some n =>
      obtain ⟨id, m, heard⟩ := heard
      have keeps := keeps m heard.notifier
      refine ⟨id, m, heard.forwarder, heard.notifier, heard.lt, fun f mem => ?_, fun disciplined => ?_⟩
      · exact heard.only f (keeps.sublist.subset mem)
      · obtain ⟨earlier, same⟩ := keeps.kept disciplined
        rw [same, heard.kept earlier]

namespace Settings

theorem wiredAt_of_keeps {x : Settings} (h : ∀ y ∈ x.parts, WiredAt hub y)
    (size : hub.size ≤ after.size) (keeps : ∀ m ∈ x.inner, Keeps hub after m) :
    ∀ y ∈ x.parts, WiredAt after y := by
  intro y hy
  have own := h y hy
  refine ⟨own.notifier, fun n hn => Nat.lt_of_lt_of_le (own.lt n hn) size, ?_⟩
  intro slot hs e he
  exact (own.entries slot hs e he).keeps fun m hm => keeps m (inner_subset_of_mem_parts hy
    (mem_inner.2 ⟨slot, hs, e, he, mem_notifiers_self hm⟩))

theorem Wired.leads {x : Settings} (h : Wired hub x) (leads : Leads dropped hub after)
    (tidy : hub.Tidy) (free : ∀ m ∈ x.inner, ¬ dropped m) : Wired after x :=
  ⟨wiredAt_of_keeps h.parts leads.size fun m mem =>
    leads.keeps tidy (lt_of_mem_inner h.parts mem).1 (free m mem), h.nodup⟩

end Settings

namespace Frame

variable {f : Frame}

/-- The entries of the other slots, as those of an instance without the slot. -/
theorem mem_others {slot : Slot} (hs : slot ∈ f.before ++ f.after) {e : Entry}
    (he : e ∈ slot.content.entries) {m : NotifierId} (mem : m ∈ e.settings.notifiers) :
    m ∈ f.others := by
  obtain ⟨z, hz, hn⟩ := Settings.mem_notifiers.1 mem
  refine List.mem_filterMap.2 ⟨z, ?_, hn⟩
  rw [Settings.slotParts_eq_flatMap]
  exact List.mem_flatMap.2 ⟨slot, hs, ContentOf.mem_parts.2 ⟨e, he, hz⟩⟩

/-- A frame stays wired around a new content whose entries are wired. -/
theorem wiredAt_fill {content other : Content}
    (h : ∀ y ∈ (f.fill content).parts, Settings.WiredAt hub y) (size : hub.size ≤ after.size)
    (keeps : ∀ m ∈ f.others, Keeps hub after m)
    (entries : ∀ e ∈ other.entries, e.Wired after f.kind f.notifier f.property ∧
      ∀ y ∈ e.settings.parts, Settings.WiredAt after y) :
    ∀ y ∈ (f.fill other).parts, Settings.WiredAt after y := by
  have own := h _ (Settings.self_mem_parts _)
  have beside : ∀ slot ∈ f.before ++ f.after, ∀ e ∈ slot.content.entries,
      e.Wired after f.kind f.notifier slot.name ∧
        ∀ y ∈ e.settings.parts, Settings.WiredAt after y := by
    intro slot hs e he
    have inside : slot ∈ (f.fill content).slots := (f.mem_slots_fill content).2 (Or.inr hs)
    have parts : ∀ y ∈ e.settings.parts, Settings.WiredAt hub y :=
      fun y hy => h y (Settings.mem_parts_of_entry inside he hy)
    refine ⟨(own.entries slot inside e he).keeps fun m hm =>
      keeps m (mem_others hs he (Settings.mem_notifiers_self hm)), ?_⟩
    exact Settings.wiredAt_of_keeps parts size fun m mem =>
      keeps m (mem_others hs he (Settings.mem_notifiers_iff.2 (Or.inr mem)))
  intro y hy
  rcases (f.mem_parts_fill other).1 hy with rfl | hy | hy
  · refine ⟨own.notifier, fun n hn => Nat.lt_of_lt_of_le (own.lt n hn) size, ?_⟩
    intro slot hs e he
    rcases (f.mem_slots_fill other).1 hs with rfl | hs
    · exact (entries e he).1
    · exact (beside slot hs e he).1
  · obtain ⟨e, he, hy⟩ := ContentOf.mem_parts.1 hy
    exact (entries e he).2 y hy
  · rw [Settings.slotParts_eq_flatMap] at hy
    obtain ⟨slot, hs, hy⟩ := List.mem_flatMap.1 hy
    obtain ⟨e, he, hy⟩ := ContentOf.mem_parts.1 hy
    exact (beside slot hs e he).2 y hy

/-- An entry of a wired instance. -/
theorem wired_entry {dict : DictRef} {before after : List Entry} {e : Entry}
    (wired : Settings.Wired hub (f.fill (.dict dict (before ++ e :: after)))) :
    e.Wired hub f.kind f.notifier f.property ∧ Settings.Wired hub e.settings := by
  have slot_mem := (f.mem_slots_fill (.dict dict (before ++ e :: after))).2 (Or.inl rfl)
  have inside : e ∈ (ContentOf.dict dict (before ++ e :: after)).entries :=
    List.mem_append_right _ (List.mem_cons_self ..)
  exact ⟨wired.self.entries _ slot_mem e inside,
    wired.part (Settings.mem_parts_of_entry slot_mem inside (Settings.self_mem_parts _))⟩

/-- Entries may be replaced by wired ones, if only the replaced ones lose their forwarders. -/
theorem wired_splice {dict : DictRef} {before old new rest : List Entry}
    (wired : Settings.Wired hub (f.fill (.dict dict (before ++ (old ++ rest)))))
    (tidy : hub.Tidy)
    (leads : Leads (· ∈ old.flatMap fun e => e.settings.notifiers) hub after)
    (entries : ∀ e ∈ new, e.Wired after f.kind f.notifier f.property ∧
      ∀ y ∈ e.settings.parts, Settings.WiredAt after y)
    (nodup : (new.flatMap fun e => e.settings.notifiers).Nodup)
    (fresh : ∀ m ∈ new.flatMap fun e => e.settings.notifiers,
      m ∈ (old.flatMap fun e => e.settings.notifiers) ∨ hub.size ≤ m) :
    Settings.Wired after (f.fill (.dict dict (before ++ (new ++ rest)))) := by
  have split := f.notifiers_splice_perm dict before old rest
  have apart := (List.nodup_append.1 (split.nodup_iff.1 wired.nodup))
  -- the others are not among the replaced ones
  have keeps : ∀ m ∈ (f.fill (.dict dict (before ++ rest))).notifiers, Keeps hub after m := by
    intro m mem
    refine leads.keeps tidy (wired.lt_size (split.mem_iff.2 (List.mem_append_right _ mem))) ?_
    exact fun mem' => apart.2.2 m mem' m mem rfl
  refine ⟨wiredAt_fill wired.parts leads.size (fun m mem => keeps m ?_) ?_, ?_⟩
  · exact (f.mem_notifiers_fill _).2 (Or.inr (Or.inr mem))
  · intro e he
    have kept_entry : e ∈ before ++ rest → e.Wired after f.kind f.notifier f.property ∧
        ∀ y ∈ e.settings.parts, Settings.WiredAt after y := by
      intro mem
      have inside : e ∈ (ContentOf.dict dict (before ++ (old ++ rest))).entries := by
        show e ∈ before ++ (old ++ rest)
        simp only [List.mem_append] at mem ⊢
        exact mem.imp_right Or.inr
      have slot_mem := (f.mem_slots_fill (.dict dict (before ++ (old ++ rest)))).2 (Or.inl rfl)
      have keeps_entry : ∀ m ∈ e.settings.notifiers, Keeps hub after m := fun m hm =>
        keeps m ((f.mem_notifiers_fill _).2 (Or.inr (Or.inl
          (ContentOf.mem_notifiers_dict.2 ⟨e, mem, hm⟩))))
      refine ⟨(wired.self.entries _ slot_mem e inside).keeps fun m hm =>
        keeps_entry m (Settings.mem_notifiers_self hm), ?_⟩
      exact Settings.wiredAt_of_keeps
        (fun y hy => wired.parts y (Settings.mem_parts_of_entry slot_mem inside hy)) leads.size
        fun m hm => keeps_entry m (Settings.mem_notifiers_iff.2 (Or.inr hm))
    rcases List.mem_append.1 he with he | he
    · exact kept_entry (List.mem_append_left _ he)
    · rcases List.mem_append.1 he with he | he
      · exact entries e he
      · exact kept_entry (List.mem_append_right _ he)
  · rw [(f.notifiers_splice_perm dict before new rest).nodup_iff, List.nodup_append]
    refine ⟨nodup, apart.2.1, ?_⟩
    rintro m mem _ mem' rfl
    rcases fresh m mem with old | fresh
    · exact apart.2.2 m old m mem' rfl
    · exact Nat.not_lt.2 fresh (wired.lt_size (split.mem_iff.2 (List.mem_append_right _ mem')))

end Frame

end SettingsForge
