import Mathlib.Data.List.Nodup
import SettingsForge.Settings.Path

set_option autoImplicit false

/-! # The parts of an instance

An instance is a tree: `Settings.parts` lists it and all entries at any depth, `Settings.notifiers`
their notifiers. An operation changes the content of one slot, or one entry in it. A `Frame` is an
instance without the content of one slot; with distinct property names, what is at a name is what fills
the frame of the name. Likewise, with ascending keys, what is under a key stands at one place. -/

namespace SettingsForge

/-- The entries in a slot; there are none outside dictionaries. -/
def ContentOf.entries {ι : Type} : ContentOf ι → List (EntryOf ι)
  | .dict _ entries => entries
  | _ => []

namespace Settings

/-- The names of an instance's slots. -/
def names (x : Settings) : List String := x.slots.map SlotOf.name

mutual

/-- An instance and all entries inside it. -/
def parts : Settings → List Settings
  | .mk schema kind slots notifier provider =>
    .mk schema kind slots notifier provider :: slotParts slots

/-- All entries inside slots, at any depth. -/
def slotParts : List (SlotOf Settings) → List Settings
  | [] => []
  | ⟨_, .dict _ entries⟩ :: slots => entryParts entries ++ slotParts slots
  | ⟨_, .scalar ..⟩ :: slots => slotParts slots
  | ⟨_, .list ..⟩ :: slots => slotParts slots

/-- Entries and all entries inside them. -/
def entryParts : List (EntryOf Settings) → List Settings
  | [] => []
  | ⟨_, _, x⟩ :: entries => x.parts ++ entryParts entries

end

theorem entryParts_eq_flatMap (entries : List Entry) :
    entryParts entries = entries.flatMap fun e => e.settings.parts := by
  induction entries with
  | nil => rfl
  | cons e entries ih => simp [entryParts, ih]

end Settings

/-- All entries inside a content, at any depth. -/
def ContentOf.parts (content : Content) : List Settings := Settings.entryParts content.entries

theorem ContentOf.mem_parts {content : Content} {x : Settings} :
    x ∈ content.parts ↔ ∃ e ∈ content.entries, x ∈ e.settings.parts := by
  rw [parts, Settings.entryParts_eq_flatMap, List.mem_flatMap]

namespace Settings

theorem slotParts_eq_flatMap (slots : List Slot) :
    slotParts slots = slots.flatMap fun slot => slot.content.parts := by
  induction slots with
  | nil => rfl
  | cons slot slots ih =>
      obtain ⟨name, content⟩ := slot
      cases content with
      | dict dict entries => simp [slotParts, ContentOf.parts, ContentOf.entries, ih]
      | _ => simp [slotParts, ContentOf.parts, ContentOf.entries, entryParts, ih]

theorem parts_eq_cons (x : Settings) : x.parts = x :: slotParts x.slots := by
  cases x
  rfl

theorem slotParts_subset {x : Settings} : slotParts x.slots ⊆ x.parts := by
  rw [parts_eq_cons]
  exact List.subset_cons_self ..

theorem self_mem_parts (x : Settings) : x ∈ x.parts := by
  rw [parts_eq_cons]
  exact List.mem_cons_self ..

theorem mem_parts {x y : Settings} :
    y ∈ x.parts ↔ y = x ∨ ∃ slot ∈ x.slots, y ∈ slot.content.parts := by
  rw [parts_eq_cons, List.mem_cons, slotParts_eq_flatMap, List.mem_flatMap]

/-- An entry is smaller than the instance it is in. -/
theorem sizeOf_lt_of_mem_entries {x : Settings} {slot : Slot} {e : Entry} (hs : slot ∈ x.slots)
    (he : e ∈ slot.content.entries) : sizeOf e.settings < sizeOf x := by
  obtain ⟨schema, kind, slots, notifier, provider⟩ := x
  obtain ⟨name, content⟩ := slot
  obtain ⟨key, forwarder, y⟩ := e
  have outer : sizeOf _ < sizeOf slots := List.sizeOf_lt_of_mem hs
  cases content with
  | dict dict entries =>
      have inner : sizeOf _ < sizeOf entries := List.sizeOf_lt_of_mem he
      simp only [SlotOf.mk.sizeOf_spec, ContentOf.dict.sizeOf_spec, EntryOf.mk.sizeOf_spec,
        Settings.mk.sizeOf_spec] at *
      omega
  | _ => cases he

/-- What holds of an instance when it holds of its entries holds of every instance. -/
theorem tree_induction {P : Settings → Prop}
    (step : ∀ x : Settings,
      (∀ slot ∈ x.slots, ∀ e ∈ slot.content.entries, P e.settings) → P x)
    (x : Settings) : P x :=
  step x fun slot _ e _ => tree_induction step e.settings
termination_by sizeOf x
decreasing_by exact sizeOf_lt_of_mem_entries ‹_› ‹_›

theorem parts_trans {x y z : Settings} (first : y ∈ x.parts) (second : z ∈ y.parts) :
    z ∈ x.parts := by
  induction x using tree_induction with
  | step x ih =>
      rcases mem_parts.1 first with rfl | ⟨slot, hs, inside⟩
      · exact second
      · obtain ⟨e, he, inside⟩ := ContentOf.mem_parts.1 inside
        exact mem_parts.2 (Or.inr ⟨slot, hs, ContentOf.mem_parts.2 ⟨e, he, ih slot hs e he inside⟩⟩)

/-! ## Notifiers -/

/-- The notifiers of an instance and of all entries inside it. -/
def notifiers (x : Settings) : List NotifierId := x.parts.filterMap notifier

/-- The notifiers of the entries inside an instance. -/
def inner (x : Settings) : List NotifierId := (slotParts x.slots).filterMap notifier

end Settings

/-- The notifiers of all entries inside a content. -/
def ContentOf.notifiers (content : Content) : List NotifierId :=
  content.parts.filterMap Settings.notifier

theorem ContentOf.notifiers_dict (dict : DictRef) (entries : List Entry) :
    (ContentOf.dict dict entries).notifiers =
      entries.flatMap fun e => e.settings.notifiers := by
  unfold notifiers parts
  rw [Settings.entryParts_eq_flatMap, List.filterMap_flatMap]
  rfl

theorem ContentOf.mem_notifiers_dict {dict : DictRef} {entries : List Entry}
    {m : NotifierId} :
    m ∈ (ContentOf.dict dict entries).notifiers ↔ ∃ e ∈ entries, m ∈ e.settings.notifiers := by
  rw [notifiers_dict, List.mem_flatMap]

namespace Settings

theorem notifiers_eq_append (x : Settings) : x.notifiers = x.notifier.toList ++ x.inner := by
  rw [notifiers, parts_eq_cons, List.filterMap_cons, inner]
  cases x.notifier <;> rfl

theorem mem_notifiers {x : Settings} {m : NotifierId} :
    m ∈ x.notifiers ↔ ∃ y ∈ x.parts, y.notifier = some m := List.mem_filterMap

theorem mem_notifiers_self {x : Settings} {n : NotifierId} (h : x.notifier = some n) :
    n ∈ x.notifiers := mem_notifiers.2 ⟨x, self_mem_parts x, h⟩

theorem mem_notifiers_iff {x : Settings} {m : NotifierId} :
    m ∈ x.notifiers ↔ x.notifier = some m ∨ m ∈ x.inner := by
  rw [notifiers_eq_append, List.mem_append, Option.mem_toList]

theorem mem_inner {x : Settings} {m : NotifierId} :
    m ∈ x.inner ↔ ∃ slot ∈ x.slots, ∃ e ∈ slot.content.entries, m ∈ e.settings.notifiers := by
  unfold inner
  rw [List.mem_filterMap, slotParts_eq_flatMap]
  constructor
  · rintro ⟨y, mem, h⟩
    obtain ⟨slot, hs, inside⟩ := List.mem_flatMap.1 mem
    obtain ⟨e, he, inside⟩ := ContentOf.mem_parts.1 inside
    exact ⟨slot, hs, e, he, mem_notifiers.2 ⟨y, inside, h⟩⟩
  · rintro ⟨slot, hs, e, he, mem⟩
    obtain ⟨y, inside, h⟩ := mem_notifiers.1 mem
    exact ⟨y, List.mem_flatMap.2 ⟨slot, hs, ContentOf.mem_parts.2 ⟨e, he, inside⟩⟩, h⟩

/-- What is inside a part is inside the whole. -/
theorem inner_subset_of_mem_parts {x y : Settings} (h : y ∈ x.parts) : y.inner ⊆ x.inner := by
  intro m mem
  rcases mem_parts.1 h with rfl | ⟨slot, hs, inside⟩
  · exact mem
  · obtain ⟨e, he, inside⟩ := ContentOf.mem_parts.1 inside
    obtain ⟨z, hz, hn⟩ := mem_notifiers.1 (mem_notifiers_iff.2 (Or.inr mem))
    exact mem_inner.2 ⟨slot, hs, e, he, mem_notifiers.2 ⟨z, parts_trans inside hz, hn⟩⟩

/-! ## Providers -/

variable (x : Settings) (link : Option ProviderLink)

@[simp] theorem schema_setProvider : (x.setProvider link).schema = x.schema := by
  cases x
  rfl

@[simp] theorem kind_setProvider : (x.setProvider link).kind = x.kind := by
  cases x
  rfl

@[simp] theorem slots_setProvider : (x.setProvider link).slots = x.slots := by
  cases x
  rfl

@[simp] theorem notifier_setProvider : (x.setProvider link).notifier = x.notifier := by
  cases x
  rfl

@[simp] theorem notifiers_setProvider : (x.setProvider link).notifiers = x.notifiers := by
  rw [notifiers_eq_append, notifiers_eq_append, inner, inner, notifier_setProvider,
    slots_setProvider]

/-- What holds of the parts of an instance holds of them under another provider, if it does of the
    instance itself. -/
theorem forall_parts_setProvider {P : Settings → Prop} (h : ∀ y ∈ x.parts, P y)
    (self : P x → P (x.setProvider link)) : ∀ y ∈ (x.setProvider link).parts, P y := by
  rw [parts_eq_cons, slots_setProvider]
  rw [parts_eq_cons] at h
  exact List.forall_mem_cons.2 ⟨self (h x (List.mem_cons_self ..)), (List.forall_mem_cons.1 h).2⟩

end Settings

/-! ## Frames -/

/-- An instance without the content of one slot. -/
structure Frame where
  schema : Schema
  kind : Kind
  notifier : Option NotifierId
  provider : Option ProviderLink
  property : String
  before : List Slot
  after : List Slot

namespace Frame

/-- The instance with a content in the place that was left out. -/
def fill (f : Frame) (content : Content) : Settings :=
  .mk f.schema f.kind (f.before ++ ⟨f.property, content⟩ :: f.after) f.notifier f.provider

/-- The notifiers of entries inside the other slots. -/
def others (f : Frame) : List NotifierId :=
  (Settings.slotParts (f.before ++ f.after)).filterMap Settings.notifier

/-- What the operations on the slot need to know of the instance. -/
def owner (f : Frame) : Owner := ⟨f.schema.name, f.kind, f.notifier⟩

variable (f : Frame) (content other : Content)

@[simp] theorem owner_fill : (f.fill content).owner = f.owner := rfl

@[simp] theorem schema_fill : (f.fill content).schema = f.schema := rfl

@[simp] theorem kind_fill : (f.fill content).kind = f.kind := rfl

@[simp] theorem notifier_fill : (f.fill content).notifier = f.notifier := rfl

@[simp] theorem provider_fill : (f.fill content).provider = f.provider := rfl

theorem slots_fill : (f.fill content).slots = f.before ++ ⟨f.property, content⟩ :: f.after := rfl

theorem names_fill : (f.fill content).names = (f.fill other).names := by
  simp [Settings.names, slots_fill]

theorem property_mem_names : f.property ∈ (f.fill content).names := by
  simp [Settings.names, slots_fill]

theorem mem_slots_fill {slot : Slot} :
    slot ∈ (f.fill content).slots ↔ slot = ⟨f.property, content⟩ ∨ slot ∈ f.before ++ f.after := by
  rw [slots_fill, List.mem_append, List.mem_cons, List.mem_append]
  grind

theorem inner_fill_perm : (f.fill content).inner.Perm (content.notifiers ++ f.others) := by
  unfold Settings.inner others ContentOf.notifiers
  rw [slots_fill, Settings.slotParts_eq_flatMap, Settings.slotParts_eq_flatMap, List.flatMap_append,
    List.flatMap_append, List.flatMap_cons, List.filterMap_append, List.filterMap_append,
    List.filterMap_append]
  exact List.perm_append_comm_assoc ..

theorem mem_inner_fill {m : NotifierId} :
    m ∈ (f.fill content).inner ↔ m ∈ content.notifiers ∨ m ∈ f.others := by
  rw [(f.inner_fill_perm content).mem_iff, List.mem_append]

theorem mem_notifiers_fill {m : NotifierId} :
    m ∈ (f.fill content).notifiers ↔
      f.notifier = some m ∨ m ∈ content.notifiers ∨ m ∈ f.others := by
  rw [Settings.mem_notifiers_iff, mem_inner_fill, notifier_fill]

/-- The notifiers with an entry left out, or another one put in its place. -/
theorem notifiers_splice_perm (dict : DictRef) (before middle after : List Entry) :
    (f.fill (.dict dict (before ++ (middle ++ after)))).notifiers.Perm
      ((middle.flatMap fun e => e.settings.notifiers) ++
        (f.fill (.dict dict (before ++ after))).notifiers) := by
  have inner := fun content => f.inner_fill_perm content
  rw [Settings.notifiers_eq_append, Settings.notifiers_eq_append]
  refine ((inner _).append_left _).trans
    (List.Perm.trans ?_ (((inner _).symm.append_left _).append_left _))
  simp only [ContentOf.notifiers_dict, List.flatMap_append, notifier_fill]
  rw [List.perm_iff_count]
  intro m
  simp only [List.count_append]
  omega

theorem mem_notifiers_entry {dict : DictRef} {before after : List Entry} {e : Entry}
    {m : NotifierId} :
    m ∈ (f.fill (.dict dict (before ++ e :: after))).notifiers ↔
      m ∈ e.settings.notifiers ∨ m ∈ (f.fill (.dict dict (before ++ after))).notifiers := by
  have split := f.notifiers_splice_perm dict before [e] after
  rw [List.flatMap_singleton] at split
  exact split.mem_iff.trans List.mem_append

theorem mem_parts_fill {y : Settings} :
    y ∈ (f.fill content).parts ↔
      y = f.fill content ∨ y ∈ content.parts ∨ y ∈ Settings.slotParts (f.before ++ f.after) := by
  rw [Settings.parts_eq_cons, List.mem_cons, slots_fill, Settings.slotParts_eq_flatMap,
    Settings.slotParts_eq_flatMap, List.flatMap_append, List.flatMap_append, List.flatMap_cons,
    List.mem_append, List.mem_append, List.mem_append]
  grind

end Frame

/-- The content under a property name is a slot's. -/
theorem Settings.exists_slot {x : Settings} {property : String} {content : Content}
    (h : x.content property = .ok content) : ∃ slot ∈ x.slots, slot.content = content := by
  unfold Settings.content at h
  split at h
  · next slot found =>
    cases h
    exact ⟨slot, List.mem_of_find?_eq_some found, rfl⟩
  · cases h

/-- With distinct names, what a slot holds is what is under its name. -/
theorem Settings.content_of_mem {x : Settings} (nodup : x.names.Nodup) {slot : Slot}
    (mem : slot ∈ x.slots) : x.content slot.name = .ok slot.content := by
  unfold Settings.content
  cases found : x.slots.find? fun other => other.name == slot.name with
  | none =>
      rw [List.find?_eq_none] at found
      exact absurd (beq_iff_eq.2 rfl) (found slot mem)
  | some other =>
      have named : other.name = slot.name := by simpa using List.find?_some found
      rw [List.inj_on_of_nodup_map nodup (List.mem_of_find?_eq_some found) mem named]

/-- The content under a property name fills a frame. -/
theorem Settings.exists_frame {x : Settings} (nodup : x.names.Nodup) {property : String}
    {content : Content} (h : x.content property = .ok content) :
    ∃ f : Frame, f.property = property ∧ x = f.fill content ∧
      ∀ other, x.setContent property other = f.fill other := by
  obtain ⟨schema, kind, slots, notifier, provider⟩ := x
  unfold Settings.content at h
  dsimp only [Settings.slots] at h
  split at h
  · next slot found =>
    cases h
    obtain ⟨same, before, after, rfl, apart⟩ := List.find?_eq_some_iff_append.1 found
    have same : slot.name = property := by simpa using same
    subst same
    refine ⟨⟨schema, kind, notifier, provider, slot.name, before, after⟩, rfl, rfl, fun other => ?_⟩
    have keep : ∀ s ∈ before ++ after, s.name ≠ slot.name := by
      have := nodup
      simp only [Settings.names, Settings.slots, List.map_append, List.map_cons, List.nodup_append,
        List.nodup_cons, List.mem_cons] at this
      intro s mem same
      rcases List.mem_append.1 mem with mem | mem
      · exact this.2.2 _ (List.mem_map_of_mem mem) _ (Or.inl rfl) same
      · exact this.2.1.1 (same ▸ List.mem_map_of_mem mem)
    have map_eq : ∀ slots ⊆ before ++ after, (slots.map fun s : Slot =>
        if s.name == slot.name then { s with content := other } else s) = slots := by
      intro slots sub
      refine (List.map_congr_left fun s mem => ?_).trans (List.map_id _)
      simp [keep s (sub mem)]
    simp only [Settings.setContent, Settings.withSlots, Settings.slots, Frame.fill, List.map_append,
      List.map_cons, beq_self_eq_true, if_true]
    rw [map_eq before (List.subset_append_left ..), map_eq after (List.subset_append_right ..)]
  · cases h

/-! ## Keys -/

namespace Entries

/-- Keys ascend strictly. -/
def Sorted (entries : List Entry) : Prop := (keys entries).Pairwise (· < ·)

theorem Sorted.nodup {entries : List Entry} (sorted : Sorted entries) : (keys entries).Nodup :=
  List.Pairwise.imp String.ne_of_lt sorted

theorem find?_eq_none {entries : List Entry} {key : String} :
    find? entries key = none ↔ key ∉ keys entries := by
  simp [find?, keys]

/-- An entry in its place. -/
theorem exists_of_find? {entries : List Entry} {key : String} {e : Entry}
    (h : find? entries key = some e) :
    e.key = key ∧ ∃ before after, entries = before ++ e :: after := by
  obtain ⟨same, before, after, rfl, -⟩ := List.find?_eq_some_iff_append.1 h
  exact ⟨by simpa using same, before, after, rfl⟩

/-- Among ascending keys an entry is the one under its key. -/
theorem Sorted.find?_of_mem {entries : List Entry} (sorted : Sorted entries) {e : Entry}
    (mem : e ∈ entries) : find? entries e.key = some e := by
  obtain ⟨before, after, rfl⟩ := List.append_of_mem mem
  have nodup := sorted.nodup
  have apart : e.key ∉ keys before := by
    simp only [keys, List.map_append, List.map_cons, List.nodup_append, List.mem_cons] at nodup
    exact fun mem => nodup.2.2 _ mem _ (Or.inl rfl) rfl
  have earlier := find?_eq_none.2 apart
  unfold find? at earlier ⊢
  simp [List.find?_append, earlier]

/-- Among ascending keys an entry is replaced in its place. -/
theorem insert_replace {before after : List Entry} {old new : Entry}
    (sorted : Sorted (before ++ old :: after)) (same : new.key = old.key) :
    insert new (before ++ old :: after) = before ++ new :: after := by
  induction before with
  | nil => simp [insert, same]
  | cons e before ih =>
      have lt : e.key < old.key := by
        have := List.pairwise_cons.1 sorted
        exact this.1 _ (by simp)
      have above : ¬ new.key < e.key := fun h =>
        String.lt_irrefl _ (String.lt_trans lt (same ▸ h))
      have apart : new.key ≠ e.key := fun h => String.lt_irrefl _ ((same.symm.trans h) ▸ lt)
      rw [List.cons_append, insert, if_neg above, if_neg apart, ih (List.pairwise_cons.1 sorted).2]
      rfl

/-- A new key comes between two others. -/
theorem exists_insert_new {entries : List Entry} (new : Entry) (h : new.key ∉ keys entries) :
    ∃ before after, entries = before ++ after ∧ insert new entries = before ++ new :: after := by
  induction entries with
  | nil => exact ⟨[], [], rfl, rfl⟩
  | cons e entries ih =>
      rw [keys, List.map_cons, List.mem_cons, not_or] at h
      obtain ⟨before, after, heq, hins⟩ := ih h.2
      by_cases lt : new.key < e.key
      · exact ⟨[], e :: entries, rfl, by simp [insert, lt]⟩
      · exact ⟨e :: before, after, by rw [heq]; rfl, by simp [insert, lt, h.1, hins]⟩

theorem mem_keys_insert {entries : List Entry} {new : Entry} {key : String} :
    key ∈ keys (insert new entries) ↔ key = new.key ∨ key ∈ keys entries := by
  unfold keys
  induction entries with
  | nil => simp [insert]
  | cons e entries ih =>
      rw [insert]
      split
      · simp
      · split
        · next same => simp [same]
        · simp only [List.map_cons, List.mem_cons, ih]
          exact or_left_comm

theorem sorted_insert {entries : List Entry} (sorted : Sorted entries) (new : Entry) :
    Sorted (insert new entries) := by
  unfold Sorted at sorted ⊢
  induction entries with
  | nil => simp [insert, keys]
  | cons e entries ih =>
      have first : ∀ key ∈ keys entries, e.key < key := (List.pairwise_cons.1 sorted).1
      have rest := (List.pairwise_cons.1 sorted).2
      rw [insert]
      split
      · next lt =>
        refine List.pairwise_cons.2 ⟨fun key mem => ?_, sorted⟩
        rcases List.mem_cons.1 mem with rfl | mem
        · exact lt
        · exact String.lt_trans lt (first key mem)
      · split
        · next same =>
          refine List.pairwise_cons.2 ⟨fun key mem => ?_, rest⟩
          rw [same]
          exact first key mem
        · next not_lt ne =>
          refine List.pairwise_cons.2 ⟨fun key mem => ?_, ih rest⟩
          rcases mem_keys_insert.1 mem with rfl | mem
          · exact String.not_le.1 fun le => ne (String.le_antisymm le not_lt)
          · exact first key mem

theorem sorted_filter {entries : List Entry} (sorted : Sorted entries) (keep : Entry → Bool) :
    Sorted (entries.filter keep) := by
  unfold Sorted keys at sorted ⊢
  exact sorted.sublist (List.filter_sublist.map _)

theorem erase_middle {before after : List Entry} {e : Entry}
    (sorted : Sorted (before ++ e :: after)) :
    erase (before ++ e :: after) e.key = before ++ after := by
  have nodup := sorted.nodup
  simp only [keys, List.map_append, List.map_cons, List.nodup_append, List.nodup_cons,
    List.mem_cons] at nodup
  have keep : ∀ entries ⊆ before ++ after, erase entries e.key = entries := by
    intro entries sub
    unfold erase
    rw [List.filter_eq_self]
    intro e' mem
    rw [bne_iff_ne]
    intro same
    rcases List.mem_append.1 (sub mem) with mem | mem
    · exact nodup.2.2 _ (List.mem_map_of_mem mem) _ (Or.inl rfl) same
    · exact nodup.2.1.1 (same ▸ List.mem_map_of_mem mem)
  have split : erase (before ++ e :: after) e.key = erase before e.key ++ erase after e.key := by
    simp [erase]
  rw [split, keep before (List.subset_append_left ..), keep after (List.subset_append_right ..)]

end Entries

end SettingsForge
