import SettingsForge.Proofs.Keyed
import SettingsForge.Proofs.Lists
import SettingsForge.Proofs.Settings.Evolution
import SettingsForge.Proofs.Value.Equality

set_option autoImplicit false

/-! # Notices that tell what changed

The notices of an operation tell what it changed (`Settings.Tells`) when a slot that is announced holds
an unequal value after it, and a slot that is not announced holds the value that it held. Then the same
is true of the whole instance: without a notice its snapshot stays, and with one it is unequal. -/

namespace SettingsForge

/-! ## Snapshots -/

namespace Settings

theorem snapshot_eq (x : Settings) :
    x.snapshot = .object x.schema.name (Keyed.ofList (slotValues x.slots)) := by
  cases x
  rfl

/-- Equal snapshots have equal values at each property. -/
theorem equals_of_snapshot {x y : Settings} (h : x.snapshot.equals y.snapshot = true)
    (nodup : x.names.Nodup) (nodup' : y.names.Nodup) {s t : Slot} (hs : s ∈ x.slots)
    (ht : t ∈ y.slots) (same : t.name = s.name) : s.content.value.equals t.content.value = true := by
  rw [snapshot_eq, snapshot_eq, Value.equals, Bool.and_eq_true] at h
  have values : ∀ {x : Settings}, x.names.Nodup → ((slotValues x.slots).map Prod.fst).Nodup := by
    intro x nodup
    rw [slotValues_eq_map, List.map_map]
    exact nodup
  have before : (s.name, s.content.value) ∈ slotValues x.slots := by
    rw [slotValues_eq_map]
    exact List.mem_map.2 ⟨s, hs, rfl⟩
  have after : (s.name, t.content.value) ∈ slotValues y.slots := by
    rw [slotValues_eq_map, ← same]
    exact List.mem_map.2 ⟨t, ht, rfl⟩
  exact Value.lookup_of_equalEntries h.2 (Keyed.lookup_ofList (values nodup) before)
    (Keyed.lookup_ofList (values nodup') after)

end Settings

/-! ## Telling -/

/-- The topics of notices. -/
def Notice.topics (ns : List Notice) : List String := ns.map topic

@[simp] theorem Notice.topics_append (ns ms : List Notice) :
    topics (ns ++ ms) = topics ns ++ topics ms := List.map_append

/-- A slot before and after. -/
structure SlotOf.Told (ns : List Notice) (s t : Slot) : Prop where
  name : t.name = s.name
  changed : s.name ∈ Notice.topics ns → s.content.value.equals t.content.value = false
  same : s.name ∉ Notice.topics ns → t.content.value = s.content.value

theorem SlotOf.told_refl (slots : List Slot) : List.Forall₂ (SlotOf.Told []) slots slots :=
  List.forall₂_same.2 fun _ _ => ⟨rfl, fun mem => (List.not_mem_nil mem).elim, fun _ => rfl⟩

/-- Notices of other slots tell nothing about this one. -/
theorem SlotOf.Told.before {ns ms : List Notice} {s t : Slot} (h : SlotOf.Told ns s t)
    (apart : s.name ∉ Notice.topics ms) : SlotOf.Told (ns ++ ms) s t := by
  refine ⟨h.name, fun mem => h.changed ?_, fun absent => h.same fun mem => absent ?_⟩
  · rw [Notice.topics_append] at mem
    exact (List.mem_append.1 mem).resolve_right apart
  · rw [Notice.topics_append]
    exact List.mem_append_left _ mem

theorem SlotOf.Told.later {ns ms : List Notice} {s t : Slot} (h : SlotOf.Told ms s t)
    (apart : s.name ∉ Notice.topics ns) : SlotOf.Told (ns ++ ms) s t := by
  refine ⟨h.name, fun mem => h.changed ?_, fun absent => h.same fun mem => absent ?_⟩
  · rw [Notice.topics_append] at mem
    exact (List.mem_append.1 mem).resolve_left apart
  · rw [Notice.topics_append]
    exact List.mem_append_right _ mem

namespace Settings

/-- An instance before and after. -/
def Tells (ns : List Notice) (x y : Settings) : Prop :=
  List.Forall₂ (SlotOf.Told ns) x.slots y.slots

variable {x y : Settings} {ns : List Notice}

theorem Tells.refl (x : Settings) : Tells [] x x := SlotOf.told_refl x.slots

/-- A change in one slot. -/
theorem tells_fill {f : Frame} {content other : Content} (nodup : (f.fill content).names.Nodup)
    (topics : ∀ t ∈ ns, t.topic = f.property)
    (changed : ns ≠ [] → content.value.equals other.value = false)
    (same : ns = [] → other.value = content.value) :
    Tells ns (f.fill content) (f.fill other) := by
  have keep : ∀ s ∈ f.before ++ f.after, s.name ∉ Notice.topics ns := by
    intro s hs mem
    obtain ⟨t, ht, topic⟩ := List.mem_map.1 mem
    have split := nodup
    simp only [names, Frame.slots_fill, List.map_append, List.map_cons, List.nodup_append,
      List.nodup_cons, List.mem_cons] at split
    have equal : s.name = f.property := topic.symm.trans (topics t ht)
    rcases List.mem_append.1 hs with hs | hs
    · exact split.2.2 _ (List.mem_map_of_mem hs) _ (Or.inl rfl) equal
    · exact split.2.1.1 (equal ▸ List.mem_map_of_mem hs)
  have others : ∀ slots ⊆ f.before ++ f.after, List.Forall₂ (SlotOf.Told ns) slots slots :=
    fun slots sub => List.forall₂_same.2 fun s hs =>
      ⟨rfl, fun mem => absurd mem (keep s (sub hs)), fun _ => rfl⟩
  refine List.rel_append (others _ (List.subset_append_left ..))
    (.cons ⟨rfl, fun mem => ?_, fun absent => ?_⟩ (others _ (List.subset_append_right ..)))
  · refine changed fun empty => ?_
    rw [empty] at mem
    cases mem
  · refine same (List.eq_nil_iff_forall_not_mem.2 fun t ht => absent ?_)
    exact List.mem_map.2 ⟨t, ht, topics t ht⟩

/-- What is not announced reads as it did. -/
theorem Tells.get_same (h : Tells ns x y) (schema : y.schema = x.schema) {property : String}
    (absent : property ∉ Notice.topics ns) : y.get property = x.get property := by
  unfold get content
  unfold Tells at h
  rw [schema]
  generalize x.slots = before at h
  generalize y.slots = after at h
  induction h with
  | nil => rfl
  | @cons s t before after told _ ih =>
      rw [List.find?_cons, List.find?_cons, told.name]
      cases here : s.name == property with
      | true =>
          rw [beq_iff_eq] at here
          have value := told.same (here ▸ absent)
          simp only [Except.map, value]
      | false => exact ih

/-- What is announced reads unequal. -/
theorem Tells.get_changed (h : Tells ns x y) {property : String} (mem : property ∈ Notice.topics ns)
    (there : property ∈ x.names) :
    ∃ v w, x.get property = .ok v ∧ y.get property = .ok w ∧ v.equals w = false := by
  unfold get content
  unfold Tells at h
  unfold names at there
  generalize x.slots = before at h there
  generalize y.slots = after at h
  induction h with
  | nil => cases there
  | @cons s t before after told _ ih =>
      rw [List.find?_cons, List.find?_cons, told.name]
      cases here : s.name == property with
      | true =>
          rw [beq_iff_eq] at here
          exact ⟨_, _, rfl, rfl, told.changed (here ▸ mem)⟩
      | false =>
          refine ih ((List.mem_cons.1 there).resolve_left fun same => ?_)
          rw [same, beq_self_eq_true] at here
          cases here

/-- Without a notice the snapshot stays. -/
theorem Tells.snapshot_same (h : Tells [] x y) (schema : y.schema = x.schema) :
    y.snapshot = x.snapshot := by
  rw [snapshot_eq, snapshot_eq, schema, slotValues_eq_map, slotValues_eq_map]
  refine congrArg (fun values => Value.object _ (Keyed.ofList values)) (Eq.symm ?_)
  refine map_eq_of_forall₂ (h.imp fun s t told => ?_)
  rw [told.name, told.same List.not_mem_nil]

/-- With a notice of its own property, the snapshot is unequal. -/
theorem Tells.snapshot_changed (h : Tells ns x y) (nodup : x.names.Nodup) (nodup' : y.names.Nodup)
    (names : ∀ t ∈ ns, t.topic ∈ x.names) (some_notice : ns ≠ []) :
    x.snapshot.equals y.snapshot = false := by
  obtain ⟨t, ht⟩ := List.exists_mem_of_ne_nil ns some_notice
  obtain ⟨s, hs, same⟩ := List.mem_map.1 (names t ht)
  obtain ⟨s', hs', told⟩ := exists_right_of_forall₂ h hs
  rw [Bool.eq_false_iff]
  intro equal
  have unequal := told.changed (List.mem_map.2 ⟨t, ht, same.symm⟩)
  rw [equals_of_snapshot equal nodup nodup' hs hs' told.name] at unequal
  cases unequal

end Settings

/-- An instance before and after an operation, the notices of which tell what it changed. -/
def Settings.Operated (x : Settings) (hub : Hub) (y : Settings) (after : Hub) : Prop :=
  ∃ ns, Settings.Evolves x hub ns y after ∧
    (hub.Tidy → Settings.Wired hub x → x.notifier.isSome = true → Settings.Tells ns x y)

theorem Settings.Operated.refl (x : Settings) (hub : Hub) : x.Operated hub x hub :=
  ⟨[], .refl .., fun _ _ _ => .refl x⟩

/-! ## Entries -/

/-- The key of the entry that a notice comes from. -/
def Notice.key? (t : Notice) : Option String := t.path.head?.map Prod.snd

/-- An entry before and after: its notices tell whether its snapshot changed. -/
structure EntryOf.Told (ns : List Notice) (e d : Entry) : Prop where
  key : d.key = e.key
  changed : (∃ t ∈ ns, t.key? = some e.key) → e.settings.snapshot.equals d.settings.snapshot = false
  same : (∀ t ∈ ns, t.key? ≠ some e.key) → d.settings.snapshot = e.settings.snapshot

@[simp] theorem Notice.key?_within (property key : String) (t : Notice) :
    (t.within property key).key? = some key := rfl

namespace Entries

variable {entries after : List Entry} {ns : List Notice}

theorem told_refl (entries : List Entry) : List.Forall₂ (EntryOf.Told []) entries entries :=
  List.forall₂_same.2 fun _ _ => ⟨rfl, by simp, fun _ => rfl⟩

/-- An entry evolves inside, and its notices come before those of the others. -/
theorem told_inside {before rest : List Entry} {e : Entry} {y : Settings} {ms : List Notice}
    (property : String) (nodup : (keys (before ++ e :: rest)).Nodup)
    (changed : ns ≠ [] → e.settings.snapshot.equals y.snapshot = false)
    (same : ns = [] → y.snapshot = e.settings.snapshot)
    (apart : ∀ t ∈ ms, t.key? ≠ some e.key)
    (h : List.Forall₂ (EntryOf.Told ms) (before ++ { e with settings := y } :: rest) after) :
    List.Forall₂ (EntryOf.Told (ns.map (Notice.within property e.key) ++ ms))
      (before ++ e :: rest) after := by
  have key_of_inside : ∀ t ∈ ns.map (Notice.within property e.key), t.key? = some e.key := by
    intro t mem
    obtain ⟨t, -, rfl⟩ := List.mem_map.1 mem
    rfl
  -- entries under other keys do not hear of it
  have others : ∀ d ∈ before ++ rest, ∀ d', EntryOf.Told ms d d' →
      EntryOf.Told (ns.map (Notice.within property e.key) ++ ms) d d' := by
    intro d hd d' told
    have differ : d.key ≠ e.key := by
      intro equal
      simp only [keys, List.map_append, List.map_cons, List.nodup_append, List.nodup_cons,
        List.mem_cons] at nodup
      rcases List.mem_append.1 hd with hd | hd
      · exact nodup.2.2 _ (List.mem_map_of_mem hd) _ (Or.inl rfl) equal
      · exact nodup.2.1.1 (equal ▸ List.mem_map_of_mem hd)
    refine ⟨told.key, ?_, fun absent => told.same fun t mem =>
      absent t (List.mem_append_right _ mem)⟩
    rintro ⟨t, mem, at_key⟩
    rcases List.mem_append.1 mem with mem | mem
    · rw [key_of_inside t mem, Option.some.injEq] at at_key
      exact absurd at_key.symm differ
    · exact told.changed ⟨t, mem, at_key⟩
  obtain ⟨first, d, last, rfl, hfirst, told, hlast⟩ := forall₂_middle_right.1 h.flip
  have after_y : d.settings.snapshot = y.snapshot := told.same apart
  refine List.rel_append ?_ (.cons ⟨told.key, fun noticed => ?_, fun absent => ?_⟩ ?_)
  · exact ((List.forall₂_and_left _ _).2 ⟨fun a => List.mem_append_left rest, hfirst.flip⟩).imp
      fun a b both => others a both.1 b both.2
  · rw [after_y]
    refine changed fun none => ?_
    obtain ⟨t, mem, at_key⟩ := noticed
    rw [none] at mem
    exact apart t mem at_key
  · rw [after_y]
    refine same (List.eq_nil_iff_forall_not_mem.2 fun t mem => ?_)
    exact absent _ (List.mem_append_left _ (List.mem_map_of_mem mem)) rfl
  · exact ((List.forall₂_and_left _ _).2 ⟨fun a => List.mem_append_right before, hlast.flip⟩).imp
      fun a b both => others a both.1 b both.2

theorem map_fst_entryValues (entries : List Entry) :
    (Settings.entryValues entries).map Prod.fst = keys entries := by
  rw [Settings.entryValues_eq_map, List.map_map]
  rfl

theorem unequal_of_keys_ne (h : keys entries ≠ keys after) :
    Value.equalEntries (Settings.entryValues entries) (Settings.entryValues after) = false := by
  rw [Bool.eq_false_iff]
  intro equal
  have same := Value.keys_eq_of_equalEntries equal
  rw [map_fst_entryValues, map_fst_entryValues] at same
  exact h same

theorem values_same (h : List.Forall₂ (EntryOf.Told []) entries after) :
    Settings.entryValues after = Settings.entryValues entries := by
  rw [Settings.entryValues_eq_map, Settings.entryValues_eq_map]
  refine (map_eq_of_forall₂ (h.imp fun e d told => ?_)).symm
  rw [told.key, told.same fun t mem => (List.not_mem_nil mem).elim]

theorem values_changed (h : List.Forall₂ (EntryOf.Told ns) entries after)
    {t : Notice} (ht : t ∈ ns) {key : String} (at_key : t.key? = some key)
    (there : key ∈ keys entries) :
    Value.equalEntries (Settings.entryValues entries) (Settings.entryValues after) = false := by
  obtain ⟨e, he, rfl⟩ := List.mem_map.1 there
  induction h with
  | nil => cases he
  | @cons e' d entries after told _ ih =>
      obtain ⟨k, forwarder, x⟩ := e'
      obtain ⟨l, forwarder', y⟩ := d
      rw [Settings.entryValues, Settings.entryValues, Value.equalEntries]
      rcases List.mem_cons.1 he with rfl | he
      · have unequal : x.snapshot.equals y.snapshot = false := told.changed ⟨t, ht, at_key⟩
        rw [unequal, Bool.and_false, Bool.false_and]
      · rw [ih he (List.mem_map_of_mem he), Bool.and_false]

end Entries

end SettingsForge
