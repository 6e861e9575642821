import SettingsForge.Proofs.Settings.Announcing
import SettingsForge.Proofs.Settings.CopyInduction
import SettingsForge.Proofs.Settings.Edits

set_option autoImplicit false

/-! # Copies evolve and tell

A copy is an evolution of its target, also when it fails half way, and its notices tell what it changed
(`Settings.operated_assign`). Every slot is visited once, and every entry of a dictionary at most once, so
that no change of a copy undoes an earlier one. -/

namespace SettingsForge

/-- All dictionaries inside an instance have ascending keys. -/
def Settings.KeysSorted (x : Settings) : Prop :=
  ∀ y ∈ x.parts, ∀ slot ∈ y.slots, Entries.Sorted slot.content.entries

section

variable {known : Schema → Prop} {catalogs : List Catalog}

theorem ContentOf.Conforms.sorted {s : Schema} {p : Property} {content : Content}
    (h : content.Conforms catalogs s p) : Entries.Sorted content.entries := by
  cases h with
  | dict _ _ sorted _ => exact sorted
  | _ => exact List.Pairwise.nil

theorem Settings.ConformsAt.sorted {x : Settings} (h : ConformsAt known catalogs x) {slot : Slot}
    (mem : slot ∈ x.slots) : Entries.Sorted slot.content.entries := by
  obtain ⟨p, -, fits⟩ := exists_left_of_forall₂ h.slots mem
  exact fits.2.sorted

theorem Settings.Conforms.keysSorted {x : Settings} (h : x.Conforms known catalogs) : x.KeysSorted :=
  fun y mem _ hs => (h y mem).sorted hs

/-- A dictionary of an instance has ascending keys, and so have those inside it. -/
theorem Settings.Conforms.sorted_dict {x : Settings} (h : x.Conforms known catalogs)
    (registry : Schema.Registry known) {property : String} {dict : DictRef × List Entry}
    (found : x.dict property = .ok dict) :
    Entries.Sorted dict.2 ∧ ∀ e ∈ dict.2, e.settings.KeysSorted := by
  obtain ⟨f, -, rfl, -⟩ := exists_frame (h.self.nodup registry) (content_of_dict found)
  have slot_mem := (f.mem_slots_fill (.dict dict.1 dict.2)).2 (Or.inl rfl)
  exact ⟨h.self.sorted slot_mem, fun e he => (h.entry slot_mem he).keysSorted⟩

/-! ## Outcomes of copies -/

namespace Frame

/-- A slot before and after a copy into it. -/
def Copied (f : Frame) (content : Content) (hub : Hub) (other : Content) (after : Hub) : Prop :=
  ∃ ns, Settings.Evolves (f.fill content) hub ns (f.fill other) after ∧
    (∀ t ∈ ns, t.topic = f.property) ∧
    (hub.Tidy → Settings.Wired hub (f.fill content) → f.notifier.isSome = true →
      Settings.Tells ns (f.fill content) (f.fill other))

theorem copied_of_edited {f : Frame} {effect : Prop} {content other : Content} {hub after : Hub}
    (h : Settings.Edited effect f.property (f.fill content) hub (f.fill other) after) :
    f.Copied content hub other after := by
  generalize hy : f.fill other = y at h
  cases h with
  | idle =>
      refine ⟨[], hy ▸ .refl .., by simp, fun _ _ _ => ?_⟩
      rw [hy]
      exact .refl _
  | silent hn evolves =>
      refine ⟨[], hy ▸ evolves, by simp, fun _ _ observable => ?_⟩
      rw [notifier_fill] at hn
      rw [hn] at observable
      cases observable
  | told _ _ there evolves tells =>
      subst hy
      exact ⟨_, evolves.trans (.announce _ _ there), by simp [Notice.topic], fun _ _ _ => tells⟩

end Frame

/-- The entries before and after a merge with entries of these keys. -/
structure Merging.Merged (sources : List String) (m d : Merging) : Prop where
  grown : Entries.keys m.entries ⊆ Entries.keys d.entries
  bounded : ∀ key ∈ Entries.keys d.entries, key ∈ Entries.keys m.entries ∨ key ∈ sources
  structural : d.structural = true ↔
    m.structural = true ∨ ∃ key ∈ Entries.keys d.entries, key ∉ Entries.keys m.entries

theorem Merging.Merged.refl (sources : List String) (m : Merging) : m.Merged sources m :=
  ⟨fun _ mem => mem, fun _ mem => Or.inl mem, by simp⟩

/-- The entries of a frame before and after a merge. As long as no key comes, the entries stay in their
    places, and notices tell which of them changed. -/
def Frame.Merged (f : Frame) (dict : DictRef) (sources : List String) (m : Merging) (hub : Hub)
    (d : Merging) (after : Hub) : Prop :=
  ∃ ns, Settings.Evolves (f.fill (.dict dict m.entries)) hub ns
      (f.fill (.dict dict d.entries)) after ∧
    (∀ t ∈ ns, t.topic = f.property ∧ ∃ key ∈ sources, t.key? = some key) ∧
    m.Merged sources d ∧
    (hub.Tidy → Settings.Wired hub (f.fill (.dict dict m.entries)) →
      f.notifier.isSome = true → d.structural = false →
      List.Forall₂ (EntryOf.Told ns) m.entries d.entries ∧
        ∀ t ∈ ns, ∃ key ∈ Entries.keys m.entries, t.key? = some key)

theorem Frame.merged_refl (f : Frame) (dict : DictRef) (sources : List String) (m : Merging)
    (hub : Hub) : f.Merged dict sources m hub m hub := by
  exact ⟨[], .refl .., by simp, .refl .., fun _ _ _ _ => ⟨Entries.told_refl _, by simp⟩⟩

/-! ## Dropping what the source does not have -/

theorem Frame.evolves_filter (f : Frame) (dict : DictRef) (keep : Entry → Bool)
    (entries : List Entry) (hub : Hub) (before : List Entry) :
    Settings.Evolves (f.fill (.dict dict (before ++ entries))) hub []
      (f.fill (.dict dict (before ++ entries.filter keep)))
      ((entries.filter fun e => !keep e).foldl (fun hub e => hub.unforward e) hub) := by
  induction entries generalizing hub before with
  | nil => exact .refl ..
  | cons e entries ih =>
      cases kept : keep e with
      | true =>
          rw [List.filter_cons_of_pos kept, List.filter_cons_of_neg (by simp [kept])]
          have rest := ih hub (before ++ [e])
          rwa [List.append_assoc, List.append_assoc] at rest
      | false =>
          rw [List.filter_cons_of_neg (by simp [kept]), List.filter_cons_of_pos (by simp [kept])]
          exact (Settings.Evolves.drop f dict before e entries hub).trans (ih _ before)

/-- The start of a merge drops entries, and says so if there are any. -/
theorem Merging.start_spec {f : Frame} {dict : DictRef} {keys : List String}
    {entries : List Entry} {c dropped : Context} {m : Merging}
    (h : Merging.start keys entries c = (m, dropped)) :
    Settings.Evolves (f.fill (.dict dict entries)) c.hub []
        (f.fill (.dict dict m.entries)) dropped.hub ∧
      m.entries = entries.filter (fun e => keys.contains e.key) ∧
      (m.structural = false → m.entries = entries) ∧
      (m.structural = true → ∃ key ∈ Entries.keys entries, key ∉ keys) := by
  unfold start at h
  cases h
  refine ⟨f.evolves_filter dict (fun e => keys.contains e.key) entries c.hub [], rfl, ?_, ?_⟩
  · intro none_stale
    rw [List.filter_eq_self]
    intro e mem
    have empty : (entries.filter fun e => !keys.contains e.key) = [] := by simpa using none_stale
    simpa using List.filter_eq_nil_iff.1 empty e mem
  · intro stale
    obtain ⟨e, mem, absent⟩ : ∃ e ∈ entries, e.key ∉ keys := by simpa using stale
    exact ⟨e.key, List.mem_map_of_mem mem, absent⟩

/-- A merge with what the source does not have dropped before, and its announcement after it. -/
theorem Frame.copied_finishMerge {f : Frame} {dict : DictRef} {keys : List String}
    {entries : List Entry} {c dropped : Context} {start : Merging} {d : Done Merging Unit}
    (bound : dict.BoundTo f.owner f.property) (nodup : (f.fill (.dict dict entries)).names.Nodup)
    (hstart : Merging.start keys entries c = (start, dropped))
    (merged : f.Merged dict keys start dropped.hub d.subject d.context.hub) :
    f.Copied (.dict dict entries) c.hub
      (.dict dict (d.finishMerge dict.binding).subject)
      (d.finishMerge dict.binding).context.hub := by
  obtain ⟨drops, filtered, none_stale, stale⟩ := @Merging.start_spec f dict _ _ _ _ _ hstart
  obtain ⟨ns, evolves, notices, keys_merged, told⟩ := merged
  have topics : ∀ t ∈ ns, t.topic = f.property := fun t mem => (notices t mem).1
  unfold Done.finishMerge
  dsimp only
  cases structural : d.subject.structural with
  | true =>
      have topics' : ∀ t ∈ [] ++ ns ++ [⟨[], f.property⟩], t.topic = f.property := by
        intro t mem
        rcases List.mem_append.1 mem with mem | mem
        · exact topics t mem
        · rw [List.mem_singleton.1 mem]
          rfl
      rw [if_pos rfl, bound.binding, Context.tell_binding, Context.hub_announce]
      refine ⟨_, (drops.trans evolves).trans (.announce _ d.context.hub (f.property_mem_names _)),
        topics', fun _ _ _ => Settings.tells_fill nodup topics' (fun _ => ?_) (by simp)⟩
      refine Entries.unequal_of_keys_ne fun same => ?_
      -- a key of the start is one of the source's, and the source's keys are in the start
      have in_source : ∀ key ∈ Entries.keys start.entries, key ∈ keys := by
        intro key mem
        obtain ⟨e, he, rfl⟩ := List.mem_map.1 mem
        rw [filtered] at he
        simpa using (List.mem_filter.1 he).2
      have in_start : ∀ key ∈ Entries.keys entries, key ∈ keys → key ∈ Entries.keys start.entries := by
        intro key mem there
        obtain ⟨e, he, rfl⟩ := List.mem_map.1 mem
        rw [filtered]
        exact List.mem_map_of_mem (List.mem_filter.2 ⟨he, by simpa using there⟩)
      rcases keys_merged.structural.1 structural with dropped_some | ⟨key, mem, absent⟩
      · obtain ⟨key, mem, absent⟩ := stale dropped_some
        rw [same] at mem
        exact absent ((keys_merged.bounded key mem).elim (in_source key) id)
      · have there := (keys_merged.bounded key mem).resolve_left absent
        exact absent (in_start key (same ▸ mem) there)
  | false =>
      rw [if_neg Bool.false_ne_true]
      have start_same : start.structural = false := by
        rw [Bool.eq_false_iff]
        intro started
        rw [keys_merged.structural.2 (Or.inl started)] at structural
        cases structural
      refine ⟨_, drops.trans evolves, topics, fun tidy wired observable => ?_⟩
      have carried := drops.carries tidy wired
      obtain ⟨told, at_keys⟩ := told (carried.leads.tidy tidy) carried.wired observable structural
      -- nothing was dropped, so the entries were merged into those that there were
      rw [none_stale start_same] at told at_keys
      refine Settings.tells_fill nodup topics (fun some_notice => ?_) fun none => ?_
      · obtain ⟨t, mem⟩ := List.exists_mem_of_ne_nil ns some_notice
        obtain ⟨key, there, at_key⟩ := at_keys t mem
        exact Entries.values_changed told mem at_key there
      · rw [List.nil_append] at none
        subst none
        exact congrArg Value.map (Entries.values_same told)

/-! ## Entries -/

namespace Frame

variable {f : Frame} {dict : DictRef} {m : Merging} {c : Context}

/-- An entry is operated on, and its notices come before those of the others. -/
theorem told_inside (registry : Schema.Registry known) {before rest after : List Entry} {e : Entry}
    {y : Settings} {ns ms : List Notice} {hub between : Hub}
    (conforms : (f.fill (.dict dict (before ++ e :: rest))).Conforms known catalogs)
    (evolves : Settings.Evolves e.settings hub ns y between)
    (tells : hub.Tidy → Settings.Wired hub e.settings → e.settings.notifier.isSome = true →
      Settings.Tells ns e.settings y)
    (tidy : hub.Tidy) (wired : Settings.Wired hub (f.fill (.dict dict (before ++ e :: rest))))
    (observable : f.notifier.isSome = true) (apart : ∀ t ∈ ms, t.key? ≠ some e.key)
    (h : List.Forall₂ (EntryOf.Told ms) (before ++ { e with settings := y } :: rest) after) :
    List.Forall₂ (EntryOf.Told (ns.map (Notice.within f.property e.key) ++ ms))
      (before ++ e :: rest) after := by
  have slot_mem := (f.mem_slots_fill (.dict dict (before ++ e :: rest))).2 (Or.inl rfl)
  have sorted : Entries.Sorted (before ++ e :: rest) := conforms.self.sorted slot_mem
  have inside : e ∈ (ContentOf.dict dict (before ++ e :: rest)).entries :=
    List.mem_append_right _ (List.mem_cons_self ..)
  have nodup := (conforms.entry slot_mem inside).self.nodup registry
  obtain ⟨entry, wired_entry⟩ := wired_entry wired
  have entry_observable : e.settings.notifier.isSome = true := by
    rw [wired_entry.self.notifier, entry.1]
    exact wired.self.notifier.symm.trans observable
  have tells := tells tidy wired_entry entry_observable
  refine Entries.told_inside f.property sorted.nodup (fun some_notice => ?_) (fun none => ?_) apart h
  · exact tells.snapshot_changed nodup (evolves.alike.names ▸ nodup) evolves.topic_mem_names some_notice
  · exact (none ▸ tells).snapshot_same evolves.alike.schema

/-- An entry is copied into, then the others are merged. -/
theorem merged_into (registry : Schema.Registry known) {sources : List String} {ours : Entry}
    {y : Settings} {between after : Hub} {d : Merging} (fresh : ours.key ∉ sources)
    (found : Entries.find? m.entries ours.key = some ours) {hub : Hub}
    (conforms : (f.fill (.dict dict m.entries)).Conforms known catalogs)
    (copied : ours.settings.Operated hub y between)
    (rest : (f.fill (.dict dict (Entries.insert { ours with settings := y } m.entries))).Conforms
        known catalogs →
      f.Merged dict sources
        ⟨Entries.insert { ours with settings := y } m.entries, m.structural⟩ between d after) :
    f.Merged dict (ours.key :: sources) m hub d after := by
  obtain ⟨-, before, later, split⟩ := Entries.exists_of_find? found
  obtain ⟨entries, structural⟩ := m
  dsimp only at split rest conforms
  subst split
  have slot_mem := (f.mem_slots_fill (.dict dict (before ++ ours :: later))).2 (Or.inl rfl)
  have sorted : Entries.Sorted (before ++ ours :: later) := conforms.self.sorted slot_mem
  obtain ⟨ns, evolves, tells⟩ := copied
  have replaced : Entries.insert { ours with settings := y } (before ++ ours :: later) =
      before ++ { ours with settings := y } :: later := Entries.insert_replace sorted rfl
  rw [replaced] at rest
  have step := Settings.Evolves.inside f dict before ours later evolves
  obtain ⟨ms, evolves', notices, merged, told⟩ := rest (step.conforms registry conforms)
  have keys_eq : Entries.keys (before ++ { ours with settings := y } :: later) =
      Entries.keys (before ++ ours :: later) := by simp [Entries.keys]
  refine ⟨_, step.trans evolves', fun t mem => ?_, ⟨?_, ?_, ?_⟩, ?_⟩
  · rcases List.mem_append.1 mem with mem | mem
    · obtain ⟨t, -, rfl⟩ := List.mem_map.1 mem
      exact ⟨rfl, ours.key, List.mem_cons_self .., rfl⟩
    · obtain ⟨topic, key, there, at_key⟩ := notices t mem
      exact ⟨topic, key, List.mem_cons_of_mem _ there, at_key⟩
  · exact keys_eq ▸ merged.grown
  · exact fun key mem => keys_eq ▸ (merged.bounded key mem).imp_right (List.mem_cons_of_mem _)
  · exact keys_eq ▸ merged.structural
  · intro tidy wired observable same
    have carried := step.carries tidy wired
    obtain ⟨told, at_keys⟩ := told (carried.leads.tidy tidy) carried.wired observable same
    refine ⟨told_inside registry conforms evolves tells tidy wired observable
      (fun t mem at_key => ?_) told, fun t mem => ?_⟩
    · -- the others' keys are not the entry's
      obtain ⟨-, key, there, at_key'⟩ := notices t mem
      rw [at_key, Option.some.injEq] at at_key'
      exact fresh (at_key' ▸ there)
    · rcases List.mem_append.1 mem with mem | mem
      · obtain ⟨t, -, rfl⟩ := List.mem_map.1 mem
        exact ⟨ours.key, by simp [Entries.keys], rfl⟩
      · exact keys_eq ▸ at_keys t mem

variable {made y : Settings} {between later : Hub}

/-- An entry is made and given up. -/
theorem merged_unmade (sources : List String)
    (hmake : dict.blueprint.make dict.engine f.kind c.hub = (made, between))
    (copied : made.Operated between y later) :
    f.Merged dict sources m c.hub m later := by
  obtain ⟨ns, evolves, -⟩ := copied
  exact ⟨[], .discard _ hmake evolves, by simp, .refl .., fun _ _ _ _ =>
    ⟨Entries.told_refl _, by simp⟩⟩

/-- An entry is copied into in its place. -/
theorem evolves_into {entries : List Entry} {ours : Entry} {ns : List Notice} {hub : Hub}
    (sorted : Entries.Sorted entries) (found : Entries.find? entries ours.key = some ours)
    (evolves : Settings.Evolves ours.settings hub ns y between) :
    Settings.Evolves (f.fill (.dict dict entries)) hub
      (ns.map (Notice.within f.property ours.key))
      (f.fill (.dict dict (Entries.insert { ours with settings := y } entries))) between := by
  obtain ⟨-, before, after, rfl⟩ := Entries.exists_of_find? found
  have replaced : Entries.insert { ours with settings := y } (before ++ ours :: after) =
      before ++ { ours with settings := y } :: after := Entries.insert_replace sorted rfl
  rw [replaced]
  exact .inside f dict before ours after evolves

/-- An entry that was made comes among the others. -/
theorem evolves_make {entries : List Entry} {key : String} {heard : Option SubscriptionId}
    {ns : List Notice} {hub heard_hub : Hub} (sorted : Entries.Sorted entries)
    (missing : Entries.find? entries key = none)
    (hmake : dict.blueprint.make dict.engine f.kind hub = (made, between))
    (evolves : Settings.Evolves made between ns y later)
    (hforward : later.forward y.notifier (f.owner.binding f.property) = (heard, heard_hub)) :
    Settings.Evolves (f.fill (.dict dict entries)) hub []
      (f.fill (.dict dict (Entries.insert ⟨key, heard, y⟩ entries))) heard_hub := by
  have sorted' := Entries.sorted_insert sorted ⟨key, heard, y⟩
  obtain ⟨before, after, rfl, inserted⟩ :=
    Entries.exists_insert_new ⟨key, heard, y⟩ (Entries.find?_eq_none.1 missing)
  rw [inserted] at sorted' ⊢
  exact .add f hmake evolves hforward sorted'

/-- An entry is made, then the others are merged. -/
theorem merged_make (registry : Schema.Registry known) {sources : List String} {key : String}
    {heard : Option SubscriptionId} {heard_hub after : Hub} {d : Merging}
    (missing : Entries.find? m.entries key = none)
    (conforms : (f.fill (.dict dict m.entries)).Conforms known catalogs)
    (hmake : dict.blueprint.make dict.engine f.kind c.hub = (made, between))
    (copied : made.Operated between y later)
    (hforward : later.forward y.notifier (f.owner.binding f.property) = (heard, heard_hub))
    (rest : (f.fill (.dict dict (Entries.insert ⟨key, heard, y⟩ m.entries))).Conforms
        known catalogs →
      f.Merged dict sources ⟨Entries.insert ⟨key, heard, y⟩ m.entries, true⟩ heard_hub d after) :
    f.Merged dict (key :: sources) m c.hub d after := by
  obtain ⟨ns, evolves, -⟩ := copied
  have sorted : Entries.Sorted m.entries :=
    conforms.self.sorted ((f.mem_slots_fill _).2 (Or.inl rfl))
  have step : Settings.Evolves (f.fill (.dict dict m.entries)) c.hub []
      (f.fill (.dict dict (Entries.insert ⟨key, heard, y⟩ m.entries))) heard_hub :=
    f.evolves_make sorted missing hmake evolves hforward
  rw [Entries.find?_eq_none] at missing
  obtain ⟨ms, evolves', notices, merged, -⟩ := rest (step.conforms registry conforms)
  have structural_after : d.structural = true := merged.structural.2 (Or.inl rfl)
  have keys_insert := fun k => @Entries.mem_keys_insert m.entries ⟨key, heard, y⟩ k
  have key_there : key ∈ Entries.keys d.entries := merged.grown ((keys_insert key).2 (Or.inl rfl))
  refine ⟨ms, step.trans evolves', fun t mem => ?_, ⟨fun k mem => ?_, fun k mem => ?_, ?_⟩, ?_⟩
  · obtain ⟨topic, k, there, at_key⟩ := notices t mem
    exact ⟨topic, k, List.mem_cons_of_mem _ there, at_key⟩
  · exact merged.grown ((keys_insert k).2 (Or.inr mem))
  · rcases merged.bounded k mem with there | there
    · rcases (keys_insert k).1 there with rfl | there
      · exact Or.inr (List.mem_cons_self ..)
      · exact Or.inl there
    · exact Or.inr (List.mem_cons_of_mem _ there)
  · exact iff_of_true structural_after (Or.inr ⟨key, key_there, missing⟩)
  · intro _ _ _ same
    rw [structural_after] at same
    cases same

end Frame

/-! ## Slots -/

/-- The first slots of an instance, without the others. -/
structure Stem where
  schema : Schema
  kind : Kind
  notifier : Option NotifierId
  provider : Option ProviderLink
  before : List Slot

namespace Stem

/-- The instance with the other slots. -/
def fill (s : Stem) (slots : List Slot) : Settings :=
  .mk s.schema s.kind (s.before ++ slots) s.notifier s.provider

def owner (s : Stem) : Owner := ⟨s.schema.name, s.kind, s.notifier⟩

/-- The frame of the slot after the first ones. -/
def frame (s : Stem) (property : String) (after : List Slot) : Frame :=
  ⟨s.schema, s.kind, s.notifier, s.provider, property, s.before, after⟩

/-- The stem with one slot more. -/
def push (s : Stem) (slot : Slot) : Stem := { s with before := s.before ++ [slot] }

theorem fill_push (s : Stem) (slot : Slot) (slots : List Slot) :
    (s.push slot).fill slots = s.fill (slot :: slots) := by
  simp [fill, push]

/-- The other slots before and after a copy into them. -/
def Copied (s : Stem) (slots : List Slot) (hub : Hub) (slots' : List Slot) (after : Hub) : Prop :=
  ∃ ns, Settings.Evolves (s.fill slots) hub ns (s.fill slots') after ∧
    (∀ t ∈ ns, t.topic ∈ slots.map SlotOf.name) ∧
    (hub.Tidy → Settings.Wired hub (s.fill slots) → s.notifier.isSome = true →
      List.Forall₂ (SlotOf.Told ns) slots slots')

variable {s : Stem} {slots slots' : List Slot} {hub between after : Hub}

theorem copied_refl (s : Stem) (slots : List Slot) (hub : Hub) : s.Copied slots hub slots hub :=
  ⟨[], .refl .., by simp, fun _ _ _ => SlotOf.told_refl slots⟩

/-- A slot is copied into, then the later ones are. -/
theorem copied_cons (registry : Schema.Registry known) {property : String} {content other : Content}
    (conforms : (s.fill (⟨property, content⟩ :: slots)).Conforms known catalogs)
    (first : (s.frame property slots).Copied content hub other between)
    (rest : ((s.push ⟨property, other⟩).fill slots).Conforms known catalogs →
      (s.push ⟨property, other⟩).Copied slots between slots' after) :
    s.Copied (⟨property, content⟩ :: slots) hub (⟨property, other⟩ :: slots') after := by
  obtain ⟨ns, evolves, topics, tells⟩ := first
  have evolves : Settings.Evolves (s.fill (⟨property, content⟩ :: slots)) hub ns
      (s.fill (⟨property, other⟩ :: slots)) between := evolves
  have conforms' := evolves.conforms registry conforms
  rw [← fill_push] at conforms'
  obtain ⟨ms, evolves', topics', told⟩ := rest conforms'
  rw [fill_push, fill_push] at evolves'
  refine ⟨ns ++ ms, evolves.trans evolves', fun t mem => ?_, fun tidy wired observable => ?_⟩
  · rcases List.mem_append.1 mem with mem | mem
    · rw [topics t mem]
      exact List.mem_cons_self ..
    · exact List.mem_cons_of_mem _ (topics' t mem)
  · have carried := evolves.carries tidy wired
    have own := (forall₂_middle (tells tidy wired observable)).1
    have wired' := carried.wired
    rw [← fill_push] at wired'
    have later := told (carried.leads.tidy tidy) wired' observable
    -- no later slot has the name, so no later notice is about this slot
    have apart : property ∉ slots.map SlotOf.name := by
      have nodup := conforms.self.nodup registry
      have names : (s.fill (⟨property, content⟩ :: slots)).names =
          s.before.map SlotOf.name ++ property :: slots.map SlotOf.name := by
        simp [Settings.names, fill, Settings.slots]
      rw [names, List.nodup_append, List.nodup_cons] at nodup
      exact nodup.2.1.1
    refine .cons (own.before fun mem => ?_) ?_
    · obtain ⟨t, ht, topic⟩ := List.mem_map.1 mem
      have topic : t.topic = property := topic
      exact apart (topic ▸ topics' t ht)
    · refine ((List.forall₂_and_left _ _).2 ⟨fun slot => id, later⟩).imp ?_
      rintro slot slot' ⟨there, told⟩
      refine told.later fun mem => ?_
      obtain ⟨t, ht, topic⟩ := List.mem_map.1 mem
      have name : slot.name = property := topic.symm.trans (topics t ht)
      exact apart (name ▸ List.mem_map_of_mem there)

end Stem

/-! ## Whole instances -/

namespace Settings

theorem KeysSorted.slot {x : Settings} (h : x.KeysSorted) :
    ∀ slot ∈ x.slots, Entries.Sorted slot.content.entries ∧
      ∀ e ∈ slot.content.entries, e.settings.KeysSorted :=
  fun slot mem => ⟨h x (self_mem_parts x) slot mem,
    fun _ he y hy => h y (mem_parts_of_entry mem he hy)⟩

/-- A copy into an instance is an evolution, and its notices tell what it changed. So is a merge of
    entries, as far as keys stay. -/
theorem operated_assign_merged_assignEntries (registry : Schema.Registry known) :
    (∀ (source target : Settings) c, source.KeysSorted → target.Conforms known catalogs →
      target.Operated c.hub (assign source target c).subject (assign source target c).context.hub) ∧
    ∀ source dict m c, Entries.Sorted source → (∀ e ∈ source, e.settings.KeysSorted) →
      ∀ f : Frame, (f.fill (.dict dict m.entries)).Conforms known catalogs →
      f.Merged dict (Entries.keys source) m c.hub (assignEntries source dict m c).subject
        (assignEntries source dict m c).context.hub := by
  -- slots are copied one by one behind a stem, entries one by one inside a frame
  refine assign_induction
    (P := fun source target c d => source.KeysSorted → target.Conforms known catalogs →
      target.Operated c.hub d.subject d.context.hub)
    (Q := fun source owner slots c d =>
      (∀ slot ∈ source, Entries.Sorted slot.content.entries ∧
        ∀ e ∈ slot.content.entries, e.settings.KeysSorted) →
      ∀ s : Stem, s.owner = owner → (s.fill slots).Conforms known catalogs →
        s.Copied slots c.hub d.subject d.context.hub)
    (R := fun source dict m c d =>
      Entries.Sorted source → (∀ e ∈ source, e.settings.KeysSorted) →
      ∀ f : Frame, (f.fill (.dict dict m.entries)).Conforms known catalogs →
        f.Merged dict (Entries.keys source) m c.hub d.subject d.context.hub)
    ?mismatch ?refuse ?within ?stop ?nil ?dict ?write ?halt ?done ?into ?unmade ?make
  case mismatch =>
    intro _ target c _ _ _
    exact .refl target c.hub
  case refuse =>
    intro _ target c _ _ _
    exact .refl target c.hub
  case within =>
    intro source schema kind slots notifier provider c d ih _ _ _ _ sorted conforms
    obtain ⟨ns, evolves, -, told⟩ := ih sorted.slot ⟨schema, kind, notifier, provider, []⟩ rfl conforms
    exact ⟨ns, evolves, told⟩
  case stop =>
    intro _ _ slots c _ _ s _ _
    exact s.copied_refl slots c.hub
  case nil =>
    intro _ _ c _ s _ _
    exact s.copied_refl [] c.hub
  case dict =>
    intro name theirs sourceEntries source owner property dict entries slots c start dropped d rest
      hstart ih ih' sorted s same conforms
    obtain ⟨⟨own_sorted, own⟩, others⟩ := List.forall_mem_cons.1 sorted
    -- entries that the source does not have are dropped before the merge
    have drops := (@Merging.start_spec (s.frame property slots) dict _ _ _ _ _ hstart).1
    have merged := ih own_sorted own (s.frame property slots) (drops.conforms registry conforms)
    have nodup : ((s.frame property slots).fill (.dict dict entries)).names.Nodup :=
      conforms.self.nodup registry
    have bound := Frame.boundTo_of_conforms (f := s.frame property slots) conforms
    have copied := Frame.copied_finishMerge bound nodup hstart merged
    exact Stem.copied_cons registry conforms copied fun conforms => ih' others _ same conforms
  case write =>
    intro name content source owner property current slots c rest ih sorted s same conforms
    have nodup : ((s.frame property slots).fill current).names.Nodup := conforms.self.nodup registry
    have bound := Frame.boundTo_of_conforms (f := s.frame property slots) conforms
    have edited := Owner.write_spec content.value bound nodup c
    have owner_eq : (s.frame property slots).owner = owner := same
    rw [owner_eq] at edited
    exact Stem.copied_cons registry conforms (Frame.copied_of_edited edited) fun conforms =>
      ih (List.forall_mem_cons.1 sorted).2 _ same conforms
  case halt =>
    intro _ dict m c _ _ _ f _
    exact f.merged_refl dict _ m c.hub
  case done =>
    intro dict m c _ _ f _
    exact f.merged_refl dict _ m c.hub
  case into =>
    intro key forwarder source rest dict m c ours d d' found ih ih' sorted inner f conforms
    obtain ⟨rfl, before, after, split⟩ := Entries.exists_of_find? found
    have fresh : ours.key ∉ Entries.keys rest := (List.nodup_cons.1 sorted.nodup).1
    have inside : ours ∈ (ContentOf.dict dict m.entries).entries := by
      show ours ∈ m.entries
      rw [split]
      exact List.mem_append_right _ (List.mem_cons_self ..)
    have copied := ih (inner _ (List.mem_cons_self ..))
      (conforms.entry ((f.mem_slots_fill _).2 (Or.inl rfl)) inside)
    exact Frame.merged_into registry fresh found conforms copied fun conforms =>
      ih' (List.pairwise_cons.1 sorted).2 (List.forall_mem_cons.1 inner).2 f conforms
  case unmade =>
    intro key forwarder source rest dict m c made hub d e missing hmake ih sorted inner f conforms
    rw [(Frame.boundTo_of_conforms conforms).make_eq] at hmake
    have copied := ih (inner _ (List.mem_cons_self ..)) (f.conforms_made registry conforms hmake)
    exact Frame.merged_unmade _ hmake copied
  case make =>
    intro key forwarder source rest dict m c made hub d heard after d' missing hmake ih hforward ih'
      sorted inner f conforms
    have bound : dict.BoundTo f.owner f.property := Frame.boundTo_of_conforms conforms
    rw [bound.make_eq] at hmake
    rw [bound.binding] at hforward
    have copied := ih (inner _ (List.mem_cons_self ..)) (f.conforms_made registry conforms hmake)
    exact Frame.merged_make registry missing conforms hmake copied hforward fun conforms =>
      ih' (List.pairwise_cons.1 sorted).2 (List.forall_mem_cons.1 inner).2 f conforms

theorem operated_assign (registry : Schema.Registry known) (source target : Settings) (c : Context)
    (sorted : source.KeysSorted) (conforms : target.Conforms known catalogs) :
    target.Operated c.hub (assign source target c).subject (assign source target c).context.hub :=
  (operated_assign_merged_assignEntries registry).1 source target c sorted conforms

end Settings

end

end SettingsForge
