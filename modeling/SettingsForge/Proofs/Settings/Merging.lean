import SettingsForge.Proofs.Settings.Agreement
import SettingsForge.Proofs.Settings.Reacting

set_option autoImplicit false

/-! # Dictionaries brought to others

The entries of a dictionary that is brought to another one have the keys of the source
(`Settings.assignDict_brings`). Under a key that was there before stands the same instance, with other
contents, and under a new key an instance that was made. -/

namespace SettingsForge

open Hub

/-! ## Entries -/

/-- What a copy of a source's entry makes of what is there under its key. -/
inductive EntryOf.Brought (blueprint : Blueprint) (kind : Kind) (size : Nat) (source : Settings) :
    Option Entry → Entry → Prop
  /-- The instance that is there gets other contents. -/
  | kept {old : Entry} {slots : List Slot} :
      (old.settings.withSlots slots).Agrees source →
      Brought blueprint kind size source (some old)
        { old with settings := old.settings.withSlots slots }
  /-- An instance is made, with a notifier that was not there before. -/
  | made {e : Entry} :
      e.settings.Agrees source → e.settings.schema = blueprint.schema → e.settings.kind = kind →
      e.settings.provider = none → (∀ n, e.settings.notifier = some n → size ≤ n) →
      Brought blueprint kind size source none e

theorem EntryOf.Brought.mono {blueprint : Blueprint} {kind : Kind} {size later : Nat}
    {source : Settings} {old : Option Entry} {e : Entry}
    (h : e.Brought blueprint kind later source old) (le : size ≤ later) :
    e.Brought blueprint kind size source old := by
  cases h with
  | kept agrees => exact .kept agrees
  | made agrees schema kind provider fresh =>
      exact .made agrees schema kind provider fun n hn => Nat.le_trans le (fresh n hn)

/-- A merge succeeded: under the keys of the source is what was brought, and the others are left. -/
structure Done.Brings (d : Done Merging Unit) (blueprint : Blueprint) (kind : Kind) (size : Nat)
    (source entries : List Entry) : Prop where
  answer : d.answer = .ok ()
  sorted : Entries.Sorted d.subject.entries
  brought : ∀ s ∈ source, ∃ e, Entries.find? d.subject.entries s.key = some e ∧
    e.Brought blueprint kind size s.settings (Entries.find? entries s.key)
  others : ∀ key ∉ Entries.keys source,
    Entries.find? d.subject.entries key = Entries.find? entries key

/-- The first entry of the source is brought before the others. -/
theorem Done.Brings.cons {d : Done Merging Unit} {blueprint : Blueprint} {kind : Kind}
    {size later : Nat} {first e : Entry} {rest entries : List Entry}
    (brings : d.Brings blueprint kind later rest (Entries.insert e entries))
    (sorted : Entries.Sorted (first :: rest)) (at_key : e.key = first.key) (le : size ≤ later)
    (own : e.Brought blueprint kind size first.settings (Entries.find? entries first.key)) :
    d.Brings blueprint kind size (first :: rest) entries := by
  have fresh : first.key ∉ Entries.keys rest := (List.nodup_cons.1 sorted.nodup).1
  refine ⟨brings.answer, brings.sorted, fun s mem => ?_, fun key absent => ?_⟩
  · rcases List.mem_cons.1 mem with rfl | mem
    · -- no later entry of the source has the key
      refine ⟨e, ?_, own⟩
      rw [brings.others _ fresh, Entries.find?_insert, if_pos at_key]
    · obtain ⟨e', found, there⟩ := brings.brought s mem
      have differ : e.key ≠ s.key := fun same =>
        fresh ((at_key.symm.trans same) ▸ List.mem_map_of_mem mem)
      rw [Entries.find?_insert, if_neg differ] at there
      exact ⟨e', found, there.mono le⟩
  · rw [Entries.keys, List.map_cons, List.mem_cons, not_or] at absent
    rw [brings.others key absent.2, Entries.find?_insert, if_neg]
    exact fun same => absent.1 (same.symm.trans at_key)

theorem Entries.find?_filter {entries : List Entry} {keep : Entry → Bool} {key : String}
    (kept : ∀ e ∈ entries, e.key = key → keep e = true) :
    find? (entries.filter keep) key = find? entries key := by
  unfold find?
  rw [List.find?_filter]
  induction entries with
  | nil => rfl
  | cons e entries ih =>
      obtain ⟨own, others⟩ := List.forall_mem_cons.1 kept
      by_cases at_key : e.key = key
      · simp [at_key, own at_key]
      · simpa [at_key] using ih others

/-- Ascending keys are told by which there are. -/
theorem Entries.keys_eq {entries others : List Entry} (sorted : Sorted entries) (sorted' : Sorted others)
    (same : ∀ key, key ∈ keys entries ↔ key ∈ keys others) : keys entries = keys others :=
  List.Pairwise.eq_of_mem_iff sorted sorted' fun key => same key

theorem Hub.size_forward (hub : Hub) (entry : Option NotifierId) (binding : Option Binding) :
    (hub.forward entry binding).2.size = hub.size := by
  unfold Hub.forward
  split
  · exact size_attach ..
  · rfl

namespace Settings

variable {known : Schema → Prop} {catalogs : List Catalog}

@[simp] theorem schema_withSlots (slots : List Slot) (x : Settings) :
    (x.withSlots slots).schema = x.schema := by
  cases x
  rfl

@[simp] theorem notifier_withSlots (slots : List Slot) (x : Settings) :
    (x.withSlots slots).notifier = x.notifier := by
  cases x
  rfl

@[simp] theorem provider_withSlots (slots : List Slot) (x : Settings) :
    (x.withSlots slots).provider = x.provider := by
  cases x
  rfl

/-- The first entry lent is copied into an instance of the dictionary's schema. -/
theorem assign_first (registry : Schema.Registry known) {nested : Schema} {first : Entry}
    {rest : List Entry} (lent : Entries.Lent known catalogs nested (first :: rest))
    (exact : first.settings.schema.Exact catalogs) {target : Settings}
    (there : target.Of known catalogs nested)
    (writable : ∀ y ∈ slotParts target.slots, y.kind.isWritable = true) (c : Context) :
    ∃ slots later ns, assign first.settings target c = ⟨.ok (), target.withSlots slots, later⟩ ∧
      (target.withSlots slots).Agrees first.settings ∧
      Evolves target c.hub ns (target.withSlots slots) later.hub := by
  have aligned := lent.first there writable
  have copyable : Copyable known catalogs first.settings target :=
    ⟨aligned.conforms, exact, aligned.conforms', aligned.writable, aligned.inherits⟩
  have agrees := assign_agrees registry c copyable
  have subject_agrees := agrees.subject_agrees registry copyable
  have answer := agrees.answer
  obtain ⟨slots, same⟩ : ∃ slots, (assign first.settings target c).subject = target.withSlots slots := by
    rw [assign_of_isA aligned.inherits]
    exact ⟨_, rfl⟩
  obtain ⟨ns, evolves, -⟩ := operated_assign registry first.settings target c
    aligned.conforms.keysSorted aligned.conforms'
  generalize assign first.settings target c = d at *
  obtain ⟨_, _, later⟩ := d
  cases answer
  cases same
  exact ⟨slots, later, ns, rfl, subject_agrees, evolves⟩

/-- An entry is copied, and then the others are. -/
theorem assignEntries_brings (registry : Schema.Registry known) {nested : Schema} {dict : DictRef}
    (made_for : dict.blueprint.MadeFor catalogs nested) {source : List Entry}
    (lent : Entries.Lent known catalogs nested source)
    (exact : ∀ e ∈ source, e.settings.schema.Exact catalogs) (m : Merging) (c : Context)
    (opened : Entries.Open known catalogs nested (Entries.keys source) m.entries) :
    (assignEntries source dict m c).Brings dict.blueprint dict.kind c.hub.size source m.entries := by
  induction source generalizing m c with
  | nil =>
      rw [assignEntries]
      exact ⟨rfl, opened.sorted, fun _ mem => (by cases mem), fun _ _ => rfl⟩
  | cons first rest ih =>
      obtain ⟨own_exact, rest_exact⟩ := List.forall_mem_cons.1 exact
      -- whichever entry comes under the first key, the later ones do not touch it
      have others : ∀ (e : Entry) (structural : Bool) (c : Context), e.key = first.key →
          (assignEntries rest dict ⟨Entries.insert e m.entries, structural⟩ c).Brings dict.blueprint
            dict.kind c.hub.size rest (Entries.insert e m.entries) :=
        fun e structural c at_key =>
          ih lent.rest rest_exact ⟨_, structural⟩ c (opened.insert lent.sorted at_key)
      obtain ⟨key, forwarder, s⟩ := first
      rw [assignEntries]
      cases found : Entries.find? m.entries key with
      | some ours =>
          obtain ⟨there, writable⟩ := opened.inside key (List.mem_cons_self ..) ours found
          obtain ⟨slots, later, ns, assigned, agrees, evolves⟩ := assign_first registry lent own_exact
            there (fun y hy => writable y (slotParts_subset hy)) c
          have at_key : ours.key = key := (Entries.exists_of_find? found).1
          dsimp only at assigned ⊢
          rw [if_pos (writable _ (self_mem_parts _)), assigned]
          refine (others { ours with settings := ours.settings.withSlots slots } _ later at_key).cons
            lent.sorted at_key evolves.size_le ?_
          rw [found]
          exact .kept agrees
      | none =>
          have schema := dict.blueprint.schema_make dict.engine dict.kind c.hub
          have kind := dict.blueprint.kind_make dict.engine dict.kind c.hub
          have provider := dict.blueprint.provider_make dict.engine dict.kind c.hub
          dsimp only [DictRef.make]
          cases hmake : dict.blueprint.make dict.engine dict.kind c.hub with
          | mk made between =>
              obtain ⟨there, empty⟩ := made_for.of_make lent.schema hmake
              obtain ⟨slots, later, ns, assigned, agrees, evolves⟩ := assign_first registry lent own_exact
                there (by simp [empty]) { c with hub := between }
              rw [hmake] at schema kind provider
              dsimp only at assigned schema kind provider evolves ⊢
              rw [assigned]
              have alike := evolves.alike
              refine (others ⟨key, _, made.withSlots slots⟩ _ _ rfl).cons lent.sorted rfl ?_ ?_
              · rw [size_forward]
                exact Nat.le_trans (dict.blueprint.size_le_of_make _ _ hmake) evolves.size_le
              · rw [found]
                refine .made agrees (alike.schema.trans schema) (alike.kind.trans kind)
                  ((provider_withSlots ..).trans provider) fun n hn => ?_
                exact dict.blueprint.fresh_of_make _ _ hmake
                  (mem_notifiers_self (alike.notifier.symm.trans hn))

/-! ## Dictionaries -/

/-- The entries of a dictionary are instances of the schema that its blueprint was made for. -/
theorem Conforms.exists_nested (registry : Schema.Registry known) {x : Settings}
    (conforms : x.Conforms known catalogs) {property : String} {dict : DictRef}
    {entries : List Entry} (there : x.dict property = .ok (dict, entries)) :
    ∃ nested, known nested ∧ dict.blueprint.MadeFor catalogs nested ∧ Entries.Sorted entries ∧
      ∀ e ∈ entries, e.settings.Of known catalogs nested := by
  obtain ⟨slot, hs, held⟩ := exists_slot (content_of_dict there)
  obtain ⟨p, hp, -, fits⟩ := exists_left_of_forall₂ conforms.self.slots hs
  rw [held] at fits
  cases fits with
  | @dict nested _ _ declared made_for sorted schemas =>
      have inside : nested ∈ x.schema.nested := List.mem_filterMap.2 ⟨p, hp, by rw [declared]⟩
      exact ⟨nested, registry.nested conforms.self.known inside, made_for, sorted,
        fun e he => ⟨conforms.entry hs (by rw [held]; exact he), schemas e he⟩⟩

/-- A dictionary that is brought to another one has the keys of that one, and under each of them what
    was brought. -/
theorem assignDict_brings (registry : Schema.Registry known) {nested : Schema} {dict : DictRef}
    (made_for : dict.blueprint.MadeFor catalogs nested) {source : DictRef × List Entry}
    (inherits : source.1.blueprint.schema.isA dict.blueprint.schema.id = true)
    (lent : Entries.Lent known catalogs nested source.2)
    (exact : ∀ e ∈ source.2, e.settings.schema.Exact catalogs) {entries : List Entry}
    (opened : Entries.Open known catalogs nested (Entries.keys entries) entries) (c : Context) :
    (assignDict dict entries source c).answer = .ok () ∧
      Entries.keys (assignDict dict entries source c).subject = Entries.keys source.2 ∧
      ∀ s ∈ source.2, ∃ e,
        Entries.find? (assignDict dict entries source c).subject s.key = some e ∧
        e.Brought dict.blueprint dict.kind c.hub.size s.settings (Entries.find? entries s.key) := by
  unfold assignDict
  rw [if_pos inherits]
  cases hstart : Merging.start (Entries.keys source.2) entries c with
  | mk start dropped =>
      obtain ⟨filtered, opened'⟩ := opened.start hstart
      have brings := assignEntries_brings registry made_for lent exact start dropped opened'
      have size : dropped.hub.size = c.hub.size := by
        unfold Merging.start at hstart
        cases hstart
        exact size_unforwards ..
      dsimp only
      rw [filtered, size] at brings
      generalize assignEntries source.2 dict start dropped = d at brings ⊢
      -- what the source does not have was dropped before
      have absent : ∀ key ∉ Entries.keys source.2, Entries.find? d.subject.entries key = none := by
        intro key absent
        rw [brings.others key absent, Entries.find?_eq_none]
        intro mem
        obtain ⟨e, he, rfl⟩ := List.mem_map.1 mem
        exact absent (by simpa using (List.mem_filter.1 he).2)
      refine ⟨brings.answer, Entries.keys_eq brings.sorted lent.sorted fun key =>
        ⟨fun mem => ?_, fun mem => ?_⟩, fun s mem => ?_⟩
      · by_contra there
        exact Entries.find?_eq_none.1 (absent key there) mem
      · by_contra gone
        obtain ⟨s, hs, rfl⟩ := List.mem_map.1 mem
        obtain ⟨e, found, -⟩ := brings.brought s hs
        exact Option.some_ne_none e (found.symm.trans (Entries.find?_eq_none.2 gone))
      · obtain ⟨e, found, own⟩ := brings.brought s mem
        have there : s.key ∈ Entries.keys source.2 := List.mem_map_of_mem mem
        rw [Entries.find?_filter fun e _ at_key => by simpa [at_key] using there] at own
        exact ⟨e, found, own⟩

/-- After entries were dropped that the source does not have, the rest is an evolution of its own. -/
theorem assignDict_evolves (registry : Schema.Registry known) {f : Frame} {dict : DictRef}
    {entries : List Entry} (conforms : (f.fill (.dict dict entries)).Conforms known catalogs)
    {source : DictRef × List Entry}
    (inherits : source.1.blueprint.schema.isA dict.blueprint.schema.id = true)
    (sorted : Entries.Sorted source.2) (inner : ∀ e ∈ source.2, e.settings.KeysSorted) (c : Context) :
    ∃ ns, Evolves
      (f.fill (.dict dict (entries.filter fun e => (Entries.keys source.2).contains e.key)))
      ((entries.filter fun e => !(Entries.keys source.2).contains e.key).foldl
        (fun hub e => hub.unforward e) c.hub)
      ns (f.fill (.dict dict (assignDict dict entries source c).subject))
      (assignDict dict entries source c).context.hub := by
  have bound : dict.BoundTo f.owner f.property := Frame.boundTo_of_conforms conforms
  have drops := f.evolves_filter dict (fun e => (Entries.keys source.2).contains e.key) entries
    c.hub []
  obtain ⟨ns, evolves, -⟩ := (operated_assign_merged_assignEntries registry).2 source.2 dict
    (Merging.start (Entries.keys source.2) entries c).1
    (Merging.start (Entries.keys source.2) entries c).2 sorted inner f (drops.conforms registry conforms)
  unfold assignDict Done.finishMerge
  rw [if_pos inherits]
  dsimp only
  split
  · rw [bound.binding, Context.tell_binding, Context.hub_announce]
    exact ⟨_, evolves.trans (.announce _ _ (f.property_mem_names _))⟩
  · exact ⟨ns, evolves⟩

/-- An entry that is given up loses its forwarder, and its clients stay: what comes later is not heard
    at its notifier. -/
theorem subscribers_of_dropped {f : Frame} {dict : DictRef} {keep : Entry → Bool}
    {entries : List Entry} {hub after : Hub} {y : Settings} {ns : List Notice} (tidy : hub.Tidy)
    (wired : Wired hub (f.fill (.dict dict entries)))
    (evolves : Evolves (f.fill (.dict dict (entries.filter keep)))
      ((entries.filter fun e => !keep e).foldl (fun hub e => hub.unforward e) hub) ns y after)
    (disciplined : after.Disciplined) {old : Entry} (mem : old ∈ entries) (gone : keep old = false)
    {n : NotifierId} (own : old.settings.notifier = some n) :
    ∃ id owner, old.forwarder = some id ∧ f.notifier = some owner ∧
      hub.forwarders n = [(id, owner, f.property)] ∧
      after.subscribers n = (hub.subscribers n).filter fun s => s.2.isClient := by
  have drops := f.evolves_filter dict keep entries hub []
  have carried := drops.carries tidy wired
  have later := evolves.carries (carried.leads.tidy tidy) carried.wired
  have slot_mem := (f.mem_slots_fill (.dict dict entries)).2 (Or.inl rfl)
  obtain ⟨owner, id, hn, heard⟩ := wired.exists_heard slot_mem mem own
  have forwarders := heard.kept (carried.leads.disciplined (later.leads.disciplined disciplined))
  refine ⟨id, owner, heard.forwarder, hn, forwarders, ?_⟩
  obtain ⟨before, rest, rfl⟩ := List.append_of_mem mem
  -- no other entry has the notifier, nor anything inside one
  obtain ⟨inside, absent⟩ := wired.mem_entry (mem_notifiers_self own)
  have others : ∀ e ∈ before ++ rest, n ∉ e.settings.notifiers :=
    fun e he hm => absent (mem_notifiers_of_entry he hm)
  have elsewhere : n ∉ (f.fill (.dict dict ((before ++ old :: rest).filter keep))).notifiers := by
    intro there
    rcases (f.mem_notifiers_fill _).1 there with top | in_entries | beside
    · exact absent ((f.mem_notifiers_fill _).2 (Or.inl top))
    · obtain ⟨e, he, hm⟩ := ContentOf.mem_notifiers_dict.1 in_entries
      rw [List.filter_append, List.filter_cons_of_neg (by simp [gone]), ← List.filter_append] at he
      exact others e (List.mem_of_mem_filter he) hm
    · exact absent ((f.mem_notifiers_fill _).2 (Or.inr (Or.inr beside)))
  have lt : n < (((before ++ old :: rest).filter fun e => !keep e).foldl
      (fun hub e => hub.unforward e) hub).size := by
    rw [size_unforwards]
    exact wired.lt_size (mem_notifiers_iff.2 (Or.inr inside))
  rw [evolves.subscribers_elsewhere (carried.leads.tidy tidy) carried.wired hn lt elsewhere
    (Nat.le_of_lt heard.lt), List.filter_append, List.filter_cons_of_pos (by simp [gone]),
    subscribers_unforwards_of_mem own heard.forwarder, tidy.filter_forwarder forwarders]
  rw [← List.filter_append]
  exact fun e he hm => others e (List.mem_of_mem_filter he) (mem_notifiers_self hm)

end Settings

end SettingsForge
