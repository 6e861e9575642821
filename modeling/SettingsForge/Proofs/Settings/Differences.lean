import Mathlib.Algebra.BigOperators.Group.List.Basic
import Mathlib.Algebra.GroupWithZero.Nat
import SettingsForge.Proofs.Settings.Alignment
import SettingsForge.Proofs.Settings.Copies

set_option autoImplicit false

/-! # What a copy announces

`Settings.differences` counts, property by property, how an instance differs from a source: a scalar or
a list differs or not, a dictionary as often as the entries under common keys do, and once more if the
keys differ. A copy that succeeds announces just these differences, in this order
(`Settings.announces_assign`). The copy goes through the source's entries, the count through the
instance's own, so that the two sums have to be exchanged (`Entries.sum_common`). -/

namespace SettingsForge

open Settings

/-! ## Differences -/

/-- Whether a source's value, converted, differs from the scalar or from the list that there is: in
    length, or at some index. -/
def ContentOf.differs {ι : Type} (source : Value) : ContentOf ι → Bool
  | .scalar type current => (type.coerce source).any fun v => !current.equals v
  | .list l items =>
    match source with
    | .list target =>
      (target.mapM l.item.coerce).any fun conforming =>
        items.length != conforming.length ||
          (items.zip conforming).any fun (current, v) => !current.equals v
    | _ => false
  | .dict .. => false

/-- Whether dictionaries have the same keys. -/
def Entries.sameKeys (entries others : List Entry) : Bool :=
  (keys entries).all (keys others).contains && (keys others).all (keys entries).contains

namespace Settings

mutual

/-- How an instance differs from a source: the name of a property once for each change of it. -/
def differences : (target source : Settings) → List String
  | .mk _ _ slots _ _, source => slotDifferences slots source

/-- How slots differ from what a source has for their properties, in order. -/
def slotDifferences : List (SlotOf Settings) → (source : Settings) → List String
  | [], _ => []
  | ⟨name, .dict _ entries⟩ :: slots, source =>
    (match source.dict name with
      | .ok (_, others) =>
        List.replicate
          (entryDifferences entries others + if Entries.sameKeys entries others then 0 else 1) name
      | .error _ => []) ++ slotDifferences slots source
  | ⟨name, content⟩ :: slots, source =>
    (match source.get name with
      | .ok value => if content.differs value then [name] else []
      | .error _ => []) ++ slotDifferences slots source

/-- How often entries differ from the source's entries under the same keys. -/
def entryDifferences : List (EntryOf Settings) → (others : List Entry) → Nat
  | [], _ => 0
  | ⟨key, _, x⟩ :: entries, others =>
    (match Entries.find? others key with
      | some other => (differences x other.settings).length
      | none => 0) + entryDifferences entries others

end

variable {name : String} {slots : List Slot} {source : Settings}

theorem slotDifferences_dict {ours theirs : DictRef} {entries others : List Entry}
    (found : source.dict name = .ok (theirs, others)) :
    slotDifferences (⟨name, .dict ours entries⟩ :: slots) source =
      List.replicate
          (entryDifferences entries others + if Entries.sameKeys entries others then 0 else 1) name ++
        slotDifferences slots source := by
  rw [slotDifferences, found]

theorem slotDifferences_plain {content : Content} {value : Value}
    (plain : ∀ ours entries, content ≠ .dict ours entries)
    (found : source.get name = .ok value) :
    slotDifferences (⟨name, content⟩ :: slots) source =
      (if content.differs value then [name] else []) ++ slotDifferences slots source := by
  cases content with
  | dict ours entries => exact absurd rfl (plain ours entries)
  | _ =>
      rw [slotDifferences, found]
      exact plain

end Settings

namespace Entries

/-- How often entries differ from a source's, in the order of the source. -/
def mergeDifferences (source entries : List Entry) : Nat :=
  (source.map fun s =>
    ((find? entries s.key).map fun e => (differences e.settings s.settings).length).getD 0).sum

theorem find?_cons (e : Entry) (entries : List Entry) (key : String) :
    find? (e :: entries) key = if e.key = key then some e else find? entries key := by
  by_cases same : e.key = key <;> simp [find?, same]

/-- A sum over the entries with a key has one summand. -/
theorem sum_at_key (count : Entry → Nat) {entries : List Entry} (nodup : (keys entries).Nodup)
    (key : String) :
    (entries.map fun e => if e.key = key then count e else 0).sum =
      ((find? entries key).map count).getD 0 := by
  induction entries with
  | nil => rfl
  | cons e entries ih =>
      obtain ⟨absent, nodup⟩ := List.nodup_cons.1 nodup
      rw [List.map_cons, List.sum_cons, ih nodup, find?_cons]
      by_cases same : e.key = key
      · subst same
        rw [find?_eq_none.2 absent]
        simp
      · rw [if_neg same, if_neg same, Nat.zero_add]

/-- Summing over common keys goes through the one dictionary or through the other. -/
theorem sum_common (count : Entry → Entry → Nat) {entries others : List Entry}
    (nodup : (keys entries).Nodup) (nodup' : (keys others).Nodup) :
    (entries.map fun e => ((find? others e.key).map (count e)).getD 0).sum =
      (others.map fun o => ((find? entries o.key).map (count · o)).getD 0).sum := by
  induction others with
  | nil => simp [find?]
  | cons o others ih =>
      obtain ⟨absent, nodup'⟩ := List.nodup_cons.1 nodup'
      have split : ∀ e : Entry, ((find? (o :: others) e.key).map (count e)).getD 0 =
          (if e.key = o.key then count e o else 0) +
            ((find? others e.key).map (count e)).getD 0 := by
        intro e
        rw [find?_cons]
        by_cases same : e.key = o.key
        · rw [if_pos same.symm, if_pos same, same, find?_eq_none.2 absent]
          rfl
        · rw [if_neg (Ne.symm same), if_neg same, Nat.zero_add]
      simp only [split, List.sum_map_add, List.map_cons, List.sum_cons]
      rw [sum_at_key (count · o) nodup, ih nodup']

theorem entryDifferences_eq_mergeDifferences {entries others : List Entry}
    (sorted : Sorted entries) (sorted' : Sorted others) :
    entryDifferences entries others = mergeDifferences others entries := by
  refine Eq.trans ?_
    (sum_common (fun e o => (differences e.settings o.settings).length) sorted.nodup sorted'.nodup)
  clear sorted
  induction entries with
  | nil => rfl
  | cons e entries ih =>
      rw [entryDifferences, ih, List.map_cons, List.sum_cons]
      cases find? others e.key <;> rfl

/-- What the source does not have does not count. -/
theorem mergeDifferences_filter (source entries : List Entry) :
    mergeDifferences source (entries.filter fun e => (keys source).contains e.key) =
      mergeDifferences source entries := by
  unfold mergeDifferences
  refine congrArg List.sum (List.map_congr_left fun s mem => ?_)
  have same : find? (entries.filter fun e => (keys source).contains e.key) s.key =
      find? entries s.key := by
    have there : s.key ∈ keys source := List.mem_map_of_mem mem
    unfold find?
    rw [List.find?_filter]
    congr 1
    funext e
    by_cases at_key : e.key = s.key <;> simp [at_key, there]
  rw [same]

/-- An entry of the source, and the others once it is merged. -/
theorem mergeDifferences_cons {s e : Entry} {source entries : List Entry}
    (sorted : Sorted (s :: source)) (same : e.key = s.key) :
    mergeDifferences (s :: source) entries =
      ((find? entries s.key).map fun e => (differences e.settings s.settings).length).getD 0 +
        mergeDifferences source (insert e entries) := by
  rw [mergeDifferences, List.map_cons, List.sum_cons, mergeDifferences]
  refine congrArg _ (congrArg List.sum (List.map_congr_left fun o mem => ?_))
  have apart : e.key ≠ o.key := by
    rw [same]
    rintro at_key
    exact (List.nodup_cons.1 sorted.nodup).1 (at_key ▸ List.mem_map_of_mem mem)
  rw [find?_insert, if_neg apart]

theorem sameKeys_eq_false_iff {entries others : List Entry} :
    sameKeys entries others = false ↔
      (∃ key ∈ keys entries, key ∉ keys others) ∨ ∃ key ∈ keys others, key ∉ keys entries := by
  rw [sameKeys, Bool.and_eq_false_iff, List.all_eq_false, List.all_eq_false]
  simp

end Entries

/-! ## Values -/

namespace Value

/-- Lists are unequal in length or at some index. -/
theorem equalItems_eq_false_iff {items others : List Value} :
    equalItems items others = false ↔
      (items.length != others.length || (items.zip others).any fun (v, w) => !v.equals w) = true := by
  induction items generalizing others with
  | nil => cases others <;> simp [equalItems]
  | cons v items ih =>
      cases others with
      | nil => simp [equalItems]
      | cons w others =>
          rw [equalItems, Bool.and_eq_false_iff, ih]
          simp only [List.length_cons, List.zip_cons_cons, List.any_cons]
          cases v.equals w <;> simp

end Value

/-- A value differs when writing it is a change. -/
theorem ContentOf.differs_iff {content : Content} {value : Value} :
    content.differs value = true ↔ (PropertyEdit.set value).Changes content := by
  cases content with
  | scalar type current =>
      simp only [differs, PropertyEdit.Changes, Option.any_eq_true, Bool.not_eq_true']
  | list l items =>
      cases value with
      | list target =>
          simp only [differs, PropertyEdit.Changes, ValueType.Differs, Option.any_eq_true,
            Value.equalItems_eq_false_iff]
      | _ => exact iff_of_false Bool.false_ne_true id
  | dict d entries => exact iff_of_false Bool.false_ne_true (by cases value <;> exact id)

variable {known : Schema → Prop} {catalogs : List Catalog}

/-! ## Announcements -/

namespace Settings

/-- All parts of the instance announce their changes. -/
def Audible (x : Settings) : Prop := ∀ y ∈ x.parts, y.notifier.isSome = true

theorem Wired.audible {hub : Hub} {x : Settings} (wired : Wired hub x)
    (observable : x.kind.isObservable = true) : x.Audible := by
  intro y mem
  rw [(wired.parts y mem).notifier, wired.kind_eq mem]
  exact observable

/-- An evolution that announces changes of these properties, in this order. -/
def Announces (x : Settings) (hub : Hub) (topics : List String) (y : Settings) (after : Hub) : Prop :=
  ∃ ns, Evolves x hub ns y after ∧ Notice.topics ns = topics

variable {x y z : Settings} {hub between after : Hub} {first second : List String}

theorem Announces.refl (x : Settings) (hub : Hub) : x.Announces hub [] x hub := ⟨[], .refl .., rfl⟩

theorem Audible.entry (h : x.Audible) {slot : Slot} (hs : slot ∈ x.slots) {e : Entry}
    (he : e ∈ slot.content.entries) : e.settings.Audible :=
  fun _ mem => h _ (mem_parts_of_entry hs he mem)

/-- What an entry announces, its owner announces as often. -/
theorem Notice.topics_within (property key : String) (ns : List Notice) :
    Notice.topics (ns.map (Notice.within property key)) =
      List.replicate (Notice.topics ns).length property := by
  rw [Notice.topics, List.map_map, Notice.topics, List.length_map, List.eq_replicate_iff]
  simp

theorem Announces.trans (h : x.Announces hub first y between)
    (h' : y.Announces between second z after) : x.Announces hub (first ++ second) z after := by
  obtain ⟨ns, evolves, rfl⟩ := h
  obtain ⟨ms, evolves', rfl⟩ := h'
  exact ⟨ns ++ ms, evolves.trans evolves', Notice.topics_append ns ms⟩

end Settings

namespace Frame

variable {f : Frame}

/-- Writing into the slot of a frame is announced if the value differs. -/
theorem announces_write {content : Content} (value : Value)
    (bound : content.BoundTo f.owner f.property) (nodup : (f.fill content).names.Nodup)
    (audible : f.notifier.isSome = true) (c : Context) :
    (f.fill content).Announces c.hub (if content.differs value then [f.property] else [])
      (f.fill (f.owner.write f.property content value c).subject)
      (f.owner.write f.property content value c).context.hub := by
  have edited := Owner.write_spec value bound nodup c
  generalize f.fill (f.owner.write f.property content value c).subject = y at edited ⊢
  generalize (f.owner.write f.property content value c).context.hub = after at edited ⊢
  cases edited with
  | idle unchanged =>
      rw [if_neg fun differs => unchanged (ContentOf.differs_iff.1 differs)]
      exact .refl ..
  | silent none =>
      rw [notifier_fill] at none
      rw [none] at audible
      cases audible
  | told changes _ there evolves =>
      rw [if_pos (ContentOf.differs_iff.2 changes)]
      exact ⟨_, evolves.trans (.announce _ _ there), rfl⟩

/-- What a merge announces: each difference of an entry as a change of the dictionary. -/
structure Merges (f : Frame) (dict : DictRef) (source : List Entry) (m : Merging) (hub : Hub)
    (d : Merging) (after : Hub) : Prop where
  announces : (f.fill (.dict dict m.entries)).Announces hub
    (List.replicate (Entries.mergeDifferences source m.entries) f.property)
    (f.fill (.dict dict d.entries)) after
  structural : d.structural = true ↔
    m.structural = true ∨ ∃ key ∈ Entries.keys source, key ∉ Entries.keys m.entries

/-- An entry of the source is merged, then the others. -/
theorem Merges.cons {dict : DictRef} {s e : Entry} {source : List Entry} {m next d : Merging}
    {hub between after : Hub} (sorted : Entries.Sorted (s :: source)) (same : e.key = s.key)
    (inserted : next.entries = Entries.insert e m.entries)
    (structural : next.structural = true ↔ m.structural = true ∨ s.key ∉ Entries.keys m.entries)
    (first : (f.fill (.dict dict m.entries)).Announces hub
      (List.replicate (((Entries.find? m.entries s.key).map fun e =>
        (differences e.settings s.settings).length).getD 0) f.property)
      (f.fill (.dict dict next.entries)) between)
    (rest : f.Merges dict source next between d after) :
    f.Merges dict (s :: source) m hub d after := by
  refine ⟨?_, ?_⟩
  · rw [Entries.mergeDifferences_cons sorted same, List.replicate_add, ← inserted]
    exact first.trans rest.announces
  · have others : (∃ key ∈ Entries.keys source, key ∉ Entries.keys next.entries) ↔
        ∃ key ∈ Entries.keys source, key ∉ Entries.keys m.entries := by
      refine exists_congr fun key => and_congr_right fun there => not_congr ?_
      have apart : key ≠ e.key := fun at_key =>
        (List.nodup_cons.1 sorted.nodup).1 ((at_key.trans same) ▸ there)
      rw [inserted, Entries.mem_keys_insert, or_iff_right apart]
    rw [rest.structural, structural, others, or_assoc]
    simp [Entries.keys]

/-- Keys have come or gone after a merge if they differ from the source's before it. -/
theorem Merges.sameKeys_iff {dict : DictRef} {source entries : List Entry} {c dropped : Context}
    {start d : Merging} {after : Hub}
    (hstart : Merging.start (Entries.keys source) entries c = (start, dropped))
    (merges : f.Merges dict source start dropped.hub d after) :
    Entries.sameKeys entries source = false ↔ d.structural = true := by
  obtain ⟨-, filtered, none_stale, stale⟩ := @Merging.start_spec f dict _ _ _ _ _ hstart
  have gone : start.structural = true ↔ ∃ key ∈ Entries.keys entries, key ∉ Entries.keys source := by
    refine ⟨stale, fun ⟨key, mem, absent⟩ => ?_⟩
    by_contra kept
    obtain ⟨e, he, rfl⟩ := List.mem_map.1 mem
    rw [← none_stale (by simpa using kept), filtered] at he
    exact absent (by simpa using (List.mem_filter.1 he).2)
  have kept : ∀ key ∈ Entries.keys source,
      (key ∈ Entries.keys start.entries ↔ key ∈ Entries.keys entries) := by
    intro key there
    rw [filtered]
    simp only [Entries.keys, List.mem_map, List.mem_filter]
    constructor
    · rintro ⟨e, ⟨he, -⟩, rfl⟩
      exact ⟨e, he, rfl⟩
    · rintro ⟨e, he, rfl⟩
      exact ⟨e, ⟨he, by simpa [Entries.keys] using there⟩, rfl⟩
  rw [merges.structural, Entries.sameKeys_eq_false_iff]
  exact or_congr gone.symm (exists_congr fun key => and_congr_right fun there =>
    not_congr (kept key there).symm)

/-- A merge with what the source does not have dropped before, and its announcement after it. -/
theorem announces_finishMerge {dict : DictRef} {source entries : List Entry} {c dropped : Context}
    {start : Merging} {d : Done Merging Unit} (bound : dict.BoundTo f.owner f.property)
    (sorted : Entries.Sorted entries) (sorted' : Entries.Sorted source)
    (hstart : Merging.start (Entries.keys source) entries c = (start, dropped))
    (merges : f.Merges dict source start dropped.hub d.subject d.context.hub) :
    (f.fill (.dict dict entries)).Announces c.hub
      (List.replicate (entryDifferences entries source +
        if Entries.sameKeys entries source then 0 else 1) f.property)
      (f.fill (.dict dict (d.finishMerge dict.binding).subject))
      (d.finishMerge dict.binding).context.hub := by
  obtain ⟨drops, filtered, -⟩ := @Merging.start_spec f dict _ _ _ _ _ hstart
  have keys_iff := merges.sameKeys_iff hstart
  have count : Entries.mergeDifferences source start.entries = entryDifferences entries source := by
    rw [filtered, Entries.mergeDifferences_filter,
      Entries.entryDifferences_eq_mergeDifferences sorted sorted']
  have dropped_first : (f.fill (.dict dict entries)).Announces c.hub [] _ _ := ⟨_, drops, rfl⟩
  have merged := dropped_first.trans merges.announces
  rw [List.nil_append, count] at merged
  unfold Done.finishMerge
  dsimp only
  cases changed : d.subject.structural with
  | true =>
      rw [if_pos rfl, bound.binding, Context.tell_binding, Context.hub_announce, keys_iff.2 changed,
        if_neg Bool.false_ne_true, List.replicate_add]
      exact merged.trans ⟨_, .announce _ d.context.hub (f.property_mem_names _), rfl⟩
  | false =>
      have same : Entries.sameKeys entries source = true := by
        by_contra differ
        rw [keys_iff.1 (by simpa using differ)] at changed
        cases changed
      rwa [if_neg Bool.false_ne_true, same, if_pos rfl]

end Frame

/-! ## Copies -/

section

variable {known : Schema → Prop} {catalogs : List Catalog}

/-- Slots that are copied into from those of an instance, after the ones of a stem. -/
structure Stem.Takes (known : Schema → Prop) (catalogs : List Catalog) (s : Stem) (whole : Settings)
    (source slots : List Slot) : Prop where
  audible : s.notifier.isSome = true
  named : ∀ a ∈ source, whole.content a.name = .ok a.content
  begins : Begins known catalogs source slots
  conforms : (s.fill slots).Conforms known catalogs
  inside : ∀ slot ∈ slots, ∀ e ∈ slot.content.entries, e.settings.Audible

/-- Entries that are merged with those of a source, in a frame. -/
structure Frame.Takes (known : Schema → Prop) (catalogs : List Catalog) (f : Frame) (nested : Schema)
    (dict : DictRef) (source entries : List Entry) : Prop where
  audible : f.notifier.isSome = true
  made : dict.blueprint.MadeFor catalogs nested
  lent : Entries.Lent known catalogs nested source
  opened : Entries.Open known catalogs nested (Entries.keys source) entries
  conforms : (f.fill (.dict dict entries)).Conforms known catalogs
  inside : ∀ key ∈ Entries.keys source, ∀ e, Entries.find? entries key = some e → e.settings.Audible

/-- The instance has under the first slot's name what is copied into it. -/
theorem Stem.Takes.first {s : Stem} {whole : Settings} {a slot : Slot} {source slots : List Slot}
    (takes : s.Takes known catalogs whole (a :: source) (slot :: slots)) :
    whole.content slot.name = .ok a.content ∧ a.content.Aligned known catalogs slot.content := by
  obtain ⟨_, _, same, names, aligned, -⟩ := takes.begins.exists_cons
  cases same
  exact ⟨names ▸ takes.named a (List.mem_cons_self ..), aligned⟩

theorem Stem.Takes.next (registry : Schema.Registry known) {s : Stem} {whole : Settings} {a : Slot}
    {source slots : List Slot} {property : String} {content other : Content} {hub after : Hub}
    {topics : List String}
    (takes : s.Takes known catalogs whole (a :: source) (⟨property, content⟩ :: slots))
    (announces : (s.fill (⟨property, content⟩ :: slots)).Announces hub topics
      (s.fill (⟨property, other⟩ :: slots)) after) :
    (s.push ⟨property, other⟩).Takes known catalogs whole source slots := by
  obtain ⟨_, evolves, -⟩ := announces
  obtain ⟨_, _, same, -, -, begins⟩ := takes.begins.exists_cons
  cases same
  refine ⟨takes.audible, (List.forall_mem_cons.1 takes.named).2, begins, ?_,
    (List.forall_mem_cons.1 takes.inside).2⟩
  rw [Stem.fill_push]
  exact evolves.conforms registry takes.conforms

theorem Frame.Takes.next (registry : Schema.Registry known) {f : Frame} {nested : Schema}
    {dict : DictRef} {s e : Entry} {source entries : List Entry} {hub after : Hub}
    {topics : List String}
    (takes : f.Takes known catalogs nested dict (s :: source) entries) (same : e.key = s.key)
    (announces : (f.fill (.dict dict entries)).Announces hub topics
      (f.fill (.dict dict (Entries.insert e entries))) after) :
    f.Takes known catalogs nested dict source (Entries.insert e entries) := by
  obtain ⟨_, evolves, -⟩ := announces
  refine ⟨takes.audible, takes.made, takes.lent.rest, takes.opened.insert takes.lent.sorted same,
    evolves.conforms registry takes.conforms, fun key mem other found => ?_⟩
  have apart : e.key ≠ key := by
    rintro rfl
    exact (List.nodup_cons.1 takes.lent.sorted.nodup).1 (same ▸ mem)
  rw [Entries.find?_insert, if_neg apart] at found
  exact takes.inside key (List.mem_cons_of_mem _ mem) other found

end

namespace Settings

variable {known : Schema → Prop} {catalogs : List Catalog}

/-- A copy that succeeds announces the differences of its target from its source, and a merge those of
    the entries. -/
theorem announces_assign_merges_assignEntries (registry : Schema.Registry known) :
    (∀ source target c, Alignable known catalogs source target → target.Audible →
      (assign source target c).answer = .ok () →
      target.Announces c.hub (differences target source) (assign source target c).subject
        (assign source target c).context.hub) ∧
    (∀ name source owner slots c, ∀ whole, ∀ s : Stem, s.owner = owner →
      s.Takes known catalogs whole source slots →
      (assignSlots name source owner slots c).answer = .ok () →
      (s.fill slots).Announces c.hub (slotDifferences slots whole)
        (s.fill (assignSlots name source owner slots c).subject)
        (assignSlots name source owner slots c).context.hub) ∧
    ∀ source dict m c, ∀ nested, ∀ f : Frame, f.Takes known catalogs nested dict source m.entries →
      (assignEntries source dict m c).answer = .ok () →
      f.Merges dict source m c.hub (assignEntries source dict m c).subject
        (assignEntries source dict m c).context.hub := by
  -- the cases are those of the copy; the ones in which a part fails are not about successes
  refine assign.mutual_induct_unfolding
    (fun source target c d => Alignable known catalogs source target → target.Audible →
      d.answer = .ok () →
      target.Announces c.hub (differences target source) d.subject d.context.hub)
    (fun _ source owner slots c d => ∀ whole, ∀ s : Stem, s.owner = owner →
      s.Takes known catalogs whole source slots → d.answer = .ok () →
      (s.fill slots).Announces c.hub (slotDifferences slots whole) (s.fill d.subject) d.context.hub)
    (fun source dict m c d => ∀ nested, ∀ f : Frame,
      f.Takes known catalogs nested dict source m.entries →
      d.answer = .ok () → f.Merges dict source m c.hub d.subject d.context.hub)
    ?within ?mismatch ?nil ?short ?dictFails ?dict ?dictMismatch ?writeFails ?write ?done
    ?intoFails ?into ?unmade ?make
  case within =>
    intro sourceSchema sourceKind sourceSlots sourceNotifier sourceProvider schema kind slots notifier
      provider c inherits ih alignable audible succeeded
    have nodup := alignable.conforms.self.nodup registry
    exact ih (.mk sourceSchema sourceKind sourceSlots sourceNotifier sourceProvider)
      ⟨schema, kind, notifier, provider, []⟩ rfl
      ⟨audible _ (self_mem_parts _), fun _ mem => content_of_mem nodup mem,
        alignable.begins registry, alignable.conforms', fun _ hs _ he => audible.entry hs he⟩ succeeded
  case nil =>
    intro _ _ _ _ _ _ _ _ _
    exact .refl ..
  case dict =>
    intro name at_name theirs sourceEntries source owner property dict entries slots c
      inherits start dropped hstart d slot _ merged ih ih' whole s same takes succeeded
    obtain ⟨found, aligned⟩ := takes.first
    let f := s.frame property slots
    cases aligned with
    | @dict nested _ _ _ _ source_made made lent opened =>
        obtain ⟨start_eq, opened_start⟩ := opened.start hstart
        -- entries that the source does not have are dropped before the merge
        have drops := (@Merging.start_spec f dict _ _ _ _ _ hstart).1
        have bound := Frame.boundTo_of_conforms (f := f) takes.conforms
        have merges := ih nested f ⟨takes.audible, made, lent, opened_start,
          drops.conforms registry takes.conforms, fun key mem e found => ?_⟩ merged
        · have first := Frame.announces_finishMerge bound opened.sorted lent.sorted hstart merges
          have first : (s.fill (⟨property, .dict dict entries⟩ :: slots)).Announces _ _
            (s.fill (slot :: slots)) _ := first
          have rest := ih' whole (s.push slot) same (takes.next registry first) succeeded
          rw [Stem.fill_push, Stem.fill_push] at rest
          have found : whole.dict property = .ok (theirs, sourceEntries) := by
            unfold Settings.dict
            rw [found]
          rw [slotDifferences_dict found]
          exact first.trans rest
        · -- an entry that stays was there
          have mem := List.mem_of_find?_eq_some found
          rw [start_eq] at mem
          exact takes.inside _ (List.mem_cons_self ..) e (List.mem_of_mem_filter mem)
  case write =>
    intro name at_name content source owner property current slots c plain d _ written ih whole s same
      takes succeeded
    obtain ⟨found, aligned⟩ := takes.first
    have nodup := takes.conforms.self.nodup registry
    have bound := Frame.boundTo_of_conforms (f := s.frame property slots) takes.conforms
    have f_owner : (s.frame property slots).owner = owner := same
    have first := (s.frame property slots).announces_write content.value bound nodup takes.audible c
    rw [f_owner] at first
    have rest := ih whole (s.push ⟨property, d.subject⟩) same (takes.next registry first) succeeded
    rw [Stem.fill_push, Stem.fill_push] at rest
    have current_plain : ∀ dict entries, current ≠ .dict dict entries := by
      rintro dict entries rfl
      cases aligned
      exact plain _ _ _ _ rfl rfl
    have found : whole.get property = .ok content.value := by
      unfold Settings.get
      rw [found]
      rfl
    rw [slotDifferences_plain current_plain found]
    exact first.trans rest
  case done =>
    intro _ m _ _ f _ _
    exact ⟨.refl .., by simp [Entries.keys]⟩
  case into =>
    intro key _ source rest dict m c ours found d next _ answered ih ih' nested f takes succeeded
    obtain ⟨there, writable⟩ := takes.opened.inside key (List.mem_cons_self ..) ours found
    have alignable := takes.lent.first there fun y hy => writable y (slotParts_subset hy)
    have may_write := writable _ (self_mem_parts _)
    have at_key : ours.key = key := (Entries.exists_of_find? found).1
    -- the entry is writable, so it is copied into
    have d_eq : d = assign source ours.settings c := if_pos may_write
    have copied : ours.settings.Announces c.hub (differences ours.settings source) d.subject
        d.context.hub := by
      rw [d_eq] at answered ⊢
      exact ih alignable (takes.inside key (List.mem_cons_self ..) ours found) answered
    obtain ⟨ns, evolves, topics⟩ := copied
    have first : (f.fill (.dict dict m.entries)).Announces c.hub
        (List.replicate (((Entries.find? m.entries key).map fun e =>
          (differences e.settings source).length).getD 0) f.property)
        (f.fill (.dict dict next.entries)) d.context.hub := by
      refine ⟨_, f.evolves_into takes.opened.sorted (at_key ▸ found) evolves, ?_⟩
      rw [Notice.topics_within, topics, found]
      rfl
    have there : key ∈ Entries.keys m.entries := by
      by_contra absent
      rw [Entries.find?_eq_none.2 absent] at found
      cases found
    have rest := ih' nested f (takes.next registry at_key first) succeeded
    exact Frame.Merges.cons (e := { ours with settings := d.subject }) takes.lent.sorted at_key rfl
      (by simp [next, there]) first rest
  case make =>
    intro key forwarder source rest dict m c missing made hub hmake d _ answered heard after hforward ih
      ih' nested f takes succeeded
    have bound : dict.BoundTo f.owner f.property := Frame.boundTo_of_conforms takes.conforms
    rw [bound.make_eq] at hmake
    rw [bound.binding] at hforward
    obtain ⟨conforms, -⟩ := takes.lent.inside _ (List.mem_cons_self ..)
    obtain ⟨ns, evolves, -⟩ := operated_assign registry source made { c with hub := hub }
      conforms.keysSorted (f.conforms_made registry takes.conforms hmake)
    have first : (f.fill (.dict dict m.entries)).Announces c.hub
        (List.replicate (((Entries.find? m.entries key).map fun e =>
          (differences e.settings source).length).getD 0) f.property)
        (f.fill (.dict dict (Entries.insert ⟨key, heard, d.subject⟩ m.entries))) after := by
      refine ⟨_, f.evolves_make takes.opened.sorted missing hmake evolves hforward, ?_⟩
      rw [missing]
      rfl
    have absent := Entries.find?_eq_none.1 missing
    have rest := ih' nested f (takes.next registry rfl first) succeeded
    exact Frame.Merges.cons (e := ⟨key, heard, d.subject⟩) takes.lent.sorted rfl rfl (by simp [absent])
      first rest
  -- what fails does not succeed
  all_goals
    intros
    contradiction

theorem announces_assign (registry : Schema.Registry known) {source target : Settings} (c : Context)
    (alignable : Alignable known catalogs source target) (audible : target.Audible)
    (succeeded : (assign source target c).answer = .ok ()) :
    target.Announces c.hub (differences target source) (assign source target c).subject
      (assign source target c).context.hub :=
  (announces_assign_merges_assignEntries registry).1 source target c alignable audible succeeded

end Settings

end SettingsForge
