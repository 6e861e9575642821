import SettingsForge.Proofs.Settings.Bare
import SettingsForge.Settings.Path

set_option autoImplicit false

/-! # Dictionaries and copies of instances that store the same

New entries of instances that store the same store the same. A copy of one source into such instances
takes the same branches everywhere, for it looks at schemas, keys, lists and values to be copied, and at
no scalar of the target: it stops at the same error or not at all, and they store the same after it
(`Settings.assign_alike`). -/

namespace SettingsForge

open Value Settings

/-! ## Entries -/

/-- New contents of a slot differ in their engines and their bindings alone. -/
theorem SlotPlan.slot_alike (plan : SlotPlan) {owner other : Owner} (same : owner.bare = other.bare)
    (engine engine' : EngineId) : (plan.slot engine owner).bare = (plan.slot engine' other).bare := by
  obtain ⟨schemas, kinds, -⟩ := Owner.mk.inj same
  have schemas : owner.schema = other.schema := schemas
  unfold slot content SlotOf.bare
  dsimp only
  split
  · simp only [ContentOf.bare, ListRef.bare, schemas]
  · rfl
  · simp only [ContentOf.bare, DictRef.bare, kinds, List.map_nil]

theorem Blueprint.make_alike (blueprint : Blueprint) {kind other : Kind}
    (kinds : kind.bare = other.bare) (engine engine' : EngineId) (hub hub' : Hub) :
    (blueprint.make engine kind hub).1.bare = (blueprint.make engine' other hub').1.bare := by
  have owners : (blueprint.make engine kind hub).1.owner.bare =
      (blueprint.make engine' other hub').1.owner.bare := by
    simp only [owner, Owner.bare, schema_make, kind_make, kinds]
  rw [bare_eq_bare_iff]
  refine ⟨by rw [schema_make, schema_make], by rw [kind_make, kind_make, kinds], ?_⟩
  rw [slots_make, slots_make, List.map_map, List.map_map]
  exact List.map_congr_left fun plan _ => plan.slot_alike owners engine engine'

theorem DictRef.bare_eq_bare_iff {dict other : DictRef} :
    dict.bare = other.bare ↔ dict.blueprint = other.blueprint ∧ dict.kind.bare = other.kind.bare ∧
      dict.property = other.property := by
  simp [bare]

theorem DictRef.blueprint_alike {dict other : DictRef} (same : dict.bare = other.bare) :
    dict.blueprint = other.blueprint :=
  (bare_eq_bare_iff.1 same).1

theorem DictRef.make_alike {dict other : DictRef} (same : dict.bare = other.bare) (hub hub' : Hub) :
    (dict.make hub).1.bare = (other.make hub').1.bare := by
  obtain ⟨blueprints, kinds, -⟩ := bare_eq_bare_iff.1 same
  unfold make
  rw [blueprints]
  exact other.blueprint.make_alike kinds dict.engine other.engine hub hub'

namespace Entries

variable {entries others : List Entry}

/-- There is no entry under a key in both, or there are two that store the same. -/
theorem find?_alike (same : entries.map EntryOf.bare = others.map EntryOf.bare) (key : String) :
    (find? entries key = none ∧ find? others key = none) ∨
      ∃ e e', find? entries key = some e ∧ find? others key = some e' ∧ e.bare = e'.bare := by
  have found : (find? entries key).map EntryOf.bare = (find? others key).map EntryOf.bare := by
    rw [← find?_bare, same, find?_bare]
  cases h : find? entries key with
  | none =>
      rw [h] at found
      exact .inl ⟨rfl, Option.map_eq_none_iff.1 found.symm⟩
  | some e =>
      rw [h] at found
      obtain ⟨e', h', bare⟩ := Option.map_eq_some_iff.1 found.symm
      exact .inr ⟨e, e', rfl, h', bare.symm⟩

theorem exists_find?_of_alike (same : entries.map EntryOf.bare = others.map EntryOf.bare)
    {key : String} {e' : Entry} (there : find? others key = some e') :
    ∃ e, find? entries key = some e ∧ e.bare = e'.bare := by
  obtain ⟨-, missing⟩ | ⟨e, _, found, there', entry⟩ := find?_alike same key
  · cases there.symm.trans missing
  · cases there.symm.trans there'
    exact ⟨e, found, entry⟩

theorem find?_eq_none_of_alike (same : entries.map EntryOf.bare = others.map EntryOf.bare)
    {key : String} (missing : find? others key = none) : find? entries key = none := by
  obtain ⟨missing', -⟩ | ⟨_, _, -, there, -⟩ := find?_alike same key
  · exact missing'
  · cases missing.symm.trans there

theorem insert_alike (same : entries.map EntryOf.bare = others.map EntryOf.bare) {e e' : Entry}
    (entry : e.bare = e'.bare) :
    (insert e entries).map EntryOf.bare = (insert e' others).map EntryOf.bare := by
  rw [← insert_bare, same, entry, insert_bare]

theorem erase_alike (same : entries.map EntryOf.bare = others.map EntryOf.bare) (key : String) :
    (erase entries key).map EntryOf.bare = (erase others key).map EntryOf.bare := by
  rw [← erase_bare, same, erase_bare]

theorem keys_alike (same : entries.map EntryOf.bare = others.map EntryOf.bare) :
    keys entries = keys others := by
  rw [← keys_bare, same, keys_bare]

end Entries

/-- An entry stores what its instance does, whoever hears of it. -/
theorem EntryOf.bare_alike {key : String} {forwarder forwarder' : Option SubscriptionId}
    {x y : Settings} (same : x.bare = y.bare) :
    (⟨key, forwarder, x⟩ : Entry).bare = (⟨key, forwarder', y⟩ : Entry).bare :=
  congrArg (EntryOf.mk key none) same

theorem EntryOf.into_alike {e e' : Entry} (same : e.bare = e'.bare) {x y : Settings}
    (inside : x.bare = y.bare) :
    ({ e with settings := x } : Entry).bare = ({ e' with settings := y } : Entry).bare := by
  obtain ⟨key, -, -⟩ := EntryOf.mk.inj same
  have key : e.key = e'.key := key
  rw [bare, bare, key, inside]

theorem ContentOf.dict_alike {dict other : DictRef} (dicts : dict.bare = other.bare)
    {entries others : List Entry} (same : entries.map EntryOf.bare = others.map EntryOf.bare) :
    (ContentOf.dict dict entries).bare = (ContentOf.dict other others).bare :=
  congrArg₂ ContentOf.dict dicts same

/-! ## Editing dictionaries -/

namespace DictRef

variable {dict other : DictRef} {entries others : List Entry} (key : String) (c c' : Context)

theorem makeEntry_alike (same : dict.bare = other.bare) (hub hub' : Hub) :
    (dict.makeEntry key hub).1.bare = (other.makeEntry key hub').1.bare :=
  EntryOf.bare_alike (make_alike same hub hub')

theorem addEntry_alike (same : dict.bare = other.bare)
    (entries_same : entries.map EntryOf.bare = others.map EntryOf.bare) :
    (dict.addEntry entries key c).Alike (List.map EntryOf.bare) EntryOf.bare
      (other.addEntry others key c') := by
  unfold addEntry
  obtain ⟨first, second⟩ | ⟨_, _, first, second, -⟩ := Entries.find?_alike entries_same key
  · have made := makeEntry_alike key same c.hub c'.hub
    rw [first, second]
    exact ⟨congrArg Except.ok made, Entries.insert_alike entries_same made⟩
  · rw [first, second, (bare_eq_bare_iff.1 same).2.2]
    exact .of_error entries_same

theorem deleteEntry_alike (entries_same : entries.map EntryOf.bare = others.map EntryOf.bare) :
    (dict.deleteEntry entries key c).Alike (List.map EntryOf.bare) id
      (other.deleteEntry others key c') := by
  unfold deleteEntry
  obtain ⟨first, second⟩ | ⟨_, _, first, second, -⟩ := Entries.find?_alike entries_same key
  · rw [first, second]
    exact ⟨rfl, entries_same⟩
  · rw [first, second]
    exact ⟨rfl, Entries.erase_alike entries_same key⟩

end DictRef

namespace Settings

variable {x y : Settings} (property key : String) (c c' : Context)

theorem dictForEdit_alike (same : x.bare = y.bare) :
    (x.dictForEdit property c).Alike bare (fun dict => (dict.1.bare, dict.2.map EntryOf.bare))
      (y.dictForEdit property c') := by
  have writable := Kind.isWritable_eq (bare_eq_bare_iff.1 same).2.1
  unfold dictForEdit
  obtain ⟨e, first, second⟩ | ⟨dict, other, first, second, dicts⟩ :=
    error_or_ok_of_map_eq (dict_alike property same)
  · rw [first, second]
    exact .of_error same
  · rw [first, second]
    dsimp only
    rw [writable]
    split
    · exact ⟨congrArg Except.ok dicts, same⟩
    · exact refuse_alike c c' same property

/-- Alike edits of entries, as edits of dictionaries. -/
theorem editDict_alike {α β : Type} {answer : α → β}
    {edit edit' : DictRef → List Entry → Context → Done (List Entry) α} (same : x.bare = y.bare)
    (edits : ∀ dict dict' entries others c c',
      dict.bare = dict'.bare → entries.map EntryOf.bare = others.map EntryOf.bare →
        (edit dict entries c).Alike (List.map EntryOf.bare) answer (edit' dict' others c')) :
    (x.editDict property edit c).Alike bare answer (y.editDict property edit' c') := by
  have opened := (dictForEdit_alike property c c' same).answers
  unfold editDict
  generalize x.dictForEdit property c = d, y.dictForEdit property c' = d' at opened
  obtain ⟨found, _, after⟩ := d
  obtain ⟨found', _, after'⟩ := d'
  obtain ⟨e, rfl, rfl⟩ | ⟨⟨dict, entries⟩, ⟨dict', others⟩, rfl, rfl, dicts⟩ :=
    error_or_ok_of_map_eq opened
  · exact .of_error same
  · obtain ⟨refs, entries⟩ := Prod.mk.inj dicts
    refine (edits dict dict' _ _ after after' refs entries).within fun _ _ entries => ?_
    exact setContent_alike property same (ContentOf.dict_alike refs entries)

theorem addEntry_alike (same : x.bare = y.bare) :
    (x.addEntry property key c).Alike bare EntryOf.bare (y.addEntry property key c') :=
  editDict_alike property c c' same fun _ _ _ _ c c' dicts entries =>
    DictRef.addEntry_alike key c c' dicts entries

theorem deleteEntry_alike (same : x.bare = y.bare) :
    (x.deleteEntry property key c).Alike bare id (y.deleteEntry property key c') :=
  editDict_alike property c c' same fun _ _ _ _ c c' _ entries =>
    DictRef.deleteEntry_alike key c c' entries

end Settings

/-! ## Copying -/

def Merging.bare (m : Merging) : Merging := { m with entries := m.entries.map EntryOf.bare }

theorem Merging.start_alike {entries others : List Entry}
    (same : entries.map EntryOf.bare = others.map EntryOf.bare) (keys : List String) (c c' : Context) :
    (Merging.start keys entries c).1.bare = (Merging.start keys others c').1.bare := by
  -- what is kept and what is stale is said by the keys
  have keep : ∀ (p : String → Bool) (entries : List Entry),
      (entries.filter fun e => p e.key).map EntryOf.bare =
        (entries.map EntryOf.bare).filter fun e => p e.key := by
    intro p entries
    rw [List.filter_map]
    rfl
  have stale : ∀ entries : List Entry,
      (entries.filter fun e => !keys.contains e.key).isEmpty =
        ((entries.map EntryOf.bare).filter fun e => !keys.contains e.key).isEmpty := by
    intro entries
    rw [← keep fun key => !keys.contains key, List.isEmpty_map]
  unfold start bare
  dsimp only
  rw [keep fun key => keys.contains key, keep fun key => keys.contains key, stale entries, stale others,
    same]

theorem Merging.insert_alike {entries others : List Entry}
    (same : entries.map EntryOf.bare = others.map EntryOf.bare) {e e' : Entry}
    (entry : e.bare = e'.bare) (structural : Bool) :
    (⟨Entries.insert e entries, structural⟩ : Merging).bare =
      (⟨Entries.insert e' others, structural⟩ : Merging).bare :=
  congrArg (Merging.mk · structural) (Entries.insert_alike same entry)

theorem Done.Alike.finishMerge {d e : Done Merging Unit} (h : d.Alike Merging.bare id e)
    (binding binding' : Option Binding) :
    (d.finishMerge binding).Alike (List.map EntryOf.bare) id (e.finishMerge binding') :=
  ⟨h.answers, congrArg Merging.entries h.subjects⟩

/-- Only dictionaries store what dictionaries do. -/
theorem ContentOf.exists_of_bare_eq_dict {content : Content} {theirs : DictRef}
    {entries : List Entry} (h : content.bare = (ContentOf.dict theirs entries).bare) :
    ∃ ours inner, content = .dict ours inner ∧ ours.bare = theirs.bare ∧
      inner.map EntryOf.bare = entries.map EntryOf.bare := by
  cases content with
  | dict ours inner =>
      obtain ⟨refs, inside⟩ := ContentOf.dict.inj h
      exact ⟨ours, inner, rfl, refs, inside⟩
  | _ => cases h

theorem ContentOf.not_dict_of_alike {content current other : Content}
    (same : current.bare = other.bare)
    (plain : ∀ theirs sourceEntries ours entries,
      content = .dict theirs sourceEntries → other = .dict ours entries → False) :
    ∀ theirs sourceEntries ours entries,
      content = .dict theirs sourceEntries → current = .dict ours entries → False := by
  rintro theirs sourceEntries ours entries source rfl
  obtain ⟨ours', inner, rfl, -, -⟩ := exists_of_bare_eq_dict same.symm
  exact plain _ _ _ _ source rfl

theorem SlotOf.cons_alike (name : String) {content other : Content} (same : content.bare = other.bare)
    {slots others : List Slot} (rest : slots.map SlotOf.bare = others.map SlotOf.bare) :
    ((⟨name, content⟩ : Slot) :: slots).map SlotOf.bare =
      ((⟨name, other⟩ : Slot) :: others).map SlotOf.bare := by
  rw [List.map_cons, List.map_cons, rest, bare, bare, same]

/-- Slots that store what a slot and others do are a slot and others. -/
theorem SlotOf.exists_of_map_bare_eq_cons {slots others : List Slot} {slot : Slot}
    (h : slots.map SlotOf.bare = (slot :: others).map SlotOf.bare) :
    ∃ content rest, slots = ⟨slot.name, content⟩ :: rest ∧ content.bare = slot.content.bare ∧
      rest.map SlotOf.bare = others.map SlotOf.bare := by
  cases slots with
  | nil => cases h
  | cons first rest =>
      obtain ⟨first_same, rest_same⟩ := List.cons.inj h
      obtain ⟨names, contents⟩ := SlotOf.mk.inj first_same
      exact ⟨first.content, rest, by rw [← names], contents, rest_same⟩

namespace Settings

section

variable {source name property : String} {owner : Owner} {sourceSlots slots : List Slot} {c : Context}

/-- A dictionary of a source is merged into the one beside it, and the slots after it follow. -/
theorem assignSlots_dict {theirs dict : DictRef} {sourceEntries entries : List Entry}
    (inherits : theirs.blueprint.schema.isA dict.blueprint.schema.id = true) :
    assignSlots source (⟨name, .dict theirs sourceEntries⟩ :: sourceSlots) owner
        (⟨property, .dict dict entries⟩ :: slots) c =
      let started := Merging.start (sourceEntries.map EntryOf.key) entries c
      let d := (assignEntries sourceEntries dict started.1 started.2).finishMerge dict.binding
      match d.answer with
      | .error e => ⟨.error e, ⟨property, .dict dict d.subject⟩ :: slots, d.context⟩
      | .ok _ =>
        (assignSlots source sourceSlots owner slots d.context).within
          (⟨property, .dict dict d.subject⟩ :: ·) := by
  rw [assignSlots]
  exact if_pos inherits

/-- Other contents are written, and the slots after them follow. -/
theorem assignSlots_write {content current : Content}
    (other : ∀ theirs sourceEntries dict entries,
      content = .dict theirs sourceEntries → current = .dict dict entries → False) :
    assignSlots source (⟨name, content⟩ :: sourceSlots) owner (⟨property, current⟩ :: slots) c =
      let d := owner.write property current content.value c
      match d.answer with
      | .error e => ⟨.error e, ⟨property, d.subject⟩ :: slots, d.context⟩
      | .ok _ =>
        (assignSlots source sourceSlots owner slots d.context).within
          (⟨property, d.subject⟩ :: ·) :=
  assignSlots.eq_4 source owner c name content sourceSlots property current slots other

end

/-- Two entries are copied into alike, or refuse it alike. -/
theorem copied_alike {source : Settings} {ours ours' : Entry} {c c' : Context}
    (copies : ours'.settings.bare = ours.settings.bare →
      (assign source ours'.settings c').Alike bare id (assign source ours.settings c))
    (same : ours'.bare = ours.bare) :
    (if ours'.settings.kind.isWritable then assign source ours'.settings c'
      else ours'.settings.refuse "contents" c').Alike bare id
      (if ours.settings.kind.isWritable then assign source ours.settings c
        else ours.settings.refuse "contents" c) := by
  have settings : ours'.settings.bare = ours.settings.bare := congrArg EntryOf.settings same
  rw [Kind.isWritable_eq (bare_eq_bare_iff.1 settings).2.1]
  split
  · exact copies settings
  · exact refuse_alike c' c settings "contents"

/-- A copy into instances that store the same does the same. -/
theorem assign_assignSlots_assignEntries_alike :
    (∀ source target c, ∀ target' c', bare target' = bare target →
      (assign source target' c').Alike bare id (assign source target c)) ∧
    (∀ name sourceSlots owner slots c, ∀ owner' slots' c', Owner.bare owner' = Owner.bare owner →
      slots'.map SlotOf.bare = slots.map SlotOf.bare →
      (assignSlots name sourceSlots owner' slots' c').Alike (List.map SlotOf.bare) id
        (assignSlots name sourceSlots owner slots c)) ∧
    (∀ sourceEntries dict m c, ∀ dict' m' c',
      DictRef.bare dict' = DictRef.bare dict → Merging.bare m' = Merging.bare m →
      (assignEntries sourceEntries dict' m' c').Alike Merging.bare id
        (assignEntries sourceEntries dict m c)) := by
  refine assign.mutual_induct_unfolding
    (fun source target c d => ∀ target' c', target'.bare = target.bare →
      (assign source target' c').Alike bare id d)
    (fun name sourceSlots owner slots c d => ∀ owner' slots' c', owner'.bare = owner.bare →
      slots'.map SlotOf.bare = slots.map SlotOf.bare →
      (assignSlots name sourceSlots owner' slots' c').Alike (List.map SlotOf.bare) id d)
    (fun sourceEntries dict m c d => ∀ dict' m' c', dict'.bare = dict.bare → m'.bare = m.bare →
      (assignEntries sourceEntries dict' m' c').Alike Merging.bare id d)
    ?within ?mismatch ?nil ?short ?dictFails ?dict ?dictMismatch ?writeFails ?write ?done
    ?intoFails ?into ?unmade ?make
  case within =>
    intro _ _ sourceSlots _ _ schema kind slots notifier provider c inherits ih target' c' same
    obtain ⟨schema', kind', slots', notifier', provider'⟩ := target'
    obtain ⟨schemas, kinds, slots⟩ := bare_eq_bare_iff.1 same
    have schemas : schema' = schema := schemas
    subst schemas
    rw [assign, if_pos inherits]
    refine (ih ⟨schema'.name, kind', notifier'⟩ slots' c' ?_ slots).within fun _ _ after =>
      bare_eq_bare_iff.2 ⟨rfl, kinds, after⟩
    exact congrArg (Owner.mk schema'.name · none) kinds
  case mismatch =>
    intro _ _ _ _ _ schema _ _ _ _ _ differs target' c' same
    obtain ⟨schema', kind', slots', notifier', provider'⟩ := target'
    have schemas : schema' = schema := (bare_eq_bare_iff.1 same).1
    subst schemas
    rw [assign, if_neg differs]
    exact .of_error same
  case nil =>
    intro _ _ _ _ owner' slots' c' _ same
    cases List.map_eq_nil_iff.1 same
    rw [assignSlots]
    exact ⟨rfl, rfl⟩
  case short =>
    intro _ _ slot _ _ owner' slots' c' _ same
    obtain ⟨content, rest, rfl, contents, others⟩ := SlotOf.exists_of_map_bare_eq_cons same
    exact .of_error same
  case dictFails =>
    intro _ _ _ sourceEntries _ owner property dict entries _ c inherits start _ hstart d _ e failed ih
      owner' slots' c' owners same
    obtain ⟨_, rest, rfl, contents, others⟩ := SlotOf.exists_of_map_bare_eq_cons same
    obtain ⟨dict', entries', rfl, dicts, entries_same⟩ := ContentOf.exists_of_bare_eq_dict contents
    have started := Merging.start_alike entries_same (sourceEntries.map EntryOf.key) c' c
    rw [hstart] at started
    have merged := (ih dict' _ (Merging.start (sourceEntries.map EntryOf.key) entries' c').2 dicts
      started).finishMerge dict'.binding dict.binding
    rw [assignSlots_dict (by rwa [DictRef.blueprint_alike dicts])]
    dsimp only
    rw [merged.answer_eq.trans failed]
    exact .of_error (SlotOf.cons_alike property (ContentOf.dict_alike dicts merged.subjects) others)
  case dict =>
    intro _ _ _ sourceEntries _ owner property dict entries _ c inherits start _ hstart d _ _ succeeded
      ih ih' owner' slots' c' owners same
    obtain ⟨_, rest, rfl, contents, others⟩ := SlotOf.exists_of_map_bare_eq_cons same
    obtain ⟨dict', entries', rfl, dicts, entries_same⟩ := ContentOf.exists_of_bare_eq_dict contents
    have started := Merging.start_alike entries_same (sourceEntries.map EntryOf.key) c' c
    rw [hstart] at started
    have merged := (ih dict' _ (Merging.start (sourceEntries.map EntryOf.key) entries' c').2 dicts
      started).finishMerge dict'.binding dict.binding
    rw [assignSlots_dict (by rwa [DictRef.blueprint_alike dicts])]
    dsimp only
    rw [merged.answer_eq.trans succeeded]
    exact (ih' owner' rest _ owners others).within fun _ _ after =>
      SlotOf.cons_alike property (ContentOf.dict_alike dicts merged.subjects) after
  case dictMismatch =>
    intro _ _ _ _ _ _ _ _ _ _ _ differs owner' slots' c' _ same
    obtain ⟨_, rest, rfl, contents, others⟩ := SlotOf.exists_of_map_bare_eq_cons same
    obtain ⟨dict', entries', rfl, dicts, entries_same⟩ := ContentOf.exists_of_bare_eq_dict contents
    rw [assignSlots, DictRef.blueprint_alike dicts, if_neg differs]
    exact .of_error same
  case writeFails =>
    intro _ _ content _ owner property current _ c other d e failed owner' slots' c' owners same
    obtain ⟨current', rest, rfl, contents, others⟩ := SlotOf.exists_of_map_bare_eq_cons same
    have written := Owner.write_alike property c' c owners contents content.value
    rw [assignSlots_write (ContentOf.not_dict_of_alike contents other)]
    dsimp only
    rw [written.answer_eq.trans failed]
    exact .of_error (SlotOf.cons_alike property written.subjects others)
  case write =>
    intro _ _ content _ owner property current _ c other d _ succeeded ih owner' slots' c' owners same
    obtain ⟨current', rest, rfl, contents, others⟩ := SlotOf.exists_of_map_bare_eq_cons same
    have written := Owner.write_alike property c' c owners contents content.value
    rw [assignSlots_write (ContentOf.not_dict_of_alike contents other)]
    dsimp only
    rw [written.answer_eq.trans succeeded]
    exact (ih owner' rest _ owners others).within fun _ _ after =>
      SlotOf.cons_alike property written.subjects after
  case done =>
    intro _ m _ dict' m' c' _ same
    exact ⟨rfl, same⟩
  case intoFails =>
    intro key _ source rest dict m c ours found d _ e failed ih dict' m' c' _ same
    obtain ⟨entries', structural⟩ := m'
    obtain ⟨entries_same, rfl⟩ := Merging.mk.inj same
    obtain ⟨ours', found', ours_same⟩ := Entries.exists_find?_of_alike entries_same found
    have copied := copied_alike (ih _ c') ours_same
    rw [assignEntries, found']
    dsimp only
    rw [copied.answer_eq.trans failed]
    exact .of_error (Merging.insert_alike entries_same (EntryOf.into_alike ours_same copied.subjects) _)
  case into =>
    intro key _ source rest dict m c ours found d _ _ succeeded ih ih' dict' m' c' dicts same
    obtain ⟨entries', structural⟩ := m'
    obtain ⟨entries_same, rfl⟩ := Merging.mk.inj same
    obtain ⟨ours', found', ours_same⟩ := Entries.exists_find?_of_alike entries_same found
    have copied := copied_alike (ih _ c') ours_same
    rw [assignEntries, found']
    dsimp only
    rw [copied.answer_eq.trans succeeded]
    exact ih' dict' _ _ dicts
      (Merging.insert_alike entries_same (EntryOf.into_alike ours_same copied.subjects) _)
  case unmade =>
    intro key _ source rest dict m c found made hub hmake d e failed ih dict' m' c' dicts same
    obtain ⟨entries', structural⟩ := m'
    obtain ⟨entries_same, rfl⟩ := Merging.mk.inj same
    have made_same := DictRef.make_alike dicts c'.hub c.hub
    rw [hmake] at made_same
    have copied := ih _ { c' with hub := (dict'.make c'.hub).2 } made_same
    rw [assignEntries, Entries.find?_eq_none_of_alike entries_same found]
    dsimp only
    rw [copied.answer_eq.trans failed]
    exact .of_error same
  case make =>
    intro key _ source rest dict m c found made hub hmake d _ succeeded _ _ heard ih ih' dict' m' c' dicts
      same
    obtain ⟨entries', structural⟩ := m'
    obtain ⟨entries_same, rfl⟩ := Merging.mk.inj same
    have made_same := DictRef.make_alike dicts c'.hub c.hub
    rw [hmake] at made_same
    have copied := ih _ { c' with hub := (dict'.make c'.hub).2 } made_same
    rw [assignEntries, Entries.find?_eq_none_of_alike entries_same found]
    dsimp only
    rw [copied.answer_eq.trans succeeded]
    exact ih' dict' _ _ dicts
      (Merging.insert_alike entries_same (EntryOf.bare_alike copied.subjects) true)

variable {x y : Settings} (c c' : Context)

theorem assign_alike (source : Settings) (same : x.bare = y.bare) :
    (assign source x c).Alike bare id (assign source y c') :=
  assign_assignSlots_assignEntries_alike.1 source y c' x c same

theorem copy_alike (source : Option Settings) (same : x.bare = y.bare) :
    (x.copy source c).Alike bare id (y.copy source c') := by
  obtain ⟨schemas, kinds, -⟩ := bare_eq_bare_iff.1 same
  unfold copy
  rw [Kind.isWritable_eq kinds]
  split
  · cases source with
    | none => rw [schemas]; exact .of_error same
    | some s => exact assign_alike c c' s same
  · exact refuse_alike c c' same "contents"

theorem copyUntyped_alike (candidate : Candidate) (same : x.bare = y.bare) :
    (x.copyUntyped candidate c).Alike bare id (y.copyUntyped candidate c') := by
  obtain ⟨schemas, kinds, -⟩ := bare_eq_bare_iff.1 same
  unfold copyUntyped
  rw [Kind.isWritable_eq kinds]
  split
  · cases candidate with
    | absent => exact copy_alike c c' none same
    | alien => rw [schemas]; exact .of_error same
    | settings s => exact copy_alike c c' (some s) same
  · exact refuse_alike c c' same "contents"

theorem assignDict_alike {dict other : DictRef} (dicts : dict.bare = other.bare)
    {entries others : List Entry} (same : entries.map EntryOf.bare = others.map EntryOf.bare)
    (source : DictRef × List Entry) :
    (assignDict dict entries source c).Alike (List.map EntryOf.bare) id
      (assignDict other others source c') := by
  unfold assignDict
  rw [DictRef.blueprint_alike dicts]
  split
  · have started := Merging.start_alike same (Entries.keys source.2) c c'
    obtain ⟨-, -, merges⟩ := assign_assignSlots_assignEntries_alike
    exact (merges source.2 other _ _ dict _ _ dicts started).finishMerge dict.binding other.binding
  · exact .of_error same

end Settings

/-- New instances of kinds that may be written alike store the same. -/
theorem Blueprint.create_alike (blueprint : Blueprint) {kind other : Kind}
    (kinds : kind.bare = other.bare) (engine engine' : EngineId) (source : Option Settings)
    (c c' : Context) :
    (blueprint.create engine kind source c).1.map Settings.bare =
      (blueprint.create engine' other source c').1.map Settings.bare := by
  have made := blueprint.make_alike kinds engine engine' c.hub c'.hub
  unfold create
  generalize blueprint.make engine kind c.hub = first, blueprint.make engine' other c'.hub = second
    at made
  obtain ⟨x, hub⟩ := first
  obtain ⟨y, hub'⟩ := second
  cases source with
  | none => exact congrArg Except.ok made
  | some s =>
      obtain ⟨answers, subjects⟩ := Settings.assign_alike { c with hub } { c' with hub := hub' } s made
      dsimp only
      obtain ⟨e, first, second⟩ | ⟨_, _, first, second, -⟩ := error_or_ok_of_map_eq answers
      · rw [first, second]
        rfl
      · rw [first, second]
        exact congrArg Except.ok subjects

/-! ## Paths -/

namespace Settings

variable {x y : Settings}

theorem follow_alike (path : Path) (same : x.bare = y.bare) :
    (follow path x).map bare = (follow path y).map bare := by
  induction path generalizing x y with
  | nil => exact congrArg Except.ok same
  | cons step path ih =>
      obtain ⟨property, key⟩ := step
      rw [follow, follow]
      obtain ⟨e, first, second⟩ | ⟨dict, other, first, second, dicts⟩ :=
        error_or_ok_of_map_eq (dict_alike property same)
      · rw [first, second]
      · rw [first, second]
        dsimp only
        obtain ⟨first, second⟩ | ⟨e, e', first, second, entries⟩ :=
          Entries.find?_alike (Prod.mk.inj dicts).2 key
        · rw [first, second]
        · rw [first, second]
          exact ih (congrArg EntryOf.settings entries)

theorem followForEdit_alike (path : Path) (same : x.bare = y.bare) (c c' : Context) :
    (followForEdit path x c).1.map bare = (followForEdit path y c').1.map bare := by
  induction path generalizing x y c c' with
  | nil => exact congrArg Except.ok same
  | cons step path ih =>
      obtain ⟨property, key⟩ := step
      have opened := (dictForEdit_alike property c c' same).answers
      rw [followForEdit, followForEdit]
      generalize x.dictForEdit property c = d, y.dictForEdit property c' = d' at opened
      obtain ⟨found, _, after⟩ := d
      obtain ⟨found', _, after'⟩ := d'
      obtain ⟨e, rfl, rfl⟩ | ⟨dict, other, rfl, rfl, dicts⟩ := error_or_ok_of_map_eq opened
      · rfl
      · dsimp only
        obtain ⟨first, second⟩ | ⟨e, e', first, second, entries⟩ :=
          Entries.find?_alike (Prod.mk.inj dicts).2 key
        · rw [first, second]
        · rw [first, second]
          exact ih (congrArg EntryOf.settings entries) after after'

/-- What stores the same is put into instances that store the same. -/
theorem replaceAt_alike (path : Path) (same : x.bare = y.bare) {inner inner' : Settings}
    (inside : inner.bare = inner'.bare) :
    (replaceAt path x inner).bare = (replaceAt path y inner').bare := by
  induction path generalizing x y with
  | nil => exact inside
  | cons step path ih =>
      obtain ⟨property, key⟩ := step
      rw [replaceAt, replaceAt]
      obtain ⟨e, first, second⟩ | ⟨dict, other, first, second, dicts⟩ :=
        error_or_ok_of_map_eq (dict_alike property same)
      · rw [first, second]
        exact same
      · obtain ⟨blueprint, entries⟩ := dict
        obtain ⟨blueprint', others⟩ := other
        obtain ⟨refs, entries_same⟩ := Prod.mk.inj dicts
        rw [first, second]
        dsimp only
        obtain ⟨first, second⟩ | ⟨e, e', first, second, entry⟩ := Entries.find?_alike entries_same key
        · rw [first, second]
          exact same
        · rw [first, second]
          have below := ih (congrArg EntryOf.settings entry)
          exact setContent_alike property same (ContentOf.dict_alike refs
            (Entries.insert_alike entries_same (EntryOf.into_alike entry below)))

end Settings

end SettingsForge
