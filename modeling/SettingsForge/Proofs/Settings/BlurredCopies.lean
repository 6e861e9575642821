import SettingsForge.Proofs.Settings.Blurring
import SettingsForge.Settings.Path

set_option autoImplicit false

/-! # Dictionaries, copies and resets without the difference between the observable kinds

A dictionary gives new entries its own kind, so that blurring it blurs theirs. Copying into blurred
instances from blurred sources copies the same values, makes the same notifiers and announces the same
changes (`Settings.assign_blur`), and so do resets. -/

namespace SettingsForge

/-! ## Making instances -/

theorem Owner.binding_blur (owner : Owner) (property : String) :
    owner.blur.binding property = owner.binding property := rfl

theorem SlotPlan.slot_blur (plan : SlotPlan) (engine : EngineId) (owner : Owner) :
    plan.slot engine owner.blur = (plan.slot engine owner).blur := by
  unfold slot content SlotOf.blur
  dsimp only
  split <;> rfl

theorem Blueprint.slotsFor_blur (blueprint : Blueprint) (engine : EngineId) (kind : Kind)
    (notifier : Option NotifierId) :
    blueprint.slotsFor engine kind.blur notifier =
      (blueprint.slotsFor engine kind notifier).map SlotOf.blur := by
  unfold slotsFor
  rw [List.map_map]
  exact List.map_congr_left fun plan _ =>
    plan.slot_blur engine ⟨blueprint.schema.name, kind, notifier⟩

theorem Blueprint.make_blur (blueprint : Blueprint) (engine : EngineId) (kind : Kind) (hub : Hub) :
    blueprint.make engine kind.blur hub =
      ((blueprint.make engine kind hub).1.blur, (blueprint.make engine kind hub).2) := by
  unfold make
  rw [Kind.isObservable_blur]
  dsimp only
  split <;> rw [Settings.blur_mk, slotsFor_blur]

theorem DictRef.make_blur (dict : DictRef) (hub : Hub) :
    dict.blur.make hub = ((dict.make hub).1.blur, (dict.make hub).2) :=
  dict.blueprint.make_blur dict.engine dict.kind hub

@[simp] theorem Hub.unforward_blur (hub : Hub) (e : Entry) : hub.unforward e.blur = hub.unforward e := by
  unfold Hub.unforward
  rw [EntryOf.settings_blur, Settings.notifier_blur]
  rfl

/-! ## Editing dictionaries -/

namespace DictRef

variable (dict : DictRef) (entries : List Entry) (key : String) (c : Context)

@[simp] theorem binding_blur : dict.blur.binding = dict.binding := rfl

@[simp] theorem blueprint_blur : dict.blur.blueprint = dict.blueprint := rfl

@[simp] theorem property_blur : dict.blur.property = dict.property := rfl

theorem makeEntry_blur (hub : Hub) :
    dict.blur.makeEntry key hub = ((dict.makeEntry key hub).1.blur, (dict.makeEntry key hub).2) := by
  unfold makeEntry
  rw [make_blur, binding_blur]
  dsimp only
  rw [Settings.notifier_blur]
  rfl

theorem addEntry_blur :
    dict.blur.addEntry (entries.map EntryOf.blur) key c.blur =
      (dict.addEntry entries key c).blur (List.map EntryOf.blur) EntryOf.blur := by
  unfold addEntry
  rw [Entries.find?_blur, Context.hub_blur, makeEntry_blur]
  cases Entries.find? entries key with
  | some e => rfl
  | none => simp [Done.blur, Except.map, Context.blur_mk, JournalEntry.blur]

theorem deleteEntry_blur :
    dict.blur.deleteEntry (entries.map EntryOf.blur) key c.blur =
      (dict.deleteEntry entries key c).blur (List.map EntryOf.blur) id := by
  unfold deleteEntry
  rw [Entries.find?_blur]
  cases Entries.find? entries key with
  | none => rfl
  | some e => simp [Done.blur, Except.map, Context.blur_mk, JournalEntry.blur]

end DictRef

namespace Settings

variable (x : Settings) (property key : String) (c : Context)

theorem dictForEdit_blur :
    x.blur.dictForEdit property c.blur =
      (x.dictForEdit property c).blur blur fun dict => (dict.1.blur, dict.2.map EntryOf.blur) := by
  unfold dictForEdit
  rw [dict_blur, kind_blur, Kind.isWritable_blur]
  cases x.dict property with
  | error e => rfl
  | ok dict =>
      dsimp only [Except.map]
      split
      · rfl
      · exact refuse_blur x c property _

/-- Edits of entries that do the same up to blurring, as edits of dictionaries. -/
theorem editDict_blur {α : Type}
    {edit edit' : DictRef → List Entry → Context → Done (List Entry) α}
    {answer : α → α}
    (same : ∀ dict entries c, edit' dict.blur (entries.map EntryOf.blur) (Context.blur c) =
      (edit dict entries c).blur (List.map EntryOf.blur) answer) :
    x.blur.editDict property edit' c.blur = (x.editDict property edit c).blur blur answer := by
  unfold editDict
  rw [dictForEdit_blur]
  obtain ⟨found, subject, after⟩ := x.dictForEdit property c
  cases found with
  | error e => rfl
  | ok dict => simp [Done.blur, Done.within, Except.map, same, ContentOf.blur]

theorem addEntry_blur :
    x.blur.addEntry property key c.blur = (x.addEntry property key c).blur blur EntryOf.blur := by
  unfold addEntry
  exact x.editDict_blur property c fun dict entries c => dict.addEntry_blur entries key c

theorem deleteEntry_blur :
    x.blur.deleteEntry property key c.blur = (x.deleteEntry property key c).blur blur id := by
  unfold deleteEntry
  exact x.editDict_blur property c fun dict entries c => dict.deleteEntry_blur entries key c

end Settings

/-! ## Copying -/

def Merging.blur (m : Merging) : Merging := { m with entries := m.entries.map EntryOf.blur }

theorem Merging.start_blur (keys : List String) (entries : List Entry) (c : Context) :
    Merging.start keys (entries.map EntryOf.blur) c.blur =
      ((Merging.start keys entries c).1.blur, (Merging.start keys entries c).2.blur) := by
  have keep : ∀ p : Entry → Bool, (∀ e, p e.blur = p e) →
      (entries.map EntryOf.blur).filter p = (entries.filter p).map EntryOf.blur := by
    intro p same
    rw [List.filter_map]
    exact congrArg (List.map EntryOf.blur) (List.filter_congr fun e _ => same e)
  unfold Merging.start Merging.blur
  dsimp only
  rw [keep _ fun _ => rfl, keep _ fun _ => rfl, List.foldl_map, List.isEmpty_map]
  simp only [Hub.unforward_blur, Context.hub_blur, Context.journal_blur, Context.blur_mk]

theorem Done.finishMerge_blur (d : Done Merging Unit) (binding : Option Binding) :
    (d.blur Merging.blur id).finishMerge binding =
      (d.finishMerge binding).blur (List.map EntryOf.blur) id := by
  unfold Done.finishMerge Done.blur Merging.blur
  dsimp only
  split
  · rw [Context.blur_tell]
  · rfl

namespace Settings

/-- A dictionary of a blurred instance is assigned, given that its entries are copied as before. -/
theorem assignSlots_dict_blur {source name : String} {theirs dict : DictRef}
    {sourceEntries entries : List Entry} {sourceSlots slots : List Slot} {owner : Owner}
    {property : String} {c dropped : Context} {start : Merging}
    (inherits : theirs.blueprint.schema.isA dict.blueprint.schema.id = true)
    (hstart : Merging.start (sourceEntries.map EntryOf.key) entries c = (start, dropped))
    (same : assignEntries (sourceEntries.map EntryOf.blur) dict.blur start.blur dropped.blur =
      (assignEntries sourceEntries dict start dropped).blur Merging.blur id) :
    assignSlots source (List.map SlotOf.blur (⟨name, .dict theirs sourceEntries⟩ :: sourceSlots))
        owner.blur (List.map SlotOf.blur (⟨property, .dict dict entries⟩ :: slots)) c.blur =
      let d := (assignEntries sourceEntries dict start dropped).finishMerge dict.binding
      let slot : Slot := ⟨property, .dict dict.blur (d.subject.map EntryOf.blur)⟩
      match d.answer with
      | .error e => ⟨.error e, slot :: slots.map SlotOf.blur, d.context.blur⟩
      | .ok _ =>
        (assignSlots source (sourceSlots.map SlotOf.blur) owner.blur (slots.map SlotOf.blur)
          d.context.blur).within (slot :: ·) := by
  have keys : (sourceEntries.map EntryOf.blur).map EntryOf.key = sourceEntries.map EntryOf.key :=
    Entries.keys_blur sourceEntries
  show assignSlots source
    (⟨name, .dict theirs.blur (sourceEntries.map EntryOf.blur)⟩ :: sourceSlots.map SlotOf.blur)
    owner.blur (⟨property, .dict dict.blur (entries.map EntryOf.blur)⟩ :: slots.map SlotOf.blur)
    c.blur = _
  rw [assignSlots, DictRef.blueprint_blur, DictRef.blueprint_blur, if_pos inherits, keys,
    Merging.start_blur, hstart]
  dsimp only
  rw [same, DictRef.binding_blur, Done.finishMerge_blur]
  dsimp only [Done.blur]
  generalize (assignEntries sourceEntries dict start dropped).finishMerge dict.binding = d
  cases d.answer <;> rfl

/-- A slot of a blurred instance is written. -/
theorem assignSlots_write_blur {source name : String} {content current : Content}
    {sourceSlots slots : List Slot} {owner : Owner} {property : String} {c : Context}
    (other : ∀ theirs sourceEntries dict entries,
      content = .dict theirs sourceEntries → current = .dict dict entries → False) :
    assignSlots source (List.map SlotOf.blur (⟨name, content⟩ :: sourceSlots)) owner.blur
        (List.map SlotOf.blur (⟨property, current⟩ :: slots)) c.blur =
      let d := owner.write property current content.value c
      match d.answer with
      | .error e => ⟨.error e, ⟨property, d.subject.blur⟩ :: slots.map SlotOf.blur, d.context.blur⟩
      | .ok _ =>
        (assignSlots source (sourceSlots.map SlotOf.blur) owner.blur (slots.map SlotOf.blur)
          d.context.blur).within (⟨property, d.subject.blur⟩ :: ·) := by
  show assignSlots source (⟨name, content.blur⟩ :: sourceSlots.map SlotOf.blur) owner.blur
    (⟨property, current.blur⟩ :: slots.map SlotOf.blur) c.blur = _
  rw [assignSlots]
  · rw [ContentOf.value_blur, Owner.write_blur]
    dsimp only [Done.blur]
    generalize owner.write property current content.value c = d
    cases d.answer <;> rfl
  · intro _ _ _ _ same same'
    obtain ⟨theirs, sourceEntries, rfl⟩ := ContentOf.exists_of_blur_eq_dict same
    obtain ⟨dict, entries, rfl⟩ := ContentOf.exists_of_blur_eq_dict same'
    exact other _ _ _ _ rfl rfl

/-- A blurred entry is copied into. -/
theorem assignEntries_into_blur {key : String} {forwarder : Option SubscriptionId} {source : Settings}
    {rest : List Entry} {dict : DictRef} {m : Merging} {c : Context} {ours : Entry}
    (found : Entries.find? m.entries key = some ours)
    (same : assign source.blur ours.settings.blur c.blur =
      (assign source ours.settings c).blur blur id) :
    assignEntries (List.map EntryOf.blur (⟨key, forwarder, source⟩ :: rest)) dict.blur m.blur c.blur =
      let d :=
        if ours.settings.kind.isWritable then assign source ours.settings c
        else ours.settings.refuse "contents" c
      let next : Merging :=
        ⟨Entries.insert { ours with settings := d.subject } m.entries, m.structural⟩
      match d.answer with
      | .error e => ⟨.error e, next.blur, d.context.blur⟩
      | .ok _ =>
        assignEntries (rest.map EntryOf.blur) dict.blur next.blur d.context.blur := by
  have found' : Entries.find? m.blur.entries key = some ours.blur := by
    rw [Merging.blur, Entries.find?_blur, found]
    rfl
  have copied : (if ours.blur.settings.kind.isWritable then
        assign source.blur ours.blur.settings c.blur
      else ours.blur.settings.refuse "contents" c.blur) =
      (if ours.settings.kind.isWritable then assign source ours.settings c
        else ours.settings.refuse "contents" c).blur blur id := by
    rw [EntryOf.settings_blur, kind_blur, Kind.isWritable_blur, same,
      refuse_blur ours.settings c "contents" id]
    split <;> rfl
  show assignEntries (⟨key, forwarder, source.blur⟩ :: rest.map EntryOf.blur) dict.blur m.blur
    c.blur = _
  rw [assignEntries, found']
  dsimp only
  rw [copied]
  dsimp only [Done.blur]
  generalize (if ours.settings.kind.isWritable then assign source ours.settings c
    else ours.settings.refuse "contents" c) = d
  have next : (⟨Entries.insert { ours.blur with settings := d.subject.blur } m.blur.entries,
      m.blur.structural⟩ : Merging) =
      Merging.blur ⟨Entries.insert { ours with settings := d.subject } m.entries, m.structural⟩ :=
    congrArg (Merging.mk · m.structural)
      (Entries.insert_blur m.entries { ours with settings := d.subject })
  rw [next]
  cases d.answer <;> rfl

/-- An entry is made of a blurred kind. -/
theorem assignEntries_make_blur {key : String} {forwarder : Option SubscriptionId} {source : Settings}
    {rest : List Entry} {dict : DictRef} {m : Merging} {c : Context} {made : Settings} {hub : Hub}
    (found : Entries.find? m.entries key = none)
    (hmake : dict.make c.hub = (made, hub))
    (same : assign source.blur made.blur (Context.blur { c with hub := hub }) =
      (assign source made { c with hub := hub }).blur blur id) :
    assignEntries (List.map EntryOf.blur (⟨key, forwarder, source⟩ :: rest)) dict.blur m.blur c.blur =
      let d := assign source made { c with hub := hub }
      match d.answer with
      | .error e => ⟨.error e, m.blur, d.context.blur⟩
      | .ok _ =>
        let (forwarder, heard) := d.context.hub.forward d.subject.notifier dict.binding
        assignEntries (rest.map EntryOf.blur) dict.blur
          (Merging.blur ⟨Entries.insert ⟨key, forwarder, d.subject⟩ m.entries, true⟩)
          (Context.blur { d.context with hub := heard }) := by
  have found' : Entries.find? m.blur.entries key = none := by
    rw [Merging.blur, Entries.find?_blur, found]
    rfl
  show assignEntries (⟨key, forwarder, source.blur⟩ :: rest.map EntryOf.blur) dict.blur m.blur
    c.blur = _
  rw [assignEntries, found', Context.hub_blur, DictRef.make_blur, hmake]
  dsimp only
  rw [show ({ c.blur with hub := hub } : Context) = Context.blur { c with hub := hub } from rfl, same]
  dsimp only [Done.blur]
  generalize assign source made { c with hub := hub } = d
  have next : ∀ heard : Option SubscriptionId,
      (⟨Entries.insert ⟨key, heard, d.subject.blur⟩ m.blur.entries, true⟩ : Merging) =
        Merging.blur ⟨Entries.insert ⟨key, heard, d.subject⟩ m.entries, true⟩ := fun heard =>
    congrArg (Merging.mk · true) (Entries.insert_blur m.entries ⟨key, heard, d.subject⟩)
  simp only [next, notifier_blur, DictRef.binding_blur, Context.hub_blur]
  cases d.answer <;> rfl

/-- Copying does the same up to blurring. -/
theorem assign_assignSlots_assignEntries_blur :
    (∀ source target c, assign source.blur target.blur (Context.blur c) =
      (assign source target c).blur blur id) ∧
    (∀ name sourceSlots owner slots c,
      assignSlots name (sourceSlots.map SlotOf.blur) (Owner.blur owner) (slots.map SlotOf.blur)
          (Context.blur c) =
        (assignSlots name sourceSlots owner slots c).blur (List.map SlotOf.blur) id) ∧
    (∀ sourceEntries dict m c,
      assignEntries (sourceEntries.map EntryOf.blur) (DictRef.blur dict) (Merging.blur m)
          (Context.blur c) =
        (assignEntries sourceEntries dict m c).blur Merging.blur id) := by
  refine assign.mutual_induct_unfolding
    (fun source target c d => assign source.blur target.blur c.blur = d.blur blur id)
    (fun name sourceSlots owner slots c d =>
      assignSlots name (sourceSlots.map SlotOf.blur) owner.blur (slots.map SlotOf.blur) c.blur =
        d.blur (List.map SlotOf.blur) id)
    (fun sourceEntries dict m c d =>
      assignEntries (sourceEntries.map EntryOf.blur) dict.blur m.blur c.blur = d.blur Merging.blur id)
    ?within ?mismatch ?nil ?short ?dictFails ?dict ?dictMismatch ?writeFails ?write ?done
    ?intoFails ?into ?unmade ?make
  case within =>
    intro sourceSchema _ sourceSlots _ _ schema kind slots notifier provider c inherits ih
    rw [blur_mk, blur_mk, assign, if_pos inherits]
    have inside : assignSlots sourceSchema.name (sourceSlots.map SlotOf.blur)
        ⟨schema.name, kind.blur, notifier⟩ (slots.map SlotOf.blur) c.blur = _ := ih
    rw [inside]
    simp [Done.within, Done.blur, blur_mk]
  case mismatch =>
    intro _ _ _ _ _ _ _ _ _ _ _ differs
    rw [blur_mk, blur_mk, assign, if_neg differs]
    simp [Done.blur, Except.map, blur_mk]
  case nil =>
    intros
    rw [List.map_nil, assignSlots]
    rfl
  case short =>
    intros
    rfl
  case dictFails =>
    intro _ _ _ _ _ _ _ _ _ _ _ inherits _ _ hstart d _ e failed ih
    rw [assignSlots_dict_blur inherits hstart ih]
    show (match d.answer with | .error e => _ | .ok _ => _) = _
    rw [failed]
    rfl
  case dict =>
    intro _ _ _ _ _ _ _ _ _ _ _ inherits _ _ hstart d slot _ succeeded ih ih'
    rw [assignSlots_dict_blur inherits hstart ih]
    show (match d.answer with | .error e => _ | .ok _ => Done.within _ _) = _
    rw [succeeded, ih']
    exact (Done.blur_within (fun _ => rfl) id _).symm
  case dictMismatch =>
    intro source name theirs sourceEntries sourceSlots owner property dict entries slots c differs
    show assignSlots source
      (⟨name, .dict theirs.blur (sourceEntries.map EntryOf.blur)⟩ :: sourceSlots.map SlotOf.blur)
      owner.blur (⟨property, .dict dict.blur (entries.map EntryOf.blur)⟩ :: slots.map SlotOf.blur)
      c.blur = _
    rw [assignSlots, DictRef.blueprint_blur, DictRef.blueprint_blur, if_neg differs]
    rfl
  case writeFails =>
    intro _ _ _ _ _ _ _ _ _ other d e failed
    rw [assignSlots_write_blur other]
    show (match d.answer with | .error e => _ | .ok _ => _) = _
    rw [failed]
    rfl
  case write =>
    intro _ _ _ _ _ _ _ _ _ other d _ succeeded ih
    rw [assignSlots_write_blur other]
    show (match d.answer with | .error e => _ | .ok _ => Done.within _ _) = _
    rw [succeeded, ih]
    exact (Done.blur_within (fun _ => rfl) id _).symm
  case done =>
    intros
    rfl
  case intoFails =>
    intro _ _ _ _ _ _ _ _ found d _ e failed ih
    rw [assignEntries_into_blur found ih]
    show (match d.answer with | .error e => _ | .ok _ => _) = _
    rw [failed]
    rfl
  case into =>
    intro _ _ _ _ _ _ _ _ found d _ _ succeeded ih ih'
    rw [assignEntries_into_blur found ih]
    show (match d.answer with | .error e => _ | .ok _ => _) = _
    rw [succeeded]
    exact ih'
  case unmade =>
    intro _ _ _ _ _ _ _ found _ _ hmake d e failed ih
    rw [assignEntries_make_blur found hmake ih]
    show (match d.answer with | .error e => _ | .ok _ => _) = _
    rw [failed]
    rfl
  case make =>
    intro _ _ _ _ _ _ _ found _ _ hmake d _ succeeded _ _ heard ih ih'
    rw [assignEntries_make_blur found hmake ih]
    show (match d.answer with | .error e => _ | .ok _ => _) = _
    rw [succeeded, heard]
    exact ih'

theorem assign_blur (source target : Settings) (c : Context) :
    assign source.blur target.blur c.blur = (assign source target c).blur blur id :=
  assign_assignSlots_assignEntries_blur.1 source target c

theorem assignEntries_blur (sourceEntries : List Entry) (dict : DictRef) (m : Merging)
    (c : Context) :
    assignEntries (sourceEntries.map EntryOf.blur) dict.blur m.blur c.blur =
      (assignEntries sourceEntries dict m c).blur Merging.blur id :=
  assign_assignSlots_assignEntries_blur.2.2 sourceEntries dict m c

variable (x : Settings) (c : Context)

theorem copy_blur (source : Option Settings) :
    x.blur.copy (source.map blur) c.blur = (x.copy source c).blur blur id := by
  unfold copy
  rw [kind_blur, Kind.isWritable_blur, refuse_blur x c "contents" id]
  split
  · cases source with
    | none => simp [Done.blur, Except.map]
    | some s => exact assign_blur s x c
  · rfl

/-- What may be passed to a copy from a source of unknown nature, with its kinds blurred. -/
def Candidate.blur : Candidate → Candidate
  | .settings x => .settings x.blur
  | candidate => candidate

theorem copyUntyped_blur (candidate : Candidate) :
    x.blur.copyUntyped candidate.blur c.blur = (x.copyUntyped candidate c).blur blur id := by
  unfold copyUntyped
  rw [kind_blur, Kind.isWritable_blur, refuse_blur x c "contents" id]
  split
  · cases candidate with
    | absent => exact x.copy_blur c none
    | alien => simp [Candidate.blur, Done.blur, Except.map]
    | settings s => exact x.copy_blur c (some s)
  · rfl

theorem assignDict_blur (dict : DictRef) (entries : List Entry) (source : DictRef × List Entry)
    (c : Context) :
    assignDict dict.blur (entries.map EntryOf.blur)
        (source.1.blur, source.2.map EntryOf.blur) c.blur =
      (assignDict dict entries source c).blur (List.map EntryOf.blur) id := by
  unfold assignDict
  dsimp only
  rw [Entries.keys_blur, Merging.start_blur, DictRef.blueprint_blur, DictRef.blueprint_blur]
  split
  · dsimp only
    rw [assignEntries_blur, DictRef.binding_blur, Done.finishMerge_blur]
  · rfl

end Settings

theorem Blueprint.create_blur (blueprint : Blueprint) (engine : EngineId) (kind : Kind)
    (source : Option Settings) (c : Context) :
    blueprint.create engine kind.blur (source.map Settings.blur) c.blur =
      ((blueprint.create engine kind source c).1.map Settings.blur,
        (blueprint.create engine kind source c).2.blur) := by
  unfold create
  rw [Context.hub_blur, Blueprint.make_blur]
  obtain ⟨made, hub⟩ := blueprint.make engine kind c.hub
  cases source with
  | none => rfl
  | some s =>
      dsimp only [Option.map]
      rw [show ({ c.blur with hub := hub } : Context) = Context.blur { c with hub := hub } from rfl,
        Settings.assign_blur]
      dsimp only [Done.blur]
      cases (Settings.assign s made { c with hub := hub }).answer <;> rfl

/-! ## Paths -/

namespace Settings

theorem follow_blur (path : Path) (x : Settings) : follow path x.blur = (follow path x).map blur := by
  induction path generalizing x with
  | nil => rfl
  | cons step path ih =>
      obtain ⟨property, key⟩ := step
      rw [follow, follow, dict_blur]
      cases x.dict property with
      | error e => rfl
      | ok dict =>
          dsimp only [Except.map]
          rw [Entries.find?_blur]
          cases Entries.find? dict.2 key with
          | none => rfl
          | some e => exact ih e.settings

theorem followForEdit_blur (path : Path) (x : Settings) (c : Context) :
    followForEdit path x.blur c.blur =
      ((followForEdit path x c).1.map blur, (followForEdit path x c).2.blur) := by
  induction path generalizing x c with
  | nil => rfl
  | cons step path ih =>
      obtain ⟨property, key⟩ := step
      rw [followForEdit, followForEdit, dictForEdit_blur]
      obtain ⟨found, subject, after⟩ := x.dictForEdit property c
      cases found with
      | error e => rfl
      | ok dict =>
          dsimp only [Done.blur, Except.map]
          rw [Entries.find?_blur]
          cases Entries.find? dict.2 key with
          | none => rfl
          | some e => exact ih e.settings after

theorem blur_replaceAt (path : Path) (x y : Settings) :
    (replaceAt path x y).blur = replaceAt path x.blur y.blur := by
  induction path generalizing x with
  | nil => rfl
  | cons step path ih =>
      obtain ⟨property, key⟩ := step
      rw [replaceAt, replaceAt, dict_blur]
      cases x.dict property with
      | error e => rfl
      | ok dict =>
          dsimp only [Except.map]
          rw [Entries.find?_blur]
          cases Entries.find? dict.2 key with
          | none => rfl
          | some e =>
              dsimp only [Option.map]
              rw [blur_setContent, ContentOf.blur, ← Entries.insert_blur, EntryOf.settings_blur, ← ih]
              rfl

end Settings

end SettingsForge
