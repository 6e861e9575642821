import SettingsForge.Settings.Dictionary

set_option autoImplicit false

/-! # Copying

A copy brings every property of the target to the source's value. The source is an instance of the
target's schema or of one that inherits from it, so that the target's properties are the first ones of
the source, in the same order, and the two are walked side by side. Scalars are stored, lists
reconciled. In a dictionary, entries that the source does not have are dropped, entries of both are
copied into in place, and the others are made; the dictionary's change is announced once, after its
entries, if keys came or went. An error stops the copy, and what was done stays. -/

namespace SettingsForge

/-- The entries of a dictionary under assignment, and whether keys came or went. -/
structure Merging where
  entries : List Entry
  structural : Bool

/-- The start of a merge: drop the entries whose keys are not among these. -/
def Merging.start (keys : List String) (entries : List Entry) (c : Context) : Merging × Context :=
  let stale := entries.filter fun e => !keys.contains e.key
  (⟨entries.filter fun e => keys.contains e.key, !stale.isEmpty⟩,
    { c with hub := stale.foldl (fun hub e => hub.unforward e) c.hub })

/-- The subject of a finished merge; the owner is told if keys came or went. -/
def Done.finishMerge (d : Done Merging Unit) (binding : Option Binding) : Done (List Entry) Unit :=
  ⟨d.answer, d.subject.entries,
    if d.subject.structural then d.context.tell binding else d.context⟩

namespace Settings

mutual

/-- Bring a target to a source, whatever the target's kind. -/
def assign : (source : Settings) → (target : Settings) → Context → Done Settings Unit
  | .mk sourceSchema _ sourceSlots _ _, .mk schema kind slots notifier provider, c =>
    if sourceSchema.isA schema.id then
      (assignSlots sourceSchema.name sourceSlots ⟨schema.name, kind, notifier⟩ slots c).within
        fun after => .mk schema kind after notifier provider
    else
      ⟨.error (.schemaMismatch schema.name sourceSchema.name),
        .mk schema kind slots notifier provider, c⟩

/-- Bring slots to the slots of a source, side by side. -/
def assignSlots (source : String) :
    List (SlotOf Settings) → Owner → List Slot → Context → Done (List Slot) Unit
  | _, _, [], c => ⟨.ok (), [], c⟩
  | [], _, slot :: slots, c => ⟨.error (.unknownProperty source slot.name), slot :: slots, c⟩
  | ⟨_, .dict theirs sourceEntries⟩ :: sourceSlots, owner,
      ⟨property, .dict dict entries⟩ :: slots, c =>
    if theirs.blueprint.schema.isA dict.blueprint.schema.id then
      let (start, dropped) :=
        Merging.start (sourceEntries.map EntryOf.key) entries c
      let d := (assignEntries sourceEntries dict start dropped).finishMerge dict.binding
      let slot : Slot := ⟨property, .dict dict d.subject⟩
      match d.answer with
      | .error e => ⟨.error e, slot :: slots, d.context⟩
      | .ok _ => (assignSlots source sourceSlots owner slots d.context).within (slot :: ·)
    else
      ⟨.error (.schemaMismatch dict.blueprint.schema.name theirs.blueprint.schema.name),
        ⟨property, .dict dict entries⟩ :: slots, c⟩
  | ⟨_, content⟩ :: sourceSlots, owner, ⟨property, current⟩ :: slots, c =>
    let d := owner.write property current (ContentOf.value content) c
    match d.answer with
    | .error e => ⟨.error e, ⟨property, d.subject⟩ :: slots, d.context⟩
    | .ok _ =>
      (assignSlots source sourceSlots owner slots d.context).within (⟨property, d.subject⟩ :: ·)

/-- Copy the source's entries into the entries of the same keys, and make those that are missing. -/
def assignEntries :
    List (EntryOf Settings) → DictRef → Merging → Context → Done Merging Unit
  | [], _, m, c => ⟨.ok (), m, c⟩
  | ⟨key, _, source⟩ :: rest, dict, m, c =>
    match Entries.find? m.entries key with
    | some ours =>
      let d :=
        if ours.settings.kind.isWritable then assign source ours.settings c
        else ours.settings.refuse "contents" c
      let next : Merging :=
        ⟨Entries.insert { ours with settings := d.subject } m.entries, m.structural⟩
      match d.answer with
      | .error e => ⟨.error e, next, d.context⟩
      | .ok _ => assignEntries rest dict next d.context
    | none =>
      let (made, hub) := dict.make c.hub
      let d := assign source made { c with hub := hub }
      match d.answer with
      | .error e => ⟨.error e, m, d.context⟩
      | .ok _ =>
        let (forwarder, heard) := d.context.hub.forward d.subject.notifier dict.binding
        assignEntries rest dict ⟨Entries.insert ⟨key, forwarder, d.subject⟩ m.entries, true⟩
          { d.context with hub := heard }

end

/-! ## Whole instances -/

/-- Copy a source into an instance that may be written; without a source it is an error. -/
def copy (x : Settings) (source : Option Settings) (c : Context) : Done Settings Unit :=
  if x.kind.isWritable then
    match source with
    | none => ⟨.error (.nullSource x.schema.name), x, c⟩
    | some s => assign s x c
  else x.refuse "contents" c

/-- A source of unknown nature. -/
inductive Candidate where
  | absent
  /-- Something that is no instance of settings. -/
  | alien
  | settings (x : Settings)

/-- Copy a source of unknown nature. -/
def copyUntyped (x : Settings) (candidate : Candidate) (c : Context) : Done Settings Unit :=
  if x.kind.isWritable then
    match candidate with
    | .absent => x.copy none c
    | .alien =>
      ⟨.error (.schemaMismatch x.schema.name "a value that is not a settings instance"), x, c⟩
    | .settings s => x.copy (some s) c
  else x.refuse "contents" c

/-! ## Single dictionaries -/

/-- Bring the entries of a dictionary to those of another one. -/
def assignDict (dict : DictRef) (entries : List Entry) (source : DictRef × List Entry)
    (c : Context) : Done (List Entry) Unit :=
  if source.1.blueprint.schema.isA dict.blueprint.schema.id then
    let (start, dropped) := Merging.start (Entries.keys source.2) entries c
    (assignEntries source.2 dict start dropped).finishMerge dict.binding
  else
    ⟨.error (.schemaMismatch dict.blueprint.schema.name source.1.blueprint.schema.name), entries, c⟩

end Settings

namespace Blueprint

/-- A new instance made for an engine, a copy of a source if there is one. -/
def create (blueprint : Blueprint) (engine : EngineId) (kind : Kind) (source : Option Settings)
    (c : Context) : Except SettingsError Settings × Context :=
  match blueprint.make engine kind c.hub with
  | (made, hub) =>
    match source with
    | none => (.ok made, { c with hub := hub })
    | some s =>
      let d := Settings.assign s made { c with hub := hub }
      (d.answer.map fun _ => d.subject, d.context)

end Blueprint

end SettingsForge
