import SettingsForge.Proofs.Settings.Assigning
import SettingsForge.Proofs.Settings.Checks
import SettingsForge.Proofs.Settings.Merging
import SettingsForge.Proofs.Workspace.Copied

set_option autoImplicit false

/-! # Dictionaries brought to others, in place

A step that brings a dictionary to another one works if and only if the entries of the source are of the
dictionary's schema or of one that inherits from it. Entries whose keys stay are the same instances and
keep their clients, entries that come are new, and entries that go are no longer heard
(`Workspace.dictionaries_are_merged_in_place`). -/

namespace SettingsForge

open Hub Settings

/-- An observable owner hears of the entry through one forwarder, another owner through none. -/
def EntryOf.HeardOnce (e : Entry) (hub : Hub) (owner : Owner) (property : String) : Prop :=
  if owner.kind.isObservable then
    ∃ n id m, e.settings.notifier = some n ∧ e.forwarder = some id ∧ owner.notifier = some m ∧
      hub.forwarders n = [(id, m, property)]
  else e.settings.notifier = none ∧ e.forwarder = none

/-- What bringing a dictionary of an instance to a source leaves, and of whom it is heard. -/
structure Entries.Merged (x : Settings) (property : String) (blueprint : Blueprint)
    (source entries brought : List Entry) (hub after : Hub) : Prop where
  keys : keys brought = keys source
  agree : ∀ s ∈ source, ∀ e ∈ brought, e.key = s.key →
    e.settings.schema = blueprint.schema ∧ e.settings.Agrees s.settings
  heard : after.Disciplined → ∀ e ∈ brought, e.HeardOnce after x.owner property
  /-- Under a key from before is the same instance with other contents, and whoever was subscribed there
      still is, in the same order, but for clients that ended it themselves. -/
  kept : ∀ old ∈ entries, ∀ e ∈ brought, e.key = old.key →
    (∃ slots, e = { old with settings := old.settings.withSlots slots }) ∧
    ∀ n, old.settings.notifier = some n → ∃ calls, after.calls = calls ++ hub.calls ∧
      Call.Explain calls n (hub.subscribers n) (after.subscribers n)
  /-- Under a new key is a new instance without clients. -/
  made : ∀ e ∈ brought, e.key ∉ Entries.keys entries →
    e.settings.kind = x.kind ∧ e.settings.provider = none ∧
    ∀ n, e.settings.notifier = some n → ∀ s ∈ after.subscribers n, s.2.isClient = false
  /-- Where an entry went, its one forwarder is gone and its clients are left, and only they take note of
      changes that are announced there. -/
  dropped : after.Disciplined → ∀ old ∈ entries, old.key ∉ Entries.keys source →
    ∀ n, old.settings.notifier = some n → ∃ id m, old.forwarder = some id ∧ x.notifier = some m ∧
      hub.forwarders n = [(id, m, property)] ∧
      after.subscribers n = (hub.subscribers n).filter (fun s => s.2.isClient) ∧
      ∀ other, (after.notify n other).deliveries = after.deliveries ++ after.notes n other

namespace Settings

variable {known : Schema → Prop} {catalogs : List Catalog}

/-- In a wired instance, entries are heard as often as their owner's kind says. -/
theorem Wired.heardOnce {hub : Hub} {x : Settings} (wired : Wired hub x) (disciplined : hub.Disciplined)
    {slot : Slot} (hs : slot ∈ x.slots) {e : Entry} (he : e ∈ slot.content.entries) :
    e.HeardOnce hub x.owner slot.name := by
  obtain ⟨kind, heard⟩ := wired.self.entries slot hs e he
  have owner := wired.self.notifier
  have entry := (wired.parts _ (mem_parts_of_entry hs he (self_mem_parts _))).notifier
  rw [kind] at entry
  unfold EntryOf.HeardOnce Settings.owner
  dsimp only
  cases observable : x.kind.isObservable with
  | true =>
      rw [observable] at owner
      obtain ⟨m, hm⟩ := Option.isSome_iff_exists.1 owner
      rw [hm] at heard
      obtain ⟨id, n, heard⟩ := heard
      rw [if_pos rfl]
      exact ⟨n, id, m, heard.notifier, heard.forwarder, hm, heard.kept disciplined⟩
  | false =>
      rw [observable] at owner entry
      rw [Option.isSome_eq_false_iff, Option.isNone_iff_eq_none] at owner entry
      rw [owner] at heard
      rw [if_neg Bool.false_ne_true]
      exact ⟨entry, heard⟩

/-- What bringing a dictionary to another one answers and leaves. -/
theorem assignDict_merged (registry : Schema.Registry known) {f : Frame} {nested : Schema}
    {dict : DictRef} (made_for : dict.blueprint.MadeFor catalogs nested) {entries : List Entry}
    (conforms : (f.fill (.dict dict entries)).Conforms known catalogs) {c : Context}
    (tidy : c.hub.Tidy) (wired : Wired c.hub (f.fill (.dict dict entries)))
    (opened : Entries.Open known catalogs nested (Entries.keys entries) entries)
    (source : DictRef × List Entry)
    (inherits : source.1.blueprint.schema.isA dict.blueprint.schema.id = true)
    (lent : Entries.Lent known catalogs nested source.2)
    (exact : ∀ e ∈ source.2, e.settings.schema.Exact catalogs) :
    (assignDict dict entries source c).answer = .ok () ∧
      Entries.Merged (f.fill (.dict dict entries)) f.property dict.blueprint source.2 entries
        (assignDict dict entries source c).subject c.hub
        (assignDict dict entries source c).context.hub := by
  have bound : dict.BoundTo f.owner f.property := Frame.boundTo_of_conforms conforms
  obtain ⟨answer, keys, brought⟩ := assignDict_brings registry made_for inherits lent exact opened c
  obtain ⟨ns, rest⟩ := assignDict_evolves registry conforms inherits lent.sorted
    (fun e he => (lent.inside e he).1.keysSorted) c
  generalize assignDict dict entries source c = d at *
  have drops := f.evolves_filter dict (fun e => (Entries.keys source.2).contains e.key) entries
    c.hub []
  have evolves := drops.trans rest
  have carried := evolves.carries tidy wired
  -- under each key of the source is what was brought
  have sorted : Entries.Sorted d.subject := by
    unfold Entries.Sorted
    rw [keys]
    exact lent.sorted
  have own : ∀ s ∈ source.2, ∀ e ∈ d.subject, e.key = s.key →
      e.Brought dict.blueprint dict.kind c.hub.size s.settings (Entries.find? entries e.key) := by
    intro s hs e he at_key
    obtain ⟨e', found, own⟩ := brought s hs
    rw [← at_key, sorted.find?_of_mem he] at found
    cases found
    rw [at_key]
    exact own
  have exists_source : ∀ e ∈ d.subject, ∃ s ∈ source.2, e.key = s.key := by
    intro e he
    have mem : e.key ∈ Entries.keys source.2 := keys ▸ List.mem_map_of_mem he
    obtain ⟨s, hs, at_key⟩ := List.mem_map.1 mem
    exact ⟨s, hs, at_key.symm⟩
  refine ⟨answer, keys, fun s hs e he at_key => ?agree, fun disciplined e he => ?heard,
    fun old hold e he at_key => ?kept, fun e he absent => ?made,
    fun disciplined old hold absent n hn => ?dropped⟩
  case agree =>
    have own := own s hs e he at_key
    generalize found : Entries.find? entries e.key = old? at own
    cases own with
    | @kept old slots agrees =>
        have old_mem := List.mem_of_find?_eq_some found
        obtain ⟨there, -⟩ := opened.inside _ (List.mem_map_of_mem old_mem) old
          (opened.sorted.find?_of_mem old_mem)
        exact ⟨(schema_withSlots ..).trans (there.2.trans made_for.schema_eq.symm), agrees⟩
    | made agrees schema => exact ⟨schema, agrees⟩
  case heard =>
    exact carried.wired.heardOnce disciplined
      ((f.mem_slots_fill (.dict dict d.subject)).2 (Or.inl rfl)) he
  case kept =>
    obtain ⟨s, hs, in_source⟩ := exists_source e he
    have own := own s hs e he in_source
    rw [at_key, opened.sorted.find?_of_mem hold] at own
    cases own with
    | @kept old slots =>
        refine ⟨⟨slots, rfl⟩, fun n hn => ?_⟩
        have hn' : (old.settings.withSlots slots).notifier = some n := (notifier_withSlots ..).trans hn
        exact evolves.explains tidy wired (mem_notifiers_of_entry hold (mem_notifiers_self hn))
          (mem_notifiers_of_entry he (mem_notifiers_self hn'))
  case made =>
    obtain ⟨s, hs, in_source⟩ := exists_source e he
    have own := own s hs e he in_source
    rw [Entries.find?_eq_none.2 absent] at own
    cases own with
    | made agrees schema kind provider fresh =>
        refine ⟨kind.trans bound.kind, provider, fun n hn => ?_⟩
        exact evolves.quiet (quiet_of_size_le c.hub) n (fresh n hn)
  case dropped =>
    obtain ⟨id, m, forwarder, hm, forwarders, clients⟩ := subscribers_of_dropped tidy wired rest
      disciplined hold (by simpa using absent) hn
    refine ⟨id, m, forwarder, hm, forwarders, clients, fun other => ?_⟩
    rw [(carried.leads.tidy tidy).deliveries_notify, bubble_of_clients]
    intro s mem
    rw [clients] at mem
    exact (List.mem_filter.1 mem).2

/-- A dictionary of an instance that may be written, brought to one of another instance. -/
theorem Conforms.assignDict_merged (registry : Schema.Registry known) {x s : Settings}
    (conforms : x.Conforms known catalogs) (writable : x.kind.isWritable = true) {c : Context}
    (tidy : c.hub.Tidy) (wired : Wired c.hub x) {property sourceProperty : String}
    {dict sourceDict : DictRef} {entries sourceEntries : List Entry}
    (there : x.dict property = .ok (dict, entries)) (conforms' : s.Conforms known catalogs)
    (there' : s.dict sourceProperty = .ok (sourceDict, sourceEntries))
    (exact : sourceDict.blueprint.schema.Exact catalogs)
    (inherits : sourceDict.blueprint.schema.isA dict.blueprint.schema.id = true) :
    let d := assignDict dict entries (sourceDict, sourceEntries) c
    d.answer = .ok () ∧
      Entries.Merged x property dict.blueprint sourceEntries entries d.subject c.hub d.context.hub := by
  obtain ⟨nested, hn, made_for, sorted, inside⟩ := conforms.exists_nested registry there
  obtain ⟨nested', -, made_for', sorted', inside'⟩ := conforms'.exists_nested registry there'
  obtain ⟨f, rfl, rfl, -⟩ := exists_frame (conforms.self.nodup registry) (content_of_dict there)
  have slot_mem := (f.mem_slots_fill (.dict dict entries)).2 (Or.inl rfl)
  have schemas : ∀ e ∈ sourceEntries, e.settings.schema = sourceDict.blueprint.schema := fun e he =>
    (inside' e he).2.trans made_for'.schema_eq.symm
  -- all entries inside the instance may be written
  have opened : Entries.Open known catalogs nested (Entries.keys entries) entries := by
    refine ⟨sorted, fun key _ e found => ?_⟩
    have he := List.mem_of_find?_eq_some found
    exact ⟨inside e he, fun y hy =>
      wired.writable (self_mem_parts _) writable y (mem_parts_of_entry slot_mem he hy)⟩
  have lent : Entries.Lent known catalogs nested sourceEntries := by
    refine ⟨hn, sorted', fun e he => ⟨(inside' e he).1, ?_⟩⟩
    rw [schemas e he, ← made_for.schema_eq]
    exact inherits
  exact Settings.assignDict_merged registry made_for conforms tidy wired opened
    (sourceDict, sourceEntries) inherits lent fun e he => (schemas e he).symm ▸ exact

end Settings

namespace Workspace

variable {known : Schema → Prop} {w : Workspace} {place source : Location} {x s root : Settings}
  {property sourceProperty : String} {dict sourceDict : DictRef}
  {entries sourceEntries : List Entry}

/-- Bringing a dictionary of an instance that may be written to one of another tree. -/
theorem Sound.assignDict_eq (sound : w.Sound known)
    (found : w.instances.lookup place.name = some root) (followed : follow place.path root = .ok x)
    (writable : x.kind.isWritable = true) (there : x.dict property = .ok (dict, entries))
    (read' : w.read source = .ok s) (apart : source.name ≠ place.name)
    (there' : s.dict sourceProperty = .ok (sourceDict, sourceEntries)) :
    w.assignDict place property source sourceProperty =
      let d := Settings.assignDict dict entries (sourceDict, sourceEntries) w.context
      ⟨(d.answer.map fun _ => Report.names (Entries.keys d.subject)).mapError .failed,
        { w.putInstance place.name
            (replaceAt place.path root (x.setContent property (.dict dict d.subject))) with
          context := d.context }⟩ := by
  have found_source : w.source place source = .ok s := by
    unfold Workspace.source
    rw [beq_false_of_ne apart]
    exact read'
  unfold Workspace.assignDict
  dsimp only
  rw [sound.edit_writable found followed writable]
  dsimp only
  rw [dictForEdit_eq there writable, found_source]
  dsimp only [bind, Except.bind]
  rw [there']
  dsimp only [Except.mapError]
  rw [editDict_eq there writable]
  dsimp only [Done.within, ofDone]
  rw [dict_setContent there]
  rfl

/-- Take a workspace that a run reaches, a dictionary of any instance in it that may be written, at any
    depth, and as a source a dictionary of an instance of another tree; assume that all first values of the
    schema of the source's entries and of those nested in it fit their types exactly. A step that brings
    the one to the other works if the schema of the source's entries is that of the dictionary's or
    inherits from it; the dictionary then has the source's keys, and entries that agree with the
    source's: in place where the key was there, new ones elsewhere (`Entries.Merged`). Otherwise the
    answer says that the schemas do not match, and nothing changes. -/
theorem dictionaries_are_merged_in_place (reachable : w.Reachable) (read : w.read place = .ok x)
    (writable : x.kind.isWritable = true) (there : x.dict property = .ok (dict, entries))
    (read' : w.read source = .ok s) (apart : source.name ≠ place.name)
    (there' : s.dict sourceProperty = .ok (sourceDict, sourceEntries))
    (exact : sourceDict.blueprint.schema.Exact w.catalogs) :
    (sourceDict.blueprint.schema.isA dict.blueprint.schema.id = true →
      (w.perform (.assignDict place property source sourceProperty)).answer =
          .ok (.names (Entries.keys sourceEntries)) ∧
        ∃ brought,
          (w.perform (.assignDict place property source sourceProperty)).subject.read place =
            .ok (x.setContent property (.dict dict brought)) ∧
          Entries.Merged x property dict.blueprint sourceEntries entries brought w.context.hub
            (w.perform (.assignDict place property source sourceProperty)).subject.context.hub) ∧
    (sourceDict.blueprint.schema.isA dict.blueprint.schema.id = false →
      w.perform (.assignDict place property source sourceProperty) =
        ⟨.error (.failed (.schemaMismatch dict.blueprint.schema.name
          sourceDict.blueprint.schema.name)), w.fresh⟩) := by
  obtain ⟨known, sound⟩ := reachable.sound
  have sound := sound.fresh
  obtain ⟨root, found, followed⟩ := read_eq_ok.1 read
  have found : w.fresh.instances.lookup place.name = some root := found
  have performed : w.perform (.assignDict place property source sourceProperty) =
      w.fresh.assignDict place property source sourceProperty := rfl
  rw [performed, sound.assignDict_eq found followed writable there read' apart there']
  have mem := Keyed.mem_of_lookup found
  have root_conforms : root.Conforms known w.fresh.catalogs := sound.conforms _ mem
  have part := mem_parts_of_follow sound.registry root_conforms followed
  have conforms := root_conforms.part part
  have wired := (sound.forest.rooted _ mem).toWired.part part
  have nodup := conforms.self.nodup sound.registry
  constructor
  · intro inherits
    obtain ⟨-, -, -, -, source_conforms⟩ := sound.read (show w.fresh.read source = .ok s from read')
    obtain ⟨answer, merged⟩ := conforms.assignDict_merged sound.registry writable sound.tidy wired there
      source_conforms there' exact inherits
    -- a step starts with no deliveries, and with the subscribers and calls that there are
    refine ⟨?_, _, read_eq_ok.2 ⟨_, Keyed.lookup_insert_self .., ?_⟩,
      ⟨merged.keys, merged.agree, merged.heard, merged.kept, merged.made, merged.dropped⟩⟩
    · dsimp only
      rw [answer, merged.keys]
      rfl
    · have replaced := follow_replaceAt sound.registry root_conforms followed []
      rw [List.append_nil] at replaced
      exact replaced _
  · intro differs
    have refused : Settings.assignDict dict entries (sourceDict, sourceEntries) w.fresh.context =
        ⟨.error (.schemaMismatch dict.blueprint.schema.name sourceDict.blueprint.schema.name), entries,
          w.fresh.context⟩ := if_neg (by simp [differs])
    rw [refused]
    dsimp only
    rw [setContent_self nodup (content_of_dict there), sound.putInstance_self found followed]
    rfl

/-- A board that announces its changes, with two tags and a client at each of them, and a plain desk with
    notes. A note is a tag with a count. -/
def pinboard : Workspace :=
  (start "engine" .empty).run [
    .build "tag" "Tag" none [⟨"label", .value .str, []⟩],
    .build "note" "Note" (some "tag") [⟨"count", .value .int, []⟩],
    .build "board" "Board" none [⟨"tags", .dict "tag", []⟩],
    .build "desk" "Desk" none [⟨"notes", .dict "note", []⟩],
    .create "board" (.schema "board" .inpc "engine") none,
    .addEntry ⟨"board", []⟩ "tags" "a",
    .addEntry ⟨"board", []⟩ "tags" "b",
    .subscribe ⟨"board", [("tags", "a")]⟩ "first" {},
    .subscribe ⟨"board", [("tags", "b")]⟩ "second" {},
    .create "desk" (.schema "desk" .copy "engine") none,
    .addEntry ⟨"desk", []⟩ "notes" "b",
    .addEntry ⟨"desk", []⟩ "notes" "c",
    .set ⟨"desk", [("notes", "b")]⟩ "label" (.str "blue")]

theorem reachable_pinboard : pinboard.Reachable := ⟨"engine", .empty, _, rfl⟩

/-- The step that pins the notes to the board as tags. -/
def pin : Action := .assignDict ⟨"board", []⟩ "tags" ⟨"desk", []⟩ "notes"

theorem disciplined_pin : (pinboard.perform pin).subject.context.hub.Disciplined := by
  unfold Hub.Disciplined
  decide +kernel

/-- One tag goes, one stays, and one comes. Only its own client is left at the one that went. -/
theorem pins_the_notes :
    ∃ x s dict a b sourceDict b' c brought,
      pinboard.read ⟨"board", []⟩ = .ok x ∧ x.kind.isWritable = true ∧
      x.dict "tags" = .ok (dict, [a, b]) ∧
      pinboard.read ⟨"desk", []⟩ = .ok s ∧ s.dict "notes" = .ok (sourceDict, [b', c]) ∧
      sourceDict.blueprint.schema.Exact pinboard.catalogs ∧
      (pinboard.perform pin).answer = .ok (.names ["b", "c"]) ∧
      (pinboard.perform pin).subject.read ⟨"board", []⟩ =
        .ok (x.setContent "tags" (.dict dict brought)) ∧
      Entries.Merged x "tags" dict.blueprint [b', c] [a, b] brought pinboard.context.hub
        (pinboard.perform pin).subject.context.hub ∧
      (pinboard.perform pin).subject.context.hub.subscribers 1 = [(1, .client "first" {})] := by
  obtain ⟨x, dict, a, b, read, writable, there, tag, key, own⟩ : ∃ x dict a b,
      pinboard.read ⟨"board", []⟩ = .ok x ∧ x.kind.isWritable = true ∧
      x.dict "tags" = .ok (dict, [a, b]) ∧ dict.blueprint.schema.id = ⟨0⟩ ∧ a.key = "a" ∧
      a.settings.notifier = some 1 :=
    ⟨_, _, _, _, rfl, rfl, rfl, rfl, rfl, rfl⟩
  obtain ⟨s, sourceDict, b', c, read', there', keys', note⟩ : ∃ s sourceDict b' c,
      pinboard.read ⟨"desk", []⟩ = .ok s ∧ s.dict "notes" = .ok (sourceDict, [b', c]) ∧
      Entries.keys [b', c] = ["b", "c"] ∧ sourceDict.blueprint.schema =
        .mk ⟨1⟩ "Note" (some (.mk ⟨0⟩ "Tag" none [⟨"label", .value .str, []⟩] [("label", 0)]))
          [⟨"label", .value .str, []⟩, ⟨"count", .value .int, []⟩] [("count", 1), ("label", 0)] :=
    ⟨_, _, _, _, rfl, rfl, rfl, rfl⟩
  have exact : sourceDict.blueprint.schema.Exact pinboard.catalogs := by
    refine Schema.exact_of_no_defaults fun t reaches p hp => ?_
    rw [note] at reaches
    rcases Schema.reaches_iff.1 reaches with rfl | ⟨u, mem, -⟩
    · rcases List.mem_pair.1 hp with rfl | rfl <;> rfl
    · cases mem
  have inherits : sourceDict.blueprint.schema.isA dict.blueprint.schema.id = true := by
    rw [note, tag]
    rfl
  obtain ⟨works, -⟩ := dictionaries_are_merged_in_place reachable_pinboard read writable there read'
    (by decide) there' exact
  obtain ⟨answer, brought, after, merged⟩ := works inherits
  have gone : a.key ∉ Entries.keys [b', c] := by
    rw [keys', key]
    decide
  obtain ⟨-, -, -, -, -, clients, -⟩ :=
    merged.dropped disciplined_pin a (List.mem_cons_self ..) gone 1 own
  rw [keys'] at answer
  exact ⟨x, s, dict, a, b, sourceDict, b', c, brought, read, writable, there, read', there',
    exact, answer, after, merged, clients.trans (by decide +kernel)⟩

end Workspace

end SettingsForge
