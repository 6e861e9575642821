import SettingsForge.Proofs.Schema.Building
import SettingsForge.Proofs.Workspace.Sound

set_option autoImplicit false

/-! # Steps keep workspaces sound

Every step keeps a workspace sound (`Workspace.Sound.act`), so every run does
(`Workspace.Reachable.sound`). A step that edits an instance is an edit of that instance by operations
of instances (`Workspace.Sound.edits`). -/

namespace SettingsForge

open Hub Settings

/-- Where a step edits an instance. -/
def Action.edited : Action → Option Location
  | .set place .. => some place
  | .reset place _ => some place
  | .copy place _ => some place
  | .copyUntyped place _ => some place
  | .editList place .. => some place
  | .addEntry place .. => some place
  | .deleteEntry place .. => some place
  | .assignDict place .. => some place
  | _ => none

namespace Workspace

variable {known : Schema → Prop} {w : Workspace}

namespace Sound

/-! ## Copies and resets -/

/-- The instance at a location as a source of copies. -/
theorem source (sound : w.Sound known) {place from? : Location} {s : Settings}
    (h : w.source place from? = .ok s) : s.Conforms known w.catalogs := by
  unfold Workspace.source at h
  split at h
  · cases h
  · obtain ⟨-, -, -, -, conforms⟩ := sound.read h
    exact conforms

/-- What a copy does to an instance. -/
def copying (w : Workspace) (place : Location) (source : Option Location) (x : Settings)
    (c : Context) : Except Obstacle Unit × Settings × Context :=
  match source.mapM (w.source place) with
  | .error e => (.error e, x, c)
  | .ok from? => ofDone (x.copy from? c)

theorem operates_copy (sound : w.Sound known) (place : Location) (source : Option Location) :
    Operates known w.catalogs (copying w place source) := by
  intro x c conforms
  unfold copying
  cases found : source.mapM (w.source place) with
  | error e => exact .refl x c.hub
  | ok from? =>
      refine operated_copy sound.registry (fun s mem => ?_) conforms c
      obtain ⟨l, -, from_eq⟩ := exists_of_option_mapM found mem
      exact (sound.source from_eq).keysSorted

/-- What may be passed to a copy from a source of unknown nature. -/
def candidate (w : Workspace) (place : Location) : Source → Except Obstacle Candidate
  | .absent => .ok .absent
  | .alien => .ok .alien
  | .location l => (w.source place l).map .settings
  | .root l => do
    let _ ← w.source place l
    return .settings (← w.source place ⟨l.name, []⟩)

theorem conforms_candidate (sound : w.Sound known) {place : Location} {source : Source}
    {s : Settings} (h : candidate w place source = .ok (.settings s)) :
    s.Conforms known w.catalogs := by
  cases source with
  | absent => cases h
  | alien => cases h
  | location l =>
      cases found : w.source place l with
      | error e => simp [candidate, found, Except.map] at h
      | ok t =>
          simp only [candidate, found, Except.map, Except.ok.injEq, Candidate.settings.injEq] at h
          exact h ▸ sound.source found
  | root l =>
      cases found : w.source place l with
      | error e => simp [candidate, found, bind, Except.bind] at h
      | ok t =>
          cases found' : w.source place ⟨l.name, []⟩ with
          | error e => simp [candidate, found, found', bind, Except.bind] at h
          | ok u =>
              simp only [candidate, found, found', bind, Except.bind, pure, Except.pure,
                Except.ok.injEq, Candidate.settings.injEq] at h
              exact h ▸ sound.source found'

/-- What a copy from a source of unknown nature does to an instance. -/
def copyingUntyped (w : Workspace) (place : Location) (source : Source) (x : Settings)
    (c : Context) : Except Obstacle Unit × Settings × Context :=
  match candidate w place source with
  | .error e => (.error e, x, c)
  | .ok from? => ofDone (x.copyUntyped from? c)

theorem operates_copyUntyped (sound : w.Sound known) (place : Location) (source : Source) :
    Operates known w.catalogs (copyingUntyped w place source) := by
  intro x c conforms
  unfold copyingUntyped
  cases found : candidate w place source with
  | error e => exact .refl x c.hub
  | ok from? =>
      refine operated_copyUntyped sound.registry (fun s same => ?_) conforms c
      exact (sound.conforms_candidate (same ▸ found)).keysSorted

/-- A dictionary found at a source. -/
theorem exists_of_source_dict {place source : Location} {property : String}
    {dict : DictRef × List Entry}
    (h : (do
      let s ← w.source place source
      (s.dict property).mapError .failed : Except Obstacle (DictRef × List Entry)) = .ok dict) :
    ∃ s, w.source place source = .ok s ∧ s.dict property = .ok dict := by
  cases from_eq : w.source place source with
  | error e => simp [from_eq, bind, Except.bind] at h
  | ok s =>
      cases there : s.dict property with
      | error e => simp [from_eq, there, bind, Except.bind, Except.mapError] at h
      | ok d =>
          simp only [from_eq, there, bind, Except.bind, Except.mapError, Except.ok.injEq] at h
          exact ⟨s, rfl, h ▸ there⟩

theorem operates_assignDict (sound : w.Sound known) (place source : Location)
    (property sourceProperty : String) :
    Operates known w.catalogs fun x c =>
      match x.dictForEdit property c with
      | ⟨.error e, _, after⟩ => (.error (.failed e), x, after)
      | ⟨.ok _, _, after⟩ =>
        let found : Except Obstacle (DictRef × List Entry) := do
          let s ← w.source place source
          (s.dict sourceProperty).mapError .failed
        match found with
        | .error e => (.error e, x, after)
        | .ok dict =>
          let d := x.editDict property
            (fun target entries c => Settings.assignDict target entries dict c) after
          ofDone ⟨d.answer.map fun _ =>
            Report.names (((d.subject.dict property).toOption.map fun l => Entries.keys l.2).getD []),
            d.subject, d.context⟩ := by
  intro x c conforms
  have same := (x.dictForEdit_spec property c).2
  dsimp only
  generalize x.dictForEdit property c = looked at same
  obtain ⟨answer, subject, after⟩ := looked
  have same : after.hub = c.hub := same
  cases answer with
  | error e =>
      dsimp only
      rw [same]
      exact .refl x c.hub
  | ok dict =>
      dsimp only
      rw [← same]
      split
      · exact .refl x after.hub
      · next dict found =>
        obtain ⟨s, from_eq, there⟩ := exists_of_source_dict found
        obtain ⟨sorted, inner⟩ := (sound.source from_eq).sorted_dict sound.registry there
        exact operated_assignDict sound.registry sorted inner conforms after

/-- What a reset does to an instance, with the engine behind the handle. -/
def resetting (w : Workspace) (name : String) (x : Settings) (c : Context) :
    Except Obstacle (Nat × Engine × Except SettingsError Unit) × Settings × Context :=
  match w.handle name, w.engine name with
  | .ok index, .ok engine =>
    let (d, after) := engine.reset x c
    (.ok (index, after, d.answer), d.subject, d.context)
  | .error e, _ => (.error e, x, c)
  | _, .error e => (.error e, x, c)

/-- The end of a reset: the engine behind the handle has learned. -/
def afterReset : Attempt Workspace (Nat × Engine × Except SettingsError Unit) →
    Attempt Workspace Report
  | ⟨.error e, after⟩ => ⟨.error e, after⟩
  | ⟨.ok (index, engine, answer), after⟩ =>
    ⟨(answer.map fun _ => Report.nothing).mapError .failed, after.setEngine index engine⟩

theorem operates_resetting (sound : w.Sound known) (name : String) :
    Operates known w.catalogs (resetting w name) := by
  intro x c conforms
  unfold resetting
  cases w.handle name with
  | error e => exact .refl x c.hub
  | ok index =>
      cases w.engine name with
      | error e => exact .refl x c.hub
      | ok engine => exact engine.operated_reset sound.registry conforms c

/-- The engine that an instance was reset with has learned. -/
theorem held_of_resetting (sound : w.Sound known) {name : String} {x : Settings} {c : Context}
    (conforms : x.Conforms known w.catalogs) {index : Nat} {engine : Engine}
    {answer : Except SettingsError Unit} (h : (resetting w name x c).1 = .ok (index, engine, answer)) :
    ∃ old, w.engines[index]? = some old ∧ engine.Held known ∧ Engine.Learns old engine := by
  unfold resetting at h
  cases hindex : w.handle name with
  | error e =>
      rw [hindex] at h
      cases h
  | ok i =>
      cases he : w.engine name with
      | error e =>
          rw [hindex, he] at h
          cases h
      | ok old =>
          rw [hindex, he] at h
          cases h
          obtain ⟨there, held, -⟩ := sound.engine hindex he
          exact ⟨old, there, held.reset sound.registry.toIdentified conforms.self.known c⟩

theorem reset (sound : w.Sound known) (place : Location) (name : String) :
    (w.reset place name).subject.Sound known ∧
      (w.reset place name).subject.instances = (w.edit place (resetting w name)).subject.instances ∧
      (w.reset place name).subject.context = (w.edit place (resetting w name)).subject.context := by
  obtain ⟨after, engines, answers⟩ := sound.edit place (sound.operates_resetting name)
  have unfolded : w.reset place name = afterReset (w.edit place (resetting w name)) := rfl
  rw [unfolded]
  generalize w.edit place (resetting w name) = attempt at after engines answers
  obtain ⟨answer, w'⟩ := attempt
  cases answer with
  | error e => exact ⟨after, rfl, rfl⟩
  | ok a =>
      obtain ⟨index, engine, answer⟩ := a
      obtain ⟨x, c, conforms, h⟩ := answers _ rfl
      -- the engine that learned goes back to its place
      obtain ⟨old, there, held, learns⟩ := sound.held_of_resetting conforms h
      have engines : w'.engines = w.engines := engines
      rw [← engines] at there
      exact ⟨(Sound.setEngine after there held learns).1, rfl, rfl⟩

/-! ## Steps -/

/-- A step that edits is an edit by operations of instances, but for a reset, which also has an engine
    learn. -/
theorem exists_edit (sound : w.Sound known) {action : Action} {place : Location}
    (h : action.edited = some place) (other : ∀ engine, action ≠ .reset place engine) :
    ∃ (α : Type) (f : Settings → Context → Except Obstacle α × Settings × Context),
      Operates known w.catalogs f ∧ (w.act action).subject = (w.edit place f).subject := by
  cases action with
  | set _ property value =>
      cases h
      refine ⟨_, fun x c => ofDone (x.set property value c), fun x c conforms => ?_, rfl⟩
      exact (set_edited (conforms.self.nodup sound.registry) conforms.self.bound value c).operated
  | editList _ property edit =>
      cases h
      refine ⟨_, _, fun x c conforms => ?_, rfl⟩
      exact (editList_edited (conforms.self.nodup sound.registry) conforms.self.bound edit c).operated
  | addEntry _ property key =>
      cases h
      refine ⟨_, fun x c => ofDone (x.addEntry property key c), fun x c conforms => ?_, rfl⟩
      exact (addEntry_edited (conforms.self.nodup sound.registry) conforms.self.bound
        (fun _ => conforms.self.sorted) key c).operated
  | deleteEntry _ property key =>
      cases h
      refine ⟨_, fun x c => ofDone (x.deleteEntry property key c), fun x c conforms => ?_, rfl⟩
      exact (deleteEntry_edited (conforms.self.nodup sound.registry) conforms.self.bound
        (fun _ => conforms.self.sorted) key c).operated
  | copy _ source =>
      cases h
      exact ⟨_, _, sound.operates_copy place source, rfl⟩
  | copyUntyped _ source =>
      cases h
      exact ⟨_, _, sound.operates_copyUntyped place source, rfl⟩
  | assignDict _ property source sourceProperty =>
      cases h
      exact ⟨_, _, sound.operates_assignDict place source property sourceProperty, rfl⟩
  | reset _ engine =>
      cases h
      exact absurd rfl (other engine)
  | _ => cases h

/-- A step that edits is an edit, and the workspace stays sound. -/
theorem edits (sound : w.Sound known) {action : Action} {place : Location}
    (h : action.edited = some place) :
    (w.act action).subject.Sound known ∧
      ∃ (α : Type) (f : Settings → Context → Except Obstacle α × Settings × Context),
        Operates known w.catalogs f ∧
        (w.act action).subject.instances = (w.edit place f).subject.instances ∧
        (w.act action).subject.context = (w.edit place f).subject.context := by
  by_cases other : ∀ engine, action ≠ .reset place engine
  · obtain ⟨α, f, operates, same⟩ := sound.exists_edit h other
    rw [same]
    exact ⟨(sound.edit place operates).1, α, f, operates, rfl, rfl⟩
  · push Not at other
    obtain ⟨engine, rfl⟩ := other
    obtain ⟨after, same⟩ := sound.reset place engine
    exact ⟨after, _, _, sound.operates_resetting engine, same⟩

/-- What a client asks of a held notifier. -/
theorem atNotifier (sound : w.Sound known) (name : String)
    (g : NotifierId → Hub → Except Obstacle (Hub → Report) × Hub)
    (leads : ∀ n < w.context.hub.size, Leads (fun _ => False) w.context.hub (g n w.context.hub).2) :
    (w.atNotifier name g).subject.Sound known := by
  unfold Workspace.atNotifier
  cases found : find w.notifiers name .notifier with
  | error e => exact sound
  | ok n => exact sound.context (leads n (sound.held _ (Keyed.mem_of_lookup (find_eq_ok.1 found))))

/-- The notifier of an instance exists. -/
theorem lt_size (sound : w.Sound known) {place : Location} {x : Settings} (h : w.read place = .ok x)
    {n : NotifierId} (hn : x.notifier = some n) : n < w.context.hub.size := by
  obtain ⟨root, mem, -, part, -⟩ := sound.read h
  exact ((sound.forest.rooted _ mem).parts x part).lt n hn

/-- A client asks for a subscription or its end at an instance. -/
theorem subscribe (sound : w.Sound known) (place : Location) (client : String) (reaction : Reaction) :
    (w.subscribe place client reaction).subject.Sound known := by
  unfold Workspace.subscribe
  cases found : w.read place with
  | error e => exact sound
  | ok x =>
      dsimp only
      split
      · exact sound
      · next n hn =>
        exact sound.context (leads_subscribe _ (sound.lt_size found hn) client reaction)

theorem unsubscribe (sound : w.Sound known) (place : Location) (client : String) :
    (w.unsubscribe place client).subject.Sound known := by
  unfold Workspace.unsubscribe
  split
  · exact sound
  · split
    · exact sound
    · split
      · exact sound
      · exact sound.context (leads_unsubscribe ..)

theorem hold (sound : w.Sound known) (name : String) {n : NotifierId} (lt : n < w.context.hub.size) :
    Sound known { w with notifiers := Keyed.insert name n w.notifiers } := by
  refine { sound with held := fun entry mem => ?_ }
  rcases Keyed.mem_insert mem with rfl | mem
  · exact lt
  · exact sound.held entry mem

/-- A shape or a factory is asked for. -/
theorem typeOf (sound : w.Sound known) (schema : String) (kind : Kind) (engine : String)
    (saveAs : Option String) : (w.typeOf schema kind engine saveAs).subject.Sound known := by
  unfold Workspace.typeOf
  cases found : w.schema schema with
  | error e => exact sound
  | ok s =>
      obtain ⟨after, -, -⟩ :=
        @ask _ _ sound _ (fun e => e.typeOf s kind) engine s (sound.schema found) kind fun _ => rfl
      dsimp only
      generalize w.ask engine (fun e => e.typeOf s kind) = attempt at after
      obtain ⟨answer, w'⟩ := attempt
      cases answer with
      | error e => exact after
      | ok shape =>
          cases saveAs with
          | none => exact after
          | some name =>
              have after : w'.Sound known := after
              exact { after with }

theorem newFactory (sound : w.Sound known) (schema : String) (kind : Kind) (engine name : String) :
    (w.newFactory schema kind engine name).subject.Sound known := by
  unfold Workspace.newFactory
  cases found : w.schema schema with
  | error e => exact sound
  | ok s =>
      have hs := sound.schema found
      obtain ⟨after, catalogs, answers⟩ :=
        sound.ask (fun e => e.factory s kind) engine hs fun _ => rfl
      dsimp only
      generalize w.ask engine (fun e => e.factory s kind) = attempt at after catalogs answers
      obtain ⟨answer, w'⟩ := attempt
      cases answer with
      | error e => exact after
      | ok factory =>
          have after : w'.Sound known := after
          have catalogs : w'.catalogs = w.catalogs := catalogs
          obtain ⟨e, held, mem, answer⟩ := answers factory rfl
          have made := held.madeFor sound.registry.toIdentified hs answer mem
          refine { after with factories := fun entry mem => ?_ }
          rcases Keyed.mem_insert mem with rfl | mem
          · exact ⟨s, hs, catalogs ▸ made⟩
          · exact after.factories entry mem

/-- A note is all that is left of resolving a default or a blueprint outside of engines. -/
theorem resolveDefault (sound : w.Sound known) (schema property engine : String)
    (report : Property → Initializer → Report) :
    (w.resolveDefault schema property engine report).subject.Sound known := by
  unfold Workspace.resolveDefault
  dsimp only
  split
  · exact sound
  · exact sound.note _

theorem blueprint (sound : w.Sound known) (schema engine : String) :
    (w.blueprint schema engine).subject.Sound known := by
  unfold Workspace.blueprint
  dsimp only
  split
  · exact sound
  · exact sound.note _

theorem operates_dictForEdit {catalogs : List Catalog} (property : String)
    (report : DictRef × List Entry → Report) :
    Operates known catalogs fun x c =>
      ofDone ⟨(x.dictForEdit property c).answer.map report, (x.dictForEdit property c).subject,
        (x.dictForEdit property c).context⟩ := by
  intro x c _
  obtain ⟨subject, hub⟩ := x.dictForEdit_spec property c
  show x.Operated c.hub (x.dictForEdit property c).subject (x.dictForEdit property c).context.hub
  rw [subject, hub]
  exact .refl x c.hub

theorem operates_setProvider {catalogs : List Catalog} (link : Option ProviderLink) :
    Operates known catalogs fun x c => ofDone (⟨.ok (), x.setProvider link, c⟩ : Done Settings Unit) := by
  intro x c _
  refine ⟨[], .link x link c.hub, fun _ _ _ => ?_⟩
  show List.Forall₂ _ x.slots (x.setProvider link).slots
  rw [slots_setProvider]
  exact SlotOf.told_refl x.slots

/-- Every step but the building of a schema keeps a workspace sound for the same schemas. -/
theorem act_of_ne_build (sound : w.Sound known) {action : Action}
    (other : ∀ id name base properties, action ≠ .build id name base properties) :
    (w.act action).subject.Sound known := by
  -- steps that edit are covered above; the others are taken one by one
  cases edited : action.edited with
  | some place => exact (sound.edits edited).1
  | none =>
    cases action with
    | build id name base properties => exact absurd rfl (other id name base properties)
    | newEngine name catalog => exact sound.addEngine name catalog
    | cloneEngine name source =>
        unfold Workspace.act
        dsimp only
        split
        · exact { sound with }
        · exact sound
        · exact sound
    | typeOf schema kind engine saveAs => exact sound.typeOf schema kind engine saveAs
    | newFactory schema kind engine name => exact sound.newFactory schema kind engine name
    | create name maker source => exact sound.create name maker source
    | drop name =>
        exact { sound with
          conforms := fun entry mem => sound.conforms entry (List.mem_of_mem_filter mem)
          forest := sound.forest.sublist List.filter_sublist }
    | dictForEdit place property =>
        exact (sound.edit place (operates_dictForEdit property Report.ofDict)).1
    | setProvider place provider key =>
        unfold Workspace.act Workspace.setProvider
        dsimp only
        split
        · exact sound
        · exact (sound.edit place (operates_setProvider _)).1
    | resolveDefault schema property engine => exact sound.resolveDefault ..
    | blueprint schema engine => exact sound.blueprint schema engine
    | debugInitializer schema property engine => exact sound.resolveDefault ..
    | subscribe place client reaction => exact sound.subscribe place client reaction
    | unsubscribe place client => exact sound.unsubscribe place client
    | holdNotifier place name =>
        unfold Workspace.act
        dsimp only
        cases found : w.read place with
        | error e => exact sound
        | ok x =>
            dsimp only
            split
            · exact sound
            · next n hn => exact sound.hold name (sound.lt_size found hn)
    | newNotifier name =>
        have after := sound.context (c := { w.context with hub := w.context.hub.alloc.2 })
          (leads_alloc _ w.context.hub)
        exact after.hold name (by rw [size_alloc]; exact Nat.lt_succ_self _)
    | notifierSubscribe name client reaction =>
        exact sound.atNotifier name _ fun n lt => leads_subscribe _ lt client reaction
    | notifierUnsubscribe name client =>
        refine sound.atNotifier name _ fun n lt => ?_
        dsimp only
        split
        · exact Leads.refl ..
        · exact leads_unsubscribe ..
    | notifierCount name => exact sound.atNotifier name _ fun n _ => Leads.refl ..
    | notifierNotify name property => exact sound.atNotifier name _ fun n _ => leads_notify ..
    | set | reset | copy | copyUntyped | editList | addEntry | deleteEntry | assignDict => cases edited
    | newProvider | dropProvider => exact { sound with }
    | _ => exact sound

/-- Every step keeps a workspace sound. -/
theorem act (sound : w.Sound known) (action : Action) :
    ∃ later : Schema → Prop, (∀ s, known s → later s) ∧ (w.act action).subject.Sound later := by
  by_cases other : ∀ id name base properties, action ≠ .build id name base properties
  · exact ⟨known, fun _ hs => hs, sound.act_of_ne_build other⟩
  · push Not at other
    obtain ⟨id, name, base, properties, rfl⟩ := other
    exact sound.build id name base properties

theorem fresh (sound : w.Sound known) : w.fresh.Sound known := by
  have tidy := sound.tidy
  refine { sound with
    tidy := tidy.of_views (fun _ => rfl) (fun _ => rfl) rfl
    forest := sound.forest.of_views rfl (fun _ => rfl) fun disciplined => disciplined }

theorem perform (sound : w.Sound known) (action : Action) :
    ∃ later : Schema → Prop, (∀ s, known s → later s) ∧ (w.perform action).subject.Sound later :=
  sound.fresh.act action

end Sound

/-! ## Runs -/

/-- Workspaces that start with one engine and come about by steps. -/
def Reachable (w : Workspace) : Prop :=
  ∃ name catalog actions, w = (start name catalog).run actions

/-- Every run keeps the workspace sound. -/
theorem Reachable.sound {w : Workspace} (reachable : w.Reachable) : ∃ known, w.Sound known := by
  obtain ⟨name, catalog, actions, rfl⟩ := reachable
  refine @run_induction (fun w => ∃ known, w.Sound known) ?_ actions _ ⟨_, sound_start name catalog⟩
  rintro w action ⟨known, sound⟩
  obtain ⟨later, -, sound⟩ := sound.perform action
  exact ⟨later, sound⟩

/-! ### Two shelves -/

/-- A shelf that announces its changes, with an entry and a client at each of the two, and a plain
    shelf. -/
def shelves : Workspace :=
  (start "engine" .empty).run [
    .build "entry" "Entry" none [⟨"count", .value .int, []⟩],
    .build "shelf" "Shelf" none [⟨"title", .value .str, []⟩, ⟨"entries", .dict "entry", []⟩],
    .create "first" (.schema "shelf" .inpc "engine") none,
    .addEntry ⟨"first", []⟩ "entries" "a",
    .subscribe ⟨"first", []⟩ "view" {},
    .subscribe ⟨"first", [("entries", "a")]⟩ "row" {},
    .create "second" (.schema "shelf" .copy "engine") none]

theorem reachable_shelves : shelves.Reachable := ⟨"engine", .empty, _, rfl⟩

/-- A step that changes the entry. -/
def recount : Action := .set ⟨"first", [("entries", "a")]⟩ "count" (.int 1)

theorem deliveries_recount : (shelves.perform recount).subject.context.hub.deliveries =
    [⟨0, 0, "view", "entries"⟩, ⟨1, 1, "row", "count"⟩] := by
  decide +kernel

theorem disciplined_recount : (shelves.perform recount).subject.context.hub.Disciplined := by
  unfold Hub.Disciplined
  decide +kernel

end Workspace

end SettingsForge
