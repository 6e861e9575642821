import SettingsForge.Proofs.Workspace.Blurring

set_option autoImplicit false

/-! # Steps in blurred workspaces

A step in a blurred workspace does what the step does in the workspace itself, up to blurring: one lemma
for each step, and `Sound.act_blur` for all of them. The debug text of a dictionary is left out, which
names the kind of the dictionary's owner.

Soundness is used in one place: an instance without a notifier is refused a subscription by an error
that names its kind, and is of a kind that cannot be observed. -/

namespace SettingsForge.Workspace

open Settings

variable {known : Schema → Prop} (w : Workspace)

/-! ## Engines and schemas -/

theorem typeOf_blur (schema : String) (kind : Kind) (engine : String) (saveAs : Option String) :
    w.blur.typeOf schema kind engine saveAs = (w.typeOf schema kind engine saveAs).blur Report.blur := by
  unfold typeOf
  rw [schema_blur]
  cases w.schema schema with
  | error e => rfl
  | ok s =>
      dsimp only
      have asked : w.blur.ask engine (fun e => e.typeOf s kind) =
          (w.ask engine fun e => e.typeOf s kind).blur id := by
        refine w.ask_blur (r := fun e => e.typeOf s kind) (fun e => ?_)
          (fun e => e.blur_journal_factory s kind) engine
        rw [Except.map_id]
        rfl
      rw [asked]
      generalize w.ask engine (fun e => e.typeOf s kind) = attempt
      obtain ⟨answer, after⟩ := attempt
      cases answer with
      | error e => rfl
      | ok shape => cases saveAs <;> rfl

theorem ask_factory_blur (s : Schema) (kind : Kind) (engine : String) :
    w.blur.ask engine (fun e => e.factory s kind.blur) =
      (w.ask engine fun e => e.factory s kind).blur Engine.Factory.blur :=
  w.ask_blur (fun e => e.factory_blur s kind) (fun e => e.blur_journal_factory s kind) engine

theorem newFactory_blur (schema : String) (kind : Kind) (engine name : String) :
    w.blur.newFactory schema kind.blur engine name =
      (w.newFactory schema kind engine name).blur Report.blur := by
  unfold newFactory
  rw [schema_blur]
  cases w.schema schema with
  | error e => rfl
  | ok s =>
      dsimp only
      rw [ask_factory_blur]
      generalize w.ask engine (fun e => e.factory s kind) = attempt
      obtain ⟨answer, after⟩ := attempt
      cases answer with
      | error e => rfl
      | ok factory =>
          dsimp only [Attempt.blur, Except.map]
          rw [blur, blur, ← Keyed.mapValues_insert]
          rfl

theorem factoryOf_blur (maker : Maker) :
    w.blur.factoryOf maker.blur = (w.factoryOf maker).blur Engine.Factory.blur := by
  unfold factoryOf
  cases maker with
  | factory name =>
      dsimp only [Maker.blur]
      rw [factories_blur, find_mapValues]
      rfl
  | schema name kind engine =>
      dsimp only [Maker.blur]
      rw [schema_blur]
      cases w.schema name with
      | error e => rfl
      | ok s => exact w.ask_factory_blur s kind engine

theorem build_blur (id name : String) (base : Option String) (specs : List PropertySpec) :
    w.blur.build id name base specs = (w.build id name base specs).blur Report.blur := by
  unfold build
  dsimp only
  rw [show w.blur.property = w.property from rfl, schema_blur,
    show w.blur.nextSchema = w.nextSchema from rfl]
  split <;> rfl

theorem describe_blur (schema : String) (lookup : Option String) :
    (w.describe schema lookup).map Report.blur = w.describe schema lookup := by
  unfold describe
  cases w.schema schema <;> rfl

theorem resolveDefault_blur (schema property engine : String)
    {report : Property → Initializer → Report} (plain : ∀ p i, (report p i).blur = report p i) :
    w.blur.resolveDefault schema property engine report =
      (w.resolveDefault schema property engine report).blur Report.blur := by
  unfold resolveDefault
  dsimp only
  rw [schema_blur, engine_blur]
  split
  · rfl
  · next s p e _ =>
    have noted := w.note_blur (JournalEntry.map_blur_eq_self fun _ mem =>
      @Engine.blur_of_mem_journalOf s.name p _ mem)
    rw [context_blur, noted]
    cases Initializer.resolve s.name p e.catalog with
    | error e => rfl
    | ok i =>
        dsimp only [Attempt.blur, Except.map, Except.mapError]
        rw [plain]
        rfl

theorem blueprint_blur (schema engine : String) :
    w.blur.blueprint schema engine = (w.blueprint schema engine).blur Report.blur := by
  unfold blueprint
  dsimp only
  rw [schema_blur, engine_blur]
  split
  · rfl
  · next s e _ =>
    have noted := w.note_blur (JournalEntry.map_blur_eq_self fun _ mem =>
      @Engine.blur_of_mem_journalOfAll s.name e.catalog s.properties _ mem)
    rw [context_blur, noted]
    rfl

/-! ## Instances -/

theorem create_blur (name : String) (maker : Maker) (source : Option Location) :
    w.blur.create name maker.blur source = (w.create name maker source).blur Report.blur := by
  unfold create
  rw [mapM_blur w.read_blur, factoryOf_blur]
  cases source.mapM w.read with
  | error e => rfl
  | ok from? =>
      dsimp only [Except.map]
      generalize w.factoryOf maker = attempt
      obtain ⟨answer, after⟩ := attempt
      cases answer with
      | error e => rfl
      | ok factory =>
          dsimp only [Attempt.blur, Except.map]
          rw [context_blur, Engine.Factory.create_blur]
          obtain ⟨answer, c⟩ := factory.create from? after.context
          cases answer with
          | error e => rfl
          | ok x =>
              dsimp only [Except.map]
              rw [shape_blur, putInstance_blur]
              rfl

theorem reset_blur (place : Location) (name : String) :
    w.blur.reset place name = (w.reset place name).blur Report.blur := by
  have edited : w.blur.edit place (Sound.resetting w.blur name) =
      (w.edit place (Sound.resetting w name)).blur id := by
    refine w.edit_blur (fun x c => ?_) place
    unfold Sound.resetting
    rw [handle_blur, engine_blur]
    cases w.handle name with
    | error e => rfl
    | ok index =>
        cases w.engine name with
        | error e => rfl
        | ok engine =>
            dsimp only
            rw [Engine.reset_blur]
            dsimp only [Done.blur]
            rw [Except.map_id]
            rfl
  show Sound.afterReset (w.blur.edit place (Sound.resetting w.blur name)) =
    (Sound.afterReset (w.edit place (Sound.resetting w name))).blur Report.blur
  rw [edited]
  obtain ⟨answer, after⟩ := w.edit place (Sound.resetting w name)
  cases answer with
  | error e => rfl
  | ok a =>
      obtain ⟨index, engine, answer⟩ := a
      cases answer <;> rfl

theorem editList_blur (place : Location) (property : String) (edit : ListEdit) :
    w.blur.editList place property edit = (w.editList place property edit).blur Report.blur := by
  unfold editList
  refine w.editReport_blur (g := Report.blur) (r := id) (fun x c => ?_) (fun _ => rfl) place
  dsimp only
  rw [x.editList_blur property c edit]
  generalize x.editList property edit c = d
  obtain ⟨answer, subject, after⟩ := d
  cases answer with
  | error e => rfl
  | ok answer =>
      dsimp only [Done.blur, Except.map]
      rw [list_blur]
      cases answer <;> rfl

/-- An edit that reports nothing is made the same way in both workspaces. -/
theorem editSilently_blur {f k : Settings → Context → Except Obstacle Unit × Settings × Context}
    (same : ∀ x c, k x.blur (Context.blur c) =
      ((f x c).1.map id, (f x c).2.1.blur, (f x c).2.2.blur)) (place : Location) :
    (⟨(w.blur.edit place k).answer.map fun _ => .nothing, (w.blur.edit place k).subject⟩ :
        Attempt Workspace Report) =
      Attempt.blur Report.blur
        ⟨(w.edit place f).answer.map fun _ => .nothing, (w.edit place f).subject⟩ := by
  rw [w.edit_blur same]
  obtain ⟨answer, after⟩ := w.edit place f
  cases answer <;> rfl

theorem copy_blur (place : Location) (source : Option Location) :
    w.blur.copy place source = (w.copy place source).blur Report.blur := by
  refine w.editSilently_blur (f := Sound.copying w place source)
    (k := Sound.copying w.blur place source) (fun x c => ?_) place
  unfold Sound.copying
  rw [mapM_blur (w.source_blur place)]
  cases source.mapM (w.source place) with
  | error e => rfl
  | ok from? =>
      dsimp only [Except.map]
      rw [Settings.copy_blur, ofDone_blur]
      rfl

theorem candidate_blur (place : Location) (source : Source) :
    Sound.candidate w.blur place source = (Sound.candidate w place source).map Candidate.blur := by
  cases source with
  | absent => rfl
  | alien => rfl
  | location l =>
      unfold Sound.candidate
      dsimp only
      rw [source_blur]
      cases w.source place l <;> rfl
  | root l =>
      unfold Sound.candidate
      dsimp only
      rw [source_blur, source_blur]
      cases w.source place l with
      | error e => rfl
      | ok s => cases w.source place ⟨l.name, []⟩ <;> rfl

theorem copyUntyped_blur (place : Location) (source : Source) :
    w.blur.copyUntyped place source = (w.copyUntyped place source).blur Report.blur := by
  refine w.editSilently_blur (f := Sound.copyingUntyped w place source)
    (k := Sound.copyingUntyped w.blur place source) (fun x c => ?_) place
  unfold Sound.copyingUntyped
  rw [candidate_blur]
  cases Sound.candidate w place source with
  | error e => rfl
  | ok from? =>
      dsimp only [Except.map]
      rw [Settings.copyUntyped_blur, ofDone_blur]
      rfl

theorem keys_dict_blur (x : Settings) (property : String) :
    ((x.blur.dict property).toOption.map fun dict => Entries.keys dict.2) =
      (x.dict property).toOption.map fun dict => Entries.keys dict.2 := by
  rw [dict_blur]
  cases x.dict property with
  | error e => rfl
  | ok dict => exact congrArg some (Entries.keys_blur dict.2)

/-- The dictionary that another is brought to. -/
theorem sourceDict_blur (place source : Location) (property : String) :
    (do
      let s ← w.blur.source place source
      (s.dict property).mapError .failed : Except Obstacle (DictRef × List Entry)) =
      (do
        let s ← w.source place source
        (s.dict property).mapError .failed).map fun dict : DictRef × List Entry =>
          (dict.1.blur, dict.2.map EntryOf.blur) := by
  rw [source_blur]
  cases w.source place source with
  | error e => rfl
  | ok s =>
      show (s.blur.dict property).mapError _ = ((s.dict property).mapError _).map _
      rw [dict_blur]
      cases s.dict property <;> rfl

/-- The editing of a dictionary that brings it to another. -/
theorem editDict_assignDict_blur (x : Settings) (property : String) (dict : DictRef × List Entry)
    (c : Context) :
    x.blur.editDict property
        (fun target entries c =>
          Settings.assignDict target entries (dict.1.blur, dict.2.map EntryOf.blur) c) c.blur =
      (x.editDict property (fun target entries c => Settings.assignDict target entries dict c) c).blur
        Settings.blur id :=
  x.editDict_blur property c fun target entries c => Settings.assignDict_blur target entries dict c

theorem assignDict_blur (place : Location) (property : String) (source : Location)
    (sourceProperty : String) :
    w.blur.assignDict place property source sourceProperty =
      (w.assignDict place property source sourceProperty).blur Report.blur := by
  unfold assignDict
  dsimp only
  rw [sourceDict_blur]
  generalize (do
    let s ← w.source place source
    (s.dict sourceProperty).mapError .failed : Except Obstacle (DictRef × List Entry)) = located
  refine w.edit_blur (fun x c => ?_) place
  -- the own dictionary is looked up before the other is known to be there
  rw [dictForEdit_blur]
  obtain ⟨looked, subject, after⟩ := x.dictForEdit property c
  cases looked with
  | error e => rfl
  | ok own =>
      cases located with
      | error e => rfl
      | ok dict =>
          have assigned := editDict_assignDict_blur x property dict after
          dsimp only [Done.blur, Except.map] at assigned ⊢
          rw [assigned]
          generalize x.editDict property
            (fun target entries c => Settings.assignDict target entries dict c) after = d
          obtain ⟨answer, y, after⟩ := d
          cases answer with
          | error e => rfl
          | ok _ =>
              dsimp only
              rw [keys_dict_blur]
              rfl

/-! ## Subscriptions -/

/-- What cannot be observed is of no observable kind. -/
theorem Sound.notObservable_blur {w : Workspace} (sound : w.Sound known) {place : Location}
    {x : Settings} (read : w.read place = .ok x) (silent : x.notifier = none) :
    x.blur.notObservable = x.notObservable := by
  obtain ⟨root, there, -, part, -⟩ := sound.read read
  have own := ((sound.forest.rooted _ there).parts x part).notifier
  rw [silent] at own
  rw [notObservable, Settings.schema_blur, kind_blur, Kind.blur_eq_self _ own.symm, notObservable]

theorem subscribe_blur {w : Workspace} (sound : w.Sound known) (place : Location) (client : String)
    (reaction : Reaction) :
    w.blur.subscribe place client reaction = (w.subscribe place client reaction).blur Report.blur := by
  unfold subscribe
  rw [read_blur]
  cases read : w.read place with
  | error e => rfl
  | ok x =>
      dsimp only [Except.map]
      rw [notifier_blur]
      cases silent : x.notifier with
      | none =>
          dsimp only
          rw [sound.notObservable_blur read silent]
          rfl
      | some n => rfl

theorem unsubscribe_blur {w : Workspace} (sound : w.Sound known) (place : Location)
    (client : String) :
    w.blur.unsubscribe place client = (w.unsubscribe place client).blur Report.blur := by
  unfold unsubscribe
  rw [read_blur, show w.blur.context.hub = w.context.hub from rfl]
  cases read : w.read place with
  | error e => rfl
  | ok x =>
      dsimp only [Except.map]
      cases w.context.hub.last? client with
      | none => rfl
      | some id =>
          dsimp only
          rw [notifier_blur]
          cases silent : x.notifier with
          | none =>
              dsimp only
              rw [sound.notObservable_blur read silent]
              rfl
          | some n => rfl

theorem atNotifier_blur (name : String)
    {f : NotifierId → Hub → Except Obstacle (Hub → Report) × Hub}
    (plain : ∀ n hub report, (f n hub).1 = .ok report → ∀ after, (report after).blur = report after) :
    w.blur.atNotifier name f = (w.atNotifier name f).blur Report.blur := by
  unfold atNotifier
  rw [show w.blur.notifiers = w.notifiers from rfl, show w.blur.context.hub = w.context.hub from rfl]
  cases find w.notifiers name .notifier with
  | error e => rfl
  | ok n =>
      have plain := plain n w.context.hub
      dsimp only
      generalize f n w.context.hub = asked at plain
      obtain ⟨answer, hub⟩ := asked
      cases answer with
      | error e => rfl
      | ok report =>
          dsimp only [Attempt.blur, Except.map]
          rw [plain report rfl]
          rfl

theorem setProvider_blur (place : Location) (provider key : Option String) :
    w.blur.setProvider place provider key = (w.setProvider place provider key).blur Report.blur := by
  unfold setProvider
  rw [show w.blur.providers = w.providers from rfl]
  cases provider.mapM fun name => find w.providers name .provider with
  | error e => rfl
  | ok link =>
      refine w.editReport_blur (g := id) (fun x c => ?_) (fun _ => rfl) place
      rw [← blur_setProvider]
      rfl

/-! ## Reading -/

/-- A report on a list is the same. -/
theorem inspect_list_blur {report : ListRef × List Value → Report} (place : Location)
    (property : String) (same : ∀ l, (report l).blur = report l) :
    (w.blur.inspect place fun x => (x.list property).map report) =
      (w.inspect place fun x => (x.list property).map report).blur Report.blur := by
  refine w.inspect_blur (fun x => ?_) place
  rw [list_blur]
  cases x.list property with
  | error e => rfl
  | ok l => exact congrArg Except.ok (same l).symm

theorem inspect_dict_blur {report : DictRef × List Entry → Report} (place : Location)
    (property : String) (same : ∀ d, report (d.1.blur, d.2.map EntryOf.blur) = (report d).blur) :
    (w.blur.inspect place fun x => (x.dict property).map report) =
      (w.inspect place fun x => (x.dict property).map report).blur Report.blur := by
  refine w.inspect_blur (fun x => ?_) place
  rw [dict_blur]
  cases x.dict property with
  | error e => rfl
  | ok d => exact congrArg Except.ok (same d)

theorem dictForEditReport_blur (place : Location) (property : String) :
    w.blur.act (.dictForEdit place property) =
      (w.act (.dictForEdit place property)).blur Report.blur := by
  refine w.editReport_blur (g := Report.blur) (r := id) (fun x c => ?_) (fun _ => rfl) place
  dsimp only
  rw [x.dictForEdit_blur property c]
  generalize x.dictForEdit property c = d
  obtain ⟨answer, subject, after⟩ := d
  cases answer with
  | error e => rfl
  | ok dict =>
      dsimp only [Done.blur, Except.map]
      rw [Report.ofDict_blur]

theorem holdNotifier_blur (place : Location) (name : String) :
    w.blur.act (.holdNotifier place name) = (w.act (.holdNotifier place name)).blur Report.blur := by
  simp only [act]
  rw [read_blur]
  cases w.read place with
  | error e => rfl
  | ok x =>
      simp only [Except.map, notifier_blur]
      cases x.notifier <;> rfl

/-! ## Steps -/

/-- A step in a blurred workspace does what it does in the workspace itself, up to blurring. -/
theorem Sound.act_blur {w : Workspace} (sound : w.Sound known) (action : Action)
    (names : ∀ place property, action ≠ .debugDict place property) :
    w.blur.act action.blur = (w.act action).blur Report.blur := by
  cases action with
  | newEngine name catalog => rfl
  | cloneEngine name source =>
      simp only [Workspace.act, Action.blur]
      rw [handle_blur, engine_blur]
      split <;> rfl
  | build id name base properties => exact w.build_blur id name base properties
  | describe schema lookup => exact congrArg (Attempt.mk · w.blur) (w.describe_blur schema lookup).symm
  | isA schema ancestor =>
      simp only [Workspace.act, Action.blur]
      rw [schema_blur]
      cases w.schema schema with
      | error e => rfl
      | ok s => cases w.schema ancestor <;> rfl
  | typeOf schema kind engine saveAs => exact w.typeOf_blur schema kind engine saveAs
  | compareShapes first second =>
      simp only [Workspace.act, Action.blur]
      rw [show w.blur.shapes = w.shapes from rfl]
      cases find w.shapes first .shape with
      | error e => rfl
      | ok a => cases find w.shapes second .shape <;> rfl
  | resolved schemas engine =>
      simp only [Workspace.act, Action.blur]
      rw [schema_blur, engine_blur]
      cases schemas.mapM fun id => do return (id, ← w.schema id) with
      | error e => rfl
      | ok known => cases w.engine engine <;> rfl
  | resolveDefault schema property engine =>
      exact w.resolveDefault_blur schema property engine fun _ _ => rfl
  | blueprint schema engine => exact w.blueprint_blur schema engine
  | newFactory schema kind engine name => exact w.newFactory_blur schema kind engine name
  | create name maker source => exact w.create_blur name maker source
  | drop name =>
      simp only [Workspace.act, Action.blur]
      rw [instances_blur, Keyed.lookup_mapValues, ← Keyed.mapValues_erase, Option.isSome_map]
      rfl
  | about place => exact w.inspect_blur (fun x => by rw [shape_blur]; rfl) place
  | get place property =>
      refine w.inspect_blur (fun x => ?_) place
      rw [get_blur]
      cases x.get property <;> rfl
  | set place property value =>
      exact w.editReport_blur (g := id) (fun x c => x.set_blur property c value) (fun _ => rfl) place
  | snapshot place => exact w.inspect_blur (fun x => by rw [snapshot_blur]; rfl) place
  | reset place engine => exact w.reset_blur place engine
  | copy place source => exact w.copy_blur place source
  | copyUntyped place source => exact w.copyUntyped_blur place source
  | list place property => exact w.inspect_list_blur place property fun _ => rfl
  | item place property index => exact w.inspect_list_blur place property fun _ => rfl
  | editList place property edit => exact w.editList_blur place property edit
  | dict place property => exact w.inspect_dict_blur place property Report.ofDict_blur
  | dictForEdit place property => exact w.dictForEditReport_blur place property
  | hasKey place property key =>
      exact w.inspect_dict_blur place property fun d => by
        rw [Entries.find?_blur, Option.isSome_map]
        rfl
  | dictSnapshot place property =>
      exact w.inspect_dict_blur place property fun d => by rw [entryValues_blur]; rfl
  | addEntry place property key =>
      exact w.editReport_blur (fun x c => x.addEntry_blur property key c)
        (fun e => by rw [EntryOf.settings_blur, shape_blur]; rfl) place
  | deleteEntry place property key =>
      exact w.editReport_blur (g := id) (fun x c => x.deleteEntry_blur property key c)
        (fun _ => rfl) place
  | assignDict place property source sourceProperty =>
      exact w.assignDict_blur place property source sourceProperty
  | subscribe place client reaction => exact subscribe_blur sound place client reaction
  | unsubscribe place client => exact unsubscribe_blur sound place client
  | subscribers place =>
      refine w.inspect_blur (fun x => ?_) place
      rw [notifier_blur]
      rfl
  | holdNotifier place name => exact w.holdNotifier_blur place name
  | sameNotifier place name =>
      simp only [Workspace.act, Action.blur]
      rw [show w.blur.notifiers = w.notifiers from rfl, read_blur]
      cases find w.notifiers name .notifier with
      | error e => rfl
      | ok held =>
          cases w.read place with
          | error e => rfl
          | ok x =>
              refine congrArg (Attempt.mk · w.blur) ?_
              simp [Except.map]
              rfl
  | newNotifier name => rfl
  | notifierSubscribe name client reaction =>
      simp only [Workspace.act, Action.blur]
      refine w.atNotifier_blur name ?_
      rintro n hub report ⟨⟩ after
      rfl
  | notifierUnsubscribe name client =>
      simp only [Workspace.act, Action.blur]
      refine w.atNotifier_blur name fun n hub report answer after => ?_
      cases last : hub.last? client with
      | none =>
          simp only [last] at answer
          cases answer
      | some id =>
          simp only [last] at answer
          cases answer
          rfl
  | notifierCount name =>
      simp only [Workspace.act, Action.blur]
      refine w.atNotifier_blur name ?_
      rintro n hub report ⟨⟩ after
      rfl
  | notifierNotify name property =>
      simp only [Workspace.act, Action.blur]
      refine w.atNotifier_blur name ?_
      rintro n hub report ⟨⟩ after
      rfl
  | newProvider name => rfl
  | dropProvider name => rfl
  | setProvider place provider key => exact w.setProvider_blur place provider key
  | provider place =>
      refine w.inspect_blur (fun x => ?_) place
      rw [providerReport, provider_blur]
      rfl
  | debugList place property => exact w.inspect_list_blur place property fun _ => rfl
  | debugDict place property => exact absurd rfl (names place property)
  | debugNotifier place =>
      exact w.inspect_blur (fun x => by rw [notifierDebug, notifier_blur]; rfl) place
  | debugEngine engine =>
      simp only [Workspace.act, Action.blur]
      rw [engine_blur]
      cases w.engine engine <;> rfl
  | debugInitializer schema property engine =>
      exact w.resolveDefault_blur schema property engine fun _ _ => rfl

end SettingsForge.Workspace
