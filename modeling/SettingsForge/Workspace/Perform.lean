import SettingsForge.Settings.Debug
import SettingsForge.Workspace.Action

set_option autoImplicit false

/-! # Performing steps

`Workspace.perform` performs one step from a fresh context, `Workspace.run` a list of them. A step
that meets an obstacle stores nothing under a name, but keeps what it changed in an instance before
it failed. -/

namespace SettingsForge

/-! ## Reports -/

/-- The description of a dictionary. -/
def Report.ofDict (dict : DictRef × List Entry) : Report :=
  .dict dict.1.property dict.1.blueprint.schema.name dict.1.kind
    (dict.2.map fun e => (e.key, e.settings.shape))

/-- The property of a schema by its name. -/
def Schema.find (schema : Schema) (property : String) : Except Obstacle Property :=
  match schema.property? property with
  | some p => .ok p
  | none => .error (.missing .property)

namespace Workspace

/-! ## Building -/

/-- The property that a specification describes. -/
def property (w : Workspace) (spec : PropertySpec) : Except Obstacle Property :=
  match spec.type with
  | .value type => .ok ⟨spec.name, .value type, spec.defaults⟩
  | .dict schema => do return ⟨spec.name, .dict (← w.schema schema), spec.defaults⟩

/-- Build a schema and keep it under a name. -/
def build (w : Workspace) (id name : String) (base : Option String)
    (specs : List PropertySpec) : Attempt Workspace Report :=
  let built : Except Obstacle Schema := do
    let own ← specs.mapM w.property
    let b ← base.mapM w.schema
    (Schema.build ⟨w.nextSchema⟩ name b own).mapError .failed
  match built with
  | .error e => ⟨.error e, w⟩
  | .ok schema =>
    ⟨.ok (.names (schema.properties.map PropertyOf.name)),
      { w with schemas := Keyed.insert id schema w.schemas, nextSchema := w.nextSchema + 1 }⟩

/-- What a schema says about a property name: its own spelling and its position. -/
def describe (w : Workspace) (schema : String) (lookup : Option String) : Except Obstacle Report := do
  let s ← w.schema schema
  return .description s (lookup.map fun name => ((s.property? name).map PropertyOf.name,
    s.position? name))

/-! ## Making instances -/

/-- The shape of a kind of a schema. -/
def typeOf (w : Workspace) (schema : String) (kind : Kind) (engine : String)
    (saveAs : Option String) : Attempt Workspace Report :=
  match w.schema schema with
  | .error e => ⟨.error e, w⟩
  | .ok s =>
    match w.ask engine fun e => e.typeOf s kind with
    | ⟨.error e, after⟩ => ⟨.error e, after⟩
    | ⟨.ok shape, after⟩ =>
      ⟨.ok (.typeName shape),
        match saveAs with
        | some name => { after with shapes := Keyed.insert name shape after.shapes }
        | none => after⟩

/-- Keep the factory for a kind of a schema under a name. -/
def newFactory (w : Workspace) (schema : String) (kind : Kind) (engine name : String) :
    Attempt Workspace Report :=
  match w.schema schema with
  | .error e => ⟨.error e, w⟩
  | .ok s =>
    match w.ask engine fun e => e.factory s kind with
    | ⟨.error e, after⟩ => ⟨.error e, after⟩
    | ⟨.ok factory, after⟩ =>
      ⟨.ok (.shape factory.shape),
        { after with factories := Keyed.insert name factory after.factories }⟩

/-- The factory of a maker. -/
def factoryOf (w : Workspace) : Maker → Attempt Workspace Engine.Factory
  | .factory name => ⟨find w.factories name .factory, w⟩
  | .schema name kind engine =>
    match w.schema name with
    | .error e => ⟨.error e, w⟩
    | .ok s => w.ask engine fun e => e.factory s kind

/-- Keep a new instance under a name. The source is looked up before the maker. -/
def create (w : Workspace) (name : String) (maker : Maker) (source : Option Location) :
    Attempt Workspace Report :=
  match source.mapM w.read with
  | .error e => ⟨.error e, w⟩
  | .ok from? =>
    match w.factoryOf maker with
    | ⟨.error e, after⟩ => ⟨.error e, after⟩
    | ⟨.ok factory, after⟩ =>
      match factory.create from? after.context with
      | (.error e, context) => ⟨.error (.failed e), { after with context := context }⟩
      | (.ok x, context) =>
        ⟨.ok (.shape x.shape), { after.putInstance name x with context := context }⟩

/-- Reset the instance at a location with an engine, which learns the schema even if that fails. -/
def reset (w : Workspace) (place : Location) (name : String) : Attempt Workspace Report :=
  let attempt := w.edit place fun x c =>
    match w.handle name, w.engine name with
    | .ok index, .ok engine =>
      let (d, after) := engine.reset x c
      (.ok (index, after, d.answer), d.subject, d.context)
    | .error e, _ => (.error e, x, c)
    | _, .error e => (.error e, x, c)
  match attempt with
  | ⟨.error e, after⟩ => ⟨.error e, after⟩
  | ⟨.ok (index, engine, answer), after⟩ =>
    ⟨(answer.map fun _ => Report.nothing).mapError .failed, after.setEngine index engine⟩

/-! ## Editing instances -/

/-- An operation of instances as a step. -/
def editReport {α : Type} (w : Workspace) (place : Location) (report : α → Report)
    (f : Settings → Context → Done Settings α) : Attempt Workspace Report :=
  let attempt := w.edit place fun x c => ofDone (f x c)
  ⟨attempt.answer.map report, attempt.subject⟩

/-- Edit a list. The report is the length after it, the item removed, or what reconciling did. -/
def editList (w : Workspace) (place : Location) (property : String) (edit : ListEdit) :
    Attempt Workspace Report :=
  w.editReport place id fun x c =>
    let d := x.editList property edit c
    ⟨d.answer.map fun answer =>
      match answer with
      | .edited => .count (((d.subject.list property).toOption.map fun l => l.2.length).getD 0)
      | .removed value => .value value
      | .reconciled outcome => .reconciled outcome, d.subject, d.context⟩

/-- Copy another instance's location, or nothing, into the instance at a location. -/
def copy (w : Workspace) (place : Location) (source : Option Location) : Attempt Workspace Report :=
  let attempt := w.edit place fun x c =>
    match source.mapM (w.source place) with
    | .error e => (.error e, x, c)
    | .ok from? => ofDone (x.copy from? c)
  ⟨attempt.answer.map fun _ => .nothing, attempt.subject⟩

/-- Copy a source of unknown nature into the instance at a location. -/
def copyUntyped (w : Workspace) (place : Location) (source : Source) : Attempt Workspace Report :=
  let candidate : Except Obstacle Settings.Candidate :=
    match source with
    | .absent => .ok .absent
    | .alien => .ok .alien
    | .location l => (w.source place l).map .settings
    | .root l => do
      let _ ← w.source place l
      return .settings (← w.source place ⟨l.name, []⟩)
  let attempt := w.edit place fun x c =>
    match candidate with
    | .error e => (.error e, x, c)
    | .ok from? => ofDone (x.copyUntyped from? c)
  ⟨attempt.answer.map fun _ => .nothing, attempt.subject⟩

/-- Bring a dictionary to one of another instance. The dictionary itself is looked up first. -/
def assignDict (w : Workspace) (place : Location) (property : String) (source : Location)
    (sourceProperty : String) : Attempt Workspace Report :=
  let attempt := w.edit place fun x c =>
    match x.dictForEdit property c with
    | ⟨.error e, _, after⟩ => (.error (.failed e), x, after)
    | ⟨.ok _, _, after⟩ =>
      let found : Except Obstacle (DictRef × List Entry) := do
        let s ← w.source place source
        (s.dict sourceProperty).mapError .failed
      match found with
      | .error e => (.error e, x, after)
      | .ok dict =>
        let d := x.editDict property
          (fun target entries c => Settings.assignDict target entries dict c) after
        ofDone ⟨d.answer.map fun _ =>
          Report.names (((d.subject.dict property).toOption.map fun l => Entries.keys l.2).getD []),
          d.subject, d.context⟩
  attempt

/-! ## Subscriptions -/

/-- Subscribe a client at the notifier of the instance at a location. -/
def subscribe (w : Workspace) (place : Location) (client : String) (reaction : Reaction) :
    Attempt Workspace Report :=
  match w.read place with
  | .error e => ⟨.error e, w⟩
  | .ok x =>
    match x.notifier with
    | none => ⟨.error (.failed x.notObservable), w⟩
    | some n =>
      let hub := w.context.hub.subscribe n client reaction
      ⟨.ok (.count (hub.count n)), { w with context := { w.context with hub := hub } }⟩

/-- End the subscription that a client took last, at the notifier of the instance at a location. The
    number is used there whichever notifier it came from. -/
def unsubscribe (w : Workspace) (place : Location) (client : String) : Attempt Workspace Report :=
  match w.read place with
  | .error e => ⟨.error e, w⟩
  | .ok x =>
    match w.context.hub.last? client with
    | none => ⟨.error (.missing .subscription), w⟩
    | some id =>
      match x.notifier with
      | none => ⟨.error (.failed x.notObservable), w⟩
      | some n =>
        let (had, hub) := w.context.hub.unsubscribe n id
        ⟨.ok (.flag had), { w with context := { w.context with hub := hub } }⟩

/-- Change the hub at a held notifier. -/
def atNotifier (w : Workspace) (name : String)
    (f : NotifierId → Hub → Except Obstacle (Hub → Report) × Hub) : Attempt Workspace Report :=
  match find w.notifiers name .notifier with
  | .error e => ⟨.error e, w⟩
  | .ok n =>
    let (answer, hub) := f n w.context.hub
    ⟨answer.map fun report => report hub, { w with context := { w.context with hub := hub } }⟩

/-! ## Providers -/

/-- Link the instance at a location to a provider, which is looked up first, or to none. -/
def setProvider (w : Workspace) (place : Location) (provider key : Option String) :
    Attempt Workspace Report :=
  match provider.mapM fun name => find w.providers name .provider with
  | .error e => ⟨.error e, w⟩
  | .ok id =>
    w.editReport place (fun _ => .nothing) fun x c =>
      ⟨.ok (), x.setProvider (id.map fun id => ⟨id, key⟩), c⟩

/-! ## Reading -/

/-- The report on a location's instance. -/
def inspect (w : Workspace) (place : Location) (f : Settings → Except SettingsError Report) :
    Attempt Workspace Report :=
  ⟨do (f (← w.read place)).mapError .failed, w⟩

/-- The report on a list property. -/
def listReport (x : Settings) (property : String) : Except SettingsError Report :=
  (x.list property).map fun l => .list l.1.property l.1.item l.2 l.1.binding.isSome

/-- The initializer of a property of a schema, outside all engines. What it writes down is kept. -/
def resolveDefault (w : Workspace) (schema property engine : String)
    (report : Property → Initializer → Report) : Attempt Workspace Report :=
  let found : Except Obstacle (Schema × Property × Engine) := do
    let s ← w.schema schema
    let p ← s.find property
    return (s, p, ← w.engine engine)
  match found with
  | .error e => ⟨.error e, w⟩
  | .ok (s, p, e) =>
    ⟨((Initializer.resolve s.name p e.catalog).mapError .failed).map (report p),
      { w with context := w.context.note (Initializer.journalOf s.name p) }⟩

/-- The blueprint of a schema by itself, outside all engines. What it writes down is kept. -/
def blueprint (w : Workspace) (schema engine : String) : Attempt Workspace Report :=
  let found : Except Obstacle (Schema × Engine) := do
    let s ← w.schema schema
    return (s, ← w.engine engine)
  match found with
  | .error e => ⟨.error e, w⟩
  | .ok (s, e) =>
    ⟨.ok (.blueprint ((Initializer.resolveAll s.name e.catalog s.properties).map fun _ => s.name)
        s.missingEquality?),
      { w with context := w.context.note (Initializer.journalOfAll s.name e.catalog s.properties) }⟩

/-- The report on an instance's provider. -/
def providerReport (w : Workspace) (x : Settings) : Report :=
  .optional (x.provider.map fun link =>
    let name := w.providerName? link.provider
    .provider link.key name (link.debug name))

/-! ## Steps -/

/-- Perform a step in the context at hand. -/
def act (w : Workspace) : Action → Attempt Workspace Report
  | .newEngine name catalog => ⟨.ok (.catalogSize catalog.size), w.addEngine name catalog⟩
  | .cloneEngine name source =>
    match w.handle source, w.engine source with
    | .ok index, .ok engine =>
      ⟨.ok (.catalogSize engine.catalog.size),
        { w with handles := Keyed.insert name index w.handles }⟩
    | .error e, _ => ⟨.error e, w⟩
    | _, .error e => ⟨.error e, w⟩
  | .build id name base properties => w.build id name base properties
  | .describe schema lookup => ⟨w.describe schema lookup, w⟩
  | .isA schema ancestor =>
    ⟨do return .flag ((← w.schema schema).isA (← w.schema ancestor).id), w⟩
  | .typeOf schema kind engine saveAs => w.typeOf schema kind engine saveAs
  | .compareShapes first second =>
    ⟨do
      let a ← find w.shapes first .shape
      let b ← find w.shapes second .shape
      return .sameShape (a == b) (a.schemaId == b.schemaId), w⟩
  | .resolved schemas engine =>
    ⟨do
      let known ← schemas.mapM fun id => do return (id, ← w.schema id)
      let e ← w.engine engine
      return .resolved e.resolvedCount (known.map fun entry => (entry.1, e.isResolved entry.2)), w⟩
  | .resolveDefault schema property engine =>
    w.resolveDefault schema property engine fun p initializer =>
      .initializer initializer (p.type.valueType?.map initializer.produce)
  | .blueprint schema engine => w.blueprint schema engine
  | .newFactory schema kind engine name => w.newFactory schema kind engine name
  | .create name maker source => w.create name maker source
  | .drop name =>
    ⟨.ok (.flag (w.instances.lookup name).isSome),
      { w with instances := Keyed.erase name w.instances }⟩
  | .about place => w.inspect place fun x => .ok (.shape x.shape)
  | .get place property => w.inspect place fun x => (x.get property).map .value
  | .set place property value =>
    w.editReport place (fun _ => .nothing) fun x c => x.set property value c
  | .snapshot place => w.inspect place fun x => .ok (.value x.snapshot)
  | .reset place engine => w.reset place engine
  | .copy place source => w.copy place source
  | .copyUntyped place source => w.copyUntyped place source
  | .list place property => w.inspect place fun x => listReport x property
  | .item place property index =>
    w.inspect place fun x => (x.list property).map fun l => .item l.2[index]?
  | .editList place property edit => w.editList place property edit
  | .dict place property =>
    w.inspect place fun x => (x.dict property).map Report.ofDict
  | .dictForEdit place property =>
    w.editReport place id fun x c =>
      let d := x.dictForEdit property c
      ⟨d.answer.map Report.ofDict, d.subject, d.context⟩
  | .hasKey place property key =>
    w.inspect place fun x =>
      (x.dict property).map fun d => .flag (Entries.find? d.2 key).isSome
  | .dictSnapshot place property =>
    w.inspect place fun x =>
      (x.dict property).map fun d => .value (.map (Settings.entryValues d.2))
  | .addEntry place property key =>
    w.editReport place (fun entry => .shape entry.settings.shape) fun x c =>
      x.addEntry property key c
  | .deleteEntry place property key =>
    w.editReport place .flag fun x c => x.deleteEntry property key c
  | .assignDict place property source sourceProperty =>
    w.assignDict place property source sourceProperty
  | .subscribe place client reaction => w.subscribe place client reaction
  | .unsubscribe place client => w.unsubscribe place client
  | .subscribers place =>
    w.inspect place fun x =>
      .ok (.optional (x.notifier.map fun n => .count (w.context.hub.count n)))
  | .holdNotifier place name =>
    match w.read place with
    | .error e => ⟨.error e, w⟩
    | .ok x =>
      match x.notifier with
      | none => ⟨.ok (.flag false), w⟩
      | some n => ⟨.ok (.flag true), { w with notifiers := Keyed.insert name n w.notifiers }⟩
  | .sameNotifier place name =>
    ⟨do
      let held ← find w.notifiers name .notifier
      let x ← w.read place
      return .optional (x.notifier.map fun n => .flag (n == held)), w⟩
  | .newNotifier name =>
    let (n, hub) := w.context.hub.alloc
    ⟨.ok .nothing,
      { w with
        notifiers := Keyed.insert name n w.notifiers
        context := { w.context with hub := hub } }⟩
  | .notifierSubscribe name client reaction =>
    w.atNotifier name fun n hub =>
      (.ok fun after => .count (after.count n), hub.subscribe n client reaction)
  | .notifierUnsubscribe name client =>
    w.atNotifier name fun n hub =>
      match hub.last? client with
      | none => (.error (.missing .subscription), hub)
      | some id =>
        let (had, after) := hub.unsubscribe n id
        (.ok fun _ => .flag had, after)
  | .notifierCount name =>
    w.atNotifier name fun n hub => (.ok fun after => .count (after.count n), hub)
  | .notifierNotify name property =>
    w.atNotifier name fun n hub =>
      (.ok fun after => .count (after.count n), hub.notify n property)
  | .newProvider name =>
    ⟨.ok .nothing,
      { w with
        providers := Keyed.insert name w.nextProvider w.providers
        nextProvider := w.nextProvider + 1 }⟩
  | .dropProvider name =>
    ⟨.ok (.flag (w.providers.lookup name).isSome),
      { w with providers := Keyed.erase name w.providers }⟩
  | .setProvider place provider key => w.setProvider place provider key
  | .provider place => w.inspect place fun x => .ok (w.providerReport x)
  | .debugList place property =>
    w.inspect place fun x => (x.list property).map fun l =>
      .text (Settings.listDebug l.1 l.2)
  | .debugDict place property =>
    w.inspect place fun x => (x.dict property).map fun d =>
      .text (Settings.dictDebug d.1 d.2)
  | .debugNotifier place =>
    w.inspect place fun x => .ok (.text (x.notifierDebug w.context.hub))
  | .debugEngine engine => ⟨do return .text (← w.engine engine).debug, w⟩
  | .debugInitializer schema property engine =>
    w.resolveDefault schema property engine fun _ initializer => .text initializer.debug

/-- Perform a step from a fresh context. -/
def perform (w : Workspace) (action : Action) : Attempt Workspace Report := w.fresh.act action

/-- The workspace after a list of steps. -/
def run (w : Workspace) (actions : List Action) : Workspace :=
  actions.foldl (fun w action => (w.perform action).subject) w

theorem run_append (w : Workspace) (first rest : List Action) :
    w.run (first ++ rest) = (w.run first).run rest := List.foldl_append

/-- What every step keeps holds after every run. -/
theorem run_induction {holds : Workspace → Prop}
    (step : ∀ w action, holds w → holds (w.perform action).subject) (actions : List Action)
    {w : Workspace} (start : holds w) : holds (w.run actions) := by
  induction actions generalizing w with
  | nil => exact start
  | cons action rest ih => exact ih (step w action start)

end Workspace

end SettingsForge
