import SettingsForge.Proofs.Workspace.Copied
import SettingsForge.Proofs.Workspace.Supplied
import SettingsForge.Proofs.Workspace.TwinSteps

set_option autoImplicit false

/-! # The observable kinds store what the plain one stores

A plain instance and one that announces its changes, of one schema and from one source, store the same
(`Workspace.create_alike`), and they go on to as long as every edit of one is made of the other as well
(`Workspace.Together`): each pair of edits is answered alike (`Workspace.Sound.both_alike`), also those
that fail, and they read alike after it (`Workspace.observable_stores_as_plain`). Nothing is said of an
edit that copies from one of the two. -/

namespace SettingsForge

open Settings

/-! ## Factories -/

/-- An engine that has a factory for an observable kind has one for the plain kind. -/
theorem Engine.Held.plain_factory {known : Schema → Prop} {engine : Engine}
    (identified : Schema.Identified known) (held : engine.Held known) {s : Schema} (hs : known s)
    {kind : Kind} {factory : Factory} (answer : (engine.factory s kind).answer = .ok factory) :
    (engine.factory s .copy).answer = .ok ⟨factory.engine, factory.blueprint, .copy⟩ := by
  obtain ⟨_, holds⟩ := held
  rw [answer_factory identified holds hs] at answer ⊢
  obtain ⟨blueprint, available, rfl⟩ := exists_of_map_eq_ok answer
  obtain ⟨made, -⟩ := Resolution.blueprintFor_eq_ok.1 available
  rw [Resolution.blueprintFor_eq_ok.2 ⟨made, fun observable => by cases observable⟩]
  rfl

namespace Workspace

variable {known : Schema → Prop} {w v : Workspace} {name other plain live : String}

theorem factoryOf_schema_eq_ok {schema engine : String} {kind : Kind} {factory : Engine.Factory} :
    (w.factoryOf (.schema schema kind engine)).answer = .ok factory ↔
      ∃ s e, w.schema schema = .ok s ∧ w.engine engine = .ok e ∧
        (e.factory s kind).answer = .ok factory := by
  unfold factoryOf
  dsimp only
  cases w.schema schema with
  | error e => simp
  | ok s =>
      unfold Workspace.ask
      cases index : w.handle engine with
      | error o =>
          have nowhere : w.engine engine = .error o := by
            unfold Workspace.engine
            rw [index]
            rfl
          simp [nowhere]
      | ok i =>
          cases w.engine engine with
          | error o => simp
          | ok e =>
              dsimp only
              cases answer : (e.factory s kind).answer <;> simp [answer, Except.mapError]

theorem Sound.plain_factoryOf (sound : w.Sound known) {schema engine : String} {kind : Kind}
    {factory : Engine.Factory}
    (available : (w.factoryOf (.schema schema kind engine)).answer = .ok factory) :
    (w.factoryOf (.schema schema .copy engine)).answer =
      .ok ⟨factory.engine, factory.blueprint, .copy⟩ := by
  obtain ⟨s, e, named, there, answer⟩ := factoryOf_schema_eq_ok.1 available
  exact factoryOf_schema_eq_ok.2 ⟨s, e, named, there,
    (sound.engines e (mem_of_engine there)).plain_factory sound.registry.toIdentified
      (sound.schema named) answer⟩

/-- The engine behind a handle has its place as number. -/
theorem Sound.handle_eq_serial (sound : w.Sound known) {engine : String} {e : Engine}
    (there : w.engine engine = .ok e) : w.handle engine = .ok e.serial := by
  cases index_eq : w.handle engine with
  | error o =>
      unfold Workspace.engine at there
      rw [index_eq] at there
      cases there
  | ok index => rw [sound.places index e (sound.engine index_eq there).1]

/-- Engines that have learned give the factories that they gave. -/
theorem Sound.factoryOf_alike (sound : w.Sound known) (sound' : v.Sound known)
    (schemas : v.schemas = w.schemas) (handles : v.handles = w.handles)
    (catalogs : v.catalogs = w.catalogs) {schema engine : String} {kind : Kind}
    {factory : Engine.Factory}
    (available : (w.factoryOf (.schema schema kind engine)).answer = .ok factory) :
    (v.factoryOf (.schema schema kind engine)).answer = .ok factory := by
  obtain ⟨s, e, named, there, answer⟩ := factoryOf_schema_eq_ok.1 available
  have engines := engine_eq handles catalogs engine
  rw [there] at engines
  obtain ⟨e', there', catalog⟩ := exists_of_map_eq_ok engines.symm
  have named' : v.schema schema = .ok s := by
    unfold Workspace.schema
    rw [schemas]
    exact named
  refine factoryOf_schema_eq_ok.2 ⟨s, e', named', there', ?_⟩
  have held := sound.engines e (mem_of_engine there)
  have held' := sound'.engines e' (mem_of_engine there')
  have serials : e'.serial = e.serial := by
    have same := (sound'.handle_eq_serial there').symm.trans (handle_eq handles engine)
    exact Except.ok.inj (same.trans (sound.handle_eq_serial there))
  rw [held'.factory_alike sound.registry.toIdentified held serials catalog (sound.schema named), answer]

/-! ## New instances -/

theorem factoryOf_tables (w : Workspace) (maker : Maker) :
    (w.factoryOf maker).subject.handles = w.handles ∧
      (w.factoryOf maker).subject.schemas = w.schemas := by
  unfold Workspace.factoryOf
  cases maker with
  | factory name => exact ⟨rfl, rfl⟩
  | schema name kind engine =>
      dsimp only
      split
      · exact ⟨rfl, rfl⟩
      · unfold Workspace.ask
        split <;> exact ⟨rfl, rfl⟩

/-- A new instance leaves the others, the handles, the schemas, and the catalogs. -/
theorem Sound.frame_create (sound : w.Sound known) (name : String) (maker : Maker)
    (source : Option Location) :
    (∀ other, other ≠ name →
        (w.create name maker source).subject.instances.lookup other = w.instances.lookup other) ∧
      (w.create name maker source).subject.handles = w.handles ∧
      (w.create name maker source).subject.schemas = w.schemas ∧
      (w.create name maker source).subject.catalogs = w.catalogs := by
  obtain ⟨instances, -⟩ := factoryOf_frame w maker
  obtain ⟨handles, schemas⟩ := factoryOf_tables w maker
  obtain ⟨-, catalogs, -⟩ := sound.factoryOf maker
  rw [← instances, ← handles, ← schemas, ← catalogs]
  unfold Workspace.create
  cases source.mapM w.read with
  | error e =>
      dsimp only
      rw [instances, handles, schemas, catalogs]
      exact ⟨fun _ _ => rfl, rfl, rfl, rfl⟩
  | ok from? =>
      dsimp only
      generalize w.factoryOf maker = attempt
      obtain ⟨answer, w'⟩ := attempt
      cases answer with
      | error e => exact ⟨fun _ _ => rfl, rfl, rfl, rfl⟩
      | ok factory =>
          dsimp only
          split
          · exact ⟨fun _ _ => rfl, rfl, rfl, rfl⟩
          · exact ⟨fun _ differs => Keyed.lookup_insert_of_ne differs _ _, rfl, rfl, rfl⟩

/-- New instances from one source store the same if their factories have one blueprint and are of kinds
    that may be written alike. -/
theorem create_alike {maker maker' : Maker} {factory factory' : Engine.Factory}
    (available : (w.factoryOf maker).answer = .ok factory)
    (available' : (v.factoryOf maker').answer = .ok factory')
    (blueprints : factory.blueprint = factory'.blueprint)
    (kinds : factory.kind.bare = factory'.kind.bare) {source : Option Location}
    (sources : source.mapM v.read = source.mapM w.read) :
    (w.create name maker source).answer.map Report.bare =
        (v.create other maker' source).answer.map Report.bare ∧
      ∀ report, (v.create other maker' source).answer = .ok report →
        Twins name other (w.create name maker source).subject (v.create other maker' source).subject := by
  unfold Workspace.create
  rw [sources]
  cases source.mapM w.read with
  | error e => exact ⟨rfl, nofun⟩
  | ok from? =>
      dsimp only
      generalize w.factoryOf maker = first, v.factoryOf maker' = second at available available'
      obtain ⟨found, w'⟩ := first
      obtain ⟨found', v'⟩ := second
      cases available
      cases available'
      dsimp only
      unfold Engine.Factory.create
      rw [blueprints]
      have created := factory'.blueprint.create_alike kinds factory.engine factory'.engine from?
        w'.context v'.context
      generalize factory'.blueprint.create factory.engine factory.kind from? w'.context = first,
        factory'.blueprint.create factory'.engine factory'.kind from? v'.context = second at created
      obtain ⟨answer, c⟩ := first
      obtain ⟨answer', c'⟩ := second
      obtain ⟨e, rfl, rfl⟩ | ⟨x, y, rfl, rfl, same⟩ := error_or_ok_of_map_eq created
      · exact ⟨rfl, nofun⟩
      · exact ⟨congrArg (fun s => Except.ok (Report.shape s)) (shape_alike same), fun _ _ =>
          ⟨x, y, Keyed.lookup_insert_self .., Keyed.lookup_insert_self .., same⟩⟩

/-! ## Pairs of steps -/

/-- Two steps, one after the other. -/
def both (w : Workspace) (first second : Action) : Attempt Workspace Report × Attempt Workspace Report :=
  (w.perform first, (w.perform first).subject.perform second)

/-- The same edit of one instance and then of another. -/
def editBoth (w : Workspace) (name other : String) (path : Path) (edit : Edit) :
    Attempt Workspace Report × Attempt Workspace Report :=
  w.both (edit.step ⟨name, path⟩) (edit.step ⟨other, path⟩)

/-- Runs that edit two instances only together. -/
inductive Together (name other : String) : Workspace → Workspace → Prop
  | refl (w : Workspace) : Together name other w w
  /-- An edit of both, at one path, that copies from neither. -/
  | edits {w v : Workspace} (before : Together name other w v) (path : Path) (edit : Edit)
      (outside : ∀ l ∈ edit.source?, l.name ≠ name ∧ l.name ≠ other) :
      Together name other w (v.editBoth name other path edit).2.subject
  /-- Any step that leaves both. -/
  | step {w v : Workspace} (before : Together name other w v) (action : Action)
      (leaves : ∀ kept, kept = name ∨ kept = other →
        (v.perform action).subject.instances.lookup kept = v.instances.lookup kept) :
      Together name other w (v.perform action).subject

/-- The same edit of two instances that store the same. -/
theorem Sound.both_alike (sound : w.Sound known) (differ : name ≠ other) (twins : Twins name other w w)
    (path : Path) (edit : Edit) (outside : ∀ l ∈ edit.source?, l.name ≠ name ∧ l.name ≠ other) :
    (w.editBoth name other path edit).1.answer.map Report.bare =
        (w.editBoth name other path edit).2.answer.map Report.bare ∧
      (w.editBoth name other path edit).2.subject.Sound known ∧
      Twins name other (w.editBoth name other path edit).2.subject
        (w.editBoth name other path edit).2.subject := by
  have sound := sound.fresh
  have edited := edit.edited_step ⟨name, path⟩
  have edited' := edit.edited_step ⟨other, path⟩
  obtain ⟨others, handles, catalogs⟩ := sound.frame_act edited
  have middle := (sound.edits edited).1.fresh
  obtain ⟨x, y, found, found', same⟩ := twins
  -- the second instance sees the workspace that the first one saw
  have beside : Beside name other w.fresh (w.perform (edit.step ⟨name, path⟩)).subject.fresh := by
    exact ⟨⟨x, y, found, (others other differ.symm).trans found', same⟩,
      fun l outside _ => read_eq_of_lookup (others l.name outside), handles, catalogs⟩
  obtain ⟨answers, x', y', stored, stored', same⟩ := sound.step_alike beside path middle edit outside
  obtain ⟨others', -⟩ := middle.frame_act edited'
  refine ⟨answers, (middle.edits edited').1, x', y', ?_, stored', same⟩
  exact (others' name differ).trans stored

/-- They store the same as long as they are edited together. -/
theorem Together.twins (together : Together name other w v) (differ : name ≠ other)
    (sound : w.Sound known) (twins : Twins name other w w) :
    (∃ later, v.Sound later) ∧ Twins name other v v := by
  induction together with
  | refl => exact ⟨⟨known, sound⟩, twins⟩
  | edits _ path edit outside ih =>
      obtain ⟨⟨later, sound⟩, twins⟩ := ih
      obtain ⟨-, sound, twins⟩ := sound.both_alike differ twins path edit outside
      exact ⟨⟨later, sound⟩, twins⟩
  | step _ action leaves ih =>
      obtain ⟨⟨later, sound⟩, x, y, found, found', same⟩ := ih
      obtain ⟨last, -, sound⟩ := sound.perform action
      exact ⟨⟨last, sound⟩, x, y, (leaves name (.inl rfl)).trans found,
        (leaves other (.inr rfl)).trans found', same⟩

/-- They read alike, at every path. -/
theorem Twins.read_eq (twins : Twins name other w v) (path : Path) :
    (w.read ⟨name, path⟩).map (fun x => x.snapshot.unsigned) =
      (v.read ⟨other, path⟩).map fun x => x.snapshot.unsigned := by
  obtain ⟨x, y, found, found', same⟩ := twins
  unfold Workspace.read
  rw [find_eq_ok.2 found, find_eq_ok.2 found']
  simp only [bind, Except.bind]
  obtain ⟨e, first, second⟩ | ⟨_, _, first, second, inside⟩ :=
    error_or_ok_of_map_eq (follow_alike path same)
  · rw [first, second]
  · rw [first, second]
    exact congrArg Except.ok (snapshot_alike inside)

/-- Take an observable kind that an engine can generate for a schema. It can then generate the plain
    kind as well. Make an instance of each in turn, both with the defaults or both from one source: either
    both are made, or neither is and the error is the same. From then on let any run edit the two only
    together, each edit first of the plain one and then, at the same path and with the same arguments, of
    the other, with any other steps between the pairs. At each point of the run both hold instances with
    snapshots that are equal but for the signs of zeros at the same paths, whether edits have failed
    before or not, and the next pair of edits has the same answer: the same error, or reports that are
    equal but for the kinds that they name. -/
theorem observable_stores_as_plain (reachable : w.Reachable) (differ : plain ≠ live)
    {schema engine : String} {kind : Kind} (observable : kind.isObservable = true)
    {factory : Engine.Factory}
    (available : (w.factoryOf (.schema schema kind engine)).answer = .ok factory)
    {source : Option Location} (outside : ∀ l ∈ source, l.name ≠ plain) :
    let made := w.both (.create plain (.schema schema .copy engine) source)
      (.create live (.schema schema kind engine) source)
    made.1.answer.map Report.bare = made.2.answer.map Report.bare ∧
      ∀ report, made.2.answer = .ok report → ∀ v, Together plain live made.2.subject v →
        (∀ path, (v.read ⟨plain, path⟩).map (fun x => x.snapshot.unsigned) =
          (v.read ⟨live, path⟩).map fun x => x.snapshot.unsigned) ∧
        ∀ path edit, (∀ l ∈ Edit.source? edit, l.name ≠ plain ∧ l.name ≠ live) →
          (v.editBoth plain live path edit).1.answer.map Report.bare =
            (v.editBoth plain live path edit).2.answer.map Report.bare := by
  intro made
  obtain ⟨known, sound⟩ := reachable.sound
  have sound := sound.fresh
  have available : (w.fresh.factoryOf (.schema schema kind engine)).answer = .ok factory :=
    (answer_factoryOf_fresh w _).trans available
  have plain_available := sound.plain_factoryOf available
  have middle := (sound.create plain (.schema schema .copy engine) source).fresh
  obtain ⟨others, handles, schemas, catalogs⟩ :=
    sound.frame_create plain (.schema schema .copy engine) source
  have live_available := sound.factoryOf_alike middle schemas handles catalogs available
  have sources : source.mapM made.1.subject.fresh.read = source.mapM w.fresh.read := by
    cases source with
    | none => rfl
    | some l =>
        have kept : made.1.subject.fresh.read l = w.fresh.read l :=
          read_eq_of_lookup (others l.name (outside l rfl))
        rw [Option.mapM_some, Option.mapM_some, kept]
  have kinds : Kind.copy.bare = factory.kind.bare := by
    obtain ⟨_, _, -, -, answer⟩ := factoryOf_schema_eq_ok.1 available
    rw [Engine.kind_of_factory answer, Kind.bare, Kind.bare, if_pos observable]
    rfl
  obtain ⟨answers, twins⟩ := @create_alike _ _ plain live _ _ _ _ plain_available live_available rfl kinds
    source sources
  refine ⟨answers, fun report created v together => ?_⟩
  -- the second instance comes without changing the first one
  have twins : Twins plain live made.2.subject made.2.subject := by
    obtain ⟨x, y, found, found', same⟩ := twins report created
    obtain ⟨others, -⟩ := middle.frame_create live (.schema schema kind engine) source
    exact ⟨x, y, (others plain differ).trans found, found', same⟩
  obtain ⟨⟨later, sound⟩, twins⟩ := together.twins differ
    (middle.create live (.schema schema kind engine) source) twins
  exact ⟨twins.read_eq, fun path edit outside => (sound.both_alike differ twins path edit outside).1⟩

/-! ### Zooms of panes -/

/-- A workspace in which windows with panes can be made. -/
def windows : Workspace :=
  (start "engine" .empty).run [
    .build "pane" "Pane" none [⟨"zoom", .value .float, []⟩],
    .build "window" "Window" none [⟨"panes", .dict "pane", []⟩]]

/-- A plain window and one that announces its changes. -/
def pairedWindows : Workspace :=
  (windows.both (.create "plain" (.schema "window" .copy "engine") none)
    (.create "live" (.schema "window" .inpc "engine") none)).2.subject

/-- Both have a pane, of which the zoom is set to a negative zero. -/
def zoomedPanes : Workspace :=
  ((pairedWindows.editBoth "plain" "live" [] (.addEntry "panes" "a")).2.subject.editBoth "plain" "live"
    [("panes", "a")] (.set "zoom" (.float (.signed true 0)))).2.subject

/-- The plain window has taken the sign, and the other one has not; they are still edited alike. -/
theorem keeps_the_sign_of_a_zoom :
    windows.Reachable ∧ Together "plain" "live" pairedWindows zoomedPanes ∧
      (zoomedPanes.read ⟨"plain", [("panes", "a")]⟩).map Settings.snapshot =
        .ok (.object "Pane" [("zoom", .float (.signed true 0))]) ∧
      (zoomedPanes.read ⟨"live", [("panes", "a")]⟩).map Settings.snapshot =
        .ok (.object "Pane" [("zoom", .float .zero)]) ∧
      (zoomedPanes.read ⟨"plain", []⟩).map (fun x => x.snapshot.unsigned) =
        (zoomedPanes.read ⟨"live", []⟩).map (fun x => x.snapshot.unsigned) ∧
      (zoomedPanes.editBoth "plain" "live" [] (.addEntry "panes" "a")).2.answer =
        .error (.failed (.duplicateKey "panes" "a")) := by
  have reachable : windows.Reachable := ⟨"engine", .empty, _, rfl⟩
  have together : Together "plain" "live" pairedWindows zoomedPanes :=
    .edits (.edits (.refl pairedWindows) [] (.addEntry "panes" "a") nofun) [("panes", "a")]
      (.set "zoom" (.float (.signed true 0))) nofun
  obtain ⟨-, alike⟩ := @observable_stores_as_plain windows "plain" "live" reachable (by decide) "window"
    "engine" .inpc rfl _ rfl none nofun
  obtain ⟨reads, edits⟩ := alike _ rfl zoomedPanes together
  have answers := edits [] (.addEntry "panes" "a") nofun
  obtain ⟨o, refused, same⟩ | ⟨_, _, answered, -⟩ := error_or_ok_of_map_eq answers
  · refine ⟨reachable, together, rfl, rfl, reads [], same.trans ?_⟩
    rw [← refused]
    rfl
  · cases answered

end Workspace

end SettingsForge
