import SettingsForge.Proofs.Engine.Positions
import SettingsForge.Proofs.Settings.BareCopies
import SettingsForge.Proofs.Workspace.Steps

set_option autoImplicit false

/-! # Edits of instances that store the same

The same edit of two instances that store the same, at the same path, is answered alike and leaves them
storing the same, in one workspace or in two (`Workspace.Sound.step_alike`): two workspaces serve for this
if they agree on what the edit copies from, and on the catalogs behind their handles
(`Workspace.Beside`). -/

namespace SettingsForge

open Settings

/-! ## Resets -/

namespace Engine

variable {known : Schema → Prop} {engine other : Engine}

/-- One engine gives the same factories whatever it was asked before. -/
theorem Held.factory_alike (identified : Schema.Identified known) (first : engine.Held known)
    (second : other.Held known) (serials : engine.serial = other.serial)
    (catalogs : engine.catalog = other.catalog) {s : Schema} (hs : known s) (kind : Kind) :
    (engine.factory s kind).answer = (other.factory s kind).answer := by
  obtain ⟨_, holds⟩ := first
  obtain ⟨_, holds'⟩ := second
  rw [answer_factory identified holds hs, answer_factory identified holds' hs, serials, catalogs]

/-- One engine resets instances that store the same to the same. -/
theorem Held.reset_alike (identified : Schema.Identified known) (first : engine.Held known)
    (second : other.Held known) (serials : engine.serial = other.serial)
    (catalogs : engine.catalog = other.catalog) {x y : Settings} (hs : known x.schema)
    (same : x.bare = y.bare) (c c' : Context) :
    (engine.reset x c).1.Alike bare id (other.reset y c').1 := by
  have factories := first.factory_alike identified second serials catalogs hs .read
  have schemas := (bare_eq_bare_iff.1 same).1
  unfold Engine.reset Engine.create
  rw [← schemas]
  dsimp only
  rw [factories]
  cases answer : (other.factory x.schema .read).answer with
  | error e => exact .of_error same
  | ok factory =>
      obtain ⟨serial, blueprint, kind⟩ := factory
      cases kind_of_factory answer
      -- the defaults are of the reading kind, which does not reach the hub
      obtain ⟨answers, subjects⟩ := copy_alike _ _ (some _) same
      exact ⟨answers, subjects⟩

end Engine

/-! ## Edits -/

/-- An edit of an instance. -/
inductive Edit where
  | set (property : String) (value : Value)
  | editList (property : String) (edit : ListEdit)
  | addEntry (property key : String)
  | deleteEntry (property key : String)
  | assignDict (property : String) (source : Location) (sourceProperty : String)
  | copy (source : Option Location)
  | copyUntyped (source : Source)
  | reset (engine : String)

namespace Edit

/-- The edit at a place, as a step. -/
def step (place : Location) : Edit → Action
  | .set property value => .set place property value
  | .editList property edit => .editList place property edit
  | .addEntry property key => .addEntry place property key
  | .deleteEntry property key => .deleteEntry place property key
  | .assignDict property source sourceProperty => .assignDict place property source sourceProperty
  | .copy source => .copy place source
  | .copyUntyped source => .copyUntyped place source
  | .reset engine => .reset place engine

/-- What the edit copies from. -/
def source? : Edit → Option Location
  | .assignDict _ source _ => some source
  | .copy source => source
  | .copyUntyped (.location source) => some source
  | .copyUntyped (.root source) => some source
  | _ => none

theorem edited_step (edit : Edit) (place : Location) : (edit.step place).edited = some place := by
  cases edit <;> rfl

end Edit

/-! ## Reports -/

def Shape.bare (shape : Shape) : Shape := { shape with kind := shape.kind.bare }

/-- A report, but for whether changes of an instance in it are announced. -/
def Report.bare : Report → Report
  | .shape s => .shape s.bare
  | report => report

theorem Settings.shape_alike {x y : Settings} (same : x.bare = y.bare) :
    x.shape.bare = y.shape.bare := by
  obtain ⟨schemas, kinds, -⟩ := bare_eq_bare_iff.1 same
  simp only [shape, Shape.of, Shape.bare, schemas, kinds]

theorem Settings.length_alike {x y : Settings} (property : String) (same : x.bare = y.bare) :
    (x.list property).toOption.map (fun l => l.2.length) =
      (y.list property).toOption.map fun l => l.2.length := by
  obtain ⟨e, first, second⟩ | ⟨l, l', first, second, lists⟩ :=
    error_or_ok_of_map_eq (list_alike property same)
  · rw [first, second]
  · rw [first, second]
    exact congrArg (fun l => some l.2.length) lists

/-- The keys that a report on a dictionary lists. -/
theorem Settings.keys_alike {x y : Settings} (property : String) (same : x.bare = y.bare) :
    ((x.dict property).toOption.map fun l => Entries.keys l.2).getD [] =
      ((y.dict property).toOption.map fun l => Entries.keys l.2).getD [] := by
  obtain ⟨e, first, second⟩ | ⟨_, _, first, second, dicts⟩ :=
    error_or_ok_of_map_eq (dict_alike property same)
  · rw [first, second]
  · rw [first, second]
    exact Entries.keys_alike (Prod.mk.inj dicts).2

namespace Workspace

variable {known : Schema → Prop} {w v : Workspace} {name other : String} {path : Path}

/-! ## Pairs of edits -/

/-- Two edits do alike what they do to instances that store the same, of a known schema. -/
def EditsAlike (known : Schema → Prop) {α β : Type} (answer : α → β)
    (f g : Settings → Context → Except Obstacle α × Settings × Context) : Prop :=
  ∀ x y c c', known x.schema → x.bare = y.bare →
    (f x c).1.map answer = (g y c').1.map answer ∧ (f x c).2.1.bare = (g y c').2.1.bare

/-- Two named instances store the same, each in a workspace. -/
def Twins (name other : String) (w v : Workspace) : Prop :=
  ∃ x y, w.instances.lookup name = some x ∧ v.instances.lookup other = some y ∧ x.bare = y.bare

/-- Alike edits of instances that store the same, or of entries at one path in them. -/
theorem Sound.edit_alike (sound : w.Sound known) (twins : Twins name other w v) {α β : Type}
    {answer : α → β} {f g : Settings → Context → Except Obstacle α × Settings × Context}
    (alike : EditsAlike known answer f g) (path : Path) :
    (w.edit ⟨name, path⟩ f).answer.map answer = (v.edit ⟨other, path⟩ g).answer.map answer ∧
      Twins name other (w.edit ⟨name, path⟩ f).subject (v.edit ⟨other, path⟩ g).subject := by
  obtain ⟨x, y, found, found', same⟩ := twins
  have followed := followForEdit_alike path same w.context v.context
  have leads := (followForEdit_spec path x w.context).2
  unfold Workspace.edit
  rw [find_eq_ok.2 found, find_eq_ok.2 found']
  dsimp only
  generalize followForEdit path x w.context = first, followForEdit path y v.context = second
    at followed leads
  obtain ⟨found_x, c⟩ := first
  obtain ⟨found_y, c'⟩ := second
  obtain ⟨fault, rfl, rfl⟩ | ⟨z, z', rfl, rfl, inside⟩ := error_or_ok_of_map_eq followed
  · exact ⟨rfl, x, y, found, found', same⟩
  · have conforms : x.Conforms known w.catalogs := sound.conforms _ (Keyed.mem_of_lookup found)
    have part := mem_parts_of_follow sound.registry conforms (leads z rfl)
    obtain ⟨answers, subjects⟩ := alike z z' c c' (conforms z part).known inside
    exact ⟨answers, _, _, Keyed.lookup_insert_self .., Keyed.lookup_insert_self ..,
      replaceAt_alike path same subjects⟩

theorem ofDone_alike {α β : Type} {answer : α → β} {d e : Done Settings α}
    (h : d.Alike Settings.bare answer e) :
    (ofDone d).1.map answer = (ofDone e).1.map answer ∧ (ofDone d).2.1.bare = (ofDone e).2.1.bare := by
  obtain ⟨answers, subjects⟩ := h
  refine ⟨?_, subjects⟩
  unfold ofDone
  obtain ⟨_, first, second⟩ | ⟨_, _, first, second, same⟩ := error_or_ok_of_map_eq answers
  · rw [first, second]
  · rw [first, second]
    exact congrArg Except.ok same

/-- Two workspaces as far as an edit of one of the instances sees them: what they store is the same, and
    so is what other instances are and what catalogs the handles lead to. -/
structure Beside (name other : String) (w v : Workspace) : Prop where
  twins : Twins name other w v
  reads : ∀ l : Location, l.name ≠ name → l.name ≠ other → v.read l = w.read l
  handles : v.handles = w.handles
  catalogs : v.catalogs = w.catalogs

end Workspace

/-- Two attempts are answered alike, and the two instances store the same after them. -/
structure Attempt.Alike (name other : String) (a b : Attempt Workspace Report) : Prop where
  answers : a.answer.map Report.bare = b.answer.map Report.bare
  twins : Workspace.Twins name other a.subject b.subject

namespace Workspace

variable {known : Schema → Prop} {w v : Workspace} {name other : String}

theorem Sound.editReport_alike (sound : w.Sound known) (twins : Twins name other w v) {α β : Type}
    (answer : α → β) {f g : Settings → Context → Done Settings α} {report : α → Report}
    (alike : ∀ x y c c', x.bare = y.bare → (f x c).Alike Settings.bare answer (g y c'))
    (reports : ∀ a b, answer a = answer b → (report a).bare = (report b).bare) (path : Path) :
    Attempt.Alike name other (w.editReport ⟨name, path⟩ report f)
      (v.editReport ⟨other, path⟩ report g) := by
  obtain ⟨answers, twins⟩ := sound.edit_alike twins
    (fun x y c c' _ same => ofDone_alike (alike x y c c' same)) path
  refine ⟨?_, twins⟩
  unfold editReport
  dsimp only
  obtain ⟨_, first, second⟩ | ⟨_, _, first, second, same⟩ := error_or_ok_of_map_eq answers
  · rw [first, second]
  · rw [first, second]
    exact congrArg Except.ok (reports _ _ same)

theorem read_eq_of_lookup {l : Location}
    (same : v.instances.lookup l.name = w.instances.lookup l.name) : v.read l = w.read l := by
  unfold Workspace.read find
  rw [same]

/-- The catalog behind a handle. -/
theorem map_catalog_engine (w : Workspace) (engine : String) :
    (w.engine engine).map Engine.catalog =
      (w.handle engine).bind fun index =>
        match w.catalogs[index]? with
        | some catalog => .ok catalog
        | none => .error (.missing .engine) := by
  unfold Workspace.engine catalogs
  cases w.handle engine with
  | error e => rfl
  | ok index =>
      simp only [bind, Except.bind, List.getElem?_map]
      cases w.engines[index]? <;> rfl

theorem handle_eq (handles : v.handles = w.handles) (engine : String) :
    v.handle engine = w.handle engine := by
  unfold Workspace.handle
  rw [handles]

/-- The engines behind a handle have one catalog. -/
theorem engine_eq (handles : v.handles = w.handles) (catalogs : v.catalogs = w.catalogs)
    (engine : String) : (w.engine engine).map Engine.catalog = (v.engine engine).map Engine.catalog := by
  rw [map_catalog_engine, map_catalog_engine, handle_eq handles, catalogs]

/-- Edits that say only whether they failed. -/
theorem Sound.edit_silently_alike (sound : w.Sound known) (twins : Twins name other w v)
    {f g : Settings → Context → Except Obstacle Unit × Settings × Context}
    (alike : EditsAlike known id f g) (path : Path) :
    Attempt.Alike name other
      ⟨(w.edit ⟨name, path⟩ f).answer.map fun _ => .nothing, (w.edit ⟨name, path⟩ f).subject⟩
      ⟨(v.edit ⟨other, path⟩ g).answer.map fun _ => .nothing, (v.edit ⟨other, path⟩ g).subject⟩ := by
  obtain ⟨answers, twins⟩ := sound.edit_alike twins alike path
  rw [Except.map_id, id, id] at answers
  exact ⟨by rw [answers], twins⟩

namespace Beside

/-- Another instance is the same source for both. -/
theorem source_eq (beside : Beside name other w v) (l : Location) (outside : l.name ≠ name)
    (outside' : l.name ≠ other) (path : Path) :
    v.source ⟨other, path⟩ l = w.source ⟨name, path⟩ l := by
  unfold Workspace.source
  dsimp only
  rw [beq_false_of_ne outside, beq_false_of_ne outside']
  exact beside.reads l outside outside'

end Beside

/-- What bringing a dictionary to one of another instance does. -/
def assigning (w : Workspace) (place : Location) (property : String) (source : Location)
    (sourceProperty : String) (x : Settings) (c : Context) : Except Obstacle Report × Settings × Context :=
  match x.dictForEdit property c with
  | ⟨.error e, _, after⟩ => (.error (.failed e), x, after)
  | ⟨.ok _, _, after⟩ =>
    let found : Except Obstacle (DictRef × List Entry) := do
      let s ← w.source place source
      (s.dict sourceProperty).mapError .failed
    match found with
    | .error e => (.error e, x, after)
    | .ok dict =>
      let d := x.editDict property
        (fun target entries c => Settings.assignDict target entries dict c) after
      ofDone ⟨d.answer.map fun _ =>
        Report.names (((d.subject.dict property).toOption.map fun l => Entries.keys l.2).getD []),
        d.subject, d.context⟩

namespace Sound

variable (sound : w.Sound known) (beside : Beside name other w v) (path : Path)
include sound beside

theorem editList_alike (property : String) (edit : ListEdit) :
    Attempt.Alike name other (w.editList ⟨name, path⟩ property edit)
      (v.editList ⟨other, path⟩ property edit) := by
  refine sound.editReport_alike beside.twins id (fun x y c c' same => ?_) (fun _ _ => congrArg _) path
  have edits := Settings.editList_alike property c c' same edit
  refine ⟨?_, edits.subjects⟩
  dsimp only
  rw [edits.answer_eq, length_alike property edits.subjects]

theorem copy_alike {source : Option Location}
    (outside : ∀ l ∈ source, l.name ≠ name ∧ l.name ≠ other) :
    Attempt.Alike name other (w.copy ⟨name, path⟩ source) (v.copy ⟨other, path⟩ source) := by
  have sources : source.mapM (v.source ⟨other, path⟩) = source.mapM (w.source ⟨name, path⟩) := by
    cases source with
    | none => rfl
    | some l =>
        obtain ⟨first, second⟩ := outside l rfl
        rw [Option.mapM_some, Option.mapM_some, beside.source_eq l first second]
  have alike : EditsAlike known id (copying w ⟨name, path⟩ source) (copying v ⟨other, path⟩ source) := by
    intro x y c c' _ same
    unfold copying
    rw [sources]
    cases source.mapM (w.source ⟨name, path⟩) with
    | error e => exact ⟨rfl, same⟩
    | ok from? => exact ofDone_alike (Settings.copy_alike c c' from? same)
  exact sound.edit_silently_alike beside.twins alike path

theorem copyUntyped_alike {source : Source}
    (outside : ∀ l ∈ (Edit.copyUntyped source).source?, l.name ≠ name ∧ l.name ≠ other) :
    Attempt.Alike name other (w.copyUntyped ⟨name, path⟩ source)
      (v.copyUntyped ⟨other, path⟩ source) := by
  have sources : candidate v ⟨other, path⟩ source = candidate w ⟨name, path⟩ source := by
    cases source with
    | location l =>
        obtain ⟨first, second⟩ := outside l rfl
        dsimp only [candidate]
        rw [beside.source_eq l first second]
    | root l =>
        obtain ⟨first, second⟩ := outside l rfl
        have root : v.source ⟨other, path⟩ ⟨l.name, []⟩ = w.source ⟨name, path⟩ ⟨l.name, []⟩ :=
          beside.source_eq ⟨l.name, []⟩ first second path
        dsimp only [candidate]
        rw [beside.source_eq l first second, root]
    | _ => rfl
  have alike : EditsAlike known id (copyingUntyped w ⟨name, path⟩ source)
      (copyingUntyped v ⟨other, path⟩ source) := by
    intro x y c c' _ same
    unfold copyingUntyped
    rw [sources]
    cases candidate w ⟨name, path⟩ source with
    | error e => exact ⟨rfl, same⟩
    | ok from? => exact ofDone_alike (Settings.copyUntyped_alike c c' from? same)
  exact sound.edit_silently_alike beside.twins alike path

theorem assignDict_alike (property : String) {source : Location} (sourceProperty : String)
    (outside : source.name ≠ name) (outside' : source.name ≠ other) :
    Attempt.Alike name other (w.assignDict ⟨name, path⟩ property source sourceProperty)
      (v.assignDict ⟨other, path⟩ property source sourceProperty) := by
  have sources := beside.source_eq source outside outside' path
  have alike : EditsAlike known Report.bare (assigning w ⟨name, path⟩ property source sourceProperty)
      (assigning v ⟨other, path⟩ property source sourceProperty) := by
    intro x y c c' _ same
    have opened := (dictForEdit_alike property c c' same).answers
    unfold assigning
    rw [sources]
    generalize x.dictForEdit property c = first, y.dictForEdit property c' = second at opened
    obtain ⟨found_x, _, after⟩ := first
    obtain ⟨found_y, _, after'⟩ := second
    obtain ⟨e, rfl, rfl⟩ | ⟨_, _, rfl, rfl, -⟩ := error_or_ok_of_map_eq opened
    · exact ⟨rfl, same⟩
    dsimp only
    cases (do
      let s ← w.source ⟨name, path⟩ source
      (s.dict sourceProperty).mapError .failed : Except Obstacle (DictRef × List Entry)) with
    | error e => exact ⟨rfl, same⟩
    | ok dict =>
        have edits := editDict_alike property after after' same fun _ _ _ _ c c' dicts entries =>
          Settings.assignDict_alike c c' dicts entries dict
        refine ofDone_alike ⟨?_, edits.subjects⟩
        dsimp only
        rw [edits.answer_eq, keys_alike property edits.subjects]
  obtain ⟨answers, twins⟩ := sound.edit_alike beside.twins alike path
  exact ⟨answers, twins⟩

theorem reset_alike (engine : String) (sound' : v.Sound known) :
    Attempt.Alike name other (w.reset ⟨name, path⟩ engine) (v.reset ⟨other, path⟩ engine) := by
  have handles := handle_eq beside.handles engine
  have alike : EditsAlike known (fun learned => learned.2.2) (resetting w engine) (resetting v engine) := by
    intro x y c c' hx same
    unfold resetting
    rw [handles]
    cases index_eq : w.handle engine with
    | error e => exact ⟨rfl, same⟩
    | ok index =>
        obtain ⟨e, first, second⟩ | ⟨learned, learned', first, second, catalogs⟩ :=
          error_or_ok_of_map_eq (engine_eq beside.handles beside.catalogs engine)
        · rw [first, second]
          exact ⟨rfl, same⟩
        · rw [first, second]
          obtain ⟨there, held, -⟩ := sound.engine index_eq first
          obtain ⟨there', held', -⟩ := sound'.engine (handles.trans index_eq) second
          have serials := (sound.places _ _ there).trans (sound'.places _ _ there').symm
          have resets :=
            held.reset_alike sound.registry.toIdentified held' serials catalogs hx same c c'
          exact ⟨congrArg Except.ok resets.answer_eq, resets.subjects⟩
  obtain ⟨answers, twins⟩ := sound.edit_alike beside.twins alike path
  show Attempt.Alike name other (afterReset (w.edit ⟨name, path⟩ (resetting w engine)))
    (afterReset (v.edit ⟨other, path⟩ (resetting v engine)))
  generalize w.edit ⟨name, path⟩ (resetting w engine) = first,
    v.edit ⟨other, path⟩ (resetting v engine) = second at answers twins
  obtain ⟨answer, after⟩ := first
  obtain ⟨answer', after'⟩ := second
  obtain ⟨e, rfl, rfl⟩ | ⟨⟨index, e, a⟩, ⟨index', e', a'⟩, rfl, rfl, same⟩ := error_or_ok_of_map_eq answers
  · exact ⟨rfl, twins⟩
  · cases same
    exact ⟨rfl, twins⟩

/-- An edit that copies from neither instance does the same to both. -/
theorem step_alike (sound' : v.Sound known) (edit : Edit)
    (outside : ∀ l ∈ edit.source?, l.name ≠ name ∧ l.name ≠ other) :
    Attempt.Alike name other (w.act (edit.step ⟨name, path⟩)) (v.act (edit.step ⟨other, path⟩)) := by
  cases edit with
  | set property value =>
      exact sound.editReport_alike beside.twins id
        (fun _ _ c c' same => set_alike property c c' same value) (fun _ _ _ => rfl) path
  | editList property edit => exact sound.editList_alike beside path property edit
  | addEntry property key =>
      refine sound.editReport_alike beside.twins EntryOf.bare
        (fun _ _ c c' same => addEntry_alike property key c c' same) (fun a b same => ?_) path
      exact congrArg Report.shape (shape_alike (congrArg EntryOf.settings same))
  | deleteEntry property key =>
      exact sound.editReport_alike beside.twins id
        (fun _ _ c c' same => deleteEntry_alike property key c c' same)
        (fun _ _ same => congrArg (fun b => (Report.flag b).bare) same) path
  | assignDict property source sourceProperty =>
      obtain ⟨first, second⟩ := outside source rfl
      exact sound.assignDict_alike beside path property sourceProperty first second
  | copy source => exact sound.copy_alike beside path outside
  | copyUntyped source => exact sound.copyUntyped_alike beside path outside
  | reset engine => exact sound.reset_alike beside path engine sound'

end Sound

/-! ## What edits leave -/

theorem frame_edit {α : Type} (w : Workspace) (place : Location)
    (f : Settings → Context → Except Obstacle α × Settings × Context) :
    (∀ name, name ≠ place.name →
        (w.edit place f).subject.instances.lookup name = w.instances.lookup name) ∧
      (w.edit place f).subject.handles = w.handles ∧ (w.edit place f).subject.engines = w.engines := by
  have cases := edit_cases w place f
  generalize w.edit place f = attempt at cases
  cases cases with
  | nowhere => exact ⟨fun _ _ => rfl, rfl, rfl⟩
  | there => exact ⟨fun _ differs => Keyed.lookup_insert_of_ne differs _ _, rfl, rfl⟩

/-- An edit of one instance leaves the others, the handles and the catalogs behind them. -/
theorem Sound.frame_act (sound : w.Sound known) {action : Action} {place : Location}
    (edits : action.edited = some place) :
    (∀ name, name ≠ place.name →
        (w.act action).subject.instances.lookup name = w.instances.lookup name) ∧
      (w.act action).subject.handles = w.handles ∧ (w.act action).subject.catalogs = w.catalogs := by
  by_cases plain : ∀ engine, action ≠ .reset place engine
  · obtain ⟨α, f, -, same⟩ := sound.exists_edit edits plain
    obtain ⟨others, handles, engines⟩ := w.frame_edit place f
    rw [same]
    exact ⟨others, handles, congrArg (List.map Engine.catalog) engines⟩
  · push Not at plain
    obtain ⟨engine, rfl⟩ := plain
    obtain ⟨others, handles, engines⟩ := w.frame_edit place (resetting w engine)
    obtain ⟨after, -, answers⟩ := sound.edit place (sound.operates_resetting engine)
    show (∀ name, _ → (afterReset (w.edit place (resetting w engine))).subject.instances.lookup name = _) ∧
      (afterReset (w.edit place (resetting w engine))).subject.handles = _ ∧
      (afterReset (w.edit place (resetting w engine))).subject.catalogs = _
    generalize w.edit place (resetting w engine) = attempt at others handles engines after answers
    obtain ⟨answer, w'⟩ := attempt
    cases answer with
    | error e => exact ⟨others, handles, congrArg (List.map Engine.catalog) engines⟩
    | ok learned =>
        obtain ⟨index, e, answer⟩ := learned
        obtain ⟨x, c, conforms, learns⟩ := answers _ rfl
        obtain ⟨old, there, held, same⟩ := sound.held_of_resetting conforms learns
        have engines : w'.engines = w.engines := engines
        rw [← engines] at there
        obtain ⟨-, catalogs⟩ := Sound.setEngine after there held same
        exact ⟨others, handles, catalogs.trans (congrArg (List.map Engine.catalog) engines)⟩

end Workspace

end SettingsForge
