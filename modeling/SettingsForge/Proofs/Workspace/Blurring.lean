import SettingsForge.Proofs.Engine.Blurring
import SettingsForge.Proofs.Workspace.Steps

set_option autoImplicit false

/-! # Workspaces without the difference between the observable kinds

`Workspace.blur` takes the two observable kinds for one in all instances and factories of a workspace,
and in its journal; shapes of types that a client keeps stay as they are. Looking up, asking an engine,
reading and editing an instance do in a blurred workspace what they do in the workspace itself, up to
blurring, if what is asked or done does. -/

namespace SettingsForge

open Settings

namespace Keyed

variable {β γ : Type} (f : β → γ)

/-- The values of a table under a map. -/
def mapValues (table : List (String × β)) : List (String × γ) :=
  table.map fun entry => (entry.1, f entry.2)

theorem lookup_mapValues (table : List (String × β)) (key : String) :
    (mapValues f table).lookup key = (table.lookup key).map f := by
  unfold mapValues
  induction table with
  | nil => rfl
  | cons entry table ih =>
      rw [List.map_cons, List.lookup_cons, List.lookup_cons, ih]
      split <;> rfl

theorem mapValues_insert (table : List (String × β)) (key : String) (value : β) :
    mapValues f (insert key value table) = insert key (f value) (mapValues f table) := by
  unfold mapValues
  induction table with
  | nil => rfl
  | cons entry table ih =>
      rw [insert, List.map_cons, insert]
      split
      · rfl
      · split
        · rfl
        · rw [List.map_cons, ih]

theorem mapValues_erase (table : List (String × β)) (key : String) :
    mapValues f (erase key table) = erase key (mapValues f table) := by
  unfold mapValues erase
  rw [List.filter_map]
  rfl

end Keyed

def Shape.blur (shape : Shape) : Shape := { shape with kind := shape.kind.blur }

/-- A report with the kinds of instances blurred. -/
def Report.blur : Report → Report
  | .shape s => .shape s.blur
  | .dict property schema kind entries =>
    .dict property schema kind.blur (Keyed.mapValues Shape.blur entries)
  | report => report

def Maker.blur : Maker → Maker
  | .schema name kind engine => .schema name kind.blur engine
  | maker => maker

/-- A step with the kinds of the instances that it makes blurred. -/
def Action.blur : Action → Action
  | .newFactory schema kind engine name => .newFactory schema kind.blur engine name
  | .create name maker source => .create name maker.blur source
  | action => action

@[simp] theorem Settings.shape_blur (x : Settings) : x.blur.shape = x.shape.blur := by
  simp [Settings.shape, Shape.of, Shape.blur]

theorem Report.ofDict_blur (dict : DictRef × List Entry) :
    Report.ofDict (dict.1.blur, dict.2.map EntryOf.blur) = (Report.ofDict dict).blur := by
  simp [Report.ofDict, Report.blur, DictRef.blur, Keyed.mapValues, Function.comp_def]

namespace Workspace

/-- A workspace with the kinds of instances and factories blurred. -/
def blur (w : Workspace) : Workspace :=
  { w with
    instances := Keyed.mapValues Settings.blur w.instances
    factories := Keyed.mapValues Engine.Factory.blur w.factories
    context := w.context.blur }

end Workspace

/-- An answer and the workspace after it, both with blurred kinds. -/
def Attempt.blur {α : Type} (answer : α → α) (a : Attempt Workspace α) : Attempt Workspace α :=
  ⟨a.answer.map answer, a.subject.blur⟩

namespace Workspace

variable (w : Workspace)

/-! ## Look-ups -/

theorem fresh_blur : w.blur.fresh = w.fresh.blur := rfl

theorem context_blur : w.blur.context = w.context.blur := rfl

theorem instances_blur : w.blur.instances = Keyed.mapValues Settings.blur w.instances := rfl

theorem factories_blur : w.blur.factories = Keyed.mapValues Engine.Factory.blur w.factories := rfl

theorem schema_blur : w.blur.schema = w.schema := rfl

theorem engine_blur : w.blur.engine = w.engine := rfl

theorem handle_blur : w.blur.handle = w.handle := rfl

theorem find_mapValues {β γ : Type} (f : β → γ) (table : List (String × β)) (name : String)
    (what : Missing) :
    find (Keyed.mapValues f table) name what = (find table name what).map f := by
  unfold find
  rw [Keyed.lookup_mapValues]
  cases table.lookup name <;> rfl

theorem read_blur (place : Location) : w.blur.read place = (w.read place).map Settings.blur := by
  unfold Workspace.read
  rw [instances_blur, find_mapValues]
  cases find w.instances place.name .settings with
  | error e => rfl
  | ok root =>
      show (follow place.path root.blur).mapError PathFault.obstacle =
        ((follow place.path root).mapError PathFault.obstacle).map Settings.blur
      rw [follow_blur]
      cases follow place.path root <;> rfl

theorem source_blur (target source : Location) :
    w.blur.source target source = (w.source target source).map Settings.blur := by
  unfold Workspace.source
  split
  · rfl
  · exact w.read_blur source

theorem mapM_blur {read read' : Location → Except Obstacle Settings}
    (same : ∀ l, read' l = (read l).map Settings.blur) (source : Option Location) :
    source.mapM read' = (source.mapM read).map (Option.map Settings.blur) := by
  cases source with
  | none => rfl
  | some l =>
      show (do return some (← read' l) : Except Obstacle (Option Settings)) =
        (do return some (← read l) : Except Obstacle (Option Settings)).map _
      rw [same]
      cases read l <;> rfl

/-! ## Changes -/

theorem putInstance_blur (name : String) (x : Settings) :
    w.blur.putInstance name x.blur = (w.putInstance name x).blur := by
  unfold putInstance blur
  dsimp only
  rw [Keyed.mapValues_insert]

theorem note_blur {entries : List JournalEntry} (h : entries.map JournalEntry.blur = entries) :
    w.context.blur.note entries = (w.context.note entries).blur := by
  rw [Context.blur_note, h]

/-- An engine is asked for the same in both workspaces. -/
theorem ask_blur {α : Type} {r s : Engine → Engine.Reply α} {g : α → α}
    (same : ∀ engine, s engine =
      ⟨(r engine).answer.map g, (r engine).engine, (r engine).journal⟩)
    (journal : ∀ engine, (r engine).journal.map JournalEntry.blur = (r engine).journal)
    (name : String) : w.blur.ask name s = (w.ask name r).blur g := by
  unfold ask
  rw [handle_blur, engine_blur]
  cases w.handle name with
  | error e => rfl
  | ok index =>
      cases w.engine name with
      | error e => rfl
      | ok engine =>
          dsimp only
          rw [same]
          dsimp only
          have noted := w.note_blur (journal engine)
          rw [context_blur, noted]
          cases (r engine).answer <;> rfl

/-- An instance is edited the same way in both workspaces. -/
theorem edit_blur {α : Type} {f k : Settings → Context → Except Obstacle α × Settings × Context}
    {g : α → α}
    (same : ∀ x c, k x.blur (Context.blur c) =
      ((f x c).1.map g, (f x c).2.1.blur, (f x c).2.2.blur)) (place : Location) :
    w.blur.edit place k = (w.edit place f).blur g := by
  unfold edit
  rw [instances_blur, find_mapValues]
  cases find w.instances place.name .settings with
  | error e => rfl
  | ok root =>
      dsimp only [Except.map]
      rw [context_blur, followForEdit_blur]
      obtain ⟨found, c⟩ := followForEdit place.path root w.context
      cases found with
      | error fault => rfl
      | ok x =>
          dsimp only [Except.map]
          rw [same, ← blur_replaceAt, putInstance_blur]
          rfl

theorem ofDone_blur {α : Type} (d : Done Settings α) (answer : α → α) :
    ofDone (d.blur Settings.blur answer) =
      ((ofDone d).1.map answer, (ofDone d).2.1.blur, (ofDone d).2.2.blur) := by
  unfold ofDone Done.blur
  cases d.answer <;> rfl

theorem inspect_blur {f k : Settings → Except SettingsError Report}
    (same : ∀ x, k x.blur = (f x).map Report.blur) (place : Location) :
    w.blur.inspect place k = (w.inspect place f).blur Report.blur := by
  unfold inspect
  rw [read_blur]
  cases w.read place with
  | error e => rfl
  | ok x =>
      refine congrArg (Attempt.mk · w.blur) ?_
      show (k x.blur).mapError Obstacle.failed = ((f x).mapError Obstacle.failed).map Report.blur
      rw [same]
      cases f x <;> rfl

theorem editReport_blur {α : Type} {f : Settings → Context → Done Settings α} {g : α → α}
    {r : α → Report} (same : ∀ x c, f x.blur (Context.blur c) = (f x c).blur Settings.blur g)
    (reported : ∀ a, r (g a) = (r a).blur) (place : Location) :
    w.blur.editReport place r f = (w.editReport place r f).blur Report.blur := by
  have edited : w.blur.edit place (fun x c => ofDone (f x c)) =
      (w.edit place fun x c => ofDone (f x c)).blur g :=
    w.edit_blur (fun x c => by rw [same, ofDone_blur]) place
  unfold editReport
  dsimp only
  rw [edited]
  generalize w.edit place (fun x c => ofDone (f x c)) = attempt
  obtain ⟨found, after⟩ := attempt
  cases found with
  | error e => rfl
  | ok a => exact congrArg (fun r => (⟨.ok r, after.blur⟩ : Attempt Workspace Report)) (reported a)

end Workspace

end SettingsForge
