import SettingsForge.Proofs.Engine.Boundaries
import SettingsForge.Proofs.Workspace.Reset
import SettingsForge.Proofs.Workspace.Supplied

set_option autoImplicit false

/-! # Boundaries of a run

Over a run, the boundaries in the journal are brackets in a row, and tell what happened: which step asked
an engine for which schema, whether the schema was cached, and how the synthesis and the reset came out
(`Workspace.boundaries_tell_what_happened`). A step that asks no engine writes no boundary, nor does a
dictionary that has its entries from one: whatever it would ask for is cached. -/

namespace SettingsForge

open Hub Settings

/-- Writing on from an empty journal, operations on instances write no boundary. -/
theorem Context.Continues.plain {before after : Context} (h : before.Continues after)
    (empty : before.journal = []) : ∀ entry ∈ after.journal, entry.isBoundary = false := by
  obtain ⟨more, same, editing⟩ := h
  rw [same, empty]
  exact fun entry mem => JournalEntry.isBoundary_of_isEditing (editing entry mem)

theorem Engine.Learns.trans {first second third : Engine} (h : Engine.Learns first second)
    (later : Engine.Learns second third) : Engine.Learns first third :=
  ⟨later.serial.trans h.serial, later.catalog.trans h.catalog,
    fun id r found => later.kept id r (h.kept id r found)⟩

/-- What is open to edits inside of an instance is inside of one that may be written. -/
theorem Settings.open_of_followForEdit {path : Path} {x y : Settings} {c : Context}
    (h : (followForEdit path x c).1 = .ok y) : path = [] ∨ x.kind.isWritable = true := by
  cases path with
  | nil => exact Or.inl rfl
  | cons step path =>
      refine Or.inr ?_
      obtain ⟨property, key⟩ := step
      by_contra readonly
      unfold followForEdit dictForEdit at h
      cases found : x.dict property with
      | error e => simp [found] at h
      | ok dict => simp [found, readonly, refuse] at h

namespace Workspace

/-! ## Asking engines -/

/-- The step asks the engine at this index for this schema. All that the step names has to be there: the
    schema and the engine, for a new instance also the source, for a reset the target. A target inside of
    an instance is reached through dictionaries, which have to be open to edits. -/
inductive Asks (w : Workspace) : Action → Nat → Engine → Schema → Prop
  | typeOf {name handle : String} {kind : Kind} {saveAs : Option String} {index : Nat}
      {engine : Engine} {s : Schema} : w.schema name = .ok s → w.handle handle = .ok index →
      w.engine handle = .ok engine → Asks w (.typeOf name kind handle saveAs) index engine s
  | newFactory {name handle keep : String} {kind : Kind} {index : Nat} {engine : Engine} {s : Schema} :
      w.schema name = .ok s → w.handle handle = .ok index → w.engine handle = .ok engine →
      Asks w (.newFactory name kind handle keep) index engine s
  | create {name handle keep : String} {kind : Kind} {source : Option Location}
      {from? : Option Settings} {index : Nat} {engine : Engine} {s : Schema} :
      source.mapM w.read = .ok from? → w.schema name = .ok s → w.handle handle = .ok index →
      w.engine handle = .ok engine →
      Asks w (.create keep (.schema name kind handle) source) index engine s
  | reset {place : Location} {handle : String} {index : Nat} {engine : Engine} {x : Settings} :
      w.read place = .ok x → place.path = [] ∨ x.kind.isWritable = true →
      w.handle handle = .ok index → w.engine handle = .ok engine →
      Asks w (.reset place handle) index engine x.schema

/-- What a step writes down, together with its answer. A step that asks no engine writes no boundary. One
    that does writes what asking for the schema writes. A reset puts this into a bracket of its own,
    which closes as the reset comes out. -/
inductive Logs (w : Workspace) : Action → Except Obstacle Report → List JournalEntry → Prop
  | plain {action : Action} {answer : Except Obstacle Report} {log : List JournalEntry} :
      (∀ index engine s, ¬ w.Asks action index engine s) →
      (∀ entry ∈ log, entry.isBoundary = false) → Logs w action answer log
  | asked {action : Action} {answer : Except Obstacle Report} {asked rest : List JournalEntry}
      {index : Nat} {engine : Engine} {s : Schema} :
      (∀ place handle, action ≠ .reset place handle) → w.Asks action index engine s →
      engine.Asked s asked → (∀ entry ∈ rest, entry.isBoundary = false) →
      Logs w action answer (asked ++ rest)
  | reset {place : Location} {handle : String} {result : Except SettingsError Unit}
      {start close : JournalEntry} {asked rest : List JournalEntry} {index : Nat} {engine : Engine}
      {s : Schema} :
      w.Asks (.reset place handle) index engine s →
      start.Marks .resetToDefaults Journal.startEvent s.name → engine.Asked s asked →
      (∀ entry ∈ rest, entry.isBoundary = false) → close.Closes .resetToDefaults s.name result →
      Logs w (.reset place handle) ((result.map fun _ => Report.nothing).mapError .failed)
        (start :: (asked ++ rest ++ [close]))

/-- All that is written down over a run. -/
def log (w : Workspace) : List Action → List JournalEntry
  | [] => []
  | action :: rest =>
    (w.perform action).subject.context.journal ++ (w.perform action).subject.log rest

variable {known : Schema → Prop} {w : Workspace} {action : Action} {index : Nat} {engine : Engine}
  {s : Schema}

/-! ## Laws -/

/-- A step asks one engine for one schema. -/
theorem Asks.unique (h : w.Asks action index engine s) {index' : Nat} {engine' : Engine} {s' : Schema}
    (other : w.Asks action index' engine' s') : index = index' ∧ engine = engine' ∧ s = s' := by
  cases h with
  | typeOf hs hindex he =>
      cases other with
      | typeOf hs' hindex' he' => simp_all
  | newFactory hs hindex he =>
      cases other with
      | newFactory hs' hindex' he' => simp_all
  | create _ hs hindex he =>
      cases other with
      | create _ hs' hindex' he' => simp_all
  | reset read _ hindex he =>
      cases other with
      | reset read' _ hindex' he' => simp_all

theorem Asks.getElem? (h : w.Asks action index engine s) : w.engines[index]? = some engine := by
  cases h with
  | typeOf _ hindex he | newFactory _ hindex he | create _ _ hindex he | reset _ _ hindex he =>
      exact getElem?_of_engine hindex he

theorem Sound.known_asked (sound : w.Sound known) (h : w.Asks action index engine s) : known s := by
  cases h with
  | typeOf hs | newFactory hs | create _ hs => exact sound.schema hs
  | reset read =>
      obtain ⟨-, -, -, -, conforms⟩ := sound.read read
      exact conforms.self.known

/-- The boundaries that a step writes are brackets. -/
theorem Logs.bracketed {answer : Except Obstacle Report} {log : List JournalEntry}
    (h : w.Logs action answer log) : Bracketed (log.filter JournalEntry.isBoundary) := by
  cases h with
  | plain _ plain =>
      rw [filter_plain plain]
      exact .nil
  | asked _ _ asked plain =>
      rw [List.filter_append, filter_plain plain, List.append_nil]
      rcases asked.boundaries with none | bracket
      · rw [none]
        exact .nil
      · rw [← List.append_nil (List.filter _ _)]
        exact .synthesis bracket .nil
  | reset _ opens asked plain closes =>
      have ends := closes.marks
      rw [filter_bracket opens.isBoundary (ends.elim (·.isBoundary) (·.isBoundary)),
        List.filter_append, filter_plain plain, List.append_nil, ← List.append_nil (_ :: _)]
      exact .reset asked.boundaries (.mk opens ends) .nil

/-- Where the engine has the schema cached, nothing is written about a synthesis. -/
theorem Logs.unsynthesized {answer : Except Obstacle Report} {log : List JournalEntry}
    (h : w.Logs action answer log) (asks : w.Asks action index engine s)
    (cached : engine.isResolved s = true) :
    ∀ entry ∈ log, entry.field? "op" ≠ some BoundaryOp.synthesize.name := by
  have other : ∀ entry : JournalEntry, entry.isBoundary = false →
      entry.field? "op" ≠ some BoundaryOp.synthesize.name := by
    intro entry plain op
    unfold JournalEntry.isBoundary at plain
    rw [op] at plain
    cases plain
  have nothing : ∀ {asked : List JournalEntry}, engine.Asked s asked → asked = [] := by
    intro asked h
    cases h with
    | cached => rfl
    | synthesized missing =>
        rw [cached] at missing
        cases missing
  have marked : ∀ {entry : JournalEntry} {event schema : String},
      entry.Marks .resetToDefaults event schema →
      entry.field? "op" ≠ some BoundaryOp.synthesize.name := by
    intro entry event schema marks op
    rw [marks.op] at op
    exact absurd op (by decide)
  cases h with
  | plain unasked => exact absurd asks (unasked index engine s)
  | asked _ asks' asked plain =>
      obtain ⟨rfl, rfl, rfl⟩ := asks.unique asks'
      rw [nothing asked]
      exact fun entry mem => other entry (plain entry mem)
  | reset asks' opens asked plain closes =>
      obtain ⟨rfl, rfl, rfl⟩ := asks.unique asks'
      rw [nothing asked, List.nil_append]
      intro entry mem
      rcases List.mem_cons.1 mem with rfl | mem
      · exact marked opens
      · rcases List.mem_append.1 mem with mem | mem
        · exact other entry (plain entry mem)
        · rw [List.mem_singleton.1 mem]
          exact closes.marks.elim marked marked

/-! ## Steps -/

/-- What a step does to the engines and, if the journal is empty, to the journal. Either it asks no
    engine, or one learns. -/
inductive Stepped (w : Workspace) (action : Action) : Attempt Workspace Report → Prop
  | quiet {answer : Except Obstacle Report} {after : Workspace} :
      (∀ index engine s, ¬ w.Asks action index engine s) → w.engines <+: after.engines →
      (∀ entry ∈ after.context.journal, entry.isBoundary = false) → Stepped w action ⟨answer, after⟩
  | asked {answer : Except Obstacle Report} {after : Workspace} {rest : List JournalEntry}
      {index : Nat} {engine : Engine} {s : Schema} :
      (∀ place handle, action ≠ .reset place handle) → w.Asks action index engine s →
      after.engines = w.engines.set index (engine.resolution s).2.1 →
      after.context.journal = (engine.resolution s).2.2 ++ rest →
      (∀ entry ∈ rest, entry.isBoundary = false) → Stepped w action ⟨answer, after⟩
  | reset {place : Location} {handle : String} {result : Except SettingsError Unit}
      {after : Workspace} {start close : JournalEntry} {rest : List JournalEntry} {index : Nat}
      {engine : Engine} {s : Schema} :
      action = .reset place handle → w.Asks (.reset place handle) index engine s →
      after.engines = w.engines.set index (engine.resolution s).2.1 →
      after.context.journal = start :: ((engine.resolution s).2.2 ++ rest ++ [close]) →
      start.Marks .resetToDefaults Journal.startEvent s.name →
      (∀ entry ∈ rest, entry.isBoundary = false) → close.Closes .resetToDefaults s.name result →
      Stepped w action ⟨(result.map fun _ => Report.nothing).mapError .failed, after⟩

/-- A step that touches neither the engines nor the journal. -/
theorem Stepped.still {answer : Except Obstacle Report} {after : Workspace}
    (empty : w.context.journal = []) (unasked : ∀ index engine s, ¬ w.Asks action index engine s)
    (engines : after.engines = w.engines) (journal : after.context.journal = w.context.journal) :
    w.Stepped action ⟨answer, after⟩ := by
  refine .quiet unasked (engines ▸ List.prefix_rfl) fun entry mem => ?_
  rw [journal, empty] at mem
  cases mem

/-- What is written about an edit is written about the way to it and by it. -/
theorem continues_edit {α : Type} (w : Workspace) (place : Location)
    {f : Settings → Context → Except Obstacle α × Settings × Context}
    (continues : ∀ x c, Context.Continues c (f x c).2.2) :
    w.context.Continues (w.edit place f).subject.context := by
  unfold Workspace.edit
  split
  · exact .refl _
  · next root _ =>
    have way := continues_followForEdit place.path root w.context
    split
    · next heq =>
      rw [heq] at way
      exact way
    · next heq =>
      rw [heq] at way
      exact way.trans (continues ..)

/-- A step that is an edit of an instance. -/
theorem Stepped.edit {α : Type} {answer : Except Obstacle Report} {place : Location}
    {f : Settings → Context → Except Obstacle α × Settings × Context}
    (empty : w.context.journal = []) (unasked : ∀ index engine s, ¬ w.Asks action index engine s)
    (continues : ∀ x c, Context.Continues c (f x c).2.2) :
    w.Stepped action ⟨answer, (w.edit place f).subject⟩ := by
  have engines := (w.frame_edit place f).2.2
  exact .quiet unasked (engines ▸ List.prefix_rfl) ((w.continues_edit place continues).plain empty)

/-! ### Asking -/

theorem ask_of_engine {α : Type} {handle : String} (hindex : w.handle handle = .ok index)
    (he : w.engine handle = .ok engine) (request : Engine → Engine.Reply α) :
    w.ask handle request = ⟨(request engine).answer.mapError .failed,
      { w.setEngine index (request engine).engine with
        context := w.context.note (request engine).journal }⟩ := by
  unfold Workspace.ask
  rw [hindex, he]

theorem ask_of_none {α : Type} {handle : String}
    (none : ∀ index engine, w.handle handle = .ok index → w.engine handle ≠ .ok engine)
    (request : Engine → Engine.Reply α) : ∃ o, w.ask handle request = ⟨.error o, w⟩ := by
  unfold Workspace.ask
  cases hindex : w.handle handle with
  | error o => exact ⟨o, rfl⟩
  | ok index =>
      cases he : w.engine handle with
      | error o => exact ⟨o, rfl⟩
      | ok engine => exact absurd he (none index engine hindex)

/-- A step that asks an engine, if that is there, and goes on with what operations on instances write. -/
theorem Stepped.ask {α : Type} {handle : String} {request : Engine → Engine.Reply α}
    {answer : Except Obstacle Report} {after : Workspace} (empty : w.context.journal = [])
    (other : ∀ place handle, action ≠ .reset place handle)
    (asks : ∀ index engine t, w.Asks action index engine t ↔
      t = s ∧ w.handle handle = .ok index ∧ w.engine handle = .ok engine)
    (learns : ∀ engine, (request engine).engine = (engine.resolution s).2.1)
    (writes : ∀ engine, (request engine).journal = (engine.resolution s).2.2)
    (engines : after.engines = (w.ask handle request).subject.engines)
    (continues : (w.ask handle request).subject.context.Continues after.context) :
    w.Stepped action ⟨answer, after⟩ := by
  by_cases there : ∃ index engine, w.handle handle = .ok index ∧ w.engine handle = .ok engine
  · obtain ⟨index, engine, hindex, he⟩ := there
    rw [ask_of_engine hindex he] at engines continues
    obtain ⟨more, same, editing⟩ := continues
    refine .asked other ((asks index engine s).2 ⟨rfl, hindex, he⟩) ?_ ?_
      fun entry mem => JournalEntry.isBoundary_of_isEditing (editing entry mem)
    · rw [engines, ← learns]
      rfl
    · rw [same, ← writes]
      show w.context.journal ++ _ ++ _ = _
      rw [empty, List.nil_append]
  · push Not at there
    obtain ⟨o, refused⟩ := ask_of_none there request
    rw [refused] at engines continues
    refine .quiet (fun index engine t asked => ?_) (engines ▸ List.prefix_rfl)
      (continues.plain empty)
    obtain ⟨-, hindex, he⟩ := (asks index engine t).1 asked
    exact there index engine hindex he

theorem Stepped.typeOf (empty : w.context.journal = []) (name : String) (kind : Kind)
    (handle : String) (saveAs : Option String) :
    w.Stepped (.typeOf name kind handle saveAs) (w.typeOf name kind handle saveAs) := by
  unfold Workspace.typeOf
  cases hs : w.schema name with
  | error o =>
      refine .still empty (fun index engine s asks => ?_) rfl rfl
      cases asks with
      | typeOf hs' =>
          rw [hs] at hs'
          cases hs'
  | ok s =>
      have asks : ∀ index engine t, w.Asks (.typeOf name kind handle saveAs) index engine t ↔
          t = s ∧ w.handle handle = .ok index ∧ w.engine handle = .ok engine := by
        refine fun index engine t => ⟨fun h => ?_, fun h => .typeOf (h.1 ▸ hs) h.2.1 h.2.2⟩
        cases h with
        | typeOf hs' hindex he => exact ⟨Except.ok.inj (hs'.symm.trans hs), hindex, he⟩
      have step := fun answer after => @Stepped.ask w (.typeOf name kind handle saveAs) s _ handle
        (fun e => e.typeOf s kind) answer after empty (fun _ _ => nofun) asks (fun _ => rfl) fun _ => rfl
      dsimp only
      generalize w.ask handle (fun e => e.typeOf s kind) = asked at step
      obtain ⟨answer, after⟩ := asked
      cases answer with
      | error o => exact step _ _ rfl (.refl _)
      | ok shape => cases saveAs <;> exact step _ _ rfl (.refl _)

theorem Stepped.newFactory (empty : w.context.journal = []) (name : String) (kind : Kind)
    (handle keep : String) :
    w.Stepped (.newFactory name kind handle keep) (w.newFactory name kind handle keep) := by
  unfold Workspace.newFactory
  cases hs : w.schema name with
  | error o =>
      refine .still empty (fun index engine s asks => ?_) rfl rfl
      cases asks with
      | newFactory hs' =>
          rw [hs] at hs'
          cases hs'
  | ok s =>
      have asks : ∀ index engine t, w.Asks (.newFactory name kind handle keep) index engine t ↔
          t = s ∧ w.handle handle = .ok index ∧ w.engine handle = .ok engine := by
        refine fun index engine t => ⟨fun h => ?_, fun h => .newFactory (h.1 ▸ hs) h.2.1 h.2.2⟩
        cases h with
        | newFactory hs' hindex he => exact ⟨Except.ok.inj (hs'.symm.trans hs), hindex, he⟩
      have step := fun answer after => @Stepped.ask w (.newFactory name kind handle keep) s _ handle
        (fun e => e.factory s kind) answer after empty (fun _ _ => nofun) asks (fun _ => rfl)
        fun _ => rfl
      dsimp only
      generalize w.ask handle (fun e => e.factory s kind) = asked at step
      obtain ⟨answer, after⟩ := asked
      cases answer <;> exact step _ _ rfl (.refl _)

/-- What is made with a factory at hand. -/
theorem frame_create {source : Option Location} {from? : Option Settings}
    (sources : source.mapM w.read = .ok from?) (keep : String) (maker : Maker) :
    (w.create keep maker source).subject.engines = (w.factoryOf maker).subject.engines ∧
      (w.factoryOf maker).subject.context.Continues (w.create keep maker source).subject.context := by
  unfold Workspace.create
  rw [sources]
  dsimp only
  generalize w.factoryOf maker = found
  obtain ⟨answer, after⟩ := found
  cases answer with
  | error o => exact ⟨rfl, .refl _⟩
  | ok factory =>
      have continues := factory.blueprint.continues_create factory.engine factory.kind from?
        after.context
      dsimp only
      unfold Engine.Factory.create
      generalize factory.blueprint.create factory.engine factory.kind from? after.context = made at continues
      obtain ⟨answer, c⟩ := made
      cases answer <;> exact ⟨rfl, continues⟩

theorem Stepped.create (empty : w.context.journal = []) (keep : String) (maker : Maker)
    (source : Option Location) :
    w.Stepped (.create keep maker source) (w.create keep maker source) := by
  cases sources : source.mapM w.read with
  | error o =>
      unfold Workspace.create
      rw [sources]
      refine .still empty (fun index engine s asks => ?_) rfl rfl
      cases asks with
      | create sources' =>
          rw [sources] at sources'
          cases sources'
  | ok from? =>
      obtain ⟨engines, continues⟩ := frame_create sources keep maker
      cases maker with
      | factory name =>
          exact .quiet (fun _ _ _ => nofun) (engines ▸ List.prefix_rfl)
            (continues.plain empty)
      | schema name kind handle =>
          cases hs : w.schema name with
          | error o =>
              simp only [factoryOf, hs] at engines continues
              refine .quiet (fun index engine s asks => ?_) (engines ▸ List.prefix_rfl)
                (continues.plain empty)
              cases asks with
              | create _ hs' =>
                  rw [hs] at hs'
                  cases hs'
          | ok s =>
              simp only [factoryOf, hs] at engines continues
              refine Stepped.ask empty (fun _ _ => nofun)
                (fun index engine t => ⟨fun h => ?_, fun h => ?_⟩) (fun _ => rfl) (fun _ => rfl)
                engines continues
              · cases h with
                | create _ hs' hindex he => exact ⟨Except.ok.inj (hs'.symm.trans hs), hindex, he⟩
              · exact .create sources (h.1 ▸ hs) h.2.1 h.2.2

/-! ### Resets -/

/-- An edit reaches what can be read, where the way to it is open. -/
theorem Sound.edit_open (sound : w.Sound known) {place : Location} {x : Settings}
    (read : w.read place = .ok x) (way : place.path = [] ∨ x.kind.isWritable = true) {α : Type}
    (f : Settings → Context → Except Obstacle α × Settings × Context) :
    ∃ after : Workspace, w.edit place f = ⟨(f x w.context).1, after⟩ ∧ after.engines = w.engines ∧
      after.context = (f x w.context).2.2 := by
  obtain ⟨root, found, followed⟩ := read_eq_ok.1 read
  rcases way with here | writable
  · obtain ⟨name, path⟩ := place
    obtain rfl : path = [] := here
    obtain rfl := Except.ok.inj followed
    exact ⟨_, edit_root found f, rfl, rfl⟩
  · exact ⟨_, sound.edit_writable found followed writable f, rfl, rfl⟩

/-- A reset that no engine is asked for changes no engine, and writes down what is edited at most. -/
theorem Stepped.reset_missing (sound : w.Sound known) (empty : w.context.journal = [])
    {place : Location} {handle : String} (there : ∀ x index engine, w.read place = .ok x →
      (place.path = [] ∨ x.kind.isWritable = true) → w.handle handle = .ok index →
      w.engine handle ≠ .ok engine) :
    w.Stepped (.reset place handle) (Sound.afterReset (w.edit place (Sound.resetting w handle))) := by
  have unasked : ∀ index engine s, ¬ w.Asks (.reset place handle) index engine s := by
    intro index engine s asks
    cases asks with
    | reset read way hindex he => exact there _ _ _ read way hindex he
  unfold Workspace.edit
  cases found : find w.instances place.name .settings with
  | error o => exact .still empty unasked rfl rfl
  | ok root =>
      have continues := continues_followForEdit place.path root w.context
      have way := fun x => @Settings.open_of_followForEdit place.path root x w.context
      obtain ⟨-, leads⟩ := followForEdit_spec place.path root w.context
      dsimp only
      generalize followForEdit place.path root w.context = followed at continues way leads
      obtain ⟨answer, c⟩ := followed
      cases answer with
      | error fault => exact .quiet unasked List.prefix_rfl (continues.plain empty)
      | ok x =>
          -- the target is there, so there is no engine
          have found := find_eq_ok.1 found
          have read : w.read place = .ok x := read_eq_ok.2 ⟨root, found, leads x rfl⟩
          have there_root := Keyed.mem_of_lookup found
          have part := mem_parts_of_follow sound.registry (sound.conforms _ there_root) (leads x rfl)
          have same := (sound.forest.rooted _ there_root).toWired.kind_eq part
          have none := fun index engine => there x index engine read (same ▸ way x rfl)
          dsimp only
          unfold Sound.resetting
          cases hindex : w.handle handle with
          | error o => exact .quiet unasked List.prefix_rfl (continues.plain empty)
          | ok index =>
              cases he : w.engine handle with
              | error o => exact .quiet unasked List.prefix_rfl (continues.plain empty)
              | ok engine => exact absurd he (none index engine hindex)

theorem Stepped.reset_step (sound : w.Sound known) (empty : w.context.journal = []) (place : Location)
    (handle : String) : w.Stepped (.reset place handle) (w.reset place handle) := by
  show w.Stepped _ (Sound.afterReset (w.edit place (Sound.resetting w handle)))
  by_cases there : ∃ x index engine, w.read place = .ok x ∧
      (place.path = [] ∨ x.kind.isWritable = true) ∧ w.handle handle = .ok index ∧
      w.engine handle = .ok engine
  · obtain ⟨x, index, engine, read, way, hindex, he⟩ := there
    obtain ⟨after, edited, engines, context⟩ := sound.edit_open read way (Sound.resetting w handle)
    rw [edited]
    unfold Sound.resetting at context ⊢
    rw [hindex, he] at context ⊢
    obtain ⟨more, close, journal, editing, closes⟩ := engine.journal_reset x w.context
    refine .reset rfl (.reset read way hindex he) ?_ ?_ (JournalEntry.marks_resetStarted _ x.kind)
      (fun entry mem => JournalEntry.isBoundary_of_isEditing (editing entry mem)) closes
    · show after.engines.set index (engine.reset x w.context).2 = _
      rw [engines, Engine.snd_reset]
      rfl
    · show after.context.journal = _
      rw [context, journal, empty, List.nil_append]
  · refine reset_missing sound empty fun x index engine read way hindex he => there ?_
    exact ⟨x, index, engine, read, way, hindex, he⟩

/-! ### All steps -/

theorem stepped_act (sound : w.Sound known) (empty : w.context.journal = []) (action : Action) :
    w.Stepped action (w.act action) := by
  cases action with
  | typeOf name kind handle saveAs => exact .typeOf empty name kind handle saveAs
  | newFactory name kind handle keep => exact .newFactory empty name kind handle keep
  | create keep maker source => exact .create empty keep maker source
  | reset place handle => exact .reset_step sound empty place handle
  | newEngine name catalog =>
      refine .quiet (fun _ _ _ => nofun) (List.prefix_append ..) fun entry mem => ?_
      have mem : entry ∈ w.context.journal := mem
      rw [empty] at mem
      cases mem
  | set place property value =>
      exact .edit empty (fun _ _ _ => nofun) fun x c => continues_set x property value c
  | editList place property edit =>
      exact .edit empty (fun _ _ _ => nofun) fun x c => x.continues_editList property edit c
  | dictForEdit place property =>
      exact .edit empty (fun _ _ _ => nofun) fun x c => x.continues_dictForEdit property c
  | addEntry place property key =>
      exact .edit empty (fun _ _ _ => nofun) fun x c => x.continues_addEntry property key c
  | deleteEntry place property key =>
      exact .edit empty (fun _ _ _ => nofun) fun x c => x.continues_deleteEntry property key c
  | copy place source =>
      refine .edit empty (fun _ _ _ => nofun) fun x c => ?_
      split
      · exact .refl c
      · exact x.continues_copy _ c
  | copyUntyped place source =>
      refine .edit empty (fun _ _ _ => nofun) fun x c => ?_
      split
      · exact .refl c
      · exact x.continues_copyUntyped _ c
  | assignDict place property source sourceProperty =>
      refine .edit empty (fun _ _ _ => nofun) fun x c => ?_
      have opened := x.continues_dictForEdit property c
      dsimp only
      generalize x.dictForEdit property c = looked at opened
      obtain ⟨answer, subject, after⟩ := looked
      cases answer with
      | error e => exact opened
      | ok dict =>
          dsimp only
          split
          · exact opened
          · refine opened.trans (x.continues_editDict property (fun _ _ _ => ?_) after)
            exact continues_assignDict ..
  | setProvider place provider key =>
      unfold Workspace.act Workspace.setProvider
      dsimp only
      split
      · exact .still empty (fun _ _ _ => nofun) rfl rfl
      · next id _ =>
        exact Stepped.edit empty (fun _ _ _ => nofun)
          (f := fun x c => ofDone ⟨.ok (), x.setProvider (id.map fun id => ⟨id, key⟩), c⟩)
          fun x c => .refl c
  | build =>
      unfold Workspace.act Workspace.build
      dsimp only
      split <;> exact .still empty (fun _ _ _ => nofun) rfl rfl
  | cloneEngine =>
      unfold Workspace.act
      dsimp only
      split <;> exact .still empty (fun _ _ _ => nofun) rfl rfl
  | holdNotifier =>
      unfold Workspace.act
      dsimp only
      split
      · exact .still empty (fun _ _ _ => nofun) rfl rfl
      · split <;> exact .still empty (fun _ _ _ => nofun) rfl rfl
  | subscribe =>
      unfold Workspace.act Workspace.subscribe
      dsimp only
      split
      · exact .still empty (fun _ _ _ => nofun) rfl rfl
      · split <;> exact .still empty (fun _ _ _ => nofun) rfl rfl
  | unsubscribe =>
      unfold Workspace.act Workspace.unsubscribe
      dsimp only
      split
      · exact .still empty (fun _ _ _ => nofun) rfl rfl
      · split
        · exact .still empty (fun _ _ _ => nofun) rfl rfl
        · split <;> exact .still empty (fun _ _ _ => nofun) rfl rfl
  | resolveDefault | debugInitializer =>
      unfold Workspace.act Workspace.resolveDefault
      dsimp only
      split
      · exact .still empty (fun _ _ _ => nofun) rfl rfl
      · refine .quiet (fun _ _ _ => nofun) List.prefix_rfl ?_
        show ∀ entry ∈ w.context.journal ++ _, _
        rw [empty, List.nil_append]
        exact Engine.plain_journalOf _ _
  | blueprint =>
      unfold Workspace.act Workspace.blueprint
      dsimp only
      split
      · exact .still empty (fun _ _ _ => nofun) rfl rfl
      · refine .quiet (fun _ _ _ => nofun) List.prefix_rfl ?_
        show ∀ entry ∈ w.context.journal ++ _, _
        rw [empty, List.nil_append]
        exact Engine.plain_journalOfAll _ _ _
  | notifierSubscribe | notifierUnsubscribe | notifierCount | notifierNotify =>
      unfold Workspace.act Workspace.atNotifier
      dsimp only
      split <;> exact .still empty (fun _ _ _ => nofun) rfl rfl
  | _ => exact .still empty (fun _ _ _ => nofun) rfl rfl

/-! ## Runs -/

/-- Starting a step does not change what it asks. -/
theorem asks_fresh : w.fresh.Asks action index engine s ↔ w.Asks action index engine s := by
  constructor <;> intro h
  · cases h with
    | typeOf hs hindex he => exact .typeOf hs hindex he
    | newFactory hs hindex he => exact .newFactory hs hindex he
    | create sources hs hindex he => exact .create sources hs hindex he
    | reset read way hindex he => exact .reset read way hindex he
  · cases h with
    | typeOf hs hindex he => exact .typeOf hs hindex he
    | newFactory hs hindex he => exact .newFactory hs hindex he
    | create sources hs hindex he => exact .create sources hs hindex he
    | reset read way hindex he => exact .reset read way hindex he

theorem Sound.stepped (sound : w.Sound known) (action : Action) :
    w.fresh.Stepped action (w.perform action) := stepped_act sound.fresh rfl action

/-- What a step writes down. -/
theorem Sound.logs (sound : w.Sound known) (action : Action) :
    w.Logs action (w.perform action).answer (w.perform action).subject.context.journal := by
  have asked : ∀ {index engine s}, w.Asks action index engine s →
      engine.Asked s (engine.resolution s).2.2 := by
    intro index engine s asks
    obtain ⟨schemas, holds⟩ := sound.engines engine (List.mem_of_getElem? asks.getElem?)
    exact Engine.asked_resolution sound.registry.toIdentified holds (sound.known_asked asks)
  have stepped := sound.stepped action
  generalize w.perform action = attempt at stepped
  cases stepped with
  | quiet unasked _ plain => exact .plain (fun _ _ _ asks => unasked _ _ _ (asks_fresh.2 asks)) plain
  | asked other asks _ journal plain =>
      dsimp only
      rw [journal]
      exact .asked other (asks_fresh.1 asks) (asked (asks_fresh.1 asks)) plain
  | reset same asks _ journal opens plain closes =>
      subst same
      dsimp only
      rw [journal]
      exact .reset (asks_fresh.1 asks) opens (asked (asks_fresh.1 asks)) plain closes

/-- One engine is asked for a schema, and the others stay. -/
theorem learns_set {engines : List Engine} (asked : engines[index]? = some engine) (s : Schema) {i : Nat}
    {old : Engine} (there : engines[i]? = some old) :
    ∃ later, (engines.set index (engine.resolution s).2.1)[i]? = some later ∧
      Engine.Learns old later := by
  by_cases same : index = i
  · subst same
    obtain rfl := Option.some.inj (asked.symm.trans there)
    exact ⟨_, List.getElem?_set_self (List.getElem?_eq_some_iff.1 asked).1,
      Engine.learns_factory engine s .read⟩
  · exact ⟨old, (List.getElem?_set_ne same).trans there, .refl old⟩

/-- Over a step, engines stay in their places and learn. -/
theorem Sound.learns_perform (sound : w.Sound known) (action : Action) {i : Nat} {old : Engine}
    (there : w.engines[i]? = some old) :
    ∃ later, (w.perform action).subject.engines[i]? = some later ∧ Engine.Learns old later := by
  have stepped := sound.stepped action
  generalize w.perform action = attempt at stepped
  cases stepped with
  | quiet _ grown _ =>
      obtain ⟨more, same⟩ := grown
      refine ⟨old, ?_, .refl old⟩
      rw [← same]
      exact (List.getElem?_append_left (List.getElem?_eq_some_iff.1 there).1).trans there
  | @asked _ after _ _ _ s _ asks engines =>
      show ∃ later, after.engines[i]? = some later ∧ _
      rw [engines]
      exact learns_set (asks_fresh.1 asks).getElem? s there
  | @reset _ _ _ after _ _ _ _ _ s _ asks engines =>
      show ∃ later, after.engines[i]? = some later ∧ _
      rw [engines]
      exact learns_set (asks_fresh.1 asks).getElem? s there

/-- Over a run, engines stay in their places and learn. -/
theorem Reachable.learns_run (reachable : w.Reachable) (actions : List Action) {i : Nat} {old : Engine}
    (there : w.engines[i]? = some old) :
    ∃ later, (w.run actions).engines[i]? = some later ∧ Engine.Learns old later := by
  induction actions generalizing w old with
  | nil => exact ⟨old, there, .refl old⟩
  | cons action rest ih =>
      obtain ⟨_, sound⟩ := reachable.sound
      obtain ⟨next, after, learns⟩ := sound.learns_perform action there
      obtain ⟨later, last, learns'⟩ := ih (reachable.run [action]) after
      exact ⟨later, last, learns.trans learns'⟩

/-- A step that asks an engine for a schema leaves this cached there. -/
theorem Sound.cached_perform (sound : w.Sound known) (asks : w.Asks action index engine s) :
    ∃ later, (w.perform action).subject.engines[index]? = some later ∧
      later.isResolved s = true := by
  have learned : (engine.resolution s).2.1.isResolved s = true := by
    obtain ⟨schemas, holds⟩ := sound.engines engine (List.mem_of_getElem? asks.getElem?)
    exact Engine.isResolved_resolution sound.registry.toIdentified holds (sound.known_asked asks)
  have set : (w.engines.set index (engine.resolution s).2.1)[index]? =
      some (engine.resolution s).2.1 :=
    List.getElem?_set_self (List.getElem?_eq_some_iff.1 asks.getElem?).1
  have stepped := sound.stepped action
  generalize w.perform action = attempt at stepped
  cases stepped with
  | quiet unasked => exact absurd (asks_fresh.2 asks) (unasked _ _ _)
  | @asked _ after _ _ _ _ _ asks' engines =>
      obtain ⟨rfl, rfl, rfl⟩ := asks.unique (asks_fresh.1 asks')
      exact ⟨_, (congrArg (·[index]?) engines).trans set, learned⟩
  | @reset _ _ _ after _ _ _ _ _ _ same asks' engines =>
      subst same
      obtain ⟨rfl, rfl, rfl⟩ := asks.unique (asks_fresh.1 asks')
      exact ⟨_, (congrArg (·[index]?) engines).trans set, learned⟩

/-- Over a run the boundaries are brackets in a row. -/
theorem Reachable.bracketed_log (reachable : w.Reachable) (actions : List Action) :
    Bracketed ((w.log actions).filter JournalEntry.isBoundary) := by
  induction actions generalizing w with
  | nil => exact .nil
  | cons action rest ih =>
      obtain ⟨_, sound⟩ := reachable.sound
      rw [log, List.filter_append]
      exact (sound.logs action).bracketed.append (ih (reachable.run [action]))

/-- Take a workspace that a run reaches. Over every run from there the boundaries in the journal are
    brackets in a row, and only the bracket of one synthesis may lie inside of another one, of a reset.
    Each step writes what `Logs` says: a bracket of a synthesis just if it asks for a schema that the
    engine has not cached, which closes with the error of the schema's blueprint, or else with the number
    of schemas that were noted as resolved inside; and a bracket of a reset that closes as the reset is
    answered. The requests behind the edits of dictionaries open none: the engine that an instance comes
    from answers them from its cache (`HasEngineOf`). Once an engine was asked for a schema, no later step
    opens a synthesis when it asks for a schema of the same identity. -/
theorem boundaries_tell_what_happened (reachable : w.Reachable) :
    (∀ actions, Bracketed ((w.log actions).filter JournalEntry.isBoundary)) ∧
    (∀ action, w.Logs action (w.perform action).answer (w.perform action).subject.context.journal) ∧
    (∀ place x, w.read place = .ok x → w.HasEngineOf x) ∧
    ∀ first between second index engine later s t, w.Asks first index engine s →
      ((w.perform first).subject.run between).Asks second index later t → s.id = t.id →
      ∀ entry ∈ (((w.perform first).subject.run between).perform second).subject.context.journal,
        entry.field? "op" ≠ some BoundaryOp.synthesize.name := by
  obtain ⟨_, sound, supplied⟩ := reachable.supplied
  refine ⟨reachable.bracketed_log, sound.logs, fun _ _ => supplied.hasEngineOf sound, ?_⟩
  intro first between second index engine later s t asks asks' same
  have reachable_after : (w.perform first).subject.Reachable := reachable.run [first]
  obtain ⟨learned, there, cached⟩ := sound.cached_perform asks
  obtain ⟨kept, there', learns⟩ := reachable_after.learns_run between there
  obtain rfl := Option.some.inj (asks'.getElem?.symm.trans there')
  -- the identity is what the cache goes by
  have cached' : later.isResolved t = true := by
    unfold Engine.isResolved at cached ⊢
    obtain ⟨r, found⟩ := Option.isSome_iff_exists.1 cached
    rw [← same, learns.kept _ _ found]
    rfl
  obtain ⟨_, sound'⟩ := (reachable_after.run between).sound
  exact (sound'.logs second).unsynthesized asks' cached'

/-! ### Two resets -/

/-- The first reset has the other engine synthesize the shelf with its entries, the second one finds it
    cached. -/
theorem synthesizes_for_the_first_reset :
    ((titled.log [.reset ⟨"first", []⟩ "other", .reset ⟨"first", []⟩ "other"]).filter
        JournalEntry.isBoundary) =
      [.resetStarted "Shelf" .inpc, .synthesisStarted "Shelf", .synthesisEnded "Shelf" 2 2,
        .resetEnded "Shelf", .resetStarted "Shelf" .inpc, .resetEnded "Shelf"] ∧
      ∀ entry ∈ ((titled.perform (.reset ⟨"first", []⟩ "other")).subject.perform
          (.reset ⟨"first", []⟩ "other")).subject.context.journal,
        entry.field? "op" ≠ some BoundaryOp.synthesize.name := by
  refine ⟨by decide +kernel, ?_⟩
  obtain ⟨engine, s, asks, id⟩ : ∃ engine s,
      titled.Asks (.reset ⟨"first", []⟩ "other") 1 engine s ∧ s.id = ⟨1⟩ :=
    ⟨_, _, .reset rfl (Or.inl rfl) rfl rfl, rfl⟩
  obtain ⟨later, t, asks', id'⟩ : ∃ later t,
      ((titled.perform (.reset ⟨"first", []⟩ "other")).subject.run []).Asks
        (.reset ⟨"first", []⟩ "other") 1 later t ∧ t.id = ⟨1⟩ :=
    ⟨_, _, .reset rfl (Or.inl rfl) rfl rfl, rfl⟩
  exact (boundaries_tell_what_happened reachable_titled).2.2.2 _ [] _ 1 engine later s t asks asks'
    (id.trans id'.symm)

end Workspace

end SettingsForge
