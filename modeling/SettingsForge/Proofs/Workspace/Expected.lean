import SettingsForge.Proofs.Workspace.Errors

set_option autoImplicit false

/-! # Errors that may be expected

Every error that a step answers with comes of what was asked for: of the names and types of a schema to
be built, of a schema that cannot be generated, or of an instance that refuses. None is internal
(`Workspace.Sound.stopsAs_act`). -/

namespace SettingsForge

open Hub Settings
open SettingsError (isGeneration isRefusal)

/-- Whether an error may come of what is asked for. The others would be the library's own fault. -/
def SettingsError.isExpected : SettingsError → Bool
  | .internal _ => false
  | _ => true

open SettingsError (isExpected)

theorem SettingsError.isExpected_of_isGeneration {e : SettingsError} (h : e.isGeneration = true) :
    e.isExpected = true := by
  cases e <;> first | rfl | cases h

theorem SettingsError.isExpected_of_isRefusal {e : SettingsError} (h : e.isRefusal = true) :
    e.isExpected = true := by
  cases e <;> first | rfl | cases h

section

variable {side other : SettingsError → Bool} {α : Type}

theorem FailsAs.mono {answer : Except SettingsError α} (h : FailsAs side answer)
    (sub : ∀ {e}, side e = true → other e = true) : FailsAs other answer :=
  fun e failed => sub (h e failed)

theorem StopsAs.mono {answer : Except Obstacle α} (h : StopsAs side answer)
    (sub : ∀ {e}, side e = true → other e = true) : StopsAs other answer :=
  fun e failed => sub (h e failed)

/-- An obstacle is one for every answer that it stands in for. -/
theorem StopsAs.of_error {β : Type} {answer : Except Obstacle β} (h : StopsAs side answer) {o : Obstacle}
    (failed : answer = .error o) : StopsAs side (.error o : Except Obstacle α) := by
  rintro e ⟨⟩
  exact h e failed

theorem stopsAs_missing (what : Missing) :
    StopsAs side (.error (.missing what) : Except Obstacle α) := fun _ h => by cases h

end

namespace Schema

theorem failsAs_build (id : SchemaId) (name : String) (base : Option Schema) (own : List Property) :
    FailsAs isExpected (build id name base own) := by
  intro e failed
  rw [build_eq_error_iff] at failed
  obtain ⟨-, rfl⟩ | ⟨-, _, _, _, -, -, fault⟩ := failed
  · rfl
  · cases fault <;> rfl

end Schema

namespace Engine

/-- Making an instance fails as a copy does. -/
theorem Factory.failsAs_create (factory : Factory) (source : Option Settings) (c : Context) :
    FailsAs isRefusal (factory.create source c).1 := by
  unfold Factory.create Blueprint.create
  cases source with
  | none => exact failsAs_ok _
  | some s => exact failsAs_map.2 (failsAs_assign_failsAs_assignEntries.1 s _ _)

/-- A reset fails as the generation of the schema, or as a copy. -/
theorem failsAs_reset {engine : Engine} (h : ∀ entry ∈ engine.cache, entry.2.InGeneration)
    (x : Settings) (c : Context) : FailsAs isExpected (engine.reset x c).1.answer := by
  have available := (failsAs_factory h x.schema .read).mono SettingsError.isExpected_of_isGeneration
  unfold reset create
  dsimp only
  cases answer : (engine.factory x.schema .read).answer with
  | error e => exact failsAs_error.2 (available e answer)
  | ok factory =>
      dsimp only
      have made := factory.failsAs_create none
        ((c.note [.resetStarted x.schema.name x.kind]).note (engine.factory x.schema .read).journal)
      generalize factory.create none _ = created at made
      obtain ⟨answer, context⟩ := created
      cases answer with
      | error e =>
          exact failsAs_error.2 (SettingsError.isExpected_of_isRefusal (made e rfl))
      | ok defaults => exact (x.failsAs_copy context _).mono SettingsError.isExpected_of_isRefusal

end Engine

namespace Workspace

variable {known : Schema → Prop} {w : Workspace} {side : SettingsError → Bool} {α : Type}

/-! ## Expected errors -/

theorem stopsAs_mapM {β : Type} {f : α → Except Obstacle β} {items : List α}
    (h : ∀ a ∈ items, StopsAs side (f a)) : StopsAs side (items.mapM f) := by
  intro e failed
  obtain ⟨a, mem, own⟩ := exists_of_mapM_eq_error failed
  exact h a mem e own

theorem stopsAs_option_mapM {β : Type} {f : α → Except Obstacle β} (h : ∀ a, StopsAs side (f a))
    (item : Option α) : StopsAs side (item.mapM f) := by
  cases item with
  | none => exact stopsAs_ok _
  | some a => exact (h a).map some

theorem stopsAs_schema (w : Workspace) (name : String) : StopsAs side (w.schema name) :=
  stopsAs_find w.schemas name .schema

theorem stopsAs_handle (w : Workspace) (name : String) : StopsAs side (w.handle name) :=
  stopsAs_find w.handles name .engine

theorem stopsAs_engine (w : Workspace) (name : String) : StopsAs side (w.engine name) := by
  refine (stopsAs_handle w name).bind fun index => ?_
  split
  · exact stopsAs_ok _
  · exact stopsAs_missing _

theorem stopsAs_property (w : Workspace) (spec : PropertySpec) : StopsAs side (w.property spec) := by
  unfold property
  split
  · exact stopsAs_ok _
  · exact (stopsAs_schema w _).bind fun _ => stopsAs_ok _

theorem stopsAs_build (w : Workspace) (id name : String) (base : Option String)
    (specs : List PropertySpec) : StopsAs isExpected (w.build id name base specs).answer := by
  have built : StopsAs isExpected (do
      let own ← specs.mapM w.property
      let b ← base.mapM w.schema
      (Schema.build ⟨w.nextSchema⟩ name b own).mapError .failed : Except Obstacle Schema) :=
    (stopsAs_mapM fun spec _ => stopsAs_property w spec).bind fun own =>
      (stopsAs_option_mapM (stopsAs_schema w) base).bind fun b =>
        (Schema.failsAs_build _ _ _ _).stopsAs
  unfold Workspace.build
  dsimp only
  split
  · next failed =>
    exact built.of_error failed
  · exact stopsAs_ok _

theorem stopsAs_describe (w : Workspace) (schema : String) (lookup : Option String) :
    StopsAs side (w.describe schema lookup) :=
  (stopsAs_schema w schema).bind fun _ => stopsAs_ok _

theorem stopsAs_find_property (s : Schema) (property : String) : StopsAs side (s.find property) := by
  unfold Schema.find
  split
  · exact stopsAs_ok _
  · exact stopsAs_missing _

theorem stopsAs_resolveDefault (w : Workspace) (schema property engine : String)
    (report : Property → Initializer → Report) :
    StopsAs isExpected (w.resolveDefault schema property engine report).answer := by
  have found : StopsAs isExpected (do
      let s ← w.schema schema
      let p ← s.find property
      return (s, p, ← w.engine engine) : Except Obstacle (Schema × Property × Engine)) :=
    (stopsAs_schema w schema).bind fun s => (stopsAs_find_property s property).bind fun p =>
      (stopsAs_engine w engine).bind fun e => stopsAs_ok _
  unfold Workspace.resolveDefault
  dsimp only
  split
  · next failed =>
    exact found.of_error failed
  · next s p e _ =>
    exact ((Initializer.failsAs_resolve s.name p e.catalog).mono
      SettingsError.isExpected_of_isGeneration).stopsAs.map _

theorem stopsAs_blueprint (w : Workspace) (schema engine : String) :
    StopsAs side (w.blueprint schema engine).answer := by
  have found : StopsAs side (do
      let s ← w.schema schema
      return (s, ← w.engine engine) : Except Obstacle (Schema × Engine)) :=
    (stopsAs_schema w schema).bind fun s => (stopsAs_engine w engine).bind fun e => stopsAs_ok _
  unfold Workspace.blueprint
  dsimp only
  split
  · next failed =>
    exact found.of_error failed
  · exact stopsAs_ok _

theorem stopsAs_atNotifier {f : NotifierId → Hub → Except Obstacle (Hub → Report) × Hub}
    (h : ∀ n hub, StopsAs side (f n hub).1) (w : Workspace) (name : String) :
    StopsAs side (w.atNotifier name f).answer := by
  have found : StopsAs side (find w.notifiers name .notifier) :=
    stopsAs_find w.notifiers name .notifier
  unfold Workspace.atNotifier
  split
  · next failed =>
    exact found.of_error failed
  · exact (h _ _).map _

/-! ## Engines -/

namespace Sound

/-- What engines answer are generation errors, if they are errors. -/
theorem inGeneration (sound : w.Sound known) {name : String} {engine : Engine}
    (found : w.engine name = .ok engine) : ∀ entry ∈ engine.cache, entry.2.InGeneration := by
  obtain ⟨schemas, holds⟩ := sound.engines engine (mem_of_engine found)
  exact holds.inGeneration sound.registry.toIdentified

theorem stopsAs_ask (sound : w.Sound known) (name : String) {request : Engine → Engine.Reply α}
    (h : ∀ engine : Engine, (∀ entry ∈ engine.cache, entry.2.InGeneration) →
      FailsAs side (request engine).answer) : StopsAs side (w.ask name request).answer := by
  unfold Workspace.ask
  cases hindex : w.handle name with
  | error e => exact (stopsAs_handle w name).of_error hindex
  | ok index =>
      cases found : w.engine name with
      | error e => exact (stopsAs_engine w name).of_error found
      | ok engine => exact (h engine (sound.inGeneration found)).stopsAs

theorem stopsAs_factory (sound : w.Sound known) (name : String) (s : Schema) (kind : Kind) :
    StopsAs isExpected (w.ask name fun e => e.factory s kind).answer :=
  sound.stopsAs_ask name fun _ cached =>
    (Engine.failsAs_factory cached s kind).mono SettingsError.isExpected_of_isGeneration

theorem stopsAs_typeOf (sound : w.Sound known) (schema : String) (kind : Kind) (engine : String)
    (saveAs : Option String) :
    StopsAs isExpected (w.typeOf schema kind engine saveAs).answer := by
  unfold Workspace.typeOf
  cases found : w.schema schema with
  | error e => exact (stopsAs_schema w schema).of_error found
  | ok s =>
      have asked : StopsAs isExpected (w.ask engine fun e => e.typeOf s kind).answer :=
        sound.stopsAs_ask engine fun _ cached =>
          (Engine.failsAs_typeOf cached s kind).mono SettingsError.isExpected_of_isGeneration
      dsimp only
      generalize w.ask engine (fun e => e.typeOf s kind) = attempt at asked
      obtain ⟨answer, after⟩ := attempt
      cases answer with
      | error e => exact asked.of_error rfl
      | ok shape => exact stopsAs_ok _

theorem stopsAs_newFactory (sound : w.Sound known) (schema : String) (kind : Kind)
    (engine name : String) : StopsAs isExpected (w.newFactory schema kind engine name).answer := by
  unfold Workspace.newFactory
  cases found : w.schema schema with
  | error e => exact (stopsAs_schema w schema).of_error found
  | ok s =>
      have asked := sound.stopsAs_factory engine s kind
      dsimp only
      generalize w.ask engine (fun e => e.factory s kind) = attempt at asked
      obtain ⟨answer, after⟩ := attempt
      cases answer with
      | error e => exact asked.of_error rfl
      | ok factory => exact stopsAs_ok _

/-! ## New instances and resets -/

theorem stopsAs_factoryOf (sound : w.Sound known) (maker : Maker) :
    StopsAs isExpected (w.factoryOf maker).answer := by
  unfold Workspace.factoryOf
  cases maker with
  | factory name => exact stopsAs_find w.factories name .factory
  | schema name kind engine =>
      dsimp only
      cases found : w.schema name with
      | error e => exact (stopsAs_schema w name).of_error found
      | ok s => exact sound.stopsAs_factory engine s kind

theorem stopsAs_create (sound : w.Sound known) (name : String) (maker : Maker)
    (source : Option Location) : StopsAs isExpected (w.create name maker source).answer := by
  unfold Workspace.create
  cases found : source.mapM w.read with
  | error e =>
      have read := stopsAs_option_mapM (stopsAs_read w) source
      exact (read.mono SettingsError.isExpected_of_isRefusal).of_error found
  | ok from? =>
      have available := sound.stopsAs_factoryOf maker
      dsimp only
      generalize w.factoryOf maker = attempt at available
      obtain ⟨answer, after⟩ := attempt
      cases answer with
      | error e => exact available.of_error rfl
      | ok factory =>
          have made := factory.failsAs_create from? after.context
          dsimp only
          generalize factory.create from? after.context = created at made
          obtain ⟨answer, context⟩ := created
          cases answer with
          | error e =>
              exact (made.mono SettingsError.isExpected_of_isRefusal).stopsAs.of_error rfl
          | ok x => exact stopsAs_ok _

/-- What a reset does to an instance answers as the engine does. -/
theorem failsAs_resetting (sound : w.Sound known) {name : String} {x : Settings} {c : Context}
    {index : Nat} {engine : Engine} {answer : Except SettingsError Unit}
    (h : (resetting w name x c).1 = .ok (index, engine, answer)) : FailsAs isExpected answer := by
  unfold resetting at h
  cases hindex : w.handle name with
  | error e => rw [hindex] at h; cases h
  | ok i =>
      cases found : w.engine name with
      | error e => rw [hindex, found] at h; cases h
      | ok old =>
          rw [hindex, found] at h
          cases h
          exact Engine.failsAs_reset (sound.inGeneration found) x c

theorem stopsAs_resetting (w : Workspace) (name : String) (x : Settings) (c : Context) :
    StopsAs side (resetting w name x c).1 := by
  unfold resetting
  cases hindex : w.handle name with
  | error e => exact (stopsAs_handle w name).of_error hindex
  | ok index =>
      cases found : w.engine name with
      | error e => exact (stopsAs_engine w name).of_error found
      | ok engine => exact stopsAs_ok _

theorem stopsAs_reset (sound : w.Sound known) (place : Location) (name : String) :
    StopsAs isExpected (w.reset place name).answer := by
  have edited : StopsAs isExpected (w.edit place (resetting w name)).answer :=
    (stopsAs_edit (stopsAs_resetting w name)).mono SettingsError.isExpected_of_isRefusal
  obtain ⟨-, -, answers⟩ := sound.edit place (sound.operates_resetting name)
  have unfolded : w.reset place name = afterReset (w.edit place (resetting w name)) := rfl
  rw [unfolded]
  generalize w.edit place (resetting w name) = attempt at edited answers
  obtain ⟨answer, w'⟩ := attempt
  cases answer with
  | error e => exact edited.of_error rfl
  | ok a =>
      obtain ⟨index, engine, answer⟩ := a
      obtain ⟨x, c, -, h⟩ := answers _ rfl
      exact (failsAs_map.2 (sound.failsAs_resetting h)).stopsAs

/-! ## Steps -/

/-- Every error of a step may be expected. -/
theorem stopsAs_act (sound : w.Sound known) (action : Action) :
    StopsAs isExpected (w.act action).answer := by
  -- steps that work on an instance by themselves refuse; the others are taken one by one
  by_cases inside : action.place?.isSome = true
  · exact (Workspace.stopsAs_act w inside).mono SettingsError.isExpected_of_isRefusal
  cases action with
  | newEngine | drop | newNotifier | newProvider | dropProvider => exact stopsAs_ok _
  | cloneEngine name source =>
      unfold Workspace.act
      dsimp only
      cases hindex : w.handle source with
      | error e => exact (stopsAs_handle w source).of_error hindex
      | ok index =>
          cases found : w.engine source with
          | error e => exact (stopsAs_engine w source).of_error found
          | ok engine => exact stopsAs_ok _
  | build id name base properties => exact stopsAs_build w id name base properties
  | describe schema lookup => exact stopsAs_describe w schema lookup
  | isA schema ancestor =>
      exact (stopsAs_schema w schema).bind fun s => (stopsAs_schema w ancestor).bind fun _ => stopsAs_ok _
  | typeOf schema kind engine saveAs => exact sound.stopsAs_typeOf schema kind engine saveAs
  | compareShapes first second =>
      exact (stopsAs_find w.shapes first .shape).bind fun a =>
        (stopsAs_find w.shapes second .shape).bind fun b => stopsAs_ok _
  | resolved schemas engine =>
      exact (stopsAs_mapM fun id _ => (stopsAs_schema w id).bind fun _ => stopsAs_ok _).bind
        fun known => (stopsAs_engine w engine).bind fun e => stopsAs_ok _
  | resolveDefault schema property engine => exact stopsAs_resolveDefault w schema property engine _
  | blueprint schema engine => exact stopsAs_blueprint w schema engine
  | newFactory schema kind engine name => exact sound.stopsAs_newFactory schema kind engine name
  | create name maker source => exact sound.stopsAs_create name maker source
  | reset place engine => exact sound.stopsAs_reset place engine
  | holdNotifier place name =>
      unfold Workspace.act
      dsimp only
      cases found : w.read place with
      | error e =>
          exact ((stopsAs_read w place).mono SettingsError.isExpected_of_isRefusal).of_error found
      | ok x =>
          dsimp only
          split <;> exact stopsAs_ok _
  | sameNotifier place name =>
      exact (stopsAs_find w.notifiers name .notifier).bind fun held =>
        ((stopsAs_read w place).mono SettingsError.isExpected_of_isRefusal).bind fun x => stopsAs_ok _
  | notifierSubscribe name client reaction => exact stopsAs_atNotifier (fun _ _ => stopsAs_ok _) w name
  | notifierUnsubscribe name client =>
      refine stopsAs_atNotifier (fun n hub => ?_) w name
      dsimp only
      split
      · exact stopsAs_missing _
      · exact stopsAs_ok _
  | notifierCount name => exact stopsAs_atNotifier (fun _ _ => stopsAs_ok _) w name
  | notifierNotify name property => exact stopsAs_atNotifier (fun _ _ => stopsAs_ok _) w name
  | debugList place property =>
      exact (stopsAs_inspect fun x => failsAs_map.2 (x.failsAs_list property)).mono
        SettingsError.isExpected_of_isRefusal
  | debugDict place property =>
      exact (stopsAs_inspect fun x => failsAs_map.2 (x.failsAs_dict property)).mono
        SettingsError.isExpected_of_isRefusal
  | debugNotifier place =>
      exact (stopsAs_inspect fun x => failsAs_ok _).mono SettingsError.isExpected_of_isRefusal
  | debugEngine engine => exact (stopsAs_engine w engine).bind fun e => stopsAs_ok _
  | debugInitializer schema property engine => exact stopsAs_resolveDefault w schema property engine _
  | _ => exact absurd rfl inside

end Sound

end Workspace

end SettingsForge
