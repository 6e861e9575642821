import SettingsForge.Proofs.Settings.Typed
import SettingsForge.Proofs.Workspace.Steps

set_option autoImplicit false

/-! # Every instance has its engine

An engine backs an instance if it serves the instance's schema for the instance's kind, the instance
conforms to what this one engine makes, and its dictionaries hold the engine's own number
(`Engine.Backs`). In a workspace that a run reaches each named instance is backed by one of the engines,
and each factory supplied by one (`Workspace.Supplied`): an instance begins with a factory, evolves by
what its own blueprints make, and engines only learn. -/

namespace SettingsForge

open Hub Settings

variable {known : Schema → Prop}

/-! ## The engine that an instance comes from -/

/-- A dictionary has its entries from the engine. -/
def ContentOf.From (id : EngineId) : Content → Prop
  | .dict d _ => d.engine = id
  | _ => True

/-- All dictionaries in an instance, at any depth, have their entries from the engine. -/
def Settings.From (id : EngineId) (x : Settings) : Prop :=
  ∀ y ∈ x.parts, ∀ slot ∈ y.slots, slot.content.From id

theorem ContentOf.Rewritten.from {content other : Content} (h : content.Rewritten other)
    (id : EngineId) : other.From id := by
  cases h <;> trivial

/-- What is from the engine may fill a frame that was filled so before. -/
theorem Frame.from_fill {f : Frame} {content other : Content} {id : EngineId}
    (h : (f.fill content).From id) (own : other.From id)
    (inside : ∀ e ∈ other.entries, e.settings.From id) : (f.fill other).From id := by
  intro y mem
  rcases (f.mem_parts_fill other).1 mem with rfl | mem | mem
  · have before := h _ (self_mem_parts _)
    simp only [Frame.mem_slots_fill, forall_eq_or_imp] at before ⊢
    exact ⟨own, before.2⟩
  · obtain ⟨e, he, mem⟩ := ContentOf.mem_parts.1 mem
    exact inside e he y mem
  · exact h y ((f.mem_parts_fill content).2 (Or.inr (Or.inr mem)))

/-- The content of a frame is from the engine, and so are the entries there. -/
theorem Frame.content_from {f : Frame} {content : Content} {id : EngineId}
    (h : (f.fill content).From id) :
    content.From id ∧ ∀ e ∈ content.entries, e.settings.From id := by
  have slot_mem := (f.mem_slots_fill content).2 (Or.inl rfl)
  exact ⟨h _ (self_mem_parts _) _ slot_mem,
    fun e he y mem => h y (mem_parts_of_entry slot_mem he mem)⟩

theorem Blueprint.from_make (blueprint : Blueprint) (engine : EngineId) (kind : Kind) (hub : Hub) :
    (blueprint.make engine kind hub).1.From engine := by
  intro y mem
  rw [parts_make, List.mem_singleton] at mem
  subst mem
  rw [slots_make, List.forall_mem_map]
  intro plan _
  unfold SlotPlan.slot SlotPlan.content
  dsimp only
  split <;> trivial

/-- Entries come from the engine of their dictionary, and all that evolves inside them does. -/
theorem Settings.Evolves.from {x y : Settings} {hub after : Hub} {ns : List Notice}
    (h : Evolves x hub ns y after) {id : EngineId} (made : x.From id) : y.From id := by
  induction h with
  | refl | announce | discard => exact made
  | trans _ _ ih ih' => exact ih' (ih made)
  | link x link =>
      refine forall_parts_setProvider x link made fun own => ?_
      rw [slots_setProvider]
      exact own
  | rewrite f hub rewritten =>
      refine f.from_fill made (rewritten.from id) fun e he => ?_
      rw [rewritten.entries.2] at he
      cases he
  | drop f dict before e after hub =>
      obtain ⟨own, inside⟩ := f.content_from made
      refine f.from_fill made own fun e' mem => inside e' ?_
      exact ((List.sublist_cons_self ..).append_left _).subset mem
  | @add f dict before after key heard made' y ns hub₁ hub₂ hub₃ hub₄ hmake evolves _ _ ih =>
      obtain ⟨own, inside⟩ := f.content_from made
      have first := dict.blueprint.from_make dict.engine f.kind hub₁
      rw [hmake, show dict.engine = id from own] at first
      refine f.from_fill made own ?_
      simp only [ContentOf.entries, List.forall_mem_append, List.forall_mem_cons] at inside ⊢
      exact ⟨inside.1, ih first, inside.2⟩
  | inside f dict before e after evolves ih =>
      obtain ⟨own, inside⟩ := f.content_from made
      refine f.from_fill made own ?_
      simp only [ContentOf.entries, List.forall_mem_append, List.forall_mem_cons] at inside ⊢
      exact ⟨inside.1, ih inside.2.1, inside.2.2⟩

/-! ## Engines and what they make -/

namespace Engine

variable {engine later : Engine} {factory : Factory} {x y : Settings}

/-- The engine gave the factory and still serves it. -/
structure Supplies (known : Schema → Prop) (engine : Engine) (factory : Factory) : Prop where
  own : factory.engine = engine.serial
  serves : Serves known engine factory.blueprint.schema factory.kind
  made : (factory.blueprint.schema.resolve engine.catalog).blueprint = .ok factory.blueprint

/-- The instance comes from the engine, which serves its schema and makes everything that is in it. -/
structure Backs (known : Schema → Prop) (engine : Engine) (x : Settings) : Prop where
  own : x.From engine.serial
  serves : Serves known engine x.schema x.kind
  conforms : x.Conforms known [engine.catalog]

theorem Supplies.learns (h : Supplies known engine factory) (learns : Learns engine later) :
    Supplies known later factory :=
  ⟨learns.serial ▸ h.own, h.serves.learns learns, learns.catalog ▸ h.made⟩

theorem Backs.learns (h : Backs known engine x) (learns : Learns engine later) :
    Backs known later x :=
  ⟨learns.serial ▸ h.own, h.serves.learns learns, learns.catalog ▸ h.conforms⟩

theorem Supplies.mono (h : Supplies known engine factory) {wider : Schema → Prop}
    (sub : ∀ s, known s → wider s) : Supplies wider engine factory :=
  ⟨h.own, h.serves.mono sub, h.made⟩

theorem Backs.mono (h : Backs known engine x) {wider : Schema → Prop}
    (sub : ∀ s, known s → wider s) : Backs wider engine x :=
  ⟨h.own, h.serves.mono sub, h.conforms.mono sub (List.Subset.refl _)⟩

/-- The schema and the kind of an instance stay, and what comes into it is made by its blueprints. -/
theorem Backs.evolves (registry : Schema.Registry known) (h : Backs known engine x) {hub after : Hub}
    {ns : List Notice} (evolves : Evolves x hub ns y after) : Backs known engine y := by
  have alike := evolves.alike
  refine ⟨evolves.from h.own, ?_, evolves.conforms registry h.conforms⟩
  rw [alike.schema, alike.kind]
  exact h.serves

/-- An engine backs what its factories make. -/
theorem Supplies.backs_make (h : Supplies known engine factory) (hub : Hub) :
    Backs known engine (factory.blueprint.make factory.engine factory.kind hub).1 := by
  have made : factory.blueprint.MadeFor [engine.catalog] factory.blueprint.schema :=
    ⟨_, List.mem_singleton_self _, h.made⟩
  refine ⟨h.own ▸ factory.blueprint.from_make factory.engine factory.kind hub, ?_,
    (made.conforms_make h.serves.known factory.engine factory.kind hub).1⟩
  rw [Blueprint.schema_make, Blueprint.kind_make]
  exact h.serves

/-- An engine supplies the factory that it answers with. -/
theorem Held.supplies (identified : Schema.Identified known) (h : Held known engine) {s : Schema}
    (hs : known s) {kind : Kind} (answer : (engine.factory s kind).answer = .ok factory) :
    Supplies known (engine.factory s kind).engine factory := by
  obtain ⟨schemas, holds⟩ := h
  obtain ⟨serial, rfl, made, serves⟩ := serves_of_factory identified holds hs answer
  have own := (Blueprint.plans_of_resolve made).1
  have learned := learns_factory engine s factory.kind
  rw [← own] at made serves
  refine ⟨serial.trans learned.serial.symm, own ▸ serves, ?_⟩
  rw [learned.catalog]
  exact made

end Engine

namespace Workspace

open Engine (Backs Supplies Learns)

variable {w : Workspace}

structure Supplied (known : Schema → Prop) (w : Workspace) : Prop where
  instances : ∀ entry ∈ w.instances, ∃ engine ∈ w.engines, Backs known engine entry.2
  factories : ∀ entry ∈ w.factories, ∃ engine ∈ w.engines, Supplies known engine entry.2

/-- One engine of the workspace is the one that all dictionaries in the instance, at any depth, have their
    entries from. Asked for the schema and the kind of any of them it answers at once with the blueprint
    that the dictionary has, and learns and writes down nothing. -/
def HasEngineOf (w : Workspace) (x : Settings) : Prop :=
  ∃ engine ∈ w.engines, ∀ y ∈ x.parts, ∀ property dict entries,
    y.dict property = .ok (dict, entries) → w.engines[dict.engine]? = some engine ∧
      engine.factory dict.blueprint.schema y.kind =
        ⟨.ok ⟨dict.engine, dict.blueprint, y.kind⟩, engine, []⟩

/-! ## Asking engines -/

/-- What asking an engine does: there is none, or the one behind the handle answers and learns. -/
inductive AskCases {α : Type} (w : Workspace) (request : Engine → Engine.Reply α) :
    Attempt Workspace α → Prop
  | nowhere {o : Obstacle} : AskCases w request ⟨.error o, w⟩
  | there {index : Nat} {engine : Engine} : w.engines[index]? = some engine →
      AskCases w request ⟨(request engine).answer.mapError .failed,
        { w.setEngine index (request engine).engine with
          context := w.context.note (request engine).journal }⟩

theorem getElem?_of_engine {name : String} {index : Nat} {e : Engine}
    (hindex : w.handle name = .ok index) (he : w.engine name = .ok e) :
    w.engines[index]? = some e := by
  unfold Workspace.engine at he
  rw [hindex] at he
  simp only [bind, Except.bind] at he
  split at he
  · next found =>
    cases he
    exact found
  · cases he

theorem mem_of_engine {name : String} {e : Engine} (he : w.engine name = .ok e) : e ∈ w.engines := by
  cases hindex : w.handle name with
  | ok index => exact List.mem_of_getElem? (getElem?_of_engine hindex he)
  | error o =>
      unfold Workspace.engine at he
      rw [hindex] at he
      cases he

theorem ask_cases {α : Type} (w : Workspace) (name : String) (request : Engine → Engine.Reply α) :
    AskCases w request (w.ask name request) := by
  unfold Workspace.ask
  cases hindex : w.handle name with
  | error e => exact .nowhere
  | ok index =>
      cases he : w.engine name with
      | error e => exact .nowhere
      | ok engine => exact .there (getElem?_of_engine hindex he)

theorem supplied_start (known : Schema → Prop) (name : String) (catalog : Catalog) :
    (start name catalog).Supplied known where
  instances _ mem := by cases mem
  factories _ mem := by cases mem

namespace Supplied

theorem mono (supplied : w.Supplied known) {wider : Schema → Prop}
    (sub : ∀ s, known s → wider s) : w.Supplied wider where
  instances entry mem := by
    obtain ⟨engine, there, backs⟩ := supplied.instances entry mem
    exact ⟨engine, there, backs.mono sub⟩
  factories entry mem := by
    obtain ⟨engine, there, supplies⟩ := supplied.factories entry mem
    exact ⟨engine, there, supplies.mono sub⟩

/-- Engines come or learn, and nothing else changes. -/
theorem of_learns (supplied : w.Supplied known) {after : Workspace}
    (engines : ∀ engine ∈ w.engines, ∃ later ∈ after.engines, Learns engine later)
    (instances : after.instances = w.instances) (factories : after.factories = w.factories) :
    after.Supplied known where
  instances entry mem := by
    obtain ⟨engine, there, backs⟩ := supplied.instances entry (instances ▸ mem)
    obtain ⟨later, there, learns⟩ := engines engine there
    exact ⟨later, there, backs.learns learns⟩
  factories entry mem := by
    obtain ⟨engine, there, supplies⟩ := supplied.factories entry (factories ▸ mem)
    obtain ⟨later, there, learns⟩ := engines engine there
    exact ⟨later, there, supplies.learns learns⟩

/-- An engine learns. -/
theorem setEngine (supplied : w.Supplied known) {index : Nat} {old engine : Engine}
    (there : w.engines[index]? = some old) (learns : Learns old engine) :
    (w.setEngine index engine).Supplied known := by
  refine supplied.of_learns (fun e mem => ?_) rfl rfl
  obtain ⟨lt, rfl⟩ := List.getElem?_eq_some_iff.1 there
  obtain ⟨i, hi, rfl⟩ := List.mem_iff_getElem.1 mem
  have hi' : i < (w.engines.set index engine).length := by rwa [List.length_set]
  refine ⟨(w.engines.set index engine)[i], List.getElem_mem hi', ?_⟩
  rw [List.getElem_set]
  split
  · next same =>
    subst same
    exact learns
  · exact .refl _

theorem ask (supplied : w.Supplied known) {α : Type} (name : String)
    {request : Engine → Engine.Reply α} {s : Schema} {kind : Kind}
    (same : ∀ engine, (request engine).engine = (engine.factory s kind).engine) :
    (w.ask name request).subject.Supplied known := by
  have cases := ask_cases w name request
  generalize w.ask name request = attempt at cases
  cases cases with
  | nowhere => exact supplied
  | @there index engine there =>
      have learns : Learns engine (request engine).engine := same engine ▸ Engine.learns_factory ..
      exact { supplied.setEngine there learns with }

/-- The factory that is asked for is supplied. -/
theorem supplies_of_ask (sound : w.Sound known) {name : String} {s : Schema} (hs : known s)
    {kind : Kind} {factory : Engine.Factory}
    (answer : (w.ask name fun e => e.factory s kind).answer = .ok factory) :
    ∃ engine ∈ (w.ask name fun e => e.factory s kind).subject.engines,
      Supplies known engine factory := by
  have cases := ask_cases w name fun e => e.factory s kind
  generalize (w.ask name fun e => e.factory s kind) = attempt at cases answer
  cases cases with
  | nowhere => cases answer
  | @there index engine there =>
      have held := sound.engines engine (List.mem_of_getElem? there)
      have answered : (engine.factory s kind).answer = .ok factory := by
        dsimp only at answer
        cases found : (engine.factory s kind).answer with
        | error e =>
            rw [found] at answer
            cases answer
        | ok f =>
            rw [found] at answer
            cases answer
            rfl
      obtain ⟨lt, -⟩ := List.getElem?_eq_some_iff.1 there
      exact ⟨_, List.mem_set lt _, held.supplies sound.registry.toIdentified hs answered⟩

/-! ## Instances -/

/-- An instance comes under a name. -/
theorem putInstance (supplied : w.Supplied known) {name : String} {x : Settings}
    (backed : ∃ engine ∈ w.engines, Backs known engine x) (c : Context) :
    Supplied known { w.putInstance name x with context := c } := by
  refine { supplied with instances := fun entry mem => ?_ }
  rcases Keyed.mem_insert mem with rfl | mem
  · exact backed
  · exact supplied.instances entry mem

theorem edit (sound : w.Sound known) (supplied : w.Supplied known) {α : Type} (place : Location)
    {f : Settings → Context → Except Obstacle α × Settings × Context}
    (operates : Operates known w.catalogs f) : (w.edit place f).subject.Supplied known := by
  have cases := edit_cases w place f
  generalize w.edit place f = attempt at cases
  cases cases with
  | nowhere => exact { supplied with }
  | @there root x c mem _ followed _ =>
      have root_conforms : root.Conforms known w.catalogs := sound.conforms _ mem
      have conforms := root_conforms.part
        (mem_parts_of_follow sound.registry root_conforms followed)
      obtain ⟨ns, evolves, -⟩ :=
        operated_replaceAt sound.registry root_conforms followed (operates x c conforms)
      obtain ⟨engine, there, backs⟩ := supplied.instances _ mem
      exact supplied.putInstance ⟨engine, there, backs.evolves sound.registry evolves⟩ _

/-- Where factories come from. -/
theorem factoryOf (sound : w.Sound known) (supplied : w.Supplied known) (maker : Maker) :
    (w.factoryOf maker).subject.Supplied known ∧
      ∀ factory, (w.factoryOf maker).answer = .ok factory →
        ∃ engine ∈ (w.factoryOf maker).subject.engines, Supplies known engine factory := by
  unfold Workspace.factoryOf
  cases maker with
  | factory name =>
      refine ⟨supplied, fun factory h => ?_⟩
      exact supplied.factories _ (Keyed.mem_of_lookup (find_eq_ok.1 h))
  | schema name kind engine =>
      dsimp only
      cases found : w.schema name with
      | error e => exact ⟨supplied, fun factory h => by cases h⟩
      | ok s =>
          exact ⟨supplied.ask engine fun _ => rfl,
            fun factory h => supplies_of_ask sound (sound.schema found) h⟩

theorem create (sound : w.Sound known) (supplied : w.Supplied known) (name : String) (maker : Maker)
    (source : Option Location) : (w.create name maker source).subject.Supplied known := by
  unfold Workspace.create
  cases from_eq : source.mapM w.read with
  | error e => exact supplied
  | ok from? =>
      have sorted : ∀ s ∈ from?, s.KeysSorted := sound.sorted_sources from_eq
      obtain ⟨-, -, made⟩ := sound.factoryOf maker
      obtain ⟨after, supplies⟩ := supplied.factoryOf sound maker
      generalize w.factoryOf maker = attempt at after made supplies
      obtain ⟨answer, w'⟩ := attempt
      cases answer with
      | error e => exact after
      | ok factory =>
          obtain ⟨s, hs, made_for⟩ := made factory rfl
          obtain ⟨engine, there, supplies⟩ := supplies factory rfl
          have after : w'.Supplied known := after
          obtain ⟨made, between, ns, y, hmake, evolves, only⟩ := Blueprint.create_spec sound.registry
            made_for hs factory.engine factory.kind sorted w'.context
          -- the instance evolves from what the factory makes
          have backs := supplies.backs_make w'.context.hub
          rw [hmake] at backs
          dsimp only
          unfold Engine.Factory.create at *
          generalize factory.blueprint.create factory.engine factory.kind from? w'.context = created at *
          obtain ⟨answer, c⟩ := created
          cases answer with
          | error e => exact { after with }
          | ok x =>
              cases only x rfl
              exact after.putInstance ⟨engine, there, backs.evolves sound.registry evolves⟩ _

/-! ## Steps -/

theorem reset (sound : w.Sound known) (supplied : w.Supplied known) (place : Location)
    (name : String) : (w.reset place name).subject.Supplied known := by
  have after := supplied.edit sound place (sound.operates_resetting name)
  obtain ⟨-, engines, answers⟩ := sound.edit place (sound.operates_resetting name)
  have unfolded : w.reset place name = Sound.afterReset (w.edit place (Sound.resetting w name)) := rfl
  rw [unfolded]
  generalize w.edit place (Sound.resetting w name) = attempt at after engines answers
  obtain ⟨answer, w'⟩ := attempt
  cases answer with
  | error e => exact after
  | ok a =>
      obtain ⟨index, engine, answer⟩ := a
      obtain ⟨x, c, conforms, h⟩ := answers _ rfl
      obtain ⟨old, there, -, learns⟩ := sound.held_of_resetting conforms h
      have engines : w'.engines = w.engines := engines
      exact Supplied.setEngine after (engines ▸ there) learns

/-- A step that edits keeps every instance backed. -/
theorem edits (sound : w.Sound known) (supplied : w.Supplied known) {action : Action}
    {place : Location} (h : action.edited = some place) :
    (w.act action).subject.Supplied known := by
  by_cases other : ∀ engine, action ≠ .reset place engine
  · obtain ⟨α, f, operates, same⟩ := sound.exists_edit h other
    rw [same]
    exact supplied.edit sound place operates
  · push Not at other
    obtain ⟨engine, rfl⟩ := other
    exact supplied.reset sound place engine

theorem newFactory (sound : w.Sound known) (supplied : w.Supplied known) (schema : String)
    (kind : Kind) (engine name : String) :
    (w.newFactory schema kind engine name).subject.Supplied known := by
  unfold Workspace.newFactory
  cases found : w.schema schema with
  | error e => exact supplied
  | ok s =>
      have after := @ask _ _ supplied _ engine (fun e => e.factory s kind) s kind fun _ => rfl
      have supplies := fun factory =>
        @supplies_of_ask _ _ sound engine s (sound.schema found) kind factory
      dsimp only
      generalize w.ask engine (fun e => e.factory s kind) = attempt at after supplies
      obtain ⟨answer, w'⟩ := attempt
      cases answer with
      | error e => exact after
      | ok factory =>
          have after : w'.Supplied known := after
          refine { after with factories := fun entry mem => ?_ }
          rcases Keyed.mem_insert mem with rfl | mem
          · exact supplies factory rfl
          · exact after.factories entry mem

theorem typeOf (supplied : w.Supplied known) (schema : String) (kind : Kind) (engine : String)
    (saveAs : Option String) : (w.typeOf schema kind engine saveAs).subject.Supplied known := by
  unfold Workspace.typeOf
  cases found : w.schema schema with
  | error e => exact supplied
  | ok s =>
      have after := @ask _ _ supplied _ engine (fun e => e.typeOf s kind) s kind fun _ => rfl
      dsimp only
      generalize w.ask engine (fun e => e.typeOf s kind) = attempt at after
      obtain ⟨answer, w'⟩ := attempt
      cases answer with
      | error e => exact after
      | ok shape =>
          cases saveAs with
          | none => exact after
          | some name => exact { after with }

theorem newEngine (supplied : w.Supplied known) (name : String) (catalog : Catalog) :
    (w.addEngine name catalog).Supplied known :=
  supplied.of_learns (fun engine mem => ⟨engine, List.mem_append_left _ mem, .refl engine⟩) rfl rfl

/-- Every step keeps every instance backed and every factory supplied. -/
theorem act (sound : w.Sound known) (supplied : w.Supplied known) (action : Action) :
    (w.act action).subject.Supplied known := by
  -- the steps that touch an engine, an instance or a factory are taken one by one
  cases edited : action.edited with
  | some place => exact supplied.edits sound edited
  | none =>
    cases action with
    | newEngine name catalog => exact supplied.newEngine name catalog
    | typeOf schema kind engine saveAs => exact supplied.typeOf schema kind engine saveAs
    | newFactory schema kind engine name => exact supplied.newFactory sound schema kind engine name
    | create name maker source => exact supplied.create sound name maker source
    | drop name =>
        exact { supplied with
          instances := fun entry mem => supplied.instances entry (List.mem_of_mem_filter mem) }
    | dictForEdit place property =>
        exact supplied.edit sound place (Sound.operates_dictForEdit property Report.ofDict)
    | setProvider place provider key =>
        unfold Workspace.act Workspace.setProvider
        dsimp only
        split
        · exact supplied
        · exact supplied.edit sound place (Sound.operates_setProvider _)
    | build id name base properties =>
        unfold Workspace.act Workspace.build
        dsimp only
        split
        · exact supplied
        · exact { supplied with }
    | set | reset | copy | copyUntyped | editList | addEntry | deleteEntry | assignDict => cases edited
    | cloneEngine | holdNotifier =>
        unfold Workspace.act
        dsimp only
        repeat' split
        all_goals exact { supplied with }
    | subscribe =>
        unfold Workspace.act Workspace.subscribe
        dsimp only
        repeat' split
        all_goals exact { supplied with }
    | unsubscribe =>
        unfold Workspace.act Workspace.unsubscribe
        dsimp only
        repeat' split
        all_goals exact { supplied with }
    | resolveDefault | debugInitializer =>
        unfold Workspace.act Workspace.resolveDefault
        dsimp only
        split <;> exact { supplied with }
    | blueprint =>
        unfold Workspace.act Workspace.blueprint
        dsimp only
        split <;> exact { supplied with }
    | notifierSubscribe | notifierUnsubscribe | notifierCount | notifierNotify =>
        unfold Workspace.act Workspace.atNotifier
        dsimp only
        split <;> exact { supplied with }
    | _ => exact { supplied with }

/-- The engine that backs an instance is asked behind each edit of a dictionary in it. -/
theorem hasEngineOf (sound : w.Sound known) (supplied : w.Supplied known) {place : Location}
    {x : Settings} (read : w.read place = .ok x) : w.HasEngineOf x := by
  obtain ⟨root, there, -, part, -⟩ := sound.read read
  obtain ⟨engine, mem, backs⟩ := supplied.instances _ there
  refine ⟨engine, mem, fun y hy property dict entries found => ?_⟩
  obtain ⟨schemas, holds⟩ := sound.engines engine mem
  have identified := sound.registry.toIdentified
  have inside := parts_trans part hy
  obtain ⟨nested, hn, made⟩ := (backs.conforms.part inside).made_of_dict found
  -- the engine serves the root's schema, and so all that is nested in it
  have reaches := (backs.conforms.reaches inside).trans (.of_mem_nested hn)
  have serves := backs.serves.reaches identified holds reaches
  rw [← (sound.forest.rooted _ there).toWired.kind_eq inside] at serves
  obtain ⟨catalog, own, resolved⟩ := made
  rw [List.mem_singleton.1 own] at resolved
  obtain ⟨slot, hs, held⟩ := exists_slot (content_of_dict found)
  have own := backs.own y inside slot hs
  rw [held] at own
  have own : dict.engine = engine.serial := own
  obtain ⟨i, at_i⟩ := List.mem_iff_getElem?.1 mem
  rw [own, (Blueprint.plans_of_resolve resolved).1]
  exact ⟨sound.places i engine at_i ▸ at_i, serves.reply resolved⟩

end Supplied

/-- In a workspace that a run reaches every instance has its engine. -/
theorem Reachable.supplied {w : Workspace} (reachable : w.Reachable) :
    ∃ known, w.Sound known ∧ w.Supplied known := by
  obtain ⟨name, catalog, actions, rfl⟩ := reachable
  refine @run_induction (fun w => ∃ known, w.Sound known ∧ w.Supplied known) ?_ actions _
    ⟨_, sound_start name catalog, supplied_start _ name catalog⟩
  rintro w action ⟨known, sound, supplied⟩
  obtain ⟨later, wider, after⟩ := sound.perform action
  have fresh : w.fresh.Supplied known := { supplied with }
  exact ⟨later, after, (fresh.act sound.fresh action).mono wider⟩

end Workspace

end SettingsForge
