import SettingsForge.Proofs.Settings.Sealing
import SettingsForge.Proofs.Workspace.Copied
import SettingsForge.Proofs.Workspace.Steps

set_option autoImplicit false

/-! # What a step does to the hub and the instances

A step serves clients, or lets one named instance evolve, or makes a new one (`Workspace.Turn`). What
the three keep is kept by every step (`Workspace.Sound.turn`). -/

namespace SettingsForge.Workspace

open Hub Settings

/-- What comes of the hub and of the named instances. -/
inductive Turn (w after : Workspace) : Prop
  /-- Clients are served, and an instance may be dropped. -/
  | served : w.context.hub.Serves after.context.hub → after.instances ⊆ w.instances → Turn w after
  /-- An instance evolves under its name. -/
  | evolved {name : String} {x y : Settings} {ns : List Notice} :
      (name, x) ∈ w.instances → Evolves x w.context.hub ns y after.context.hub →
      after.instances = Keyed.insert name y w.instances → Turn w after
  /-- An instance is made, and may come under a name. -/
  | made {blueprint : Blueprint} {engine : EngineId} {kind : Kind} {made y : Settings} {between : Hub}
      {ns : List Notice} :
      blueprint.make engine kind w.context.hub = (made, between) →
      Evolves made between ns y after.context.hub →
      (∀ entry ∈ after.instances, entry.2 = y ∨ entry ∈ w.instances) → Turn w after

variable {known : Schema → Prop} {w after : Workspace}

theorem Turn.same (hub : after.context.hub = w.context.hub)
    (instances : after.instances = w.instances) : Turn w after := by
  refine .served ?_ (instances ▸ List.Subset.refl _)
  rw [hub]
  exact .nothing

theorem Turn.of_hub {c : Context} (serves : w.context.hub.Serves c.hub) :
    Turn w { w with context := c } := .served serves (List.Subset.refl _)

theorem turn_build (w : Workspace) (id name : String) (base : Option String)
    (specs : List PropertySpec) : Turn w (w.build id name base specs).subject := by
  unfold Workspace.build
  dsimp only
  split <;> exact .same rfl rfl

theorem ask_frame {α : Type} (w : Workspace) (name : String) (request : Engine → Engine.Reply α) :
    (w.ask name request).subject.instances = w.instances ∧
      (w.ask name request).subject.context.hub = w.context.hub := by
  unfold Workspace.ask
  split <;> exact ⟨rfl, rfl⟩

theorem turn_typeOf (w : Workspace) (schema : String) (kind : Kind) (engine : String)
    (saveAs : Option String) : Turn w (w.typeOf schema kind engine saveAs).subject := by
  unfold Workspace.typeOf
  cases w.schema schema with
  | error e => exact .same rfl rfl
  | ok s =>
      obtain ⟨instances, hub⟩ := ask_frame w engine fun e => e.typeOf s kind
      dsimp only
      generalize w.ask engine (fun e => e.typeOf s kind) = attempt at instances hub
      obtain ⟨answer, w'⟩ := attempt
      cases answer with
      | error e => exact .same hub instances
      | ok shape => cases saveAs <;> exact .same hub instances

theorem turn_newFactory (w : Workspace) (schema : String) (kind : Kind) (engine name : String) :
    Turn w (w.newFactory schema kind engine name).subject := by
  unfold Workspace.newFactory
  cases w.schema schema with
  | error e => exact .same rfl rfl
  | ok s =>
      obtain ⟨instances, hub⟩ := ask_frame w engine fun e => e.factory s kind
      dsimp only
      generalize w.ask engine (fun e => e.factory s kind) = attempt at instances hub
      obtain ⟨answer, w'⟩ := attempt
      cases answer <;> exact .same hub instances

theorem turn_unsubscribe (w : Workspace) (place : Location) (client : String) :
    Turn w (w.unsubscribe place client).subject := by
  unfold Workspace.unsubscribe
  split
  · exact .same rfl rfl
  · split
    · exact .same rfl rfl
    · split
      · exact .same rfl rfl
      · exact .of_hub (Serves.nothing.unsubscribe _ _)

/-- What is done at a held notifier. -/
theorem turn_atNotifier (w : Workspace) (name : String)
    (f : NotifierId → Hub → Except Obstacle (Hub → Report) × Hub)
    (serves : ∀ n, find w.notifiers name .notifier = .ok n →
      w.context.hub.Serves (f n w.context.hub).2) : Turn w (w.atNotifier name f).subject := by
  unfold Workspace.atNotifier
  split
  · exact .same rfl rfl
  · next n found => exact .of_hub (serves n found)

namespace Sound

theorem turn_edit (sound : w.Sound known) {α : Type} (place : Location)
    {f : Settings → Context → Except Obstacle α × Settings × Context}
    (operates : Operates known w.catalogs f) : Turn w (w.edit place f).subject := by
  have cases := edit_cases w place f
  generalize w.edit place f = attempt at cases
  cases cases with
  | nowhere same => exact .same same rfl
  | @there root x c mem _ followed same =>
      have root_conforms : root.Conforms known w.catalogs := sound.conforms _ mem
      have conforms := root_conforms.part
        (mem_parts_of_follow sound.registry root_conforms followed)
      obtain ⟨ns, evolves, -⟩ :=
        operated_replaceAt sound.registry root_conforms followed (operates x c conforms)
      rw [same] at evolves
      exact .evolved mem evolves rfl

theorem turn_create (sound : w.Sound known) (name : String) (maker : Maker)
    (source : Option Location) : Turn w (w.create name maker source).subject := by
  unfold Workspace.create
  cases from_eq : source.mapM w.read with
  | error e => exact .same rfl rfl
  | ok from? =>
      have sorted := sound.sorted_sources from_eq
      obtain ⟨after, catalogs, made⟩ := sound.factoryOf maker
      obtain ⟨instances, hub⟩ := factoryOf_frame w maker
      rw [← catalogs] at made
      generalize w.factoryOf maker = attempt at after made instances hub
      obtain ⟨answer, w'⟩ := attempt
      cases answer with
      | error e => exact .same hub instances
      | ok factory =>
          obtain ⟨s, hs, made_for⟩ := made factory rfl
          have after : w'.Sound known := after
          obtain ⟨made, between, ns, y, hmake, evolves, only⟩ := Blueprint.create_spec after.registry
            made_for hs factory.engine factory.kind sorted w'.context
          have hub : w'.context.hub = w.context.hub := hub
          have instances : w'.instances = w.instances := instances
          rw [hub] at hmake
          dsimp only
          unfold Engine.Factory.create
          generalize factory.blueprint.create factory.engine factory.kind from? w'.context = created at *
          obtain ⟨answer, c⟩ := created
          cases answer with
          | error e => exact .made hmake evolves fun entry mem => Or.inr (instances ▸ mem)
          | ok x =>
              cases only x rfl
              refine .made hmake evolves fun entry mem => ?_
              rcases Keyed.mem_insert mem with rfl | mem
              · exact Or.inl rfl
              · exact Or.inr (instances ▸ mem)

theorem turn_subscribe (sound : w.Sound known) (place : Location) (client : String)
    (reaction : Reaction) : Turn w (w.subscribe place client reaction).subject := by
  unfold Workspace.subscribe
  cases found : w.read place with
  | error e => exact .same rfl rfl
  | ok x =>
      dsimp only
      split
      · exact .same rfl rfl
      · next n hn => exact .of_hub (Serves.nothing.subscribe client reaction (sound.lt_size found hn))

/-- What every step does to the hub and the instances. -/
theorem turn (sound : w.Sound known) (action : Action) : Turn w (w.act action).subject := by
  -- steps that edit are edits of one instance; the others are taken one by one
  cases edited : action.edited with
  | some place =>
      obtain ⟨-, α, f, operates, instances, context⟩ := sound.edits edited
      have edit := sound.turn_edit place operates
      cases edit with
      | served serves sub => exact .served (context ▸ serves) (instances ▸ sub)
      | evolved mem evolves put => exact .evolved mem (context ▸ evolves) (instances.trans put)
      | made hmake evolves put => exact .made hmake (context ▸ evolves) (instances ▸ put)
  | none =>
    cases action with
    | build id name base properties => exact turn_build w id name base properties
    | cloneEngine name source =>
        unfold Workspace.act
        dsimp only
        split <;> exact .same rfl rfl
    | typeOf schema kind engine saveAs => exact turn_typeOf w schema kind engine saveAs
    | newFactory schema kind engine name => exact turn_newFactory w schema kind engine name
    | create name maker source => exact sound.turn_create name maker source
    | drop name => exact .served .nothing (List.filter_sublist.subset)
    | dictForEdit place property =>
        exact sound.turn_edit place (operates_dictForEdit property Report.ofDict)
    | setProvider place provider key =>
        unfold Workspace.act Workspace.setProvider
        dsimp only
        split
        · exact .same rfl rfl
        · exact sound.turn_edit place (operates_setProvider _)
    | resolveDefault schema property engine | debugInitializer schema property engine =>
        unfold Workspace.act Workspace.resolveDefault
        dsimp only
        split <;> exact .same rfl rfl
    | blueprint schema engine =>
        unfold Workspace.act Workspace.blueprint
        dsimp only
        split <;> exact .same rfl rfl
    | subscribe place client reaction => exact sound.turn_subscribe place client reaction
    | unsubscribe place client => exact turn_unsubscribe w place client
    | holdNotifier place name =>
        unfold Workspace.act
        dsimp only
        split
        · exact .same rfl rfl
        · split <;> exact .same rfl rfl
    | newNotifier name => exact .served Serves.nothing.alloc (List.Subset.refl _)
    | notifierSubscribe name client reaction =>
        refine turn_atNotifier w name _ fun n found => ?_
        exact Serves.nothing.subscribe client reaction
          (sound.held _ (Keyed.mem_of_lookup (find_eq_ok.1 found)))
    | notifierUnsubscribe name client =>
        refine turn_atNotifier w name _ fun n _ => ?_
        dsimp only
        split
        · exact .nothing
        · exact Serves.nothing.unsubscribe n _
    | notifierCount name => exact turn_atNotifier w name _ fun n _ => .nothing
    | notifierNotify name property =>
        exact turn_atNotifier w name _ fun n _ => serves_notify w.context.hub n property
    | set | reset | copy | copyUntyped | editList | addEntry | deleteEntry | assignDict => cases edited
    | _ => exact .same rfl rfl

end Sound

end SettingsForge.Workspace
