import SettingsForge.Proofs.Settings.Copies
import SettingsForge.Settings.Reset

set_option autoImplicit false

/-! # Operations that copy

Every operation that copies into an instance is an evolution of it and tells what it changed: copies
with all their ways to fail, the assignment of one dictionary, and resets. A new instance is made, and
then it may evolve by a copy. -/

namespace SettingsForge

section

variable {known : Schema → Prop} {catalogs : List Catalog}

namespace Settings

theorem operated_copy (registry : Schema.Registry known) {x : Settings} {source : Option Settings}
    (sorted : ∀ s ∈ source, s.KeysSorted) (conforms : x.Conforms known catalogs) (c : Context) :
    x.Operated c.hub (x.copy source c).subject (x.copy source c).context.hub := by
  unfold copy
  split
  · cases source with
    | none => exact .refl x c.hub
    | some s => exact operated_assign registry s x c (sorted s rfl) conforms
  · exact .refl x c.hub

theorem operated_copyUntyped (registry : Schema.Registry known) {x : Settings}
    {candidate : Candidate} (sorted : ∀ s, candidate = .settings s → s.KeysSorted)
    (conforms : x.Conforms known catalogs) (c : Context) :
    x.Operated c.hub (x.copyUntyped candidate c).subject
      (x.copyUntyped candidate c).context.hub := by
  unfold copyUntyped
  split
  · cases candidate with
    | absent => exact operated_copy registry (by simp) conforms c
    | alien => exact .refl x c.hub
    | settings s =>
        refine operated_copy registry (fun t mem => ?_) conforms c
        cases mem
        exact sorted s rfl
  · exact .refl x c.hub

/-- Bringing a dictionary to another one. -/
theorem operated_assignDict (registry : Schema.Registry known) {x : Settings} {property : String}
    {source : DictRef × List Entry} (sorted : Entries.Sorted source.2)
    (inner : ∀ e ∈ source.2, e.settings.KeysSorted) (conforms : x.Conforms known catalogs)
    (c : Context) :
    x.Operated c.hub
      (x.editDict property (fun dict entries c => assignDict dict entries source c) c).subject
      (x.editDict property (fun dict entries c => assignDict dict entries source c) c).context.hub := by
  unfold editDict dictForEdit
  cases found : x.dict property with
  | error e => exact .refl x c.hub
  | ok dict =>
      obtain ⟨dict, entries⟩ := dict
      dsimp only
      by_cases writable : x.kind.isWritable = true
      · rw [if_pos writable]
        obtain ⟨f, rfl, rfl, setContent⟩ :=
          exists_frame (conforms.self.nodup registry) (content_of_dict found)
        dsimp only [Done.within]
        rw [setContent]
        unfold assignDict
        split
        · cases hstart : Merging.start (Entries.keys source.2) entries c with
          | mk start dropped =>
              have drops := (@Merging.start_spec f dict _ _ _ _ _ hstart).1
              have merged := (operated_assign_merged_assignEntries registry).2 source.2 dict start
                dropped sorted inner f (drops.conforms registry conforms)
              obtain ⟨ns, evolves, -, tells⟩ := Frame.copied_finishMerge
                (Frame.boundTo_of_conforms conforms) (conforms.self.nodup registry) hstart merged
              exact ⟨ns, evolves, tells⟩
        · exact .refl _ c.hub
      · rw [if_neg writable]
        exact .refl x c.hub

end Settings

/-! ## New instances -/

/-- A new instance is made and may be copied into. -/
theorem Blueprint.create_spec (registry : Schema.Registry known) {s : Schema} {blueprint : Blueprint}
    (made_for : blueprint.MadeFor catalogs s) (hs : known s) (engine : EngineId) (kind : Kind)
    {source : Option Settings} (sorted : ∀ s ∈ source, s.KeysSorted) (c : Context) :
    ∃ made between ns y, blueprint.make engine kind c.hub = (made, between) ∧
      Settings.Evolves made between ns y (blueprint.create engine kind source c).2.hub ∧
      ∀ x, (blueprint.create engine kind source c).1 = .ok x → x = y := by
  unfold create
  have conforms := (made_for.conforms_make hs engine kind c.hub).1
  cases hmake : blueprint.make engine kind c.hub with
  | mk made between =>
      rw [hmake] at conforms
      cases source with
      | none =>
          refine ⟨made, between, [], made, rfl, .refl .., fun x same => ?_⟩
          cases same
          rfl
      | some s =>
          obtain ⟨ns, evolves, -⟩ := Settings.operated_assign registry s made
            { c with hub := between } (sorted s rfl) conforms
          refine ⟨made, between, ns, _, rfl, evolves, fun x same => ?_⟩
          dsimp only at same
          cases answer : (Settings.assign s made { c with hub := between }).answer with
          | error e =>
              rw [answer] at same
              cases same
          | ok _ =>
              rw [answer] at same
              cases same
              rfl

theorem Blueprint.keysSorted_make (blueprint : Blueprint) (engine : EngineId) (kind : Kind)
    (hub : Hub) : (blueprint.make engine kind hub).1.KeysSorted := by
  intro y mem slot hs
  rw [blueprint.parts_make, List.mem_singleton] at mem
  subst mem
  rw [blueprint.entries_make kind hub hs]
  exact List.Pairwise.nil

theorem Engine.kind_factory {engine : Engine} {schema : Schema} {kind : Kind} {factory : Factory}
    (h : (engine.factory schema kind).answer = .ok factory) : factory.kind = kind := by
  unfold Engine.factory at h
  dsimp only at h
  cases found : (engine.resolution schema).1.blueprintFor kind with
  | error e =>
      rw [found] at h
      cases h
  | ok blueprint =>
      rw [found] at h
      cases h
      rfl

/-- Making the defaults of a reset leaves the hub. They are a new instance, of no hub. -/
theorem Engine.create_read (engine : Engine) (schema : Schema) (c : Context) :
    (engine.create schema .read none c).context.hub = c.hub ∧
      (engine.create schema .read none c).answer =
        (engine.factory schema .read).answer.map fun factory =>
          (factory.blueprint.make factory.engine .read {}).1 := by
  unfold Engine.create
  cases answer : (engine.factory schema .read).answer with
  | error e =>
      dsimp only
      rw [answer]
      exact ⟨rfl, rfl⟩
  | ok factory =>
      have kind_eq := kind_factory answer
      obtain ⟨number, blueprint, kind⟩ := factory
      cases kind_eq
      dsimp only
      rw [answer]
      exact ⟨blueprint.snd_make number .read c.hub, rfl⟩

theorem Engine.operated_reset (registry : Schema.Registry known) (engine : Engine) {x : Settings}
    (conforms : x.Conforms known catalogs) (c : Context) :
    x.Operated c.hub (engine.reset x c).1.subject (engine.reset x c).1.context.hub := by
  unfold Engine.reset
  dsimp only
  obtain ⟨hub_same, answers⟩ :=
    engine.create_read x.schema (c.note [.resetStarted x.schema.name x.kind])
  generalize engine.create x.schema .read none (c.note [.resetStarted x.schema.name x.kind]) = made
    at hub_same answers
  obtain ⟨answer, after, context⟩ := made
  have hub_same : context.hub = c.hub := hub_same
  cases answer with
  | error e =>
      show x.Operated c.hub x context.hub
      rw [hub_same]
      exact .refl x c.hub
  | ok defaults =>
      dsimp only
      have operated : x.Operated context.hub (x.copy (some defaults) context).subject
          (x.copy (some defaults) context).context.hub := by
        refine Settings.operated_copy registry (fun s mem => ?_) conforms context
        cases mem
        obtain ⟨factory, -, rfl⟩ := exists_of_map_eq_ok answers.symm
        exact factory.blueprint.keysSorted_make factory.engine .read {}
      rwa [hub_same] at operated

end

end SettingsForge
