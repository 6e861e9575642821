import SettingsForge.Proofs.Settings.Refusals
import SettingsForge.Proofs.Workspace.Supplied

set_option autoImplicit false

/-! # Errors stay on their side

Engines fail with errors of the generation of schemas, instances with errors of their use. That a
dictionary makes its entries itself does not hide an error of an engine: wherever an instance is met,
there is the engine that made it, which would give the very blueprints its dictionaries have, at once
and without failing (`Workspace.Supplied.hasEngineOf`). So an entry is refused for its key alone
(`Workspace.errors_stay_on_their_side`). -/

namespace SettingsForge

open Hub Settings
open SettingsError (isRefusal)

/-- The instance that a step works on by itself; a reset is not such a step, for it asks an engine. -/
def Action.place? : Action → Option Location
  | .about place | .get place _ | .set place .. | .snapshot place | .copy place _
  | .copyUntyped place _ | .list place _ | .item place .. | .editList place .. | .dict place _
  | .dictForEdit place _ | .hasKey place .. | .dictSnapshot place _ | .addEntry place ..
  | .deleteEntry place .. | .assignDict place .. | .subscribe place .. | .unsubscribe place _
  | .subscribers place | .setProvider place .. | .provider place => some place
  | _ => none

/-! ## Answers of steps -/

/-- The error of an operation in the answer, if there is one, is on the side of these errors. -/
def StopsAs (side : SettingsError → Bool) {α : Type} (answer : Except Obstacle α) : Prop :=
  ∀ e, answer = .error (.failed e) → side e = true

section

variable {side : SettingsError → Bool} {α β : Type} {answer : Except Obstacle α}

theorem stopsAs_ok (a : α) : StopsAs side (.ok a) := fun _ h => by cases h

theorem StopsAs.map (h : StopsAs side answer) (f : α → β) : StopsAs side (answer.map f) := by
  intro e failed
  cases answer with
  | error o =>
      cases failed
      exact h e rfl
  | ok a => cases failed

theorem StopsAs.bind (h : StopsAs side answer) {f : α → Except Obstacle β}
    (h' : ∀ a, StopsAs side (f a)) : StopsAs side (answer >>= f) := by
  cases answer with
  | error o =>
      intro e failed
      cases failed
      exact h e rfl
  | ok a => exact h' a

theorem FailsAs.stopsAs {answer : Except SettingsError α} (h : FailsAs side answer) :
    StopsAs side (answer.mapError .failed) := by
  intro e failed
  cases answer with
  | error e' =>
      cases failed
      exact h e rfl
  | ok a => cases failed

end

/-- A dictionary adds an entry unless there is one of the key. -/
theorem DictRef.answer_addEntry (dict : DictRef) (entries : List Entry) (key : String)
    (c : Context) :
    (key ∈ Entries.keys entries → (dict.addEntry entries key c).answer =
      .error (.duplicateKey dict.property key)) ∧
    (key ∉ Entries.keys entries → ∃ entry, (dict.addEntry entries key c).answer = .ok entry ∧
      entry.settings.shape = .of dict.blueprint.schema dict.kind) := by
  unfold addEntry
  constructor
  · intro there
    obtain ⟨e, taken⟩ := Option.ne_none_iff_exists'.1 (mt Entries.find?_eq_none.1 (not_not_intro there))
    rw [taken]
  · intro free
    rw [Entries.find?_eq_none.2 free]
    refine ⟨_, rfl, ?_⟩
    show Shape.of (dict.make c.hub).1.schema (dict.make c.hub).1.kind = _
    rw [make, Blueprint.schema_make, Blueprint.kind_make]

namespace Workspace

variable {w : Workspace} {α : Type} {place : Location}

theorem stopsAs_find {side : SettingsError → Bool} {β : Type} (table : List (String × β))
    (name : String) (what : Missing) : StopsAs side (find table name what) := by
  unfold find
  split
  · exact stopsAs_ok _
  · intro e failed
    cases failed

theorem stopsAs_read (w : Workspace) (place : Location) : StopsAs isRefusal (w.read place) := by
  refine (stopsAs_find w.instances place.name .settings).bind fun root e failed => ?_
  cases followed : follow place.path root with
  | ok x =>
      rw [followed] at failed
      cases failed
  | error fault =>
      rw [followed] at failed
      cases fault with
      | failed e' =>
          cases failed
          exact isRefusal_of_follow followed
      | noEntry => cases failed

theorem stopsAs_source (w : Workspace) (place source : Location) :
    StopsAs isRefusal (w.source place source) := by
  unfold Workspace.source
  split
  · intro e failed
    cases failed
  · exact stopsAs_read w source

theorem stopsAs_edit {f : Settings → Context → Except Obstacle α × Settings × Context}
    (h : ∀ x c, StopsAs isRefusal (f x c).1) : StopsAs isRefusal (w.edit place f).answer := by
  intro e failed
  unfold Workspace.edit at failed
  split at failed
  · next o missing =>
    cases failed
    exact stopsAs_find _ _ _ _ missing
  · next root _ =>
    split at failed
    · next fault c followed =>
      cases fault with
      | failed e' =>
          cases failed
          exact isRefusal_of_followForEdit (congrArg Prod.fst followed)
      | noEntry => cases failed
    · next x c _ => exact h x c e failed

theorem stopsAs_editReport {f : Settings → Context → Done Settings α} {report : α → Report}
    (h : ∀ x c, FailsAs isRefusal (f x c).answer) :
    StopsAs isRefusal (w.editReport place report f).answer :=
  (stopsAs_edit fun x c => (h x c).stopsAs).map report

theorem stopsAs_inspect {f : Settings → Except SettingsError Report}
    (h : ∀ x, FailsAs isRefusal (f x)) : StopsAs isRefusal (w.inspect place f).answer :=
  (stopsAs_read w place).bind fun x => (h x).stopsAs

/-- A source that is not found is no generation error either. -/
theorem stopsAs_mapM_source (w : Workspace) (place : Location) (source : Option Location) :
    StopsAs isRefusal (source.mapM (w.source place)) := by
  cases source with
  | none => exact stopsAs_ok _
  | some l => exact (stopsAs_source w place l).map some

theorem stopsAs_candidate (w : Workspace) (place : Location) (source : Source) :
    StopsAs isRefusal (Sound.candidate w place source) := by
  cases source with
  | absent | alien => exact stopsAs_ok _
  | location l => exact (stopsAs_source w place l).map _
  | root l =>
      exact (stopsAs_source w place l).bind fun _ =>
        (stopsAs_source w place _).bind fun _ => stopsAs_ok _

theorem stopsAs_copy (w : Workspace) (place : Location) (source : Option Location) :
    StopsAs isRefusal (w.copy place source).answer := by
  refine StopsAs.map (stopsAs_edit fun x c e failed => ?_) _
  split at failed
  · next o missing =>
    cases failed
    exact stopsAs_mapM_source w place source _ missing
  · exact (x.failsAs_copy c _).stopsAs e failed

theorem stopsAs_copyUntyped (w : Workspace) (place : Location) (source : Source) :
    StopsAs isRefusal (w.copyUntyped place source).answer := by
  have unfolded : w.copyUntyped place source =
      ⟨(w.edit place (Sound.copyingUntyped w place source)).answer.map fun _ => .nothing, _⟩ := rfl
  rw [unfolded]
  refine StopsAs.map (stopsAs_edit fun x c e failed => ?_) _
  unfold Sound.copyingUntyped at failed
  split at failed
  · next o missing =>
    cases failed
    exact stopsAs_candidate w place source _ missing
  · exact (x.failsAs_copyUntyped c _).stopsAs e failed

theorem stopsAs_assignDict (w : Workspace) (place source : Location)
    (property sourceProperty : String) :
    StopsAs isRefusal (w.assignDict place property source sourceProperty).answer := by
  refine stopsAs_edit fun x c e failed => ?_
  split at failed
  · next e' _ after refused =>
    cases failed
    exact x.failsAs_dictForEdit property c _ (congrArg Done.answer refused)
  · dsimp only at failed
    split at failed
    · next o missing =>
      have found := (stopsAs_source w place source).bind fun s =>
        (s.failsAs_dict sourceProperty).stopsAs
      cases failed
      exact found _ missing
    · refine FailsAs.stopsAs (failsAs_map.2 ?_) e failed
      exact x.failsAs_editDict property _ fun dict entries c => failsAs_assignDict c (dict, entries) _

theorem stopsAs_subscribe (w : Workspace) (place : Location) (client : String) (reaction : Reaction) :
    StopsAs isRefusal (w.subscribe place client reaction).answer := by
  intro e failed
  unfold Workspace.subscribe at failed
  split at failed
  · next o missing =>
    cases failed
    exact stopsAs_read w place _ missing
  · dsimp only at failed
    split at failed
    · cases failed
      rfl
    · cases failed

theorem stopsAs_unsubscribe (w : Workspace) (place : Location) (client : String) :
    StopsAs isRefusal (w.unsubscribe place client).answer := by
  intro e failed
  unfold Workspace.unsubscribe at failed
  split at failed
  · next o missing =>
    cases failed
    exact stopsAs_read w place _ missing
  · split at failed
    · cases failed
    · split at failed
      · cases failed
        rfl
      · cases failed

theorem stopsAs_setProvider (w : Workspace) (place : Location) (provider key : Option String) :
    StopsAs isRefusal (w.setProvider place provider key).answer := by
  intro e failed
  unfold Workspace.setProvider at failed
  split at failed
  · next o missing =>
    cases failed
    cases provider with
    | none => cases missing
    | some name => exact (stopsAs_find w.providers name .provider).map some _ missing
  · exact stopsAs_editReport (fun x c => failsAs_ok _) e failed

/-- A step that works on an instance by itself stops with refusals only. -/
theorem stopsAs_act (w : Workspace) {action : Action} (h : action.place?.isSome = true) :
    StopsAs isRefusal (w.act action).answer := by
  cases action with
  | about place | subscribers place | provider place => exact stopsAs_inspect fun x => failsAs_ok _
  | get place property => exact stopsAs_inspect fun x => failsAs_map.2 (x.failsAs_get property)
  | snapshot place => exact stopsAs_inspect fun x => failsAs_ok _
  | list place property => exact stopsAs_inspect fun x => failsAs_map.2 (x.failsAs_list property)
  | item place property index => exact stopsAs_inspect fun x => failsAs_map.2 (x.failsAs_list property)
  | dict place property | hasKey place property key | dictSnapshot place property =>
      exact stopsAs_inspect fun x => failsAs_map.2 (x.failsAs_dict property)
  | set place property value => exact stopsAs_editReport fun x c => x.failsAs_set property c value
  | editList place property edit =>
      exact stopsAs_editReport fun x c => failsAs_map.2 (x.failsAs_editList property c edit)
  | dictForEdit place property =>
      exact stopsAs_editReport fun x c => failsAs_map.2 (x.failsAs_dictForEdit property c)
  | addEntry place property key => exact stopsAs_editReport fun x c => x.failsAs_addEntry property c key
  | deleteEntry place property key =>
      exact stopsAs_editReport fun x c => x.failsAs_deleteEntry property c key
  | copy place source => exact stopsAs_copy w place source
  | copyUntyped place source => exact stopsAs_copyUntyped w place source
  | assignDict place property source sourceProperty =>
      exact stopsAs_assignDict w place source property sourceProperty
  | subscribe place client reaction => exact stopsAs_subscribe w place client reaction
  | unsubscribe place client => exact stopsAs_unsubscribe w place client
  | setProvider place provider key => exact stopsAs_setProvider w place provider key
  | _ => cases h

/-- A step that works on an instance by itself has no generation error. -/
theorem ofUse_act (w : Workspace) {action : Action} (h : action.place?.isSome = true) :
    ∀ e, (w.act action).answer = .error (.failed e) → e.isGeneration = false :=
  fun e failed => SettingsError.isGeneration_of_isRefusal (stopsAs_act w h e failed)

/-! ## New entries -/

/-- An entry is added unless its key is there. -/
theorem Sound.answer_addEntry {known : Schema → Prop} (sound : w.Sound known) {x : Settings}
    (read : w.read place = .ok x) (writable : x.kind.isWritable = true) {property : String}
    {dict : DictRef} {entries : List Entry} (found : x.dict property = .ok (dict, entries))
    (key : String) :
    (key ∈ Entries.keys entries → (w.act (.addEntry place property key)).answer =
      .error (.failed (.duplicateKey property key))) ∧
    (key ∉ Entries.keys entries → (w.act (.addEntry place property key)).answer =
      .ok (.shape (.of dict.blueprint.schema x.kind))) := by
  obtain ⟨root, at_name, followed⟩ := read_eq_ok.1 read
  have edited := sound.edit_writable at_name followed writable fun x c =>
    ofDone (x.addEntry property key c)
  have unfolded : (w.act (.addEntry place property key)).answer =
      (w.edit place fun x c => ofDone (x.addEntry property key c)).answer.map
        fun entry => .shape entry.settings.shape := rfl
  rw [unfolded, edited]
  dsimp only [ofDone]
  rw [Settings.addEntry_eq found writable]
  obtain ⟨taken, added⟩ := dict.answer_addEntry entries key w.context
  obtain ⟨-, -, -, -, conforms⟩ := sound.read read
  have bound : dict.BoundTo x.owner property := conforms.boundTo (content_of_dict found)
  constructor
  · intro there
    dsimp only [Done.within]
    rw [taken there, bound.property]
    rfl
  · intro free
    obtain ⟨entry, answer, shape⟩ := added free
    have shape : entry.settings.shape = .of dict.blueprint.schema x.kind :=
      shape.trans (congrArg _ bound.kind)
    dsimp only [Done.within]
    rw [answer, ← shape]
    rfl

/-- Take a workspace that a run reaches. Whatever one of its engines answers to a request for a factory
    or a shape of any schema, an error in it is a generation error; whatever a step answers that works
    on an instance by itself, an error in it is none. For each instance there is the engine that all
    dictionaries in it, at any depth, have their entries from, and it answers with the blueprints that
    these have (`HasEngineOf`). An entry can be added to a dictionary of an instance that may be
    written if and only if its key is not there, and the error is about the key otherwise. -/
theorem errors_stay_on_their_side (reachable : w.Reachable) :
    (∀ engine ∈ w.engines, ∀ s kind,
      (∀ e, (engine.factory s kind).answer = .error e → e.isGeneration = true) ∧
      (∀ e, (engine.typeOf s kind).answer = .error e → e.isGeneration = true)) ∧
    (∀ action : Action, action.place?.isSome = true → ∀ e,
      (w.perform action).answer = .error (.failed e) → e.isGeneration = false) ∧
    ∀ place x, w.read place = .ok x →
      w.HasEngineOf x ∧
      (x.kind.isWritable = true → ∀ property dict entries,
        x.dict property = .ok (dict, entries) → ∀ key,
          (key ∈ Entries.keys entries → (w.perform (.addEntry place property key)).answer =
            .error (.failed (.duplicateKey property key))) ∧
          (key ∉ Entries.keys entries → (w.perform (.addEntry place property key)).answer =
            .ok (.shape (.of dict.blueprint.schema x.kind)))) := by
  obtain ⟨known, sound, supplied⟩ := reachable.supplied
  refine ⟨fun engine mem s kind => ?_, fun action h => ofUse_act w.fresh h, fun place x read =>
    ⟨supplied.hasEngineOf sound read, fun writable property dict entries found key => ?_⟩⟩
  · obtain ⟨schemas, holds⟩ := sound.engines engine mem
    have cached := holds.inGeneration sound.registry.toIdentified
    exact ⟨Engine.failsAs_factory cached s kind, Engine.failsAs_typeOf cached s kind⟩
  · exact sound.fresh.answer_addEntry read writable found key

/-- At a shelf a key that is there is refused, and another one is not. -/
theorem refuses_the_key_of_the_entry :
    shelves.Reachable ∧
      (shelves.perform (.addEntry ⟨"first", []⟩ "entries" "a")).answer =
        .error (.failed (.duplicateKey "entries" "a")) ∧
      ∃ shape, (shelves.perform (.addEntry ⟨"first", []⟩ "entries" "b")).answer = .ok (.shape shape) := by
  obtain ⟨-, -, instances⟩ := errors_stay_on_their_side reachable_shelves
  obtain ⟨x, dict, entries, read, found, writable, keys⟩ : ∃ x dict entries,
      shelves.read ⟨"first", []⟩ = .ok x ∧ x.dict "entries" = .ok (dict, entries) ∧
        x.kind.isWritable = true ∧ Entries.keys entries = ["a"] := ⟨_, _, _, rfl, rfl, rfl, rfl⟩
  have added := (instances _ x read).2 writable _ _ _ found
  refine ⟨reachable_shelves, (added "a").1 ?_, _, (added "b").2 ?_⟩
  · rw [keys]
    exact List.mem_singleton_self _
  · rw [keys]
    decide

end Workspace

end SettingsForge
