import SettingsForge.Proofs.Settings.Misfits
import SettingsForge.Proofs.Workspace.Steps

set_option autoImplicit false

/-! # Updates that fail

A step that brings an instance to a source as a whole is not undone when it fails. But it can fail
half way for one reason only: the source, or the defaults of a reset, holds a value that the type of
its property does not take, which only declared first values can be. In every other case nothing has
been touched (`Workspace.failed_updates_touch_nothing_or_stop_at_a_misfit`). -/

namespace SettingsForge

open Hub Settings

/-- Where a step brings an instance, or one of its dictionaries, to a source as a whole. -/
def Action.updated : Action → Option Location
  | .reset place _ | .copy place _ | .copyUntyped place _ | .assignDict place .. => some place
  | _ => none

namespace Workspace

variable {known : Schema → Prop} {w : Workspace} {α : Type} {place : Location}

/-- The instances that a step brings others to: the source, the entries of a dictionary, or what an
    engine makes as the defaults of a reset. -/
inductive Takes (w : Workspace) : Action → Settings → Prop
  | source {place source : Location} {s : Settings} :
      w.read source = .ok s → Takes w (.copy place (some source)) s
  | candidate {place : Location} {source : Source} {s : Settings} :
      Sound.candidate w place source = .ok (.settings s) → Takes w (.copyUntyped place source) s
  | entry {place source : Location} {property sourceProperty : String} {s : Settings}
      {dict : DictRef × List Entry} {e : Entry} :
      w.read source = .ok s → s.dict sourceProperty = .ok dict → e ∈ dict.2 →
      Takes w (.assignDict place property source sourceProperty) e.settings
  | defaults {place : Location} {name : String} {engine : Engine} {x s : Settings} :
      w.read place = .ok x → w.engine name = .ok engine →
      (engine.create x.schema .read none {}).answer = .ok s → Takes w (.reset place name) s

/-- What a step takes does not depend on the notes of earlier ones. -/
theorem Takes.of_fresh {action : Action} {s : Settings} (h : w.fresh.Takes action s) :
    w.Takes action s := by
  cases h with
  | source read => exact .source read
  | @candidate place source _ found =>
      have same : Sound.candidate w.fresh place source = Sound.candidate w place source := by
        cases source <;> rfl
      exact .candidate (same ▸ found)
  | entry read there mem => exact .entry read there mem
  | defaults read he made => exact .defaults read he made

/-- If the answer is an error, it is about a misfit of one of these instances. -/
def Stops (takes : Settings → Prop) (answer : Except Obstacle α) : Prop :=
  ∀ o, answer = .error o → ∃ s e, takes s ∧ s.Misfit e ∧ o = .failed e

theorem stops_ok (takes : Settings → Prop) (a : α) : Stops takes (.ok a) :=
  fun o failed => by cases failed

theorem Stops.map {takes : Settings → Prop} {answer : Except Obstacle α} (h : Stops takes answer)
    {β : Type} (f : α → β) : Stops takes (answer.map f) := by
  intro o failed
  cases answer with
  | error o' =>
      cases failed
      exact h o rfl
  | ok a => cases failed

/-- An update as an edit touches nothing, or it is done or stops at a misfit. -/
theorem stands_or_stops_ofDone {takes : Settings → Prop} {x : Settings} {hub : Hub}
    {d : Done Settings α} (h : d.Ends takes x hub) :
    ((ofDone d).2.1 = x ∧ (ofDone d).2.2.hub = hub) ∨ Stops takes (ofDone d).1 := by
  cases h with
  | done => exact Or.inr (stops_ok takes _)
  | stands same => exact Or.inl ⟨rfl, same⟩
  | misfit taken own =>
      refine Or.inr fun o failed => ?_
      cases failed
      exact ⟨_, _, taken, own, rfl⟩

/-- How an update ends as a step: no instance and no subscription is touched and nobody is told, or the
    step is done or stops at a misfit. -/
def Ends (w : Workspace) (takes : Settings → Prop) (attempt : Attempt Workspace α) : Prop :=
  (attempt.subject.instances = w.instances ∧ attempt.subject.context.hub = w.context.hub) ∨
    Stops takes attempt.answer

theorem read_of_source {l : Location} {s : Settings} (h : w.source place l = .ok s) :
    w.read l = .ok s := by
  unfold Workspace.source at h
  split at h
  · cases h
  · exact h

namespace Sound

/-- An edit that leaves the instance leaves all instances. -/
theorem edit_stands_or (sound : w.Sound known)
    {f : Settings → Context → Except Obstacle α × Settings × Context} {Q : Except Obstacle α → Prop}
    (h : ∀ x c, w.read place = .ok x → x.Target known w.catalogs →
      ((f x c).2.1 = x ∧ (f x c).2.2.hub = c.hub) ∨ Q (f x c).1) :
    ((w.edit place f).subject.instances = w.instances ∧
      (w.edit place f).subject.context.hub = w.context.hub) ∨ Q (w.edit place f).answer := by
  have edited := edit_cases w place f
  generalize w.edit place f = attempt at edited
  cases edited with
  | nowhere same => exact Or.inl ⟨rfl, same⟩
  | @there root x c mem found followed same =>
      have root_conforms : root.Conforms known w.catalogs := sound.conforms _ mem
      have part := mem_parts_of_follow sound.registry root_conforms followed
      have wired := (sound.forest.rooted _ mem).toWired.part part
      have target : x.Target known w.catalogs := ⟨root_conforms.part part, wired.writable_inside⟩
      refine (h x c (read_eq_ok.2 ⟨root, found, followed⟩) target).imp_left ?_
      rintro ⟨subject, hub⟩
      refine ⟨?_, hub.trans same⟩
      dsimp only
      rw [subject, sound.putInstance_self found followed]

theorem ends_copy (sound : w.Sound known) (place : Location) (source : Option Location) :
    Ends w (Takes w (.copy place source)) (w.copy place source) := by
  have edited : Ends w (Takes w (.copy place source)) (w.edit place (copying w place source)) := by
    refine sound.edit_stands_or fun x c _ target => ?_
    unfold copying
    cases found : source.mapM (w.source place) with
    | error o => exact Or.inl ⟨rfl, rfl⟩
    | ok from? =>
        refine stands_or_stops_ofDone ((target.ends_copy sound.registry (fun s mem => ?_) c).mono
          fun s mem => ?_)
        · obtain ⟨l, -, from_eq⟩ := exists_of_option_mapM found mem
          exact sound.source from_eq
        · obtain ⟨l, rfl, from_eq⟩ := exists_of_option_mapM found mem
          exact .source (read_of_source from_eq)
  exact edited.imp_right fun stops => stops.map _

theorem ends_copyUntyped (sound : w.Sound known) (place : Location) (source : Source) :
    Ends w (Takes w (.copyUntyped place source)) (w.copyUntyped place source) := by
  have edited : Ends w (Takes w (.copyUntyped place source))
      (w.edit place (copyingUntyped w place source)) := by
    refine sound.edit_stands_or fun x c _ target => ?_
    unfold copyingUntyped
    cases found : candidate w place source with
    | error o => exact Or.inl ⟨rfl, rfl⟩
    | ok from? =>
        refine stands_or_stops_ofDone
          ((target.ends_copyUntyped sound.registry (fun s same => ?_) c).mono fun s same => ?_)
        · exact sound.conforms_candidate (same ▸ found)
        · exact .candidate (same ▸ found)
  exact edited.imp_right fun stops => stops.map _

theorem ends_assignDict (sound : w.Sound known) (place source : Location)
    (property sourceProperty : String) :
    Ends w (Takes w (.assignDict place property source sourceProperty))
      (w.assignDict place property source sourceProperty) := by
  refine sound.edit_stands_or fun x c _ target => ?_
  have same := (x.dictForEdit_spec property c).2
  generalize x.dictForEdit property c = looked at same
  obtain ⟨answer, subject, after⟩ := looked
  have same : after.hub = c.hub := same
  cases answer with
  | error e => exact Or.inl ⟨rfl, same⟩
  | ok own =>
      dsimp only
      split
      · exact Or.inl ⟨rfl, same⟩
      · next dict found =>
        obtain ⟨s, from_eq, there⟩ := exists_of_source_dict found
        rw [← same]
        refine stands_or_stops_ofDone (((target.ends_assignDict sound.registry (sound.source from_eq)
          there property after).mono ?_).map _)
        rintro _ ⟨e, mem, rfl⟩
        exact .entry (read_of_source from_eq) there mem

/-- What an engine makes as the defaults of a reset conforms. -/
theorem conforms_defaults (sound : w.Sound known) {name : String} {index : Nat} {engine : Engine}
    (hindex : w.handle name = .ok index) (he : w.engine name = .ok engine) {schema : Schema}
    (hs : known schema) {s : Settings}
    (made : (engine.create schema .read none {}).answer = .ok s) : s.Conforms known w.catalogs := by
  obtain ⟨-, held, mem⟩ := sound.engine hindex he
  rw [(engine.create_read schema {}).2] at made
  obtain ⟨factory, answer, rfl⟩ := exists_of_map_eq_ok made
  have made_for := held.madeFor sound.registry.toIdentified hs answer mem
  exact (made_for.conforms_make hs factory.engine .read {}).1

/-- The report on a reset that came to an end. -/
def reportReset (end? : Nat × Engine × Except SettingsError Unit) : Except Obstacle Report :=
  (end?.2.2.map fun _ => Report.nothing).mapError .failed

theorem afterReset_spec (attempt : Attempt Workspace (Nat × Engine × Except SettingsError Unit)) :
    (afterReset attempt).subject.instances = attempt.subject.instances ∧
      (afterReset attempt).subject.context = attempt.subject.context ∧
      (afterReset attempt).answer = attempt.answer >>= reportReset := by
  obtain ⟨answer, after⟩ := attempt
  cases answer <;> exact ⟨rfl, rfl, rfl⟩

theorem ends_reset (sound : w.Sound known) (place : Location) (name : String) :
    Ends w (Takes w (.reset place name)) (w.reset place name) := by
  have unfolded : w.reset place name = afterReset (w.edit place (resetting w name)) := rfl
  obtain ⟨instances, context, answer⟩ := afterReset_spec (w.edit place (resetting w name))
  rw [Ends, unfolded, instances, context, answer]
  refine sound.edit_stands_or (Q := fun answer => Stops _ (answer >>= reportReset))
    fun x c read target => ?_
  unfold resetting
  cases hindex : w.handle name with
  | error o => exact Or.inl ⟨rfl, rfl⟩
  | ok index =>
      cases he : w.engine name with
      | error o => exact Or.inl ⟨rfl, rfl⟩
      | ok engine =>
          have ends := target.ends_reset sound.registry (fun s made =>
            sound.conforms_defaults hindex he target.conforms.self.known made) c
          dsimp only
          generalize (engine.reset x c).1 = d at ends
          cases ends with
          | done => exact Or.inr (stops_ok _ _)
          | stands same => exact Or.inl ⟨rfl, same⟩
          | misfit made own =>
              refine Or.inr fun o failed => ?_
              cases failed
              exact ⟨_, _, .defaults read he made, own, rfl⟩

end Sound

/-- Take a workspace that a run reaches and a step that copies a source into an instance, or assigns a
    dictionary, or resets an instance to its defaults. If the answer is an error, then either no
    instance has changed, nobody has been told, and the subscriptions are as they were; or the error
    says that a value which the source holds at some depth (for a reset, one of the defaults that the
    engine makes) is not taken by the very type that it has there. -/
theorem failed_updates_touch_nothing_or_stop_at_a_misfit (reachable : w.Reachable) {action : Action}
    (updates : action.updated = some place) {o : Obstacle}
    (failed : (w.perform action).answer = .error o) :
    ((w.perform action).subject.instances = w.instances ∧
      (w.perform action).subject.context.hub = { w.context.hub with deliveries := [] }) ∨
    ∃ s e, w.Takes action s ∧ s.Misfit e ∧ o = .failed e := by
  obtain ⟨known, sound⟩ := reachable.sound
  have ends : Ends w.fresh (Takes w.fresh action) (w.perform action) := by
    cases action with
    | reset place name => exact sound.fresh.ends_reset place name
    | copy place source => exact sound.fresh.ends_copy place source
    | copyUntyped place source => exact sound.fresh.ends_copyUntyped place source
    | assignDict place property source sourceProperty =>
        exact sound.fresh.ends_assignDict place source property sourceProperty
    | _ => cases updates
  refine ends.imp id fun stops => ?_
  obtain ⟨s, e, taken, own, heq⟩ := stops o failed
  exact ⟨s, e, taken.of_fresh, own, heq⟩

/-! ### Half a copy -/

/-- A method that is declared to make numbers and makes texts. -/
def makers : Catalog := .ofList [{
  name := "Maker"
  statics := [{
    name := "make"
    params := []
    valueType := some .int
    body := .returning fun _ => .str "x" }] }]

/-- Two pairs of numbers, the second of which is a text at first. A client listens at one of them. -/
def pairs : Workspace :=
  (start "engine" makers).run [
    .build "pair" "Pair" none
      [⟨"first", .value .int, []⟩, ⟨"second", .value .int, [.staticCall "Maker" "make" []]⟩],
    .create "target" (.schema "pair" .inpc "engine") none,
    .create "source" (.schema "pair" .copy "engine") none,
    .set ⟨"source", []⟩ "first" (.int 5),
    .subscribe ⟨"target", []⟩ "view" {}]

theorem reachable_pairs : pairs.Reachable := ⟨"engine", _, _, rfl⟩

/-- A copy from one pair to the other. -/
def copyPair : Action := .copy ⟨"target", []⟩ (some ⟨"source", []⟩)

theorem answer_copyPair : (pairs.perform copyPair).answer =
    .error (.failed (.typeMismatch "Pair" "second" "int" "string")) := rfl

theorem deliveries_copyPair :
    (pairs.perform copyPair).subject.context.hub.deliveries = [⟨0, 0, "view", "first"⟩] := by
  decide +kernel

/-- The error is about a misfit that the source holds. -/
theorem stops_at_the_second_number : copyPair.updated = some ⟨"target", []⟩ ∧
    ∃ s e, pairs.Takes copyPair s ∧ s.Misfit e ∧
      (pairs.perform copyPair).answer = .error (.failed e) := by
  refine ⟨rfl, ?_⟩
  rcases failed_updates_touch_nothing_or_stop_at_a_misfit reachable_pairs rfl answer_copyPair with
    ⟨-, hub⟩ | ⟨s, e, taken, own, same⟩
  · have told := congrArg Hub.deliveries hub
    rw [deliveries_copyPair] at told
    cases told
  · exact ⟨s, e, taken, own, same ▸ answer_copyPair⟩

/-- The first number is copied, and the client is told of it, before the second one fails. -/
theorem copies_half_of_the_pair :
    pairs.Reachable ∧ copyPair.updated = some ⟨"target", []⟩ ∧
    ∃ x y, pairs.read ⟨"target", []⟩ = .ok x ∧ x.kind.isWritable = true ∧
      (pairs.perform copyPair).answer =
        .error (.failed (.typeMismatch "Pair" "second" "int" "string")) ∧
      (pairs.perform copyPair).subject.read ⟨"target", []⟩ = .ok y ∧
      x.get "first" = .ok (.int 0) ∧ y.get "first" = .ok (.int 5) ∧ x.snapshot ≠ y.snapshot ∧
      (pairs.perform copyPair).subject.context.hub.deliveries ≠ [] := by
  refine ⟨reachable_pairs, rfl, _, _, rfl, rfl, answer_copyPair, rfl, rfl, rfl, ?_, ?_⟩
  · intro same
    have same : Value.object "Pair" [("first", .int 0), ("second", .str "x")] =
      .object "Pair" [("first", .int 5), ("second", .str "x")] := same
    simp at same
  · rw [deliveries_copyPair]
    exact List.cons_ne_nil _ _

end Workspace

end SettingsForge
