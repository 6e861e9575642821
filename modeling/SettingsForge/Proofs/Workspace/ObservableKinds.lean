import SettingsForge.Proofs.Workspace.BlurredSteps

set_option autoImplicit false

/-! # The observable kinds behave alike

Two runs whose steps are the same, but for the observable kinds of the instances that they make, pass
through workspaces that are equal up to blurring, step by step. So they answer alike, have the same
values at every depth and tell the same clients of the same changes in the same order
(`Workspace.observable_kinds_behave_alike`). What tells them apart is listed here as well: the kind in a
shape, in a report on a dictionary, in the debug text of a dictionary (`Report.Alike`) and in the field
of an entry of the journal that names it (`JournalEntry.withoutKind`). -/

namespace SettingsForge

open Settings

/-- Steps that are the same but for the observable kind of what they make. -/
inductive Action.Alike : Action → Action → Prop where
  | same (action : Action) : Alike action action
  | newFactory {kind other : Kind} (first : kind.isObservable = true)
      (second : other.isObservable = true) (schema engine name : String) :
      Alike (.newFactory schema kind engine name) (.newFactory schema other engine name)
  | create {kind other : Kind} (first : kind.isObservable = true) (second : other.isObservable = true)
      (name schema engine : String) (source : Option Location) :
      Alike (.create name (.schema schema kind engine) source)
        (.create name (.schema schema other engine) source)

/-- Reports that are the same but for observable kinds that they name. -/
inductive Report.Alike : Report → Report → Prop where
  | same (report : Report) : Alike report report
  | shape {s t : Shape} (shapes : s.blur = t.blur) : Alike (.shape s) (.shape t)
  | dict (property schema : String) {kind other : Kind} (kinds : kind.blur = other.blur)
      {entries others : List (String × Shape)}
      (shapes : Keyed.mapValues Shape.blur entries = Keyed.mapValues Shape.blur others) :
      Alike (.dict property schema kind entries) (.dict property schema other others)
  | debugDict {d other : DictRef} (dicts : d.blur = other.blur)
      {entries others : List Entry} (keys : Entries.keys entries = Entries.keys others) :
      Alike (.text (Settings.dictDebug d entries)) (.text (Settings.dictDebug other others))

/-- Answers that are the same error, or reports alike. -/
inductive Report.AnsweredAlike : Except Obstacle Report → Except Obstacle Report → Prop where
  | error (obstacle : Obstacle) : AnsweredAlike (.error obstacle) (.error obstacle)
  | ok {first second : Report} (alike : first.Alike second) : AnsweredAlike (.ok first) (.ok second)

/-- What an entry of the journal shows, but for the field that names a kind. -/
def JournalEntry.withoutKind (entry : JournalEntry) : JournalLevel × List (String × String) :=
  (entry.level, entry.fields.filter fun field => field.1 != "kind")

theorem JournalEntry.withoutKind_blur (entry : JournalEntry) :
    entry.blur.withoutKind = entry.withoutKind := by
  cases entry with
  | resetStarted schema kind =>
      simp [JournalEntry.blur, withoutKind, level, fields, List.filter_append]
  | _ => rfl

/-! ## What blurring makes equal -/

theorem Action.Alike.blur_eq {action other : Action} (alike : action.Alike other) :
    action.blur = other.blur := by
  cases alike with
  | same => rfl
  | newFactory first second =>
      simp only [Action.blur, Kind.blur_eq_blur_iff.2 (Or.inr ⟨first, second⟩)]
  | create first second =>
      simp only [Action.blur, Maker.blur, Kind.blur_eq_blur_iff.2 (Or.inr ⟨first, second⟩)]

theorem Report.Alike.of_eq {report other : Report} (h : report = other) : report.Alike other :=
  h ▸ .same report

theorem Report.Alike.of_blur_eq {report other : Report} (h : report.blur = other.blur) :
    report.Alike other := by
  cases report with
  | shape s =>
      cases other with
      | shape t => exact .shape (Report.shape.inj h)
      | _ => cases h
  | dict property schema kind entries =>
      cases other with
      | dict property' schema' other others =>
          obtain ⟨rfl, rfl, kinds, shapes⟩ := Report.dict.inj h
          exact .dict property schema kinds shapes
      | _ => cases h
  | _ =>
      cases other with
      | shape => cases h
      | dict => cases h
      | _ => exact .of_eq h

theorem Report.AnsweredAlike.of_blur_eq {answer other : Except Obstacle Report}
    (h : answer.map Report.blur = other.map Report.blur) : AnsweredAlike answer other := by
  obtain ⟨e, rfl, rfl⟩ | ⟨r, s, rfl, rfl, same⟩ := error_or_ok_of_map_eq h
  · exact .error e
  · exact .ok (.of_blur_eq same)

namespace Workspace

variable {known later : Schema → Prop} {w v : Workspace} {action other : Action}

/-! ## Steps -/

theorem read_blur_eq (same : w.blur = v.blur) (place : Location) :
    (w.read place).map Settings.blur = (v.read place).map Settings.blur := by
  rw [← read_blur, same, read_blur]

/-- The debug texts of a dictionary are alike, which blurring does not make equal. -/
theorem debugDict_alike (same : w.blur = v.blur) (place : Location) (property : String) :
    Report.AnsweredAlike (w.act (.debugDict place property)).answer
      (v.act (.debugDict place property)).answer := by
  simp only [act, inspect]
  obtain ⟨e, first, second⟩ | ⟨x, y, first, second, instances⟩ :=
    error_or_ok_of_map_eq (read_blur_eq same place)
  · rw [first, second]
    exact .error e
  have dicts := x.dict_blur property
  rw [instances, dict_blur] at dicts
  rw [first, second]
  obtain ⟨e, first, second⟩ | ⟨d', d, second, first, blurred⟩ := error_or_ok_of_map_eq dicts
  · show Report.AnsweredAlike (((x.dict property).map _).mapError _) (((y.dict property).map _).mapError _)
    rw [first, second]
    exact .error _
  · obtain ⟨same, entries⟩ := Prod.mk.inj blurred
    have keys : Entries.keys d.2 = Entries.keys d'.2 := by
      rw [← Entries.keys_blur d.2, ← entries, Entries.keys_blur]
    show Report.AnsweredAlike (((x.dict property).map _).mapError _) (((y.dict property).map _).mapError _)
    rw [first, second]
    dsimp only [Except.map, Except.mapError]
    exact .ok (.debugDict same.symm keys)

/-- Alike steps in workspaces that blurring makes equal lead to such workspaces, and are answered
    alike. -/
theorem Sound.act_alike (first : w.Sound known) (second : v.Sound later) (same : w.blur = v.blur)
    (alike : action.Alike other) :
    (w.act action).subject.blur = (v.act other).subject.blur ∧
      Report.AnsweredAlike (w.act action).answer (v.act other).answer := by
  by_cases names : ∃ place property, action = .debugDict place property
  · obtain ⟨place, property, rfl⟩ := names
    cases alike
    exact ⟨same, debugDict_alike same place property⟩
  · have plain : ∀ place property, action ≠ .debugDict place property :=
      fun place property h => names ⟨place, property, h⟩
    have plain' : ∀ place property, other ≠ .debugDict place property := by
      rintro place property rfl
      cases alike
      exact plain place property rfl
    have acts : (w.act action).blur Report.blur = (v.act other).blur Report.blur := by
      rw [← first.act_blur action plain, ← second.act_blur other plain', same, alike.blur_eq]
    exact ⟨congrArg Attempt.subject acts, .of_blur_eq (congrArg Attempt.answer acts)⟩

theorem Sound.perform_alike (first : w.Sound known) (second : v.Sound later)
    (same : w.blur = v.blur) (alike : action.Alike other) :
    (w.perform action).subject.blur = (v.perform other).subject.blur ∧
      Report.AnsweredAlike (w.perform action).answer (v.perform other).answer :=
  first.fresh.act_alike second.fresh (by rw [← fresh_blur, same, fresh_blur]) alike

/-! ## Runs -/

/-- Alike runs from workspaces that blurring makes equal lead to such workspaces. -/
theorem Sound.run_alike (first : w.Sound known) (second : v.Sound later) (same : w.blur = v.blur)
    {actions others : List Action} (alike : List.Forall₂ Action.Alike actions others) :
    (w.run actions).blur = (v.run others).blur := by
  induction alike generalizing w v known later with
  | nil => exact same
  | @cons action other _ _ alike _ ih =>
      obtain ⟨_, -, after⟩ := first.perform action
      obtain ⟨_, -, after'⟩ := second.perform other
      exact ih after after' (first.perform_alike second same alike).1

theorem read_snapshot_eq (same : w.blur = v.blur) (place : Location) :
    (w.read place).map Settings.snapshot = (v.read place).map Settings.snapshot := by
  obtain ⟨e, first, second⟩ | ⟨x, y, first, second, instances⟩ :=
    error_or_ok_of_map_eq (read_blur_eq same place)
  · rw [first, second]
  · rw [first, second]
    exact congrArg Except.ok (by rw [← snapshot_blur, instances, snapshot_blur])

/-- Run the same steps twice from a workspace with one engine, but make some of the instances of the
    other observable kind, at once or by way of factories, with the defaults or from any source. Every
    further step, the same in both or one that differs in the same way, is answered alike: by the same
    error, or by reports that are equal but for the kinds that they name. It delivers the same to the
    same subscribers in the same order and leaves the same subscriptions. What it writes down is equal
    but for the field that names a kind. And every location then holds instances that are equal but for
    their observable kinds and those of their entries, so with the same snapshot, or none. -/
theorem observable_kinds_behave_alike (name : String) (catalog : Catalog) {actions others : List Action}
    (alike : List.Forall₂ Action.Alike actions others) {action other : Action}
    (next : action.Alike other) :
    let one := ((start name catalog).run actions).perform action
    let two := ((start name catalog).run others).perform other
    Report.AnsweredAlike one.answer two.answer ∧
      one.subject.context.hub = two.subject.context.hub ∧
      one.subject.context.journal.map JournalEntry.withoutKind =
        two.subject.context.journal.map JournalEntry.withoutKind ∧
      ∀ place,
        (one.subject.read place).map Settings.blur = (two.subject.read place).map Settings.blur ∧
        (one.subject.read place).map Settings.snapshot =
          (two.subject.read place).map Settings.snapshot := by
  intro one two
  obtain ⟨known, sound⟩ := Reachable.sound ⟨name, catalog, actions, rfl⟩
  obtain ⟨later, sound'⟩ := Reachable.sound ⟨name, catalog, others, rfl⟩
  have runs : ((start name catalog).run actions).blur = ((start name catalog).run others).blur :=
    (sound_start name catalog).run_alike (sound_start name catalog) rfl alike
  obtain ⟨same, answers⟩ := sound.perform_alike sound' runs next
  have contexts : one.subject.context.blur = two.subject.context.blur := congrArg context same
  refine ⟨answers, (congrArg Context.hub contexts :), ?_, fun place =>
    ⟨read_blur_eq same place, read_snapshot_eq same place⟩⟩
  have shown : ∀ c : Context, c.blur.journal.map JournalEntry.withoutKind =
      c.journal.map JournalEntry.withoutKind := fun c => by
    rw [Context.journal_blur, List.map_map]
    exact List.map_congr_left fun entry _ => entry.withoutKind_blur
  rw [← shown, contexts, shown]

/-! ### One shelf -/

/-- A plain shelf with an entry, a shelf of some kind that comes from it, and a client at the second
    shelf and its entry each. -/
def copiedShelf (kind : Kind) : List Action := [
  .build "entry" "Entry" none [⟨"count", .value .int, []⟩],
  .build "shelf" "Shelf" none [⟨"title", .value .str, []⟩, ⟨"entries", .dict "entry", []⟩],
  .create "plain" (.schema "shelf" .copy "engine") none,
  .set ⟨"plain", []⟩ "title" (.str "old"),
  .addEntry ⟨"plain", []⟩ "entries" "a",
  .create "live" (.schema "shelf" kind "engine") (some ⟨"plain", []⟩),
  .subscribe ⟨"live", []⟩ "view" {},
  .subscribe ⟨"live", [("entries", "a")]⟩ "row" {}]

/-- The second shelf brought to the defaults. -/
def emptiedShelf (kind : Kind) : Attempt Workspace Report :=
  ((start "engine" .empty).run (copiedShelf kind)).perform (.reset ⟨"live", []⟩ "engine")

/-- The shelf announces the same whichever of the observable kinds it is of, though its kind is written
    down. -/
theorem empties_the_real_shelf_alike :
    List.Forall₂ Action.Alike (copiedShelf .inpc) (copiedShelf .real) ∧
      (emptiedShelf .real).subject.context.hub.deliveries =
        [⟨0, 0, "view", "title"⟩, ⟨0, 0, "view", "entries"⟩] ∧
      (emptiedShelf .inpc).subject.context.journal ≠ (emptiedShelf .real).subject.context.journal ∧
      ∀ place, ((emptiedShelf .inpc).subject.read place).map Settings.snapshot =
        ((emptiedShelf .real).subject.read place).map Settings.snapshot := by
  have alike : List.Forall₂ Action.Alike (copiedShelf .inpc) (copiedShelf .real) :=
    .cons (.same _) <| .cons (.same _) <| .cons (.same _) <| .cons (.same _) <| .cons (.same _) <|
      .cons (.create rfl rfl _ _ _ _) <| .cons (.same _) <| .cons (.same _) .nil
  obtain ⟨-, hubs, -, reads⟩ :=
    observable_kinds_behave_alike "engine" .empty alike (.same (.reset ⟨"live", []⟩ "engine"))
  have delivered : (emptiedShelf .inpc).subject.context.hub.deliveries =
      [⟨0, 0, "view", "title"⟩, ⟨0, 0, "view", "entries"⟩] := by decide +kernel
  exact ⟨alike, (congrArg Hub.deliveries hubs).symm.trans delivered, by decide +kernel,
    fun place => (reads place).2⟩

end Workspace

end SettingsForge
