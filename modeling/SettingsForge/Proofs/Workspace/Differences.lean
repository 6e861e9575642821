import SettingsForge.Proofs.Settings.Differences
import SettingsForge.Proofs.Workspace.Copied

set_option autoImplicit false

/-! # Copies announce the differences

A client that is subscribed at an observable instance while a step copies into it takes note of each
difference of the instance from the source, of no other change, and in the order of the properties
(`Workspace.copies_announce_the_differences`). -/

namespace SettingsForge.Workspace

open Hub Settings

variable {known : Schema → Prop} {w : Workspace}

/-- Take a workspace that a run reaches, any observable instance in it, at any depth, and a step that
    copies any source into it and works. Clients have ended subscriptions with numbers of the same
    instance only. Then a client that is subscribed at the instance all the time takes just the notes
    that are listed in `Settings.differences`, in this order: for every property of the schema, in order,
    one if it is a scalar or list that differs, and for a dictionary as many as there are differences
    between the entries under common keys, and one more if the keys differ. -/
theorem copies_announce_the_differences (reachable : w.Reachable) {place source : Location}
    {x s : Settings} (read : w.read place = .ok x) (observable : x.kind.isObservable = true)
    (read' : w.read source = .ok s) (apart : source.name ≠ place.name)
    (succeeded : (w.perform (.copy place (some source))).answer = .ok .nothing)
    (disciplined : (w.perform (.copy place (some source))).subject.context.hub.Disciplined) :
    x.names = x.schema.properties.map PropertyOf.name ∧
    ∃ n, x.notifier = some n ∧ ∀ id client reaction,
      (id, .client client reaction) ∈ w.context.hub.subscribers n →
      (id, .client client reaction) ∈
        (w.perform (.copy place (some source))).subject.context.hub.subscribers n →
      (w.perform (.copy place (some source))).subject.context.hub.deliveries.filter
          (fun d => d.notifier == n && d.subscription == id) =
        (x.differences s).map fun property => ⟨n, id, client, property⟩ := by
  obtain ⟨known, sound⟩ := reachable.sound
  have sound := sound.fresh
  have read : w.fresh.read place = .ok x := read
  have read' : w.fresh.read source = .ok s := read'
  obtain ⟨root, found, followed⟩ := read_eq_ok.1 read
  obtain ⟨_, there, -, part, conforms⟩ := sound.read read
  obtain ⟨-, -, -, -, source_conforms⟩ := sound.read read'
  have wired := ((sound.forest.rooted _ there).toWired).part part
  obtain ⟨n, own⟩ := Option.isSome_iff_exists.1 (wired.self.notifier.trans observable)
  refine ⟨conforms.self.names_eq, n, own, ?_⟩
  have writable := Kind.isWritable_of_isObservable observable
  have step : w.perform (.copy place (some source)) = _ :=
    sound.copy_eq found followed read' apart writable
  rw [step] at succeeded disciplined ⊢
  have answered : (assign s x w.fresh.context).answer = .ok () := by
    dsimp only at succeeded
    cases answer : (assign s x w.fresh.context).answer with
    | ok => rfl
    | error e =>
        rw [answer] at succeeded
        cases succeeded
  -- a source of another schema would have been refused
  have inherits : s.schema.isA x.schema.id = true := by
    by_contra differs
    rw [assign_of_not_isA _ (by simpa using differs)] at answered
    cases answered
  have alignable : Alignable known w.fresh.catalogs s x :=
    ⟨source_conforms, conforms, wired.writable_inside writable, inherits⟩
  obtain ⟨ns, evolves, topics⟩ := announces_assign sound.registry w.fresh.context alignable
    (wired.audible observable) answered
  have heard := evolves.heard sound.tidy wired disciplined own (.self n)
  obtain ⟨added, deliveries, -, notes⟩ := heard.exists_notice
  have deliveries : (assign s x w.fresh.context).context.hub.deliveries = added := deliveries
  intro id client reaction early late
  rw [← topics, Notice.topics, List.map_map]
  show List.filter _ (assign s x w.fresh.context).context.hub.deliveries = _
  rw [deliveries]
  exact notes id client reaction early late

/-- A copy that works has nothing to report. -/
theorem copy_answers_nothing (w : Workspace) (place : Location) (source : Option Location)
    (works : (w.perform (.copy place source)).answer.isOk = true) :
    (w.perform (.copy place source)).answer = .ok .nothing := by
  have mapped : (w.perform (.copy place source)).answer =
      (w.fresh.edit place (Sound.copying w.fresh place source)).answer.map fun _ => .nothing := rfl
  rw [mapped] at works ⊢
  generalize (w.fresh.edit place (Sound.copying w.fresh place source)).answer = answer at works ⊢
  cases answer with
  | error e => cases works
  | ok _ => rfl

/-! ### Two books -/

/-- Two books with a page in common that has a line in common, and a client at the first one. -/
def books : Workspace :=
  (start "engine" .empty).run [
    .build "line" "Line" none [⟨"amount", .value .int, []⟩],
    .build "page" "Page" none [⟨"lines", .dict "line", []⟩],
    .build "book" "Book" none [⟨"title", .value .str, []⟩, ⟨"pages", .dict "page", []⟩],
    .create "first" (.schema "book" .inpc "engine") none,
    .addEntry ⟨"first", []⟩ "pages" "a",
    .addEntry ⟨"first", []⟩ "pages" "b",
    .addEntry ⟨"first", [("pages", "a")]⟩ "lines" "x",
    .create "second" (.schema "book" .copy "engine") none,
    .set ⟨"second", []⟩ "title" (.str "ledger"),
    .addEntry ⟨"second", []⟩ "pages" "a",
    .addEntry ⟨"second", [("pages", "a")]⟩ "lines" "x",
    .set ⟨"second", [("pages", "a"), ("lines", "x")]⟩ "amount" (.int 5),
    .addEntry ⟨"second", [("pages", "a")]⟩ "lines" "y",
    .subscribe ⟨"first", []⟩ "view" {}]

theorem reachable_books : books.Reachable := ⟨"engine", .empty, _, rfl⟩

/-- The titles differ, then the common line and the lines of the common page, then the pages. -/
theorem announces_how_the_books_differ :
    ∃ x s, books.read ⟨"first", []⟩ = .ok x ∧ books.read ⟨"second", []⟩ = .ok s ∧
      x.differences s = ["title", "pages", "pages", "pages"] ∧
      (books.perform (.copy ⟨"first", []⟩ (some ⟨"second", []⟩))).answer = .ok .nothing ∧
      (books.perform (.copy ⟨"first", []⟩ (some ⟨"second", []⟩))).subject.context.hub.deliveries.filter
          (fun d => d.notifier == 0 && d.subscription == 0) =
        [⟨0, 0, "view", "title"⟩, ⟨0, 0, "view", "pages"⟩, ⟨0, 0, "view", "pages"⟩,
          ⟨0, 0, "view", "pages"⟩] := by
  obtain ⟨x, s, read, read', observable, own, differences⟩ : ∃ x s,
      books.read ⟨"first", []⟩ = .ok x ∧ books.read ⟨"second", []⟩ = .ok s ∧
      x.kind.isObservable = true ∧ x.notifier = some 0 ∧
      x.differences s = ["title", "pages", "pages", "pages"] :=
    ⟨_, _, rfl, rfl, rfl, rfl, by decide +kernel⟩
  have answered := copy_answers_nothing books ⟨"first", []⟩ (some ⟨"second", []⟩) (by decide +kernel)
  obtain ⟨-, n, own', notes⟩ := @copies_announce_the_differences books reachable_books ⟨"first", []⟩
    ⟨"second", []⟩ x s read observable read' (by decide) answered
    (by unfold Hub.Disciplined; decide +kernel)
  cases own.symm.trans own'
  have noted := notes 0 "view" {} (by decide +kernel) (by decide +kernel)
  rw [differences] at noted
  exact ⟨x, s, read, read', differences, answered, noted⟩

end SettingsForge.Workspace
