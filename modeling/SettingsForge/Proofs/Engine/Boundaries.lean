import SettingsForge.Proofs.Engine.Requests

set_option autoImplicit false

/-! # Boundaries in the journal

Synthesizing a schema and resetting an instance are brackets in the journal: a start, and an end of the
same operation for the same schema. Asking an engine for a schema writes nothing if the schema is cached,
and otherwise the bracket of its synthesis, which holds no other bracket (`Engine.Asked`). A reset writes
a bracket around what asking for the defaults writes (`Engine.journal_reset`). -/

namespace SettingsForge

open Schema

namespace JournalEntry

/-! ## Entries -/

/-- The entry belongs to one of the operations whose boundaries are written down. -/
def isBoundary (entry : JournalEntry) : Bool :=
  [BoundaryOp.synthesize, .resetToDefaults].any fun op => entry.field? "op" == some op.name

/-- The message says that a schema was resolved. -/
def isResolution (entry : JournalEntry) : Bool := entry.field? "message" == some "schema resolved"

/-- The entry is a boundary of an operation, for the schema of this name. -/
structure Marks (entry : JournalEntry) (op : BoundaryOp) (event schema : String) : Prop where
  op : entry.field? "op" = some op.name
  event : entry.field? "event" = some event
  schema : entry.field? "schema" = some schema

/-- The entry closes an operation as this came out, with the code of the error if it failed. -/
def Closes {α : Type} (entry : JournalEntry) (op : BoundaryOp) (schema : String) :
    Except SettingsError α → Prop
  | .ok _ => entry.Marks op Journal.endEvent schema
  | .error e => entry.Marks op Journal.endErrorEvent schema ∧
      entry.field? "err.code" = some (Diagnosis.ofError e).code

theorem Marks.isBoundary {entry : JournalEntry} {op : BoundaryOp} {event schema : String}
    (marks : entry.Marks op event schema) : entry.isBoundary = true := by
  unfold JournalEntry.isBoundary
  rw [marks.op]
  cases op <;> rfl

theorem marks_synthesisStarted (schema : String) :
    (synthesisStarted schema).Marks .synthesize Journal.startEvent schema := ⟨rfl, rfl, rfl⟩

theorem marks_resetStarted (schema : String) (kind : Kind) :
    (resetStarted schema kind).Marks .resetToDefaults Journal.startEvent schema := ⟨rfl, rfl, rfl⟩

theorem marks_synthesisEnded (schema : String) (properties resolved : Nat) :
    (synthesisEnded schema properties resolved).Marks .synthesize Journal.endEvent schema :=
  ⟨rfl, rfl, rfl⟩

theorem marks_resetEnded (schema : String) :
    (resetEnded schema).Marks .resetToDefaults Journal.endEvent schema := ⟨rfl, rfl, rfl⟩

theorem closes_failed {α : Type} (op : BoundaryOp) (schema : String) (e : SettingsError) :
    (failed op schema e).Closes op schema (.error e : Except SettingsError α) :=
  ⟨⟨rfl, rfl, rfl⟩, rfl⟩

theorem isResolution_eq (entry : JournalEntry) : entry.isResolution = Engine.isResolvedNote entry := by
  cases entry <;> rfl

theorem isBoundary_of_isEditing {entry : JournalEntry} (h : entry.isEditing = true) :
    entry.isBoundary = false := by
  cases entry <;> first | rfl | cases h

end JournalEntry

/-! ## Brackets -/

/-- A start and an end of the same operation for the same schema, and what is between them. -/
inductive Bracket (op : BoundaryOp) (inside : List JournalEntry) : List JournalEntry → Prop
  | mk {schema : String} {start close : JournalEntry} :
      start.Marks op Journal.startEvent schema →
      close.Marks op Journal.endEvent schema ∨ close.Marks op Journal.endErrorEvent schema →
      Bracket op inside (start :: (inside ++ [close]))

/-- Brackets in a row: of syntheses, with nothing inside, and of resets, with at most the bracket of one
    synthesis inside. -/
inductive Bracketed : List JournalEntry → Prop
  | nil : Bracketed []
  | synthesis {log rest : List JournalEntry} :
      Bracket .synthesize [] log → Bracketed rest → Bracketed (log ++ rest)
  | reset {inside log rest : List JournalEntry} :
      inside = [] ∨ Bracket .synthesize [] inside → Bracket .resetToDefaults inside log →
      Bracketed rest → Bracketed (log ++ rest)

theorem Bracketed.append {first rest : List JournalEntry} (h : Bracketed first)
    (later : Bracketed rest) : Bracketed (first ++ rest) := by
  induction h with
  | nil => exact later
  | synthesis bracket _ ih =>
      rw [List.append_assoc]
      exact .synthesis bracket ih
  | reset inside bracket _ ih =>
      rw [List.append_assoc]
      exact .reset inside bracket ih

theorem JournalEntry.Closes.marks {α : Type} {entry : JournalEntry} {op : BoundaryOp} {schema : String}
    {answer : Except SettingsError α} (h : entry.Closes op schema answer) :
    entry.Marks op Journal.endEvent schema ∨ entry.Marks op Journal.endErrorEvent schema := by
  cases answer with
  | ok => exact Or.inl h
  | error => exact Or.inr h.1

/-- The boundaries of a bracket stay when the other entries are left out. -/
theorem filter_bracket {start close : JournalEntry} {inside : List JournalEntry}
    (opens : start.isBoundary = true) (closes : close.isBoundary = true) :
    (start :: (inside ++ [close])).filter JournalEntry.isBoundary =
      start :: (inside.filter JournalEntry.isBoundary ++ [close]) := by
  rw [List.filter_cons_of_pos opens, List.filter_append, List.filter_cons_of_pos closes,
    List.filter_nil]

theorem filter_plain {log : List JournalEntry} (plain : ∀ entry ∈ log, entry.isBoundary = false) :
    log.filter JournalEntry.isBoundary = [] :=
  List.filter_eq_nil_iff.2 fun entry mem => by rw [plain entry mem]; decide

namespace Engine

/-! ## Syntheses -/

/-- What asking an engine for a schema writes: nothing if the schema is cached, and otherwise a bracket
    that closes as the schema's blueprint comes out. If there is a blueprint, the end has the number of
    schemas that the entries inside say were resolved, which is at least one. -/
inductive Asked (engine : Engine) (s : Schema) : List JournalEntry → Prop
  | cached : engine.isResolved s = true → Asked engine s []
  | synthesized {start close : JournalEntry} {inside : List JournalEntry} :
      engine.isResolved s = false → start.Marks .synthesize Journal.startEvent s.name →
      (∀ entry ∈ inside, entry.isBoundary = false) →
      close.Closes .synthesize s.name (s.resolve engine.catalog).blueprint →
      (∀ blueprint, (s.resolve engine.catalog).blueprint = .ok blueprint →
        close.field? "resolved_count" = some (natText (inside.countP JournalEntry.isResolution)) ∧
          0 < inside.countP JournalEntry.isResolution) →
      Asked engine s (start :: (inside ++ [close]))

theorem plain_journalOf (schema : String) (p : Property) :
    ∀ entry ∈ Initializer.journalOf schema p, entry.isBoundary = false := by
  intro entry mem
  unfold Initializer.journalOf at mem
  split at mem
  · rw [List.mem_singleton.1 mem]
    rfl
  · cases mem

theorem plain_journalOfAll (schema : String) (catalog : Catalog) (properties : List Property) :
    ∀ entry ∈ Initializer.journalOfAll schema catalog properties, entry.isBoundary = false := by
  induction properties with
  | nil => exact fun _ mem => nomatch mem
  | cons p properties ih =>
      intro entry mem
      rw [Initializer.journalOfAll] at mem
      rcases List.mem_append.1 mem with mem | mem
      · exact plain_journalOf schema p entry mem
      · split at mem
        · cases mem
        · exact ih entry mem

mutual

/-- Inside of a synthesis there is no boundary. -/
theorem plain_resolveSchema (catalog : Catalog) : (s : Schema) → {cache : ResolutionCache} →
    ∀ entry ∈ (resolveSchema catalog s cache).journal, entry.isBoundary = false
  | .mk own name base properties index, cache => by
    rw [resolveSchema]
    split
    · exact fun _ mem => nomatch mem
    · intro entry mem
      rcases List.mem_append.1 mem with mem | mem
      · rcases List.mem_append.1 mem with mem | mem
        · exact plain_resolveNested catalog properties entry mem
        · exact plain_journalOfAll name catalog properties entry mem
      · rw [List.mem_singleton.1 mem]
        rfl

theorem plain_resolveNested (catalog : Catalog) : (properties : List (PropertyOf Schema)) →
    {cache : ResolutionCache} →
    ∀ entry ∈ (resolveNested catalog properties cache).journal, entry.isBoundary = false
  | [], cache => fun _ mem => nomatch mem
  | ⟨_, .value _, _⟩ :: properties, cache => by
    rw [resolveNested]
    exact plain_resolveNested catalog properties
  | ⟨_, .dict schema, _⟩ :: properties, cache => by
    rw [resolveNested]
    intro entry mem
    rcases List.mem_append.1 mem with mem | mem
    · exact plain_resolveSchema catalog schema entry mem
    · exact plain_resolveNested catalog properties entry mem

end

/-- What the end of a synthesis writes: perhaps a warning, and what closes the bracket. -/
theorem exists_of_synthesisEnd (s : Schema) (resolution : Resolution) (count : Nat) :
    ∃ warnings close, synthesisEnd s resolution count = warnings ++ [close] ∧
      (∀ entry ∈ warnings, entry.isBoundary = false ∧ entry.isResolution = false) ∧
      close.Closes .synthesize s.name resolution.blueprint ∧
      ∀ blueprint, resolution.blueprint = .ok blueprint →
        close.field? "resolved_count" = some (natText count) := by
  unfold synthesisEnd
  cases resolution.blueprint with
  | error e =>
      refine ⟨[], _, rfl, fun _ mem => ?_, JournalEntry.closes_failed _ _ e, fun _ h => ?_⟩
      · cases mem
      · cases h
  | ok blueprint =>
      refine ⟨_, _, rfl, fun entry mem => ?_, JournalEntry.marks_synthesisEnded _ _ _, fun _ _ => rfl⟩
      split at mem
      · rw [List.mem_singleton.1 mem]
        exact ⟨rfl, rfl⟩
      · cases mem

variable {known : Schema → Prop} {engine : Engine} {s : Schema}

/-- What is written when an engine is asked for a schema. -/
theorem asked_resolution (identified : Identified known) {schemas : List Schema}
    (holds : Holds known engine.serial engine.catalog schemas engine) (hs : known s) :
    engine.Asked s (engine.resolution s).2.2 := by
  unfold resolution
  cases found : engine.cache.lookup s.id with
  | some r => exact .cached (by rw [isResolved, found]; rfl)
  | none =>
      obtain ⟨outcome, added, ext, mem, -⟩ :=
        resolveSchema_spec identified engine.catalog s hs holds.complete
      have cache_eq : engine.cache = cacheOf engine.catalog schemas := by rw [holds.engine_eq]
      rw [← cache_eq] at outcome ext
      -- the schema comes in anew, so at least one does
      have absent : s ∉ schemas := fun there => by
        have := lookup_cacheOf_of_mem identified engine.catalog holds.complete.known there
        rw [← cache_eq, found] at this
        cases this
      have some_added : 0 < added.length :=
        List.length_pos_of_mem ((List.mem_append.1 mem).resolve_right absent)
      have inside := @plain_resolveSchema engine.catalog s engine.cache
      dsimp only
      generalize resolveSchema engine.catalog s engine.cache = resolved at outcome ext inside
      obtain ⟨warnings, close, ending, quiet, closes, counted⟩ :=
        exists_of_synthesisEnd s resolved.outcome (resolved.cache.length - engine.cache.length)
      have count : (resolved.journal ++ warnings).countP JournalEntry.isResolution = added.length := by
        have none : warnings.countP JournalEntry.isResolution = 0 :=
          List.countP_eq_zero.2 fun entry mem => by rw [(quiet entry mem).2]; decide
        rw [List.countP_append, none, funext JournalEntry.isResolution_eq,
          List.countP_eq_length_filter, ext.notes]
        simp [resolvedNotes]
      have length : resolved.cache.length - engine.cache.length = added.length := by
        rw [ext.cache_eq, cache_eq]
        simp [cacheOf]
      rw [ending, ← List.append_assoc]
      rw [outcome] at closes counted
      refine .synthesized (by rw [isResolved, found]; rfl) (JournalEntry.marks_synthesisStarted _) ?_
        closes fun blueprint made => ?_
      · intro entry mem
        exact (List.mem_append.1 mem).elim (inside entry) fun mem => (quiet entry mem).1
      · rw [count, counted blueprint made, length]
        exact ⟨rfl, some_added⟩

/-- After it was asked for a schema, an engine has it cached. -/
theorem isResolved_resolution (identified : Identified known) {schemas : List Schema}
    (holds : Holds known engine.serial engine.catalog schemas engine) (hs : known s) :
    (engine.resolution s).2.1.isResolved s = true := by
  obtain ⟨-, added, after, -, mem, -⟩ := resolution_spec identified holds hs
  rw [isResolved, after.engine_eq,
    lookup_cacheOf_of_mem identified engine.catalog after.complete.known mem]
  rfl

/-- The boundaries that asking for a schema writes are none, or the bracket of a synthesis. -/
theorem Asked.boundaries {log : List JournalEntry} (h : engine.Asked s log) :
    log.filter JournalEntry.isBoundary = [] ∨
      Bracket .synthesize [] (log.filter JournalEntry.isBoundary) := by
  cases h with
  | cached => exact Or.inl rfl
  | synthesized _ opens inside closes _ =>
      have ends := closes.marks
      rw [filter_bracket opens.isBoundary (ends.elim (·.isBoundary) (·.isBoundary)),
        filter_plain inside]
      exact Or.inr (.mk opens ends)

/-! ## Resets -/

/-- Making an instance writes what asking for the schema writes, and what a copy of the source does. -/
theorem journal_create (engine : Engine) (s : Schema) (kind : Kind) (source : Option Settings)
    (c : Context) :
    ∃ more : List JournalEntry, (engine.create s kind source c).context.journal =
        c.journal ++ ((engine.resolution s).2.2 ++ more) ∧ ∀ entry ∈ more, entry.isEditing = true := by
  have noted : (c.note (engine.factory s kind).journal).journal =
      c.journal ++ (engine.resolution s).2.2 := rfl
  unfold create
  dsimp only
  split
  · exact ⟨[], by rw [noted, List.append_nil], fun _ mem => nomatch mem⟩
  · next factory _ =>
    obtain ⟨more, same, editing⟩ := factory.blueprint.continues_create factory.engine factory.kind source
      (c.note (engine.factory s kind).journal)
    refine ⟨more, ?_, editing⟩
    rw [noted, List.append_assoc] at same
    exact same

/-- A reset writes its start, what asking for the defaults and copying them write, and an end as the
    reset comes out. -/
theorem journal_reset (engine : Engine) (x : Settings) (c : Context) :
    ∃ (more : List JournalEntry) (close : JournalEntry), (engine.reset x c).1.context.journal =
        c.journal ++ .resetStarted x.schema.name x.kind ::
          ((engine.resolution x.schema).2.2 ++ more ++ [close]) ∧
      (∀ entry ∈ more, entry.isEditing = true) ∧
      close.Closes .resetToDefaults x.schema.name (engine.reset x c).1.answer := by
  obtain ⟨more, made, editing⟩ := engine.journal_create x.schema .read none
    (c.note [.resetStarted x.schema.name x.kind])
  unfold reset
  dsimp only
  generalize engine.create x.schema .read none (c.note [.resetStarted x.schema.name x.kind]) = created
    at made
  obtain ⟨answer, after, context⟩ := created
  have made : context.journal = _ := made
  cases answer with
  | error e =>
      refine ⟨more, _, ?_, editing, JournalEntry.closes_failed _ _ e⟩
      show context.journal ++ [_] = _
      rw [made]
      simp [Context.note]
  | ok defaults =>
      dsimp only
      obtain ⟨copied, same, editing'⟩ := x.continues_copy (some defaults) context
      generalize x.copy (some defaults) context = d at same
      have closes : ∃ close, resetEnd x.schema.name d.answer = [close] ∧
          close.Closes .resetToDefaults x.schema.name d.answer := by
        cases d.answer with
        | error e => exact ⟨_, rfl, JournalEntry.closes_failed _ _ e⟩
        | ok _ => exact ⟨_, rfl, JournalEntry.marks_resetEnded _⟩
      obtain ⟨close, ending, closes⟩ := closes
      refine ⟨more ++ copied, close, ?_, fun entry mem => ?_, closes⟩
      · show d.context.journal ++ resetEnd x.schema.name d.answer = _
        rw [ending, same, made]
        simp [Context.note]
      · exact (List.mem_append.1 mem).elim (editing entry) (editing' entry)

end Engine

end SettingsForge
