import SettingsForge.Proofs.Settings.BlurredCopies
import SettingsForge.Settings.Reset

set_option autoImplicit false

/-! # Engines and the observable kinds

An engine serves the two observable kinds alike: the same schemas are resolved, with the same errors and
notes, and a factory of the one kind makes what a factory of the other makes (`Engine.factory_blur`). A
reset with an engine tells them apart in its opening note only (`Engine.reset_blur`). -/

namespace SettingsForge

theorem Resolution.blueprintFor_blur (r : Resolution) (kind : Kind) :
    r.blueprintFor kind.blur = r.blueprintFor kind := by
  unfold blueprintFor
  rw [Kind.isObservable_blur]

namespace Engine

/-! ## Notes of resolving -/

theorem blur_of_mem_journalOf {schema : String} {p : Property} {entry : JournalEntry}
    (mem : entry ∈ Initializer.journalOf schema p) : entry.blur = entry := by
  unfold Initializer.journalOf at mem
  split at mem
  · rw [List.mem_singleton.1 mem]
    rfl
  · cases mem

theorem blur_of_mem_journalOfAll {schema : String} {catalog : Catalog} {properties : List Property}
    {entry : JournalEntry} (mem : entry ∈ Initializer.journalOfAll schema catalog properties) :
    entry.blur = entry := by
  induction properties with
  | nil => cases mem
  | cons p properties ih =>
      rw [Initializer.journalOfAll] at mem
      rcases List.mem_append.1 mem with mem | mem
      · exact blur_of_mem_journalOf mem
      · split at mem
        · cases mem
        · exact ih mem

mutual

/-- Resolving writes down no kind. -/
theorem blur_of_mem_resolveSchema (catalog : Catalog) : (s : Schema) → (cache : ResolutionCache) →
    ∀ entry ∈ (resolveSchema catalog s cache).journal, entry.blur = entry
  | .mk id name base properties index, cache => by
    rw [resolveSchema]
    split
    · intro entry mem
      cases mem
    · intro entry mem
      rcases List.mem_append.1 mem with mem | mem
      · rcases List.mem_append.1 mem with mem | mem
        · exact blur_of_mem_resolveNested catalog properties cache entry mem
        · exact blur_of_mem_journalOfAll mem
      · rw [List.mem_singleton.1 mem]
        rfl

theorem blur_of_mem_resolveNested (catalog : Catalog) :
    (properties : List (PropertyOf Schema)) → (cache : ResolutionCache) →
    ∀ entry ∈ (resolveNested catalog properties cache).journal, entry.blur = entry
  | [], cache => by
    intro entry mem
    rw [resolveNested] at mem
    cases mem
  | ⟨_, .value _, _⟩ :: properties, cache => by
    rw [resolveNested]
    exact blur_of_mem_resolveNested catalog properties cache
  | ⟨_, .dict schema, _⟩ :: properties, cache => by
    rw [resolveNested]
    intro entry mem
    rcases List.mem_append.1 mem with mem | mem
    · exact blur_of_mem_resolveSchema catalog schema cache entry mem
    · exact blur_of_mem_resolveNested catalog properties _ entry mem

end

theorem blur_of_mem_synthesisEnd {schema : Schema} {resolution : Resolution} {count : Nat}
    {entry : JournalEntry} (mem : entry ∈ synthesisEnd schema resolution count) :
    entry.blur = entry := by
  unfold synthesisEnd at mem
  split at mem
  · rw [List.mem_singleton.1 mem]
    rfl
  · rcases List.mem_append.1 mem with mem | mem
    · split at mem
      · rw [List.mem_singleton.1 mem]
        rfl
      · cases mem
    · rw [List.mem_singleton.1 mem]
      rfl

theorem blur_of_mem_resolution {engine : Engine} {schema : Schema} {entry : JournalEntry}
    (mem : entry ∈ (engine.resolution schema).2.2) : entry.blur = entry := by
  unfold resolution at mem
  split at mem
  · cases mem
  · rcases List.mem_cons.1 mem with rfl | mem
    · rfl
    · rcases List.mem_append.1 mem with mem | mem
      · exact blur_of_mem_resolveSchema engine.catalog schema engine.cache entry mem
      · exact blur_of_mem_synthesisEnd mem

theorem blur_journal_factory (engine : Engine) (schema : Schema) (kind : Kind) :
    (engine.factory schema kind).journal.map JournalEntry.blur =
      (engine.factory schema kind).journal :=
  JournalEntry.map_blur_eq_self fun _ mem => blur_of_mem_resolution mem

/-! ## Factories -/

def Factory.blur (factory : Factory) : Factory := { factory with kind := factory.kind.blur }

theorem factory_blur (engine : Engine) (schema : Schema) (kind : Kind) :
    engine.factory schema kind.blur =
      ⟨(engine.factory schema kind).answer.map Factory.blur, (engine.factory schema kind).engine,
        (engine.factory schema kind).journal⟩ := by
  unfold factory
  obtain ⟨resolution, after, journal⟩ := engine.resolution schema
  dsimp only
  rw [Resolution.blueprintFor_blur]
  cases resolution.blueprintFor kind <;> rfl

theorem Factory.create_blur (factory : Factory) (source : Option Settings) (c : Context) :
    factory.blur.create (source.map Settings.blur) c.blur =
      ((factory.create source c).1.map Settings.blur, (factory.create source c).2.blur) :=
  factory.blueprint.create_blur factory.engine factory.kind source c

theorem create_blur (engine : Engine) (schema : Schema) (kind : Kind) (source : Option Settings)
    (c : Context) :
    engine.create schema kind.blur (source.map Settings.blur) c.blur =
      ⟨(engine.create schema kind source c).answer.map Settings.blur,
        (engine.create schema kind source c).engine,
        (engine.create schema kind source c).context.blur⟩ := by
  have noted : c.blur.note (engine.factory schema kind).journal =
      (c.note (engine.factory schema kind).journal).blur := by
    rw [Context.blur_note, blur_journal_factory]
  unfold create
  rw [factory_blur]
  dsimp only
  rw [noted]
  cases (engine.factory schema kind).answer with
  | error e => rfl
  | ok factory =>
      dsimp only [Except.map]
      rw [Factory.create_blur]
      rfl

theorem reset_blur (engine : Engine) (x : Settings) (c : Context) :
    engine.reset x.blur c.blur =
      ((engine.reset x c).1.blur Settings.blur id, (engine.reset x c).2) := by
  have started : c.blur.note [.resetStarted x.schema.name x.kind.blur] =
      (c.note [.resetStarted x.schema.name x.kind]).blur := by
    rw [Context.blur_note]
    rfl
  have ended : ∀ (answer : Except SettingsError Unit) (c : Context),
      c.blur.note (resetEnd x.schema.name answer) = (c.note (resetEnd x.schema.name answer)).blur := by
    intro answer c
    rw [Context.blur_note]
    cases answer <;> rfl
  unfold reset
  dsimp only
  rw [Settings.schema_blur, Settings.kind_blur, started]
  have created := engine.create_blur x.schema .read none (c.note [.resetStarted x.schema.name x.kind])
  rw [show Kind.read.blur = .read from rfl, Option.map_none] at created
  rw [created]
  obtain ⟨answer, after, context⟩ :=
    engine.create x.schema .read none (c.note [.resetStarted x.schema.name x.kind])
  cases answer with
  | error e =>
      dsimp only [Except.map]
      rw [ended]
      rfl
  | ok defaults =>
      dsimp only [Except.map]
      rw [← Option.map_some, x.copy_blur context (some defaults)]
      dsimp only [Done.blur]
      rw [Except.map_id, id, ended]

end Engine

end SettingsForge
