import Mathlib.Data.List.Nodup
import SettingsForge.Proofs.Engine.Resolving
import SettingsForge.Proofs.Settings.Journal
import SettingsForge.Settings.Reset

set_option autoImplicit false

/-! # Runs of requests

An engine is asked for factories and shapes, to make instances and to reset them. `Engine.serve`
answers one request, `Engine.serveAll` a list of them through one shared engine. Whatever was asked
before, what a schema resolves to is what it resolves to by itself, and over a whole run each schema
that is reached from a requested one is resolved once (`Engine.resolved_once_whatever_the_history`). -/

namespace SettingsForge

open Schema

namespace Engine

/-- What an engine is asked for. The hub is what notification has come to by then. -/
inductive Request where
  | factory (schema : Schema) (kind : Kind)
  | typeOf (schema : Schema) (kind : Kind)
  | create (schema : Schema) (kind : Kind) (source : Option Settings) (hub : Hub)
  | reset (target : Settings) (hub : Hub)

/-- The schema that a request is about. -/
def Request.schema : Request → Schema
  | .factory schema _ => schema
  | .typeOf schema _ => schema
  | .create schema .. => schema
  | .reset target _ => target.schema

/-- The engine after a request, and what was written down. -/
def serve (engine : Engine) : Request → Engine × List JournalEntry
  | .factory schema kind =>
    let reply := engine.factory schema kind
    (reply.engine, reply.journal)
  | .typeOf schema kind =>
    let reply := engine.typeOf schema kind
    (reply.engine, reply.journal)
  | .create schema kind source hub =>
    let made := engine.create schema kind source { hub := hub }
    (made.engine, made.context.journal)
  | .reset target hub =>
    let (d, after) := engine.reset target { hub := hub }
    (after, d.context.journal)

/-- The engine after requests in turn, and all that was written down. -/
def serveAll (engine : Engine) : List Request → Engine × List JournalEntry
  | [] => (engine, [])
  | request :: requests =>
    let first := engine.serve request
    let rest := first.1.serveAll requests
    (rest.1, first.2 ++ rest.2)

/-- An engine that has resolved nothing. -/
def unused (serial : EngineId) (catalog : Catalog) : Engine := { serial := serial, catalog := catalog }

/-- A schema that requests reach: the schema of one of them, or nested in it at some depth. -/
def Requested (requests : List Request) (s : Schema) : Prop :=
  ∃ request ∈ requests, Reaches request.schema s

theorem serveAll_append (engine : Engine) (first rest : List Request) :
    engine.serveAll (first ++ rest) =
      (((engine.serveAll first).1.serveAll rest).1,
        (engine.serveAll first).2 ++ ((engine.serveAll first).1.serveAll rest).2) := by
  induction first generalizing engine with
  | nil => simp [serveAll]
  | cons request first ih => simp [serveAll, ih]

/-! ## One request -/

/-- The engine holds the resolutions of these schemas and no others. -/
structure Holds (known : Schema → Prop) (serial : EngineId) (catalog : Catalog)
    (schemas : List Schema) (engine : Engine) : Prop where
  complete : Complete known schemas
  engine_eq : engine = { serial := serial, catalog := catalog, cache := cacheOf catalog schemas }

theorem filter_synthesisEnd (schema : Schema) (resolution : Resolution) (count : Nat) :
    (synthesisEnd schema resolution count).filter isResolvedNote = [] := by
  unfold synthesisEnd
  split
  · rfl
  · split <;> rfl

/-- A request for a resolution gives the schema's own one and resolves what is missing. -/
theorem resolution_spec {known : Schema → Prop} (identified : Identified known)
    {serial : EngineId} {catalog : Catalog} {schemas : List Schema} {engine : Engine}
    (holds : Holds known serial catalog schemas engine) {s : Schema} (hs : known s) :
    (engine.resolution s).1 = s.resolve catalog ∧
      ∃ added, Holds known serial catalog (added ++ schemas) (engine.resolution s).2.1 ∧
        (engine.resolution s).2.2.filter isResolvedNote = resolvedNotes catalog added ∧
        s ∈ added ++ schemas ∧ ∀ t ∈ added, Reaches s t := by
  obtain ⟨complete, rfl⟩ := holds
  unfold resolution
  split
  · next known' found =>
    have mem := mem_of_lookup_cacheOf identified complete.known hs (by rw [found]; rfl)
    have own := lookup_cacheOf_of_mem identified catalog complete.known mem
    rw [found] at own
    exact ⟨Option.some.inj own, [], ⟨complete, rfl⟩, rfl, mem, by simp⟩
  · obtain ⟨outcome, added, ext, mem, reached⟩ := resolveSchema_spec identified catalog s hs complete
    refine ⟨outcome, added, ⟨ext.complete, ?_⟩, ?_, mem, reached⟩
    · simp only [ext.cache_eq]
    · rw [List.filter_cons_of_neg (by simp [isResolvedNote]), List.filter_append,
        filter_synthesisEnd, List.append_nil, ext.notes]

theorem filter_editing {entries : List JournalEntry}
    (h : ∀ entry ∈ entries, entry.isEditing = true) : entries.filter isResolvedNote = [] := by
  rw [List.filter_eq_nil_iff]
  intro entry mem
  have := h entry mem
  cases entry <;> simp_all [JournalEntry.isEditing, isResolvedNote]

/-- An instance's own operations write no note about schemas. -/
theorem filter_of_continues {before after : Context} (h : before.Continues after) :
    after.journal.filter isResolvedNote = before.journal.filter isResolvedNote := by
  obtain ⟨more, hm, editing⟩ := h
  rw [hm, List.filter_append, filter_editing editing, List.append_nil]

theorem engine_create (engine : Engine) (schema : Schema) (kind : Kind)
    (source : Option Settings) (c : Context) :
    (engine.create schema kind source c).engine = (engine.resolution schema).2.1 := by
  unfold create
  dsimp only
  split <;> rfl

theorem filter_create (engine : Engine) (schema : Schema) (kind : Kind)
    (source : Option Settings) (c : Context) :
    (engine.create schema kind source c).context.journal.filter isResolvedNote =
      c.journal.filter isResolvedNote ++ (engine.resolution schema).2.2.filter isResolvedNote := by
  have noted : (c.note (engine.factory schema kind).journal).journal.filter isResolvedNote =
      c.journal.filter isResolvedNote ++
        (engine.resolution schema).2.2.filter isResolvedNote := by
    simp [Context.note, factory]
  unfold create
  dsimp only
  split
  · exact noted
  · next made _ =>
    rw [← noted]
    exact filter_of_continues (Blueprint.continues_create ..)

/-- Every request asks for one resolution: it leaves the engine that this leaves, and writes the notes
    about schemas that this writes. -/
theorem serve_eq (engine : Engine) (request : Request) :
    (engine.serve request).1 = (engine.resolution request.schema).2.1 ∧
      (engine.serve request).2.filter isResolvedNote =
        (engine.resolution request.schema).2.2.filter isResolvedNote := by
  cases request with
  | factory schema kind => exact ⟨rfl, rfl⟩
  | typeOf schema kind => exact ⟨rfl, rfl⟩
  | create schema kind source hub =>
      refine ⟨engine_create .., ?_⟩
      have notes := filter_create engine schema kind source { hub := hub }
      rwa [List.filter_nil, List.nil_append] at notes
  | reset target hub =>
      -- a reset makes an instance of the reading kind and copies it
      have made := engine_create engine target.schema .read none
        (Context.note { hub := hub } [.resetStarted target.schema.name target.kind])
      have notes := filter_create engine target.schema .read none
        (Context.note { hub := hub } [.resetStarted target.schema.name target.kind])
      simp only [Context.note, List.nil_append] at made notes
      simp only [serve, reset, Request.schema, Context.note, List.nil_append]
      split
      · next e after context heq =>
        rw [heq] at made notes
        exact ⟨made, by simpa [List.filter_append, resetEnd, isResolvedNote] using notes⟩
      · next defaults after context heq =>
        rw [heq] at made notes
        refine ⟨made, ?_⟩
        have copied := filter_of_continues (Settings.continues_copy target (some defaults) context)
        have ending : (resetEnd target.schema.name
            (target.copy (some defaults) context).answer).filter isResolvedNote = [] := by
          unfold resetEnd
          split <;> rfl
        simpa [List.filter_append, ending, copied, isResolvedNote] using notes

/-! ## Runs -/

/-- What a run of requests resolves: all that they reach, each schema once. -/
theorem serveAll_spec {known : Schema → Prop} (identified : Identified known)
    {serial : EngineId} {catalog : Catalog} (requests : List Request) {schemas : List Schema}
    {engine : Engine}
    (holds : Holds known serial catalog schemas engine) (hk : ∀ request ∈ requests, known request.schema) :
    ∃ added, Holds known serial catalog (added ++ schemas) (engine.serveAll requests).1 ∧
      (engine.serveAll requests).2.filter isResolvedNote = resolvedNotes catalog added ∧
      (∀ request ∈ requests, request.schema ∈ added ++ schemas) ∧
      ∀ t ∈ added, Requested requests t := by
  induction requests generalizing schemas engine with
  | nil => exact ⟨[], holds, rfl, by simp, by simp⟩
  | cons request requests ih =>
      obtain ⟨same, notes⟩ := serve_eq engine request
      obtain ⟨-, added, held, noted, mem, reached⟩ :=
        resolution_spec identified holds (hk request (List.mem_cons_self ..))
      rw [← same] at held
      obtain ⟨more, held', noted', all, reached'⟩ :=
        ih held fun r hr => hk r (List.mem_cons_of_mem _ hr)
      refine ⟨more ++ added, ?_, ?_, ?_, ?_⟩
      · rw [List.append_assoc]
        exact held'
      · simp only [serveAll, List.filter_append, notes, noted, noted', resolvedNotes_append]
      · intro r hr
        rw [List.append_assoc]
        rcases List.mem_cons.1 hr with rfl | hr
        · exact List.mem_append_right _ mem
        · exact all r hr
      · intro t ht
        rcases List.mem_append.1 ht with ht | ht
        · obtain ⟨r, hr, reaches⟩ := reached' t ht
          exact ⟨r, List.mem_cons_of_mem _ hr, reaches⟩
        · exact ⟨request, List.mem_cons_self .., reached t ht⟩

theorem holds_unused (known : Schema → Prop) (serial : EngineId) (catalog : Catalog) :
    Holds known serial catalog [] (unused serial catalog) := ⟨.nil known, rfl⟩

theorem identified_requested {requests : List Request}
    (distinct : ∀ s t, Requested requests s → Requested requests t → s.id = t.id → s = t) :
    Identified (Requested requests) := by
  refine ⟨distinct _ _, ?_⟩
  rintro s t ⟨request, mem, reaches⟩ nested
  exact ⟨request, mem, reaches.trans (.of_mem_nested nested)⟩

/-- The factory that an engine gives is made from the schema's own resolution. -/
theorem answer_factory {known : Schema → Prop} (identified : Identified known)
    {serial : EngineId} {catalog : Catalog} {schemas : List Schema} {engine : Engine}
    (holds : Holds known serial catalog schemas engine) {s : Schema} (hs : known s) (kind : Kind) :
    (engine.factory s kind).answer =
      ((s.resolve catalog).blueprintFor kind).map fun blueprint => ⟨serial, blueprint, kind⟩ := by
  rw [← (resolution_spec identified holds hs).1, holds.engine_eq]
  rfl

/-- Take any run of requests to an engine, where schemas with one identity are one schema. A factory
    asked for in it is the one, or fails with the error, that an unused engine with the catalog would
    give. What is cached stays as it is. A schema is cached with all that it nests. Over the run, the
    schemas that the requests reach are resolved once each, and no others. -/
theorem resolved_once_whatever_the_history (serial : EngineId) (catalog : Catalog)
    (requests : List Request)
    (distinct : ∀ s t, Requested requests s → Requested requests t → s.id = t.id → s = t) :
    (∀ before schema kind after, requests = before ++ .factory schema kind :: after →
      (((unused serial catalog).serveAll before).1.factory schema kind).answer =
        ((unused serial catalog).factory schema kind).answer) ∧
    (∀ before after, requests = before ++ after → ∀ id resolution,
      ((unused serial catalog).serveAll before).1.cache.lookup id = some resolution →
        ((unused serial catalog).serveAll requests).1.cache.lookup id = some resolution) ∧
    (∀ s t, Requested requests s → Reaches s t →
      ((unused serial catalog).serveAll requests).1.isResolved s = true →
        ((unused serial catalog).serveAll requests).1.isResolved t = true) ∧
    ∃ schemas : List Schema, schemas.Nodup ∧ (∀ s, s ∈ schemas ↔ Requested requests s) ∧
      ((unused serial catalog).serveAll requests).2.filter isResolvedNote =
        schemas.map (fun s => .schemaResolved s.name
          ((unused serial catalog).resolution s).1.blueprint.isOk) ∧
      ((unused serial catalog).serveAll requests).1.resolvedCount = schemas.length := by
  have identified := identified_requested distinct
  have hk : ∀ request ∈ requests, Requested requests request.schema :=
    fun request mem => ⟨request, mem, .refl _⟩
  have start := holds_unused (Requested requests) serial catalog
  obtain ⟨added, held, notes, all, reached⟩ := serveAll_spec identified requests start hk
  rw [List.append_nil] at held all
  have own : ∀ s, Requested requests s → ((unused serial catalog).resolution s).1 = s.resolve catalog :=
    fun s hs => (resolution_spec identified start hs).1
  refine ⟨?history, ?kept, ?closed, added.reverse, ?nodup, ?members, ?notes, ?count⟩
  case history =>
    -- both are the schema's own resolution
    rintro before schema kind after rfl
    obtain ⟨_, held', -⟩ := serveAll_spec identified before start
      fun request mem => hk request (List.mem_append_left _ mem)
    have hs : Requested (before ++ .factory schema kind :: after) schema :=
      hk (.factory schema kind) (by simp)
    rw [answer_factory identified held' hs, answer_factory identified start hs]
  case kept =>
    rintro before after rfl id resolution found
    obtain ⟨early, held', -⟩ := serveAll_spec identified before start
      fun request mem => hk request (List.mem_append_left _ mem)
    rw [List.append_nil] at held'
    obtain ⟨late, held'', -⟩ := serveAll_spec identified after held'
      fun request mem => hk request (List.mem_append_right _ mem)
    rw [held'.engine_eq] at found
    rw [serveAll_append, held''.engine_eq]
    -- what is found belongs to an early schema, which is still there
    obtain ⟨s, mem, rfl⟩ := exists_of_lookup_cacheOf found
    rw [lookup_cacheOf_of_mem identified catalog held'.complete.known mem] at found
    rw [← found]
    exact lookup_cacheOf_of_mem identified catalog held''.complete.known
      (List.mem_append_right _ mem)
  case closed =>
    intro s t hs reaches resolved
    rw [isResolved, held.engine_eq] at resolved ⊢
    have mem := mem_of_lookup_cacheOf identified held.complete.known hs resolved
    rw [lookup_cacheOf_of_mem identified catalog held.complete.known
      (held.complete.reaches mem reaches)]
    rfl
  case nodup => exact List.nodup_reverse.2 held.complete.nodup
  case members =>
    intro s
    rw [List.mem_reverse]
    refine ⟨reached s, ?_⟩
    -- the requested schemas are there, and with them all that they nest
    rintro ⟨request, mem, reaches⟩
    exact held.complete.reaches (all request mem) reaches
  case notes =>
    rw [notes, resolvedNotes]
    refine List.map_congr_left fun s mem => ?_
    rw [own s (reached s (List.mem_reverse.1 mem))]
  case count =>
    rw [held.engine_eq]
    simp [resolvedCount, cacheOf]

/-! ### Two owners of one schema -/

/-- A schema that the two below nest. -/
def sharedEntry : Schema :=
  .mk ⟨0⟩ "Entry" none [⟨"label", .value .str, [.constant (.str "untitled")]⟩] [("label", 0)]

def shelf : Schema := .mk ⟨1⟩ "Shelf" none [⟨"entries", .dict sharedEntry, []⟩] [("entries", 0)]

/-- A schema that cannot be generated: no default may stand on a dictionary. -/
def register : Schema :=
  .mk ⟨2⟩ "Register" none [⟨"entries", .dict sharedEntry, [.constant .null]⟩] [("entries", 0)]

/-- The failing owner first, then the nested schema, then the other owner. -/
def ownerRequests : List Request :=
  [.factory register .copy, .typeOf sharedEntry .inpc, .factory shelf .real]

theorem requested_ownerRequests {s : Schema} (h : Requested ownerRequests s) :
    s = register ∨ s = sharedEntry ∨ s = shelf := by
  obtain ⟨request, mem, reaches⟩ := h
  have leaf : ∀ {t : Schema}, Reaches sharedEntry t → t = sharedEntry := fun h => by
    rcases reaches_iff.1 h with rfl | ⟨u, mem, -⟩
    · rfl
    · simp [sharedEntry, nested, Schema.properties] at mem
  have owner : ∀ {t u : Schema}, t.nested = [sharedEntry] → Reaches t u →
      u = t ∨ u = sharedEntry := fun only h => by
    rcases reaches_iff.1 h with rfl | ⟨v, mem, reaches⟩
    · exact Or.inl rfl
    · rw [only, List.mem_singleton] at mem
      subst mem
      exact Or.inr (leaf reaches)
  simp only [ownerRequests, List.mem_cons, List.not_mem_nil, or_false] at mem
  rcases mem with rfl | rfl | rfl
  · exact (owner rfl reaches).imp_right Or.inl
  · exact Or.inr (Or.inl (leaf reaches))
  · exact Or.inr ((owner rfl reaches).symm)

theorem resolved_once_for_two_owners :
    (∀ s t, Requested ownerRequests s → Requested ownerRequests t → s.id = t.id → s = t) ∧
      (((unused 0 .empty).serveAll [.factory register .copy, .typeOf sharedEntry .inpc]).1.factory
          shelf .real).answer = ((unused 0 .empty).factory shelf .real).answer ∧
      ∃ schemas : List Schema, schemas.Nodup ∧
        (∀ s, s ∈ schemas ↔ Requested ownerRequests s) ∧ schemas.length = 3 := by
  have distinct : ∀ s t, Requested ownerRequests s → Requested ownerRequests t →
      s.id = t.id → s = t := fun s t hs ht same => by
    rcases requested_ownerRequests hs with rfl | rfl | rfl <;>
      rcases requested_ownerRequests ht with rfl | rfl | rfl <;>
      first | rfl | exact absurd same (by decide)
  obtain ⟨history, -, -, schemas, nodup, members, -, count⟩ :=
    resolved_once_whatever_the_history 0 .empty ownerRequests distinct
  exact ⟨distinct, history _ shelf .real [] rfl, schemas, nodup, members, by rw [← count]; rfl⟩

end Engine

end SettingsForge
