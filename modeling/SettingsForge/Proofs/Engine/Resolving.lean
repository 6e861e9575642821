import SettingsForge.Engine

set_option autoImplicit false

/-! # What resolving a schema gives

`Schema.resolve` is the resolution of a schema by itself: it recurses through the nested schemas and
knows no cache. `Engine.resolveSchema_spec` says that resolving with a cache gives the same, that the
cache then holds the schema with everything nested in it, and that each schema which was not there
before is written down once. Schemas are told apart by their identities, so this is stated for schemas
among which an identity occurs once (`Schema.Identified`). -/

namespace SettingsForge

namespace Schema

/-! ## Reaching nested schemas -/

/-- The second schema is the first one, or is nested in it at some depth. -/
inductive Reaches : Schema → Schema → Prop
  | refl (s : Schema) : Reaches s s
  | step {s t u : Schema} : t ∈ s.nested → Reaches t u → Reaches s u

theorem Reaches.trans {s t u : Schema} (first : Reaches s t) (second : Reaches t u) :
    Reaches s u := by
  induction first with
  | refl => exact second
  | step nested _ ih => exact .step nested (ih second)

theorem reaches_iff {s t : Schema} : Reaches s t ↔ t = s ∨ ∃ u ∈ s.nested, Reaches u t := by
  constructor
  · rintro (_ | ⟨nested, reaches⟩)
    · exact Or.inl rfl
    · exact Or.inr ⟨_, nested, reaches⟩
  · rintro (rfl | ⟨u, nested, reaches⟩)
    · exact .refl t
    · exact .step nested reaches

theorem Reaches.of_mem_nested {s t : Schema} (h : t ∈ s.nested) : Reaches s t :=
  .step h (.refl t)

/-- A nested schema is smaller than its owner. -/
theorem sizeOf_lt_of_mem_nested {s t : Schema} (h : t ∈ s.nested) : sizeOf t < sizeOf s := by
  obtain ⟨id, name, base, properties⟩ := s
  simp only [nested, List.mem_filterMap] at h
  obtain ⟨⟨pname, ptype, defaults⟩, mem, hp⟩ := h
  have small : sizeOf _ < sizeOf properties := List.sizeOf_lt_of_mem mem
  cases ptype with
  | value type => simp at hp
  | dict inner =>
      simp only [Option.some.injEq] at hp
      subst hp
      simp only [PropertyOf.mk.sizeOf_spec, PropertyTypeOf.dict.sizeOf_spec,
        mk.sizeOf_spec] at small ⊢
      omega

theorem Reaches.sizeOf_le {s t : Schema} (h : Reaches s t) : sizeOf t ≤ sizeOf s := by
  induction h with
  | refl => exact Nat.le_refl _
  | step nested _ ih => exact Nat.le_trans ih (Nat.le_of_lt (sizeOf_lt_of_mem_nested nested))

/-- No schema is nested in itself. -/
theorem Reaches.ne_of_mem_nested {s t u : Schema} (h : t ∈ s.nested) (reaches : Reaches t u) :
    u ≠ s := by
  rintro rfl
  have := sizeOf_lt_of_mem_nested h
  have := reaches.sizeOf_le
  omega

/-- Schemas of a class are told apart by their identities, and the class has all that they nest. -/
structure Identified (known : Schema → Prop) : Prop where
  eq_of_id : ∀ {s t : Schema}, known s → known t → s.id = t.id → s = t
  nested : ∀ {s t : Schema}, known s → t ∈ s.nested → known t

theorem Identified.reaches {known : Schema → Prop} (identified : Identified known) {s t : Schema}
    (hs : known s) (reaches : Reaches s t) : known t := by
  induction reaches with
  | refl => exact hs
  | step nested _ ih => exact ih (identified.nested hs nested)

/-! ## Resolving without a cache -/

mutual

/-- The resolution of a schema by itself. -/
def resolve (catalog : Catalog) : Schema → Resolution
  | .mk id name base properties index =>
    Resolution.ofNested catalog (.mk id name base properties index) (resolveAll catalog properties)

/-- The resolutions of the schemas nested in properties. -/
def resolveAll (catalog : Catalog) : List (PropertyOf Schema) → List Resolution
  | [] => []
  | ⟨_, .value _, _⟩ :: properties => resolveAll catalog properties
  | ⟨_, .dict schema, _⟩ :: properties => schema.resolve catalog :: resolveAll catalog properties

end

theorem resolveAll_eq_map (catalog : Catalog) (id : SchemaId) (name : String)
    (base : Option Schema) (properties : List Property) (index : PropertyIndex) :
    resolveAll catalog properties =
      (mk id name base properties index).nested.map (resolve catalog) := by
  induction properties with
  | nil => rfl
  | cons p properties ih =>
      obtain ⟨pname, ptype, defaults⟩ := p
      cases ptype with
      | value type => simpa [resolveAll, nested, Schema.properties] using ih
      | dict inner => simpa [resolveAll, nested, Schema.properties] using ih

/-- A schema's resolution comes from those of the schemas nested in it. -/
theorem resolve_eq_ofNested (catalog : Catalog) (s : Schema) :
    s.resolve catalog = Resolution.ofNested catalog s (s.nested.map (resolve catalog)) := by
  obtain ⟨id, name, base, properties, index⟩ := s
  rw [resolve, resolveAll_eq_map catalog id name base properties index]

end Schema

namespace Engine

open Schema

/-! ## The cache as a list of schemas -/

/-- The cache that holds the resolutions of these schemas, latest first. -/
def cacheOf (catalog : Catalog) (schemas : List Schema) : ResolutionCache :=
  schemas.map fun s => (s.id, s.resolve catalog)

/-- What is written down about schemas that were resolved, latest first. -/
def resolvedNotes (catalog : Catalog) (schemas : List Schema) : List JournalEntry :=
  schemas.reverse.map fun s => .schemaResolved s.name (s.resolve catalog).blueprint.isOk

/-- Whether an entry says that a schema was resolved. -/
def isResolvedNote : JournalEntry → Bool
  | .schemaResolved .. => true
  | _ => false

/-- Schemas that may be in a cache together: each once, with all that they nest. -/
structure Complete (known : Schema → Prop) (schemas : List Schema) : Prop where
  known : ∀ s ∈ schemas, known s
  nodup : schemas.Nodup
  nested : ∀ s ∈ schemas, ∀ t ∈ s.nested, t ∈ schemas

theorem Complete.nil (known : Schema → Prop) : Complete known [] :=
  ⟨by simp, List.nodup_nil, by simp⟩

theorem Complete.reaches {known : Schema → Prop} {schemas : List Schema}
    (h : Complete known schemas) {s t : Schema} (hs : s ∈ schemas) (reaches : Reaches s t) :
    t ∈ schemas := by
  induction reaches with
  | refl => exact hs
  | step nested _ ih => exact ih (h.nested _ hs _ nested)

/-- A look-up finds the schema's own resolution. -/
theorem lookup_cacheOf_of_mem {known : Schema → Prop} (identified : Identified known)
    (catalog : Catalog) {schemas : List Schema} (hk : ∀ s ∈ schemas, known s) {s : Schema}
    (mem : s ∈ schemas) : (cacheOf catalog schemas).lookup s.id = some (s.resolve catalog) := by
  induction schemas with
  | nil => simp at mem
  | cons t schemas ih =>
      rw [cacheOf, List.map_cons, List.lookup_cons]
      by_cases same : s.id = t.id
      · have := identified.eq_of_id (hk s mem) (hk t (List.mem_cons_self ..)) same
        subst this
        simp
      · rw [beq_eq_false_iff_ne.2 same]
        have tail : s ∈ schemas := (List.mem_cons.1 mem).resolve_left fun h => same (h ▸ rfl)
        exact ih (fun u hu => hk u (List.mem_cons_of_mem _ hu)) tail

/-- What is found under a schema's identity belongs to that schema. -/
theorem mem_of_lookup_cacheOf {known : Schema → Prop} (identified : Identified known)
    {catalog : Catalog} {schemas : List Schema} (hk : ∀ s ∈ schemas, known s) {s : Schema}
    (hs : known s) (h : ((cacheOf catalog schemas).lookup s.id).isSome) : s ∈ schemas := by
  induction schemas with
  | nil => simp [cacheOf] at h
  | cons t schemas ih =>
      rw [cacheOf, List.map_cons, List.lookup_cons] at h
      by_cases same : s.id = t.id
      · rw [identified.eq_of_id hs (hk t (List.mem_cons_self ..)) same]
        exact List.mem_cons_self ..
      · rw [beq_eq_false_iff_ne.2 same] at h
        exact List.mem_cons_of_mem _ (ih (fun u hu => hk u (List.mem_cons_of_mem _ hu)) h)

/-- Whatever is found belongs to one of the schemas. -/
theorem exists_of_lookup_cacheOf {catalog : Catalog} {schemas : List Schema} {serial : SchemaId}
    {resolution : Resolution} (h : (cacheOf catalog schemas).lookup serial = some resolution) :
    ∃ s ∈ schemas, s.id = serial := by
  induction schemas with
  | nil => simp [cacheOf] at h
  | cons t schemas ih =>
      rw [cacheOf, List.map_cons, List.lookup_cons] at h
      by_cases same : serial = t.id
      · exact ⟨t, List.mem_cons_self .., same.symm⟩
      · rw [beq_eq_false_iff_ne.2 same] at h
        obtain ⟨s, mem, hs⟩ := ih h
        exact ⟨s, List.mem_cons_of_mem _ mem, hs⟩

/-! ## Resolving with a cache -/

/-- What resolving schemas adds to a cache and writes down. -/
structure Extends (catalog : Catalog) (known : Schema → Prop) (schemas added : List Schema)
    (cache : ResolutionCache) (journal : List JournalEntry) : Prop where
  complete : Complete known (added ++ schemas)
  cache_eq : cache = cacheOf catalog (added ++ schemas)
  notes : journal.filter isResolvedNote = resolvedNotes catalog added

theorem filter_journalOf (schema : String) (p : Property) :
    (Initializer.journalOf schema p).filter isResolvedNote = [] := by
  unfold Initializer.journalOf
  split <;> rfl

theorem filter_journalOfAll (schema : String) (catalog : Catalog) (properties : List Property) :
    (Initializer.journalOfAll schema catalog properties).filter isResolvedNote = [] := by
  induction properties with
  | nil => rfl
  | cons p properties ih =>
      rw [Initializer.journalOfAll, List.filter_append, filter_journalOf]
      split
      · rfl
      · exact ih

theorem resolvedNotes_append (catalog : Catalog) (later earlier : List Schema) :
    resolvedNotes catalog (later ++ earlier) =
      resolvedNotes catalog earlier ++ resolvedNotes catalog later := by
  simp [resolvedNotes]

mutual

/-- Resolving a schema gives what it gives by itself, and adds exactly the schemas that are reached
    from it and were not there. -/
theorem resolveSchema_spec {known : Schema → Prop} (identified : Identified known)
    (catalog : Catalog) : (s : Schema) → {schemas : List Schema} → known s →
    Complete known schemas →
    (resolveSchema catalog s (cacheOf catalog schemas)).outcome = s.resolve catalog ∧
      ∃ added, Extends catalog known schemas added
          (resolveSchema catalog s (cacheOf catalog schemas)).cache
          (resolveSchema catalog s (cacheOf catalog schemas)).journal ∧
        s ∈ added ++ schemas ∧ ∀ t ∈ added, Reaches s t
  | .mk serial name base properties index, schemas, hs, complete => by
    rw [resolveSchema]
    split
    · next resolution found =>
      -- what is cached under the identity is the schema's own resolution
      have mem := mem_of_lookup_cacheOf identified complete.known hs (by
        rw [show (Schema.mk serial name base properties index).id = serial from rfl, found]; rfl)
      have own := lookup_cacheOf_of_mem identified catalog complete.known mem
      rw [show (Schema.mk serial name base properties index).id = serial from rfl, found] at own
      refine ⟨Option.some.inj own, [], ⟨complete, rfl, rfl⟩, mem, by simp⟩
    · next missing =>
      dsimp only
      have absent : Schema.mk serial name base properties index ∉ schemas := fun mem => by
        have := lookup_cacheOf_of_mem identified catalog complete.known mem
        rw [show (Schema.mk serial name base properties index).id = serial from rfl, missing] at this
        cases this
      obtain ⟨outcome, added, ext, all, reached⟩ :=
        resolveNested_spec identified catalog serial name base index properties
          (fun t ht => identified.nested hs ht) complete
      have own : Resolution.ofNested catalog (Schema.mk serial name base properties index)
          (resolveNested catalog properties (cacheOf catalog schemas)).outcome =
          (Schema.mk serial name base properties index).resolve catalog := by
        rw [resolve_eq_ofNested, outcome]
      -- the schema itself is not among those that it nests
      have fresh : Schema.mk serial name base properties index ∉ added ++ schemas := by
        rw [List.mem_append, not_or]
        refine ⟨fun mem => ?_, absent⟩
        obtain ⟨t, ht, reaches⟩ := reached _ mem
        exact reaches.ne_of_mem_nested ht rfl
      refine ⟨own, Schema.mk serial name base properties index :: added, ⟨⟨?_, ?_, ?_⟩, ?_, ?_⟩, ?_, ?_⟩
      · intro t ht
        rcases List.mem_cons.1 ht with rfl | ht
        · exact hs
        · exact ext.complete.known t ht
      · exact List.nodup_cons.2 ⟨fresh, ext.complete.nodup⟩
      · intro t ht u hu
        rcases List.mem_cons.1 ht with rfl | ht
        · exact List.mem_cons_of_mem _ (all u hu)
        · exact List.mem_cons_of_mem _ (ext.complete.nested t ht u hu)
      · rw [own, ext.cache_eq]
        rfl
      · rw [List.filter_append, List.filter_append, ext.notes, filter_journalOfAll, own]
        simp [resolvedNotes, isResolvedNote, Schema.name]
      · exact List.mem_cons_self ..
      · intro t ht
        rcases List.mem_cons.1 ht with rfl | ht
        · exact .refl _
        · obtain ⟨u, hu, reaches⟩ := reached t ht
          exact .step hu reaches

/-- The same for all schemas nested in properties, in order. -/
theorem resolveNested_spec {known : Schema → Prop} (identified : Identified known)
    (catalog : Catalog) (serial : SchemaId) (name : String) (base : Option Schema)
    (index : PropertyIndex) : (properties : List (PropertyOf Schema)) → {schemas : List Schema} →
    (∀ t ∈ (Schema.mk serial name base properties index).nested, known t) → Complete known schemas →
    (resolveNested catalog properties (cacheOf catalog schemas)).outcome =
        (Schema.mk serial name base properties index).nested.map (Schema.resolve catalog) ∧
      ∃ added, Extends catalog known schemas added
          (resolveNested catalog properties (cacheOf catalog schemas)).cache
          (resolveNested catalog properties (cacheOf catalog schemas)).journal ∧
        (∀ t ∈ (Schema.mk serial name base properties index).nested, t ∈ added ++ schemas) ∧
        ∀ t ∈ added, ∃ u ∈ (Schema.mk serial name base properties index).nested, Reaches u t
  | [], schemas, _, complete => by
    rw [resolveNested]
    exact ⟨rfl, [], ⟨complete, rfl, rfl⟩, by simp [nested, Schema.properties], by simp⟩
  | ⟨pname, .value type, defaults⟩ :: properties, schemas, hk, complete => by
    rw [resolveNested]
    have same : (Schema.mk serial name base (⟨pname, .value type, defaults⟩ :: properties) index).nested =
        (Schema.mk serial name base properties index).nested := rfl
    rw [same] at hk ⊢
    exact resolveNested_spec identified catalog serial name base index properties hk complete
  | ⟨pname, .dict inner, defaults⟩ :: properties, schemas, hk, complete => by
    rw [resolveNested]
    have cons : (Schema.mk serial name base (⟨pname, .dict inner, defaults⟩ :: properties) index).nested =
        inner :: (Schema.mk serial name base properties index).nested := rfl
    rw [cons] at hk ⊢
    obtain ⟨outcome, added, ext, mem, reached⟩ :=
      resolveSchema_spec identified catalog inner (hk inner (List.mem_cons_self ..)) complete
    obtain ⟨outcomes, more, ext', all, reached'⟩ :=
      resolveNested_spec identified catalog serial name base index properties
        (fun t ht => hk t (List.mem_cons_of_mem _ ht)) ext.complete
    -- the later schemas are resolved with the cache that the first one leaves
    rw [← ext.cache_eq] at outcomes ext'
    refine ⟨?_, more ++ added, ⟨?_, ?_, ?_⟩, ?_, ?_⟩
    · simp only [List.map_cons, outcome, outcomes]
    · rw [List.append_assoc]
      exact ext'.complete
    · rw [List.append_assoc]
      exact ext'.cache_eq
    · rw [List.filter_append, ext.notes, ext'.notes, resolvedNotes_append]
    · intro t ht
      rw [List.append_assoc]
      rcases List.mem_cons.1 ht with rfl | ht
      · exact List.mem_append_right _ mem
      · exact all t ht
    · intro t ht
      rcases List.mem_append.1 ht with ht | ht
      · obtain ⟨u, hu, reaches⟩ := reached' t ht
        exact ⟨u, List.mem_cons_of_mem _ hu, reaches⟩
      · exact ⟨inner, List.mem_cons_self .., reached t ht⟩

end

end Engine

end SettingsForge
