import SettingsForge.Proofs.Initializer.Calls
import SettingsForge.Proofs.Schema.Building
import SettingsForge.Proofs.Workspace.Offered

set_option autoImplicit false

/-! # Lists of abstract items

A property whose type is a list of an abstract object type rules out its schema, and with it every
schema that inherits the property or nests such a schema (`Workspace.no_outer_list_of_abstract_items`).
Only the items of the property's own list are looked at. A list of lists may have abstract items
further inside (`Workspace.generates_the_grid_of_shapes`), while a type without equality is found there
(`ValueType.missingEquality?_eq_some_iff`). -/

namespace SettingsForge

/-! ## Types -/

namespace ValueType

/-- The type is a list of values of the object type, or a list of such lists, at any depth. -/
inductive Collects : ValueType → ObjectType → Prop
  | items (o : ObjectType) : Collects (.list (.object o)) o
  | inside {item : ValueType} {o : ObjectType} : Collects item o → Collects (.list item) o

/-- What a type collects are its own items, or the items of a list that is an item. -/
theorem Collects.own_or_inside {type : ValueType} {o : ObjectType} (h : type.Collects o) :
    type = .list (.object o) ∨ ∃ item, type = .list (.list item) ∧ Collects (.list item) o := by
  cases h with
  | items => exact Or.inl rfl
  | inside inner =>
      cases inner with
      | items => exact Or.inr ⟨_, rfl, .items o⟩
      | inside deeper => exact Or.inr ⟨_, rfl, .inside deeper⟩

end ValueType

/-! ## Properties -/

namespace Schema

open Initializer

/-- The property is a list whose items are of an abstract type. -/
def Unconstructible : Fault := fun s p e =>
  ∃ o, p.type = .value (.list (.object o)) ∧ o.isAbstract = true ∧
    e = .unconstructibleCollection s.name p.name o.name

/-- The property's defaults are at fault whatever its items are: there are several, one is declared for
    a dictionary, or the only one cannot be bound. -/
inductive Misdeclared (catalog : Catalog) : Fault
  | several {s : Schema} {p : Property} :
      1 < p.defaults.length →
      Misdeclared catalog s p (.conflictingDefaults s.name p.name p.defaults.length)
  | onDict {s nested : Schema} {p : Property} {strategy : DefaultStrategy} :
      p.type = .dict nested → p.defaults = [strategy] →
      Misdeclared catalog s p (.unsupportedDefault s.name p.name)
  | unbound {s : Schema} {p : Property} {type : ValueType} {strategy : DefaultStrategy}
      {e : SettingsError} :
      p.type = .value type → p.defaults = [strategy] →
      ofStrategy s.name p.name type catalog strategy = .error e → Misdeclared catalog s p e

variable {catalog : Catalog} {s : Schema} {p : Property} {e : SettingsError}

theorem Misdeclared.exists_default (h : Misdeclared catalog s p e) : p.defaults ≠ [] := by
  cases h with
  | several several =>
      intro none
      simp [none] at several
  | onDict _ only | unbound _ only _ => simp [only]

/-- Abstract items are the error of the property, unless it has several defaults. -/
theorem Unconstructible.unresolved (h : Unconstructible s p e) (single : p.defaults.length ≤ 1) :
    Unresolved catalog s p e := by
  obtain ⟨o, declared, isAbstract, rfl⟩ := h
  unfold Unresolved Initializer.resolve declared?
  rw [if_neg (by omega), declared]
  simp only [ValueType.item?, isAbstract, if_true]

/-- A default at fault is the error of the property, unless abstract items come first. -/
theorem Misdeclared.unresolved (h : Misdeclared catalog s p e)
    (concrete : p.defaults.length ≤ 1 → ∀ e', ¬ Unconstructible s p e') :
    Unresolved catalog s p e := by
  cases h with
  | several several =>
      unfold Unresolved Initializer.resolve declared?
      rw [if_pos several]
  | onDict declared only =>
      unfold Unresolved Initializer.resolve declared?
      rw [only, if_neg (by simp), declared]
      rfl
  | @unbound s p type strategy e declared only failed =>
      refine (resolve_eq_ofStrategy catalog s.name declared (fun item list => ?_) only).trans failed
      by_contra isAbstract
      exact concrete (by simp [only]) _ ⟨item, list ▸ declared, by simpa using isAbstract, rfl⟩

/-- What stops a property before a default is bound. -/
theorem of_declared?_eq_error (h : declared? s.name p = .error e) :
    Misdeclared catalog s p e ∨ Unconstructible s p e := by
  unfold declared? at h
  split at h
  · next several =>
    cases h
    exact Or.inl (.several several)
  · next single =>
    split at h
    · next nested declared =>
      split at h
      · cases h
      · next default =>
        cases h
        have filled : p.defaults.length ≠ 0 := by simpa using default
        obtain ⟨strategy, only⟩ := List.length_eq_one_iff.1
          (show p.defaults.length = 1 by omega)
        exact Or.inl (.onDict declared only)
    · next type declared =>
      split at h
      · next o is_item =>
        split at h
        · next isAbstract =>
          cases h
          cases type <;> cases is_item
          exact Or.inr ⟨o, declared, isAbstract, rfl⟩
        · cases h
      · cases h

/-- Nothing else stops a property from being resolved. -/
theorem Unresolved.cases (h : Unresolved catalog s p e) :
    Misdeclared catalog s p e ∨ Unconstructible s p e := by
  unfold Unresolved Initializer.resolve at h
  split at h
  · next failed =>
    cases h
    exact of_declared?_eq_error failed
  · cases h
  · next type strategy found =>
    obtain ⟨declared, only, -⟩ := declared?_eq_some_iff.1 found
    exact Or.inl (.unbound declared only h)

theorem exists_unresolved_iff :
    (∃ e, Unresolved catalog s p e) ↔
      (∃ e, Misdeclared catalog s p e) ∨ ∃ e, Unconstructible s p e := by
  constructor
  · rintro ⟨e, unresolved⟩
    exact unresolved.cases.imp (fun h => ⟨e, h⟩) fun h => ⟨e, h⟩
  · intro fault
    by_cases items : p.defaults.length ≤ 1 ∧ ∃ e, Unconstructible s p e
    · obtain ⟨single, e, h⟩ := items
      exact ⟨e, h.unresolved single⟩
    · rcases fault with ⟨e, h⟩ | ⟨e, h⟩
      · exact ⟨e, h.unresolved fun single e' h' => items ⟨single, e', h'⟩⟩
      · -- the items would be the error, unless there are several defaults
        have several : 1 < p.defaults.length := by
          by_contra single
          exact items ⟨by omega, e, h⟩
        exact ⟨_, (Misdeclared.several several).unresolved fun single => by omega⟩

/-- Where no default is at fault, only abstract items can be. -/
theorem unresolved_iff_unconstructible (declared : ∀ e, ¬ Misdeclared catalog s p e) :
    Unresolved catalog s p e ↔ Unconstructible s p e := by
  constructor
  · intro unresolved
    exact unresolved.cases.resolve_left (declared e)
  · intro h
    refine h.unresolved ?_
    by_contra several
    exact declared _ (.several (by omega))

/-! ## Schemas -/

/-- Everything in a schema and below is resolved if and only if no default there is at fault and no
    list there has abstract items. -/
theorem faultless_unresolved_iff (catalog : Catalog) (s : Schema) :
    s.Faultless (Unresolved catalog) ↔
      s.Faultless (Misdeclared catalog) ∧ s.Faultless Unconstructible :=
  faultless_and_iff fun _ _ => exists_unresolved_iff

/-- If no default in a schema and below is at fault, its error is about abstract items. -/
theorem firstFault_unresolved_iff (declared : s.Faultless (Misdeclared catalog)) :
    s.FirstFault (Unresolved catalog) e ↔ s.FirstFault Unconstructible e := by
  have same : ∀ t, s.Reaches t → ∀ p ∈ t.properties, ∀ e,
      Unresolved catalog t p e ↔ Unconstructible t p e :=
    fun t reaches p mem _ => unresolved_iff_unconstructible (declared t reaches p mem)
  exact ⟨fun h => h.congr same, fun h => h.congr fun t reaches p mem e =>
    (same t reaches p mem e).symm⟩

end Schema

namespace Workspace

open Engine Schema

variable {w : Workspace} {name : String} {s : Schema}

/-- Take any schema of a workspace that a run reaches and any engine in it, whatever that was asked
    before. If the engine gives a factory for a kind of the schema, then no property of the schema, of
    what it nests at any depth, or of what these inherit from, is a list of abstract items: where a type
    there collects such items, a list of them is itself an item of the property's list. The kinds that
    announce nothing are given if and only if no default there is at fault and no property is a list of
    abstract items, so abstract items further inside a type play no part. If a property is such a list,
    all kinds fail with one error, which names the first such property if no default is at fault. -/
theorem no_outer_list_of_abstract_items (reachable : w.Reachable) (named : w.schema name = .ok s)
    {engine : Engine} (mem : engine ∈ w.engines) :
    (∀ kind f, (engine.factory s kind).answer = .ok f → ∀ t u, s.Reaches t → t.Inherits u →
      ∀ p ∈ u.properties, ∀ type, p.type = .value type →
        ∀ o, type.Collects o → o.isAbstract = true →
          ∃ item, type = .list (.list item) ∧ (ValueType.list item).Collects o) ∧
    (∀ kind, kind.isObservable = false →
      ((∃ f, (engine.factory s kind).answer = .ok f) ↔
        s.Faultless (Misdeclared engine.catalog) ∧ s.Faultless Unconstructible)) ∧
    (¬ s.Faultless Unconstructible →
      ∃ e, (∀ kind, (engine.factory s kind).answer = .error e) ∧
        (s.Faultless (Misdeclared engine.catalog) →
          ∀ e', s.FirstFault Unconstructible e' ↔ e' = e)) := by
  obtain ⟨known, sound⟩ := reachable.sound
  have registry := sound.registry
  have identified := registry.toIdentified
  have hs := sound.schema named
  have answers := (sound.engines engine mem).answer_eq_offer identified hs
  obtain ⟨failed_iff, made_iff⟩ := failure?_resolve_iff engine.catalog s
  have resolved_iff := faultless_unresolved_iff engine.catalog s
  refine ⟨fun kind f answer t u reaches inherits p hp type declared o collects isAbstract => ?made,
    fun kind plain => ?plain, fun faulty => ?refused⟩
  case made =>
    -- an inherited property is one of the schema's own
    have ht := identified.reaches hs reaches
    have hu := registry.known_of_inherits ht inherits
    obtain ⟨own, extended⟩ :=
      registry.properties_of_isA ht hu ((registry.isA_iff_inherits ht hu).2 inherits)
    have there : p ∈ t.properties := extended ▸ List.mem_append_left own hp
    rcases collects.own_or_inside with rfl | inside
    · rw [answers] at answer
      obtain ⟨-, constructible⟩ := resolved_iff.1 (faultless_of_offer identified hs answer)
      exact absurd ⟨o, declared, isAbstract, rfl⟩ (constructible t reaches p there _)
    · exact inside
  case plain =>
    rw [answers, offer_plain_iff identified hs plain, made_iff, resolved_iff]
  case refused =>
    cases found : (s.resolve engine.catalog).blueprint with
    | ok b => exact absurd (resolved_iff.1 (made_iff.1 ⟨b, found⟩)).2 faulty
    | error e =>
        refine ⟨e, fun kind => (answers kind).trans (offer_of_error identified hs found kind),
          fun declared e' => ?_⟩
        rw [← firstFault_unresolved_iff declared, ← failed_iff, found, Except.error.injEq, eq_comm]

/-! ### Drawings of shapes -/

/-- An object type without values of its own. -/
def shape : ObjectType := { name := "Shape", isAbstract := true }

def drawing : Schema :=
  .mk ⟨1⟩ "Drawing"
    (some (.mk ⟨0⟩ "Figure" none [⟨"shapes", .value (.list (.object shape)), []⟩] [("shapes", 0)]))
    [⟨"shapes", .value (.list (.object shape)), []⟩, ⟨"title", .value .str, []⟩]
    [("shapes", 0), ("title", 1)]

def page : Schema := .mk ⟨2⟩ "Page" none [⟨"drawings", .dict drawing, []⟩] [("drawings", 0)]

def album : Schema := .mk ⟨3⟩ "Album" none [⟨"pages", .dict page, []⟩] [("pages", 0)]

def grid : Schema :=
  .mk ⟨4⟩ "Grid" none [⟨"rows", .value (.list (.list (.object shape))), []⟩] [("rows", 0)]

/-- An engine that was asked for pages, where an album nests pages, and these nest drawings, which
    inherit their shapes. -/
def sketches : Workspace :=
  (start "engine" .empty).run [
    .build "figure" "Figure" none [⟨"shapes", .value (.list (.object shape)), []⟩],
    .build "drawing" "Drawing" (some "figure") [⟨"title", .value .str, []⟩],
    .build "page" "Page" none [⟨"drawings", .dict "drawing", []⟩],
    .build "album" "Album" none [⟨"pages", .dict "page", []⟩],
    .build "grid" "Grid" none [⟨"rows", .value (.list (.list (.object shape))), []⟩],
    .newFactory "page" .copy "engine" "pages"]

theorem reachable_sketches : sketches.Reachable := ⟨"engine", .empty, _, rfl⟩

/-- No property of the album or of what it nests declares a default. -/
theorem faultless_album (catalog : Catalog) : album.Faultless (Misdeclared catalog) := by
  have bare : ∀ t : Schema, (∀ p ∈ t.properties, p.defaults = []) →
      ∀ p ∈ t.properties, ∀ e, ¬ Misdeclared catalog t p e :=
    fun t none p mem e misdeclared => misdeclared.exists_default (none p mem)
  have drawing_faultless : drawing.Faultless (Misdeclared catalog) :=
    faultless_iff.2 ⟨bare _ (by simp [drawing, Schema.properties]), nofun⟩
  have page_faultless : page.Faultless (Misdeclared catalog) :=
    faultless_iff.2 ⟨bare _ (by simp [page, Schema.properties]),
      List.forall_mem_singleton.2 drawing_faultless⟩
  exact faultless_iff.2 ⟨bare _ (by simp [album, Schema.properties]),
    List.forall_mem_singleton.2 page_faultless⟩

theorem firstFault_album :
    album.FirstFault Unconstructible (.unconstructibleCollection "Drawing" "shapes" "Shape") := by
  have dictionary : ∀ (s nested : Schema) (name : String),
      ∀ p ∈ [(⟨name, .dict nested, []⟩ : Property)], ∀ e, ¬ Unconstructible s p e := by
    rintro s nested name p mem e ⟨o, declared, -⟩
    cases List.mem_singleton.1 mem
    cases declared
  have drawing_faulty :
      drawing.FirstFault Unconstructible (.unconstructibleCollection "Drawing" "shapes" "Shape") :=
    @FirstFault.own _ _ [] _ _ _ rfl nofun ⟨shape, rfl, rfl, rfl⟩
  have page_faulty :
      page.FirstFault Unconstructible (.unconstructibleCollection "Drawing" "shapes" "Shape") :=
    @FirstFault.nested _ _ drawing [] [] _ (dictionary _ _ _) rfl nofun drawing_faulty
  exact @FirstFault.nested _ _ page [] [] _ (dictionary _ _ _) rfl nofun page_faulty

/-- No kind of the album is given, and the error names the shapes of the drawings. -/
theorem refuses_the_album_of_shapes :
    sketches.schema "album" = .ok album ∧ ∃ engine ∈ sketches.engines,
      engine.isResolved page = true ∧ ∀ kind, (engine.factory album kind).answer =
        .error (.unconstructibleCollection "Drawing" "shapes" "Shape") := by
  have named : sketches.schema "album" = .ok album := rfl
  obtain ⟨engine, mem, resolved⟩ : ∃ engine ∈ sketches.engines, engine.isResolved page = true :=
    ⟨_, List.mem_singleton_self _, rfl⟩
  obtain ⟨-, -, refused⟩ := no_outer_list_of_abstract_items reachable_sketches named mem
  obtain ⟨e, fails, first⟩ := refused firstFault_album.not_faultless
  cases (first (faultless_album _) _).1 firstFault_album
  exact ⟨named, engine, mem, resolved, fails⟩

/-- All kinds of the grid are given, though the rows are lists of abstract items. -/
theorem generates_the_grid_of_shapes :
    sketches.Reachable ∧ sketches.schema "grid" = .ok grid ∧ ∃ engine ∈ sketches.engines,
      (∀ kind, ∃ f, (engine.factory grid kind).answer = .ok f) ∧
      ∃ p ∈ grid.properties, ∃ type, p.type = .value type ∧ type.Collects shape ∧
        shape.isAbstract = true := by
  refine ⟨reachable_sketches, rfl, _, List.mem_singleton_self _, fun kind => ?_,
    _, List.mem_singleton_self _, _, rfl, .inside (.items shape), rfl⟩
  cases kind <;> exact ⟨_, rfl⟩

end Workspace

end SettingsForge
