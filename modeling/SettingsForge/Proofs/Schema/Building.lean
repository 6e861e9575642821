import Mathlib.Logic.Relation
import SettingsForge.Proofs.Schema.Registry

set_option autoImplicit false

/-! # What inheriting keeps

A schema finds its properties through its index, which has the position of each of them. `Schema.Built`
are the schemas of any sequence of builds under fresh identities. Among these a schema has the identity
of another one in its lineage exactly if the other one is reached by going from base to base, and it then
starts with all properties of that one, in their places (`Schema.inheriting_only_extends`). -/

namespace SettingsForge.Schema

/-! ## Sequences of builds -/

/-- The schemas of a sequence of builds, latest first. Each is built from earlier ones, under an
    identity that none of these has. -/
inductive Built : List Schema → Prop
  | nil : Built []
  | build {made : List Schema} {id : SchemaId} {name : String} {base : Option Schema}
      {own : List Property} {s : Schema} :
      Built made → (∀ t ∈ made, t.id ≠ id) → (∀ b ∈ base, b ∈ made) →
      (∀ p ∈ own, ∀ nested, p.type = .dict nested → nested ∈ made) →
      Schema.build id name base own = .ok s → Built (s :: made)

/-- The first schema inherits from the second one, or is that. -/
abbrev Inherits : Schema → Schema → Prop := Relation.ReflTransGen fun s b => s.base = some b

theorem Built.registry {made : List Schema} (h : Built made) : Registry (· ∈ made) := by
  induction h with
  | nil => exact ⟨⟨by simp, by simp⟩, by simp, by simp, by simp⟩
  | build _ fresh known_base known_nested built ih =>
      have registry := ih.build built fresh known_base known_nested
      simpa only [List.mem_cons, or_comm] using registry

theorem isA_of_isA_base {s b : Schema} (base : s.base = some b) {ancestor : SchemaId}
    (h : b.isA ancestor = true) : s.isA ancestor = true := by
  obtain ⟨id, name, base', properties, index⟩ := s
  have same : base' = some b := base
  subst same
  exact isA_of_base h

/-- Lineages say exactly what is reached from base to base. -/
theorem Registry.isA_iff_inherits {known : Schema → Prop} (registry : Registry known) {s t : Schema}
    (hs : known s) (ht : known t) : s.isA t.id = true ↔ s.Inherits t := by
  constructor
  · exact registry.isA_induction (P := fun s => s.Inherits t) ht .refl
      (fun s b _ base inherits => inherits.head base) s hs
  · intro inherits
    induction inherits using Relation.ReflTransGen.head_induction_on with
    | refl => exact isA_self t
    | head base _ ih =>
        obtain ⟨hb, -⟩ := registry.base hs base
        exact isA_of_isA_base base (ih hb)

theorem Registry.known_of_inherits {known : Schema → Prop} (registry : Registry known) {s t : Schema}
    (hs : known s) (inherits : s.Inherits t) : known t := by
  induction inherits with
  | refl => exact hs
  | tail _ base ih => exact (registry.base ih base).1

/-- Building and inheriting, in full. The build checks the schema's own name first, and then the
    inherited and the own names in order. What it builds has the inherited properties first, and its
    index finds every property by its name, and nothing else. Among schemas that were built one after
    the other, the identities in the lineage of a schema are those of the schemas that it inherits
    from, and it has all properties of each of these in their places, with types and defaults. -/
theorem inheriting_only_extends {made : List Schema} (built : Built made) :
    (∀ id name base own,
      ((∃ s, build id name base own = .ok s) ↔
        Text.isBlank name = false ∧ WellNamed (inherited base ++ own)) ∧
      (∀ e, build id name base own = .error e ↔
        (Text.isBlank name = true ∧ e = .invalidSchema "Schema name cannot be empty") ∨
        (Text.isBlank name = false ∧ ∃ passed p after,
          inherited base ++ own = passed ++ p :: after ∧ WellNamed passed ∧
            NameFault name passed p e)) ∧
      ∀ s, build id name base own = .ok s →
        s.id = id ∧ s.name = name ∧ s.base = base ∧ s.properties = inherited base ++ own ∧
        (∀ n i, s.position? n = some i ↔ ∃ p, s.properties[i]? = some p ∧ p.name = n) ∧
        ∀ n p, s.property? n = some p ↔ p ∈ s.properties ∧ p.name = n) ∧
    ∀ s ∈ made, ∀ t ∈ made,
      (s.isA t.id = true ↔ s.Inherits t) ∧
      (s.Inherits t → t.properties <+: s.properties ∧
        (∀ n i, t.position? n = some i → s.position? n = some i ∧
          ∃ p, t.properties[i]? = some p ∧ s.properties[i]? = some p) ∧
        ∀ n p, t.property? n = some p → s.property? n = some p) := by
  refine ⟨fun id name base own => ⟨exists_build_iff, fun e => build_eq_error_iff, fun s h => ?_⟩, ?_⟩
  · have indexed := (wellNamed_indexes_of_build h).2
    obtain ⟨-, index, -, rfl⟩ := build_eq_ok_iff.1 h
    exact ⟨rfl, rfl, rfl, rfl, fun n i => position?_eq_some_iff indexed,
      fun n p => property?_eq_some_iff indexed⟩
  · intro s hs t ht
    have registry := built.registry
    have inherits := registry.isA_iff_inherits hs ht
    refine ⟨inherits, fun h => ?_⟩
    obtain ⟨own, extended⟩ := registry.properties_of_isA hs ht (inherits.2 h)
    have indexed := registry.index hs
    have indexed' := registry.index ht
    exact ⟨⟨own, extended.symm⟩, fun n i => position?_append indexed indexed' extended,
      fun n p => property?_append indexed indexed' extended⟩

/-! ### Three generations -/

def document : Schema :=
  .mk ⟨0⟩ "Document" none [⟨"title", .value .str, [.constant (.str "untitled")]⟩] [("title", 0)]

def letter : Schema :=
  .mk ⟨1⟩ "Letter" (some document) (document.properties ++ [⟨"to", .value .str, []⟩])
    [("title", 0), ("to", 1)]

def postcard : Schema :=
  .mk ⟨2⟩ "Postcard" (some letter) (letter.properties ++ [⟨"enclosed", .dict document, []⟩])
    [("enclosed", 2), ("title", 0), ("to", 1)]

theorem built_postcard : Built [postcard, letter, document] := by
  have first : build ⟨0⟩ "Document" none
      [⟨"title", .value .str, [.constant (.str "untitled")]⟩] = .ok document := rfl
  have second : build ⟨1⟩ "Letter" (some document) [⟨"to", .value .str, []⟩] = .ok letter := rfl
  have third : build ⟨2⟩ "Postcard" (some letter) [⟨"enclosed", .dict document, []⟩] = .ok postcard :=
    rfl
  have one := Built.nil.build (by simp) (by simp) (by simp) first
  have two := one.build (by decide) (by simp) (by simp) second
  exact two.build (by decide) (by simp) (by simp) third

/-- The title of a postcard is that of a document; another one is refused. -/
theorem extends_documents :
    Built [postcard, letter, document] ∧ document.properties <+: postcard.properties ∧
      postcard.position? "title" = some 0 ∧ ¬ document.Inherits postcard ∧
      build ⟨3⟩ "Telegram" (some postcard) [⟨"title", .value .int, []⟩] =
        .error (.duplicateProperty "Telegram" "title") := by
  obtain ⟨builds, lineages⟩ := inheriting_only_extends built_postcard
  have down : postcard.Inherits document :=
    ((lineages postcard (by simp) document (by simp)).1).1 (by decide)
  obtain ⟨first, places, -⟩ := (lineages postcard (by simp) document (by simp)).2 down
  refine ⟨built_postcard, first, (places "title" 0 (by decide)).1, fun up => ?_, ?_⟩
  · exact absurd (((lineages document (by simp) postcard (by simp)).1).2 up) (by decide)
  · obtain ⟨-, fails, -⟩ := builds ⟨3⟩ "Telegram" (some postcard) [⟨"title", .value .int, []⟩]
    refine (fails _).2 (.inr ⟨?_, ?_⟩)
    · decide
    · exact ⟨postcard.properties, ⟨"title", .value .int, []⟩, [], rfl,
        ⟨by decide, by decide⟩, .repeated (by decide) (by decide)⟩

end SettingsForge.Schema
