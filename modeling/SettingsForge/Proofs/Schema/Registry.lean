import SettingsForge.Proofs.Engine.Resolving
import SettingsForge.Proofs.Lists
import SettingsForge.Proofs.Schema.Indexing

set_option autoImplicit false

/-! # Schemas that were built

Schemas that are built one after the other have distinct identities, distinct property names and an
index of these, and a schema continues the properties of its base (`Schema.Registry`). So a schema that
inherits from another one starts with all properties of that one (`Schema.Registry.properties_of_isA`),
and no two inherit from each other (`Schema.Registry.eq_of_isA`). The blueprint that a schema resolves
to has a plan for every property. -/

namespace SettingsForge

open Engine

namespace Schema

/-- Schemas as they come to be built. -/
structure Registry (known : Schema → Prop) : Prop extends Identified known where
  names : ∀ {s : Schema}, known s → (s.properties.map PropertyOf.name).Nodup
  index : ∀ {s : Schema}, known s → Indexes s.index s.properties
  base : ∀ {s b : Schema}, known s → s.base = some b →
    known b ∧ ∃ own, s.properties = b.properties ++ own

variable {known : Schema → Prop}

/-- What holds of a schema, and of a schema if it holds of its base, holds of all that inherit from the
    first one. -/
theorem Registry.isA_induction (registry : Registry known) {t : Schema} (ht : known t)
    {P : Schema → Prop} (self : P t)
    (extend : ∀ s b, known s → s.base = some b → P b → P s) :
    (s : Schema) → known s → s.isA t.id = true → P s
  | .mk serial name none properties index, hs, h => by
    have same : t.id = serial := by simpa [isA, lineage] using h
    rwa [← registry.eq_of_id hs ht same.symm] at self
  | .mk serial name (some b) properties index, hs, h => by
    have either : t.id = serial ∨ b.isA t.id = true := by simpa [isA, lineage] using h
    rcases either with same | inherits
    · rwa [← registry.eq_of_id hs ht same.symm] at self
    · obtain ⟨hb, -⟩ := registry.base hs rfl
      exact extend _ b hs rfl (registry.isA_induction ht self extend b hb inherits)

/-- A schema starts with the properties of what it inherits from. -/
theorem Registry.properties_of_isA (registry : Registry known) {s t : Schema} (hs : known s)
    (ht : known t) (h : s.isA t.id = true) : ∃ own, s.properties = t.properties ++ own := by
  refine registry.isA_induction (P := fun s => ∃ own, s.properties = t.properties ++ own) ht
    ⟨[], (List.append_nil _).symm⟩ ?_ s hs h
  rintro s b hs base ⟨rest, heq'⟩
  obtain ⟨-, own, heq⟩ := registry.base hs base
  exact ⟨rest ++ own, by rw [heq, heq', List.append_assoc]⟩

theorem head?_lineage : (s : Schema) → s.lineage.head? = some s.id
  | .mk _ _ none .. => rfl
  | .mk _ _ (some _) .. => rfl

/-- The lineage of a schema ends with that of each schema it inherits from. -/
theorem Registry.suffix_of_isA (registry : Registry known) {s t : Schema} (hs : known s)
    (ht : known t) (h : s.isA t.id = true) : t.lineage <:+ s.lineage := by
  refine registry.isA_induction (P := fun s => t.lineage <:+ s.lineage) ht List.suffix_rfl ?_ s hs h
  rintro ⟨serial, name, base, properties, index⟩ b - ⟨⟩ ih
  exact ih.trans (List.suffix_cons serial b.lineage)

/-- Schemas that inherit from each other are the same. -/
theorem Registry.eq_of_isA (registry : Registry known) {s t : Schema} (hs : known s) (ht : known t)
    (h : s.isA t.id = true) (h' : t.isA s.id = true) : s = t := by
  have same : s.lineage = t.lineage :=
    (registry.suffix_of_isA ht hs h').eq_of_length_le (registry.suffix_of_isA hs ht h).length_le
  have ids := head?_lineage s
  rw [same, head?_lineage t, Option.some.injEq] at ids
  exact registry.eq_of_id hs ht ids.symm

/-- A schema is built from known ones, under an identity that no known schema has. -/
theorem Registry.build (registry : Registry known) {serial : SchemaId}
    {name : String} {base : Option Schema} {own : List Property} {schema : Schema}
    (h : Schema.build serial name base own = .ok schema) (fresh : ∀ s, known s → s.id ≠ serial)
    (known_base : ∀ b ∈ base, known b)
    (known_nested : ∀ p ∈ own, ∀ nested, p.type = .dict nested → known nested) :
    Registry fun s => known s ∨ s = schema := by
  obtain ⟨named, indexed⟩ := wellNamed_indexes_of_build h
  obtain ⟨-, index, -, rfl⟩ := build_eq_ok_iff.1 h
  have new_id : (Schema.mk serial name base (inherited base ++ own) index).id = serial := rfl
  refine ⟨⟨?_, ?_⟩, ?_, ?_, ?_⟩
  · rintro s t (hs | rfl) (ht | rfl) same
    · exact registry.eq_of_id hs ht same
    · exact absurd (same.trans new_id) (fresh s hs)
    · exact absurd (same.symm.trans new_id) (fresh t ht)
    · rfl
  · rintro s t (hs | rfl) mem
    · exact Or.inl (registry.nested hs mem)
    · -- what the new schema nests is its base's or one of its own properties'
      refine Or.inl ?_
      obtain ⟨p, hp, type⟩ := List.mem_filterMap.1 mem
      rcases List.mem_append.1 hp with hp | hp
      · cases base with
        | none => cases hp
        | some b =>
            exact registry.nested (known_base b rfl) (List.mem_filterMap.2 ⟨p, hp, type⟩)
      · refine known_nested p hp t ?_
        split at type
        · cases type
        · next there =>
          cases type
          exact there
  · rintro s (hs | rfl)
    · exact registry.names hs
    · exact named.nodup
  · rintro s (hs | rfl)
    · exact registry.index hs
    · exact indexed
  · rintro s b (hs | rfl) hb
    · obtain ⟨hb, rest⟩ := registry.base hs hb
      exact ⟨Or.inl hb, rest⟩
    · have hb : base = some b := hb
      subst hb
      exact ⟨Or.inl (known_base b rfl), own, rfl⟩

end Schema

/-! ## Plans -/

/-- A plan is the one that an engine with the catalog makes for a property of a schema. -/
inductive SlotPlanOf.For (catalog : Catalog) (schema : String) : Property → SlotPlan → Prop
  | value {name : String} {type : ValueType} {defaults : List DefaultStrategy}
      {initializer : Initializer} :
      Initializer.resolve schema ⟨name, .value type, defaults⟩ catalog = .ok initializer →
      For catalog schema ⟨name, .value type, defaults⟩ ⟨name, .value type initializer⟩
  | entries {name : String} {nested : Schema} {defaults : List DefaultStrategy}
      {blueprint : Blueprint} :
      (nested.resolve catalog).blueprint = .ok blueprint →
      For catalog schema ⟨name, .dict nested, defaults⟩ ⟨name, .entries blueprint⟩

theorem SlotPlanOf.For.name_eq {catalog : Catalog} {schema : String} {p : Property}
    {plan : SlotPlan} (h : plan.For catalog schema p) : p.name = plan.name := by
  cases h <;> rfl

namespace Blueprint

theorem plans_of_assemble {schema : String} {catalog : Catalog} {properties : List Property}
    {initializers : List Initializer} {plans : List SlotPlan}
    (resolved : Initializer.resolveAll schema catalog properties = .ok initializers)
    (assembled : assemble properties initializers (Schema.resolveAll catalog properties) = .ok plans) :
    List.Forall₂ (fun p plan => SlotPlanOf.For catalog schema p plan) properties plans := by
  induction properties generalizing initializers plans with
  | nil =>
      cases assembled
      exact .nil
  | cons p properties ih =>
      rw [Initializer.resolveAll] at resolved
      split at resolved
      · cases resolved
      · next initializer own =>
        cases rest : Initializer.resolveAll schema catalog properties with
        | error e =>
            rw [rest] at resolved
            cases resolved
        | ok others =>
            rw [rest] at resolved
            cases resolved
            obtain ⟨name, type, defaults⟩ := p
            cases type with
            | value type =>
                -- a value takes no resolution from the list
                rw [Schema.resolveAll, assemble] at assembled
                cases tail : assemble properties others (Schema.resolveAll catalog properties) with
                | error e =>
                    rw [tail] at assembled
                    cases assembled
                | ok later =>
                    rw [tail] at assembled
                    cases assembled
                    exact .cons (.value own) (ih rest tail)
            | dict nested =>
                rw [Schema.resolveAll, assemble] at assembled
                split at assembled
                · cases assembled
                · next b made =>
                  cases tail : assemble properties others (Schema.resolveAll catalog properties) with
                  | error e =>
                      rw [tail] at assembled
                      cases assembled
                  | ok later =>
                      rw [tail] at assembled
                      cases assembled
                      exact .cons (.entries made) (ih rest tail)

/-- A schema's blueprint is its own and has a plan for each of its properties. -/
theorem plans_of_resolve {catalog : Catalog} {s : Schema} {b : Blueprint}
    (h : (s.resolve catalog).blueprint = .ok b) :
    b.schema = s ∧
      List.Forall₂ (fun p plan => SlotPlanOf.For catalog s.name p plan) s.properties b.slots := by
  obtain ⟨serial, name, base, properties, index⟩ := s
  rw [Schema.resolve] at h
  unfold Resolution.ofNested at h
  dsimp only at h
  split at h
  · cases h
  · next initializers resolved =>
    cases assembled : assemble properties initializers (Schema.resolveAll catalog properties) with
    | error e =>
        rw [Schema.properties, assembled] at h
        cases h
    | ok plans =>
        rw [Schema.properties, assembled] at h
        cases h
        exact ⟨rfl, plans_of_assemble resolved assembled⟩

end Blueprint

end SettingsForge
