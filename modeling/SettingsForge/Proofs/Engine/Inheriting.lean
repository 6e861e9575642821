import SettingsForge.Proofs.Engine.Faults
import SettingsForge.Proofs.Engine.Positions
import SettingsForge.Proofs.Engine.Serving
import SettingsForge.Proofs.Schema.Building
import SettingsForge.Proofs.Settings.Narrowing

set_option autoImplicit false

/-! # Resolving what is inherited

An inherited property is resolved once more under the name of the schema that inherits it, but the name
is only in the errors (`Initializer.toOption_resolve`). So whatever rules the base out rules out the
schemas that inherit from it (`Schema.Faultless.of_subset`), and the blueprint of such a schema begins
with that of the base (`Schema.slots_of_extends`). Hence a schema behaves as its base on the inherited
part (`Engine.inherited_part_as_base`). -/

namespace SettingsForge

open Schema Settings

/-! ## Initializers -/

namespace Initializer

variable {catalog : Catalog} {p : Property}

theorem toOption_declared? (first second : String) (p : Property) :
    (declared? first p).toOption = (declared? second p).toOption := by
  unfold declared?
  repeat' split
  all_goals rfl

theorem toOption_ofStrategy (first second property : String) (type : ValueType) (catalog : Catalog)
    (strategy : DefaultStrategy) :
    (ofStrategy first property type catalog strategy).toOption =
      (ofStrategy second property type catalog strategy).toOption := by
  cases strategy with
  | constant value =>
      simp only [ofStrategy]
      split <;> rfl
  | _ => rfl

/-- What a property resolves to is the same in all schemas that have it. -/
theorem toOption_resolve (first second : String) (p : Property) (catalog : Catalog) :
    (resolve first p catalog).toOption = (resolve second p catalog).toOption := by
  have declared := toOption_declared? first second p
  unfold resolve
  cases h : declared? first p <;> cases h' : declared? second p <;> rw [h, h'] at declared
  · rfl
  · cases declared
  · cases declared
  · cases declared
    next strategy =>
    cases strategy with
    | none => rfl
    | some strategy => exact toOption_ofStrategy first second p.name strategy.1 catalog strategy.2

theorem resolve_eq_ok_iff (first second : String) {initializer : Initializer} :
    resolve first p catalog = .ok initializer ↔ resolve second p catalog = .ok initializer := by
  have same := toOption_resolve first second p catalog
  cases h : resolve first p catalog <;> cases h' : resolve second p catalog <;> rw [h, h'] at same <;>
    simp_all [Except.toOption]

end Initializer

/-! ## Faults -/

namespace Schema

variable {s t : Schema} {catalog : Catalog}

/-- A property is a fault in every schema that has it, though the error may have another name. -/
def Fault.Shared (fault : Fault) : Prop :=
  ∀ s t p, (∃ e, fault s p e) → ∃ e, fault t p e

theorem shared_unresolved (catalog : Catalog) : Fault.Shared (Unresolved catalog) := by
  rintro s t p ⟨e, failed⟩
  have failed : Initializer.resolve s.name p catalog = .error e := failed
  cases h : Initializer.resolve t.name p catalog with
  | error e' => exact ⟨e', h⟩
  | ok initializer =>
      rw [Initializer.resolve_eq_ok_iff t.name s.name, failed] at h
      cases h

theorem shared_incomparable : Fault.Shared Incomparable := by
  rintro s t p ⟨e, type, o, declared, mentions, without, -⟩
  exact ⟨_, type, o, declared, mentions, without, rfl⟩

/-- A schema with some properties of a faultless one is faultless. -/
theorem Faultless.of_subset {fault : Fault} (shared : fault.Shared)
    (sub : t.properties ⊆ s.properties) (h : s.Faultless fault) : t.Faultless fault := by
  obtain ⟨own, inside⟩ := faultless_iff.1 h
  refine faultless_iff.2 ⟨fun p mem e at_p => ?_, fun u nested => inside u ?_⟩
  · obtain ⟨e', at_p⟩ := shared t s p ⟨e, at_p⟩
    exact own p (sub mem) e' at_p
  · obtain ⟨p, mem, declared⟩ := List.mem_filterMap.1 nested
    exact List.mem_filterMap.2 ⟨p, sub mem, declared⟩

end Schema

/-! ## Blueprints -/

namespace SlotPlanOf.For

variable {catalog : Catalog} {p : Property} {plan plan' : SlotPlan}

theorem rename {first : String} (second : String) (h : plan.For catalog first p) :
    plan.For catalog second p := by
  cases h with
  | value resolved => exact .value ((Initializer.resolve_eq_ok_iff first second).1 resolved)
  | entries resolved => exact .entries resolved

/-- There is one plan for a property. -/
theorem eq {schema : String} (h : plan.For catalog schema p) (h' : plan'.For catalog schema p) :
    plan = plan' := by
  cases h with
  | value resolved =>
      cases h' with
      | value resolved' =>
          cases resolved.symm.trans resolved'
          rfl
  | entries resolved =>
      cases h' with
      | entries resolved' =>
          cases resolved.symm.trans resolved'
          rfl

end SlotPlanOf.For

namespace Schema

variable {s t : Schema} {catalog : Catalog} {wide narrow : Blueprint}

/-- The blueprint of a schema begins with that of a schema whose properties it begins with. -/
theorem slots_of_extends (begins : t.properties <+: s.properties)
    (wide_made : (s.resolve catalog).blueprint = .ok wide)
    (narrow_made : (t.resolve catalog).blueprint = .ok narrow) : narrow.slots <+: wide.slots := by
  obtain ⟨own, extended⟩ := begins
  obtain ⟨-, plans⟩ := Blueprint.plans_of_resolve wide_made
  obtain ⟨-, plans'⟩ := Blueprint.plans_of_resolve narrow_made
  rw [← extended] at plans
  obtain ⟨first, rest, split, inherited, -⟩ := forall₂_append_right.1 plans.flip
  have same : narrow.slots = first := by
    refine List.forall₂_eq_eq_eq ▸ ?_
    exact forall₂_join plans' inherited.flip fun p plan plan' _ _ _ fits fits' =>
      fits.eq (fits'.rename t.name)
  exact ⟨rest, same ▸ split.symm⟩

/-- A schema whose properties another one begins with has a blueprint for each kind for which that one
    has, and that one's begins with it. -/
theorem blueprintFor_of_extends (begins : t.properties <+: s.properties) {kind : Kind}
    (answer : (s.resolve catalog).blueprintFor kind = .ok wide) :
    ∃ narrow, (t.resolve catalog).blueprintFor kind = .ok narrow ∧ narrow.slots <+: wide.slots := by
  obtain ⟨wide_made, observable⟩ := Resolution.blueprintFor_eq_ok.1 answer
  have resolved := (failure?_resolve_iff catalog s).2.1 ⟨wide, wide_made⟩
  obtain ⟨narrow, narrow_made⟩ := (failure?_resolve_iff catalog t).2.2
    (resolved.of_subset (shared_unresolved catalog) begins.subset)
  refine ⟨narrow, Resolution.blueprintFor_eq_ok.2 ⟨narrow_made, fun announces => ?_⟩,
    slots_of_extends begins wide_made narrow_made⟩
  have comparable := (observable_resolve_iff catalog s).2.1 (observable announces)
  exact (observable_resolve_iff catalog t).2.2 (comparable.of_subset shared_incomparable begins.subset)

/-- Plans are exact if the initializers of the properties are. -/
theorem exact_plans (made : (t.resolve catalog).blueprint = .ok narrow)
    (exact : ∀ p ∈ t.properties, ∀ type initializer, p.type = .value type →
      Initializer.resolve t.name p catalog = .ok initializer →
        type.fit (initializer.produce type) = some .exact) :
    ∀ plan ∈ narrow.slots, SlotPlan.Exact plan := by
  intro plan mem type initializer planned
  obtain ⟨-, plans⟩ := Blueprint.plans_of_resolve made
  obtain ⟨p, hp, fits⟩ := exists_left_of_forall₂ plans mem
  cases fits with
  | value resolved =>
      cases planned
      exact exact _ hp type initializer rfl resolved
  | entries => cases planned

end Schema

namespace Engine

variable {made : List Schema} {serial : EngineId} {catalog : Catalog}

theorem answer_after (built : Built made) {s : Schema} (hs : s ∈ made) {requests : List Request}
    (asked : ∀ request ∈ requests, request.schema ∈ made) (kind : Kind) :
    (((unused serial catalog).serveAll requests).1.factory s kind).answer =
      ((s.resolve catalog).blueprintFor kind).map fun blueprint =>
        ⟨serial, blueprint, kind⟩ := by
  have identified := built.registry.toIdentified
  obtain ⟨_, holds, -⟩ := serveAll_spec identified requests (holds_unused (· ∈ made) serial catalog)
    asked
  exact answer_factory identified holds hs kind

/-- Take a schema that was built, and one that it inherits from, over any number of bases. If an engine
makes instances of a kind of the first one, then it makes those of the second one, whatever it was asked
before, so in either order of the two requests. New instances of both hold the same value in each
property of the second one. If the initializers of the second one produce values that fit exactly, a
copy of its schema and of any kind, made from a new instance of the first one, reads as a new instance,
up to the signs of zeros. -/
theorem inherited_part_as_base (built : Built made) {s t : Schema} (hs : s ∈ made)
    (inherits : s.Inherits t) {kind : Kind} {wide : Factory} {requests : List Request}
    (asked : ∀ request ∈ requests, request.schema ∈ made)
    (answer : (((unused serial catalog).serveAll requests).1.factory s kind).answer = .ok wide) :
    ∃ narrow : Factory,
      (∀ others : List Request, (∀ request ∈ others, request.schema ∈ made) →
        (((unused serial catalog).serveAll others).1.factory t kind).answer = .ok narrow) ∧
      (∀ c c', ∃ x after y after', wide.create none c = (.ok x, after) ∧
        narrow.create none c' = (.ok y, after') ∧
        ∀ p ∈ t.properties, ∃ v, x.get p.name = .ok v ∧ y.get p.name = .ok v) ∧
      ((∀ p ∈ t.properties, ∀ type initializer, p.type = .value type →
          Initializer.resolve t.name p catalog = .ok initializer →
            type.fit (initializer.produce type) = some .exact) →
        ∀ others : List Request, (∀ request ∈ others, request.schema ∈ made) →
        ∀ kind' own, (((unused serial catalog).serveAll others).1.factory t kind').answer = .ok own →
        ∀ c c' c'', ∃ x after y after' z after'', wide.create none c = (.ok x, after) ∧
          own.create none c' = (.ok y, after') ∧ own.create (some x) c'' = (.ok z, after'') ∧
          z.snapshot.unsigned = y.snapshot.unsigned) := by
  have registry := built.registry
  have ht := registry.known_of_inherits hs inherits
  have isA := (registry.isA_iff_inherits hs ht).2 inherits
  obtain ⟨own, extended⟩ := registry.properties_of_isA hs ht isA
  have begins : t.properties <+: s.properties := ⟨own, extended.symm⟩
  rw [answer_after built hs asked] at answer
  obtain ⟨blueprint, available, rfl⟩ := exists_of_map_eq_ok answer
  obtain ⟨narrow, narrow_available, slots⟩ := blueprintFor_of_extends begins available
  obtain ⟨wide_made, -⟩ := Resolution.blueprintFor_eq_ok.1 available
  obtain ⟨narrow_made, -⟩ := Resolution.blueprintFor_eq_ok.1 narrow_available
  obtain ⟨wide_schema, -⟩ := Blueprint.plans_of_resolve wide_made
  obtain ⟨narrow_schema, plans⟩ := Blueprint.plans_of_resolve narrow_made
  refine ⟨⟨serial, narrow, kind⟩, fun others asked => ?request, fun c c' => ?values, ?copies⟩
  case request =>
    rw [answer_after built ht asked, narrow_available]
    rfl
  case values =>
    refine ⟨_, _, _, _, rfl, rfl, fun p mem => ?_⟩
    obtain ⟨plan, mem, fits⟩ := exists_right_of_forall₂ plans mem
    rw [fits.name_eq]
    exact Blueprint.get_make serial serial kind kind c.hub c'.hub slots mem
  case copies =>
    intro exact others asked kind' factory answer c c' c''
    rw [answer_after built ht asked] at answer
    obtain ⟨same, available', rfl⟩ := exists_of_map_eq_ok answer
    cases narrow_made.symm.trans (Resolution.blueprintFor_eq_ok.1 available').1
    obtain ⟨z, after'', copied, reads⟩ := Blueprint.create_narrow serial serial kind' kind c.hub c'.hub
      slots (by rw [wide_schema, narrow_schema]; exact isA) (exact_plans narrow_made exact) c''
    exact ⟨_, _, _, _, z, after'', rfl, rfl, copied, reads⟩

/-- A document that is copied from a new postcard has the title of a new document. -/
theorem titles_documents_alike :
    Built [postcard, letter, document] ∧ postcard.Inherits document ∧
      ∃ wide narrow x after z after',
        (((unused 0 .empty).serveAll [.typeOf document .copy]).1.factory postcard .inpc).answer =
          .ok wide ∧
        (((unused 0 .empty).serveAll [.factory postcard .inpc]).1.factory document .inpc).answer =
          .ok narrow ∧
        wide.create none {} = (.ok x, after) ∧ narrow.create (some x) {} = (.ok z, after') ∧
        x.get "title" = .ok (.str "untitled") ∧
        z.snapshot.unsigned = .object "Document" [("title", .str "untitled")] := by
  have inherits : postcard.Inherits document :=
    (built_postcard.registry.isA_iff_inherits (by simp) (by simp)).1 (by decide)
  have asked : ∀ request ∈ [Request.typeOf document .copy], request.schema ∈
      [postcard, letter, document] := by simp [Request.schema]
  obtain ⟨wide, answer⟩ : ∃ wide,
      (((unused 0 .empty).serveAll [.typeOf document .copy]).1.factory postcard .inpc).answer =
        .ok wide := ⟨_, rfl⟩
  obtain ⟨narrow, requested, -, copies⟩ :=
    inherited_part_as_base built_postcard (by simp) inherits asked answer
  have exact : ∀ p ∈ document.properties, ∀ type initializer, p.type = .value type →
      Initializer.resolve document.name p .empty = .ok initializer →
        type.fit (initializer.produce type) = some .exact := by
    intro p mem type initializer declared resolved
    cases List.mem_singleton.1 mem
    cases declared
    cases resolved
    rfl
  have asked' : ∀ request ∈ [Request.factory postcard .inpc], request.schema ∈
      [postcard, letter, document] := by simp [Request.schema]
  have after := requested _ asked'
  obtain ⟨x, _, y, _, z, _, new, new', copied, reads⟩ :=
    copies exact _ asked' .inpc narrow after {} {} {}
  refine ⟨built_postcard, inherits, wide, narrow, x, _, z, _, answer, after, new, copied, ?_, ?_⟩
  · cases answer
    cases new
    rfl
  · cases after
    cases new'
    exact reads

end Engine

end SettingsForge
