import SettingsForge.Proofs.Schema.Registry
import SettingsForge.Proofs.ValueType.Overload
import SettingsForge.Settings.Reset

set_option autoImplicit false

/-! # Positions that engines use

The overload that is chosen is one of the overloads (`getElem?_of_selectOverload`), so that nothing is
left to the error for a chosen overload that is not there (`Initializer.pick_eq`). What a factory makes
is of the factory's schema and kind (`Blueprint.shape_of_create`), so that an instance that is asked for
as one of a certain kind is one (`Engine.createAs_eq`). -/

namespace SettingsForge

/-! ## Overloads -/

/-- The chosen overload is there, and it accepts the arguments. -/
theorem getElem?_of_selectOverload {overloads : List (List ValueType)} {args : List Value}
    {position : Nat} (h : selectOverload overloads args = .ok position) :
    ∃ params n, overloads[position]? = some params ∧ conversions? params args = some n := by
  obtain ⟨params, there, accepts, -⟩ := (selectOverload_eq_ok_iff.1 h).fewest
  exact ⟨params, _, there, conversions?_eq_some_iff.2 ⟨accepts, rfl⟩⟩

namespace Initializer

/-- The best of some methods is found at a position that there is. -/
theorem pick_eq (candidates : List StaticMethod) (args : List Value) :
    (∃ e, selectOverload (candidates.map StaticMethodOf.params) args = .error e ∧
      pick candidates args = .error e) ∨
    ∃ position method, selectOverload (candidates.map StaticMethodOf.params) args = .ok position ∧
      candidates[position]? = some method ∧ pick candidates args = .ok method := by
  unfold pick
  cases chosen : selectOverload (candidates.map StaticMethodOf.params) args with
  | error e => exact Or.inl ⟨e, rfl, rfl⟩
  | ok position =>
      obtain ⟨method, there, -⟩ := exists_of_best (selectOverload_eq_ok_iff.1 chosen)
      dsimp only
      rw [there]
      exact Or.inr ⟨position, method, rfl, there, rfl⟩

end Initializer

/-! ## Making instances -/

namespace Settings

theorem shape_assign (source target : Settings) (c : Context) :
    (assign source target c).subject.shape = target.shape := by
  cases source
  cases target
  rw [assign]
  split <;> rfl

end Settings

theorem Blueprint.shape_of_create {blueprint : Blueprint} {engine : EngineId} {kind : Kind}
    {source : Option Settings} {c : Context} {x : Settings}
    (made : (blueprint.create engine kind source c).1 = .ok x) :
    x.shape = .of blueprint.schema kind := by
  have shape : (blueprint.make engine kind c.hub).1.shape = .of blueprint.schema kind := by
    rw [Settings.shape, schema_make, kind_make]
  unfold create at made
  cases source with
  | none =>
      cases made
      exact shape
  | some s =>
      dsimp only at made
      generalize hd : Settings.assign s (blueprint.make engine kind c.hub).1
        { c with hub := (blueprint.make engine kind c.hub).2 } = d at made
      have kept := Settings.shape_assign s (blueprint.make engine kind c.hub).1
        { c with hub := (blueprint.make engine kind c.hub).2 }
      rw [hd] at kept
      cases answer : d.answer with
      | error e => rw [answer] at made; cases made
      | ok _ =>
          rw [answer] at made
          cases made
          exact kept.trans shape

namespace Engine

theorem kind_of_factory {engine : Engine} {s : Schema} {kind : Kind} {factory : Factory}
    (answer : (engine.factory s kind).answer = .ok factory) : factory.kind = kind := by
  unfold Engine.factory at answer
  obtain ⟨_, -, rfl⟩ := exists_of_map_eq_ok answer
  rfl

/-- A new instance that is asked for as one of a kind. That the factory makes one of another kind is an
    internal error. -/
def createAs (engine : Engine) (schema : Schema) (kind : Kind) (source : Option Settings)
    (c : Context) : Made Settings :=
  let made := engine.create schema kind source c
  match made.answer with
  | .error e => ⟨.error e, made.engine, made.context⟩
  | .ok x =>
    if x.shape.kind = kind then ⟨.ok x, made.engine, made.context⟩
    else ⟨.error (.internal (kind.name ++ " factory produced another type")), made.engine, made.context⟩

theorem createAs_eq (engine : Engine) (schema : Schema) (kind : Kind) (source : Option Settings)
    (c : Context) : engine.createAs schema kind source c = engine.create schema kind source c := by
  have same_kind : ∀ x, (engine.create schema kind source c).answer = .ok x →
      x.shape.kind = kind := by
    intro x created
    unfold create at created
    dsimp only at created
    split at created
    · cases created
    · next f answer => rw [Blueprint.shape_of_create created, ← kind_of_factory answer]; rfl
  unfold createAs
  generalize engine.create schema kind source c = made at same_kind
  obtain ⟨answer, after, context⟩ := made
  cases answer with
  | error e => rfl
  | ok x => exact if_pos (same_kind x rfl)

end Engine

end SettingsForge
