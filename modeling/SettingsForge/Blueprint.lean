import SettingsForge.Initializer.Resolve

set_option autoImplicit false

/-! # Blueprints

A blueprint is a schema with all that is needed to make its instances: an initializer for every value
and, for every dictionary, the blueprint of its entries. So whoever has a dictionary can make entries
for it without asking anyone. -/

namespace SettingsForge

/-- How the content of a slot is made, over a type of blueprints. -/
inductive PlanOf (β : Type) where
  | value (type : ValueType) (initializer : Initializer)
  | entries (blueprint : β)

/-- The plan for a property, over a type of blueprints. -/
structure SlotPlanOf (β : Type) where
  name : String
  plan : PlanOf β

inductive Blueprint where
  | mk (schema : Schema) (slots : List (SlotPlanOf Blueprint))

abbrev SlotPlan := SlotPlanOf Blueprint

namespace Blueprint

def schema : Blueprint → Schema
  | .mk schema _ => schema

def slots : Blueprint → List SlotPlan
  | .mk _ slots => slots

end Blueprint

/-- The outcome of resolving a schema. Kinds that announce changes may be ruled out on their own. -/
structure Resolution where
  blueprint : Except SettingsError Blueprint
  observable : Option SettingsError

namespace Resolution

/-- The blueprint for instances of a kind. -/
def blueprintFor (r : Resolution) (kind : Kind) : Except SettingsError Blueprint :=
  match r.blueprint, r.observable with
  | .error e, _ => .error e
  | .ok b, none => .ok b
  | .ok b, some e => if kind.isObservable then .error e else .ok b

end Resolution

namespace Schema

/-- The first property whose type has no equality, as the error that it is for observable kinds. -/
def missingEquality? (schema : Schema) : Option SettingsError :=
  schema.properties.findSome? fun p =>
    p.type.valueType?.bind fun type =>
      type.missingEquality?.map fun o => .missingEquality schema.name p.name o.name

end Schema

namespace Blueprint

/-- The plans for properties, from their initializers and the resolutions of the nested schemas, both
    in order. The first nested schema that fails is the error. -/
def assemble : List Property → List Initializer → List Resolution →
    Except SettingsError (List SlotPlan)
  | ⟨name, .value type, _⟩ :: properties, initializer :: initializers, nested =>
    (assemble properties initializers nested).map (⟨name, .value type initializer⟩ :: ·)
  | ⟨name, .dict _, _⟩ :: properties, _ :: initializers, r :: nested =>
    match r.blueprint with
    | .error e => .error e
    | .ok b => (assemble properties initializers nested).map (⟨name, .entries b⟩ :: ·)
  | _, _, _ => .ok []

end Blueprint

/-- The resolution of a schema from those of its nested schemas: the schema's own errors come first,
    then those of the nested schemas in order. -/
def Resolution.ofNested (catalog : Catalog) (schema : Schema) (nested : List Resolution) :
    Resolution where
  blueprint :=
    match Initializer.resolveAll schema.name catalog schema.properties with
    | .error e => .error e
    | .ok initializers =>
      (Blueprint.assemble schema.properties initializers nested).map (Blueprint.mk schema)
  observable :=
    match schema.missingEquality? with
    | some e => some e
    | none => nested.findSome? Resolution.observable

end SettingsForge
