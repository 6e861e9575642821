import SettingsForge.Kind
import SettingsForge.Schema.Basic

set_option autoImplicit false

/-! # Shapes

A shape is a schema together with a kind. Shapes of schemas with equal names are told apart by the
schemas' identities. -/

namespace SettingsForge

structure Shape where
  schemaId : SchemaId
  schemaName : String
  kind : Kind
  deriving DecidableEq, Repr

namespace Shape

def of (schema : Schema) (kind : Kind) : Shape := ⟨schema.id, schema.name, kind⟩

/-- The name of a shape: the schema's name and the kind. -/
def typeName (shape : Shape) : String := shape.schemaName ++ shape.kind.label

end Shape

end SettingsForge
