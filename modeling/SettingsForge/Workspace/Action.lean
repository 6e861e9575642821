import SettingsForge.Workspace.Basic

set_option autoImplicit false

/-! # Steps of a workspace

`Action` lists what can be asked of a workspace, `Report` what the answers are. -/

namespace SettingsForge

/-- What a property of a schema to be built holds; nested schemas by their names. -/
inductive TypeSpec where
  | value (type : ValueType)
  | dict (schema : String)

/-- A property of a schema to be built. -/
structure PropertySpec where
  name : String
  type : TypeSpec
  defaults : List DefaultStrategy

/-- Where a new instance comes from. -/
inductive Maker where
  | factory (name : String)
  | schema (name : String) (kind : Kind) (engine : String)

/-- What is passed to a copy from a source of unknown nature. -/
inductive Source where
  | absent
  | alien
  /-- The instance at a location. -/
  | location (source : Location)
  /-- The named instance that a location starts from. -/
  | root (source : Location)

/-- A step. `place` is where it works, `name` and `id` are names that it gives or takes. -/
inductive Action where
  -- engines and schemas
  | newEngine (name : String) (catalog : Catalog)
  | cloneEngine (name source : String)
  | build (id name : String) (base : Option String) (properties : List PropertySpec)
  | describe (schema : String) (lookup : Option String)
  | isA (schema ancestor : String)
  | typeOf (schema : String) (kind : Kind) (engine : String) (saveAs : Option String)
  | compareShapes (first second : String)
  | resolved (schemas : List String) (engine : String)
  | resolveDefault (schema property engine : String)
  | blueprint (schema engine : String)
  | newFactory (schema : String) (kind : Kind) (engine name : String)
  -- instances
  | create (name : String) (maker : Maker) (source : Option Location)
  | drop (name : String)
  | about (place : Location)
  | get (place : Location) (property : String)
  | set (place : Location) (property : String) (value : Value)
  | snapshot (place : Location)
  | reset (place : Location) (engine : String)
  | copy (place : Location) (source : Option Location)
  | copyUntyped (place : Location) (source : Source)
  -- lists
  | list (place : Location) (property : String)
  | item (place : Location) (property : String) (index : Nat)
  | editList (place : Location) (property : String) (edit : ListEdit)
  -- dictionaries
  | dict (place : Location) (property : String)
  | dictForEdit (place : Location) (property : String)
  | hasKey (place : Location) (property key : String)
  | dictSnapshot (place : Location) (property : String)
  | addEntry (place : Location) (property key : String)
  | deleteEntry (place : Location) (property key : String)
  | assignDict (place : Location) (property : String) (source : Location) (sourceProperty : String)
  -- notification
  | subscribe (place : Location) (client : String) (reaction : Reaction)
  | unsubscribe (place : Location) (client : String)
  | subscribers (place : Location)
  | holdNotifier (place : Location) (name : String)
  | sameNotifier (place : Location) (name : String)
  | newNotifier (name : String)
  | notifierSubscribe (name client : String) (reaction : Reaction)
  | notifierUnsubscribe (name client : String)
  | notifierCount (name : String)
  | notifierNotify (name property : String)
  -- providers
  | newProvider (name : String)
  | dropProvider (name : String)
  | setProvider (place : Location) (provider key : Option String)
  | provider (place : Location)
  -- debug texts
  | debugList (place : Location) (property : String)
  | debugDict (place : Location) (property : String)
  | debugNotifier (place : Location)
  | debugEngine (engine : String)
  | debugInitializer (schema property engine : String)

/-- The answer to a step. -/
inductive Report where
  | nothing
  | flag (b : Bool)
  | count (n : Nat)
  | value (v : Value)
  | text (s : String)
  | names (names : List String)
  | catalogSize (n : Nat)
  | shape (shape : Shape)
  | typeName (shape : Shape)
  | sameShape (equal sameSchema : Bool)
  | optional (report : Option Report)
  | item (value : Option Value)
  | description (schema : Schema) (lookup : Option (Option String × Option Nat))
  | resolved (count : Nat) (schemas : List (String × Bool))
  | initializer (initializer : Initializer) (produced : Option Value)
  | blueprint (schema : Except SettingsError String) (missingEquality : Option SettingsError)
  | list (property : String) (item : ValueType) (items : List Value) (bound : Bool)
  | dict (property : String) (schema : String) (kind : Kind) (entries : List (String × Shape))
  | reconciled (outcome : ReconcileOutcome)
  | provider (key name : Option String) (debug : String)

end SettingsForge
