import SettingsForge.Engine
import SettingsForge.Hub

set_option autoImplicit false

/-! # Instances of settings

An instance has one slot for every property of its schema: a scalar, a list, or a dictionary whose
entries are instances again. So an instance is a tree. Observable instances have a notifier, and their
lists and dictionaries are bound to it; an entry of a bound dictionary also knows the subscription
through which the owner hears of its changes. -/

namespace SettingsForge

/-- An external owner of instances, by its serial number. -/
abbrev ProviderId := Nat

/-- The provider an instance belongs to, and the key it is filed under. -/
structure ProviderLink where
  provider : ProviderId
  key : Option String
  deriving DecidableEq, Repr

/-- How a list or a dictionary tells its owner of a change: as a change of the property, at the owner's
    notifier. -/
structure Binding where
  property : String
  notifier : NotifierId
  deriving DecidableEq, Repr

/-- A list without its items. Errors and the journal name the owner's schema and the property. -/
structure ListRef where
  schema : String
  property : String
  item : ValueType
  binding : Option Binding

/-- A dictionary without its entries, with all that it makes them from. -/
structure DictRef where
  engine : EngineId
  blueprint : Blueprint
  kind : Kind
  property : String
  binding : Option Binding

/-- An entry of a dictionary, over a type of instances. -/
structure EntryOf (ι : Type) where
  key : String
  /-- The owner's subscription at the entry's notifier. -/
  forwarder : Option SubscriptionId
  settings : ι

/-- What a slot holds, over a type of instances. -/
inductive ContentOf (ι : Type) where
  | scalar (type : ValueType) (value : Value)
  | list (list : ListRef) (items : List Value)
  /-- Entries in ascending order of their keys. -/
  | dict (dict : DictRef) (entries : List (EntryOf ι))

/-- A property with its content, over a type of instances. -/
structure SlotOf (ι : Type) where
  name : String
  content : ContentOf ι

inductive Settings where
  | mk (schema : Schema) (kind : Kind) (slots : List (SlotOf Settings))
    (notifier : Option NotifierId) (provider : Option ProviderLink)

abbrev Entry := EntryOf Settings

abbrev Content := ContentOf Settings

abbrev Slot := SlotOf Settings

namespace ContentOf

variable {ι : Type}

/-- The word for what a slot holds. -/
def shape : ContentOf ι → String
  | .scalar .. => "value"
  | .list .. => "collection"
  | .dict .. => "dictionary"

end ContentOf

/-! ## Dictionaries -/

namespace Entries

/-- The entry under a key. -/
def find? (entries : List Entry) (key : String) : Option Entry :=
  List.find? (fun e => e.key == key) entries

def keys (entries : List Entry) : List String := entries.map EntryOf.key

/-- Put an entry at the place of its key, instead of the one that is there. -/
def insert (entry : Entry) : List Entry → List Entry
  | [] => [entry]
  | e :: rest =>
    if entry.key < e.key then entry :: e :: rest
    else if entry.key = e.key then entry :: rest
    else e :: insert entry rest

/-- Drop the entry under a key. -/
def erase (entries : List Entry) (key : String) : List Entry :=
  entries.filter fun e => e.key != key

/-- What a dictionary holds under a key after an insertion: no order is assumed. -/
theorem find?_insert (entry : Entry) (entries : List Entry) (key : String) :
    find? (insert entry entries) key =
      if entry.key = key then some entry else find? entries key := by
  induction entries with
  | nil =>
    by_cases h : entry.key = key <;> simp [insert, find?, h]
  | cons e rest ih =>
    unfold find? at ih ⊢
    unfold insert
    split
    · by_cases h : entry.key = key <;> simp [h]
    · split
      · rename_i _ same
        by_cases h : entry.key = key
        · simp [h]
        · have other : ¬ e.key = key := fun k => h (same.trans k)
          simp [h, other]
      · rename_i _ differ
        by_cases h : e.key = key
        · have other : ¬ entry.key = key := fun k => differ (k.trans h.symm)
          simp [h, other]
        · rw [List.find?_cons_of_neg (by simpa using h), ih,
            List.find?_cons_of_neg (by simpa using h)]

end Entries

/-! ## Reading -/

namespace Settings

def schema : Settings → Schema
  | .mk schema .. => schema

def kind : Settings → Kind
  | .mk _ kind .. => kind

def slots : Settings → List Slot
  | .mk _ _ slots .. => slots

def notifier : Settings → Option NotifierId
  | .mk _ _ _ notifier _ => notifier

def provider : Settings → Option ProviderLink
  | .mk _ _ _ _ provider => provider

def setProvider (link : Option ProviderLink) : Settings → Settings
  | .mk schema kind slots notifier _ => .mk schema kind slots notifier link

def withSlots (slots : List Slot) : Settings → Settings
  | .mk schema kind _ notifier provider => .mk schema kind slots notifier provider

def shape (x : Settings) : Shape := .of x.schema x.kind

/-- The content of a property. -/
def content (x : Settings) (property : String) : Except SettingsError Content :=
  match x.slots.find? fun slot => slot.name == property with
  | some slot => .ok slot.content
  | none => .error (.unknownProperty x.schema.name property)

mutual

/-- All properties as an object of the schema's name. -/
def snapshot : Settings → Value
  | .mk schema _ slots _ _ => .object schema.name (Keyed.ofList (slotValues slots))

/-- The values of slots under their names. -/
def slotValues : List (SlotOf Settings) → List (String × Value)
  | [] => []
  | ⟨name, .scalar _ value⟩ :: slots => (name, value) :: slotValues slots
  | ⟨name, .list _ items⟩ :: slots => (name, .list items) :: slotValues slots
  | ⟨name, .dict _ entries⟩ :: slots => (name, .map (entryValues entries)) :: slotValues slots

/-- The snapshots of entries under their keys. -/
def entryValues : List (EntryOf Settings) → List (String × Value)
  | [] => []
  | ⟨key, _, x⟩ :: entries => (key, x.snapshot) :: entryValues entries

end

end Settings

/-- What a slot's content reads as: a dictionary as a map of snapshots. -/
def ContentOf.value : Content → Value
  | .scalar _ value => value
  | .list _ items => .list items
  | .dict _ entries => .map (Settings.entryValues entries)

namespace Settings

/-- The value of a property. -/
def get (x : Settings) (property : String) : Except SettingsError Value :=
  (x.content property).map ContentOf.value

/-- The error for a property that does not hold what is asked for. -/
def shapeMismatch (x : Settings) (property expected actual : String) : SettingsError :=
  .propertyShapeMismatch x.schema.name property expected actual

/-- A list property with its items. -/
def list (x : Settings) (property : String) : Except SettingsError (ListRef × List Value) :=
  match x.content property with
  | .error e => .error e
  | .ok (.list list items) => .ok (list, items)
  | .ok other => .error (x.shapeMismatch property "collection" other.shape)

/-- A dictionary property with its entries. -/
def dict (x : Settings) (property : String) : Except SettingsError (DictRef × List Entry) :=
  match x.content property with
  | .error e => .error e
  | .ok (.dict dict entries) => .ok (dict, entries)
  | .ok other => .error (x.shapeMismatch property "dictionary" other.shape)

/-- The error of asking for changes where none are announced. -/
def notObservable (x : Settings) : SettingsError := .notObservable x.schema.name x.kind

/-- Replace the content of a property. -/
def setContent (x : Settings) (property : String) (content : Content) : Settings :=
  x.withSlots (x.slots.map fun slot =>
    if slot.name == property then { slot with content := content } else slot)

/-! ## Equations -/

theorem slotValues_eq_map (slots : List Slot) :
    slotValues slots = slots.map fun slot => (slot.name, slot.content.value) := by
  induction slots with
  | nil => rfl
  | cons slot slots ih =>
    obtain ⟨name, content⟩ := slot
    cases content <;> simp [slotValues, ContentOf.value, ih]

theorem entryValues_eq_map (entries : List Entry) :
    entryValues entries = entries.map fun e => (e.key, e.settings.snapshot) := by
  induction entries with
  | nil => rfl
  | cons e entries ih => simp [entryValues, ih]

end Settings

end SettingsForge
