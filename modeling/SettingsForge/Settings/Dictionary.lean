import SettingsForge.Settings.Edit
import SettingsForge.Settings.Make

set_option autoImplicit false

/-! # Editing dictionaries

Entries are made by the dictionary itself, of its nested schema and its kind, the owner's. The owner of
an entry hears of the entry's changes and announces them as changes of the dictionary, which tells it of
added and deleted entries as well. -/

namespace SettingsForge

namespace DictRef

/-- A new instance as an entry of a dictionary. -/
def make (dict : DictRef) (hub : Hub) : Settings × Hub := dict.blueprint.make dict.engine dict.kind hub

/-- A new entry with its first values, already heard by the owner. -/
def makeEntry (dict : DictRef) (key : String) (hub : Hub) : Entry × Hub :=
  match dict.make hub with
  | (x, made) =>
    match made.forward x.notifier dict.binding with
    | (forwarder, heard) => (⟨key, forwarder, x⟩, heard)

/-- Add an entry with its first values under a new key. -/
def addEntry (dict : DictRef) (entries : List Entry) (key : String) (c : Context) :
    Done (List Entry) Entry :=
  match Entries.find? entries key with
  | some _ => ⟨.error (.duplicateKey dict.property key), entries, c⟩
  | none =>
    match dict.makeEntry key c.hub with
    | (entry, hub) =>
      ⟨.ok entry, Entries.insert entry entries,
        (Context.note { c with hub := hub } [.entryAdded dict.property key]).tell dict.binding⟩

/-- Delete the entry under a key; the answer is whether there was one. -/
def deleteEntry (dict : DictRef) (entries : List Entry) (key : String) (c : Context) :
    Done (List Entry) Bool :=
  match Entries.find? entries key with
  | none => ⟨.ok false, entries, c⟩
  | some entry =>
    ⟨.ok true, Entries.erase entries key,
      (Context.note { c with hub := c.hub.unforward entry } [.entryDeleted dict.property key]).tell
        dict.binding⟩

end DictRef

namespace Settings

/-- A dictionary property that may be edited. -/
def dictForEdit (x : Settings) (property : String) (c : Context) :
    Done Settings (DictRef × List Entry) :=
  match x.dict property with
  | .error e => ⟨.error e, x, c⟩
  | .ok dict => if x.kind.isWritable then ⟨.ok dict, x, c⟩ else x.refuse property c

/-- Edit the entries of a dictionary property. -/
def editDict {α : Type} (x : Settings) (property : String)
    (edit : DictRef → List Entry → Context → Done (List Entry) α) (c : Context) :
    Done Settings α :=
  match x.dictForEdit property c with
  | ⟨.error e, _, after⟩ => ⟨.error e, x, after⟩
  | ⟨.ok (dict, entries), _, after⟩ =>
    (edit dict entries after).within fun entries => x.setContent property (.dict dict entries)

/-- Add an entry under a new key of a dictionary property. -/
def addEntry (x : Settings) (property key : String) (c : Context) : Done Settings Entry :=
  x.editDict property (fun dict entries c => dict.addEntry entries key c) c

/-- Delete the entry under a key of a dictionary property. -/
def deleteEntry (x : Settings) (property key : String) (c : Context) : Done Settings Bool :=
  x.editDict property (fun dict entries c => dict.deleteEntry entries key c) c

end Settings

end SettingsForge
