import SettingsForge.Settings.Basic
import SettingsForge.Value.Display

set_option autoImplicit false

/-! # Debug texts of instances -/

namespace SettingsForge

/-- An optional text, the word for its case around it. -/
def optionDebug : Option String → String
  | some s => "Some(" ++ s ++ ")"
  | none => "None"

namespace Settings

/-- The debug text of a list property. -/
def listDebug (list : ListRef) (items : List Value) : String :=
  "ObservableList \x7b property: " ++ Text.quoted list.property ++ ", items: " ++
    Value.debugList items ++ ", bound: " ++ boolText list.binding.isSome ++ " \x7d"

/-- The debug text of a dictionary property. -/
def dictDebug (dict : DictRef) (entries : List Entry) : String :=
  "SettingsDict \x7b property: " ++ Text.quoted dict.property ++ ", schema: " ++
    Text.quoted dict.blueprint.schema.name ++ ", kind: " ++ dict.kind.label ++ ", keys: [" ++
    joined ", " ((Entries.keys entries).map Text.quoted) ++ "] \x7d"

/-- The debug text of an instance's notifier. -/
def notifierDebug (x : Settings) (hub : Hub) : String := optionDebug (x.notifier.map hub.debug)

end Settings

/-- The debug text of a provider link, given the name of the provider if it is still there. -/
def ProviderLink.debug (link : ProviderLink) (provider : Option String) : String :=
  "ProviderLink \x7b provider: " ++ optionDebug (provider.map Text.quoted) ++ ", key: " ++
    optionDebug (link.key.map Text.quoted) ++ " \x7d"

end SettingsForge
