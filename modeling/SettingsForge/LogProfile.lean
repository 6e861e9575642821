import SettingsForge.Journal
import SettingsForge.Text.Case

set_option autoImplicit false

/-! # Log profiles

A log profile says which entries of the journal are shown. -/

namespace SettingsForge

inductive LogProfile where
  | development
  | production
  | test
  deriving DecidableEq, Repr

namespace LogProfile

/-- The profile of a name or short name in any case. -/
def parse? (s : String) : Option LogProfile :=
  let name := Text.lower s
  if name = "development" ∨ name = "dev" then some .development
  else if name = "production" ∨ name = "prod" then some .production
  else if name = "test" then some .test
  else none

/-- The message for a text that names no profile. -/
def unknownMessage (s : String) : String := "unknown logging profile '" ++ Text.lower s ++ "'"

/-- Whether entries of a level are shown: all of them in development, none in tests. -/
def shows : LogProfile → JournalLevel → Bool
  | .development, _ => true
  | .production, level => level != .debug
  | .test, _ => false

end LogProfile

end SettingsForge
