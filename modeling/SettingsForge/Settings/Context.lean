import SettingsForge.Settings.Basic

set_option autoImplicit false

/-! # What operations reach besides their subject

An operation on an instance may announce changes and write into the journal. It answers with the
instance after it also when it fails, for a copy that fails half way keeps what it has done. -/

namespace SettingsForge

/-- The hub and the journal. -/
structure Context where
  hub : Hub := {}
  journal : List JournalEntry := []

namespace Context

/-- Write entries into the journal. -/
def note (c : Context) (entries : List JournalEntry) : Context :=
  { c with journal := c.journal ++ entries }

/-- Announce a change of a property, if there is a notifier. -/
def announce (c : Context) (notifier : Option NotifierId) (property : String) : Context :=
  match notifier with
  | some n => { c with hub := c.hub.notify n property }
  | none => c

/-- Tell the owner of a change, if there is a binding to it. -/
def tell (c : Context) (binding : Option Binding) : Context :=
  match binding with
  | some b => c.announce (some b.notifier) b.property
  | none => c

@[simp] theorem note_nil (c : Context) : c.note [] = c := by simp [note]

@[simp] theorem announce_none (c : Context) (property : String) : c.announce none property = c := rfl

@[simp] theorem tell_none (c : Context) : c.tell none = c := rfl

end Context

/-- The answer to an operation, its subject after it, and the context after it. -/
structure Done (σ α : Type) where
  answer : Except SettingsError α
  subject : σ
  context : Context

namespace Done

variable {σ τ α : Type}

/-- Put the subject into a larger one. -/
def within (wrap : σ → τ) (d : Done σ α) : Done τ α := ⟨d.answer, wrap d.subject, d.context⟩

end Done

/-- The instance that a slot belongs to, as far as the slot and its operations need it. -/
structure Owner where
  schema : String
  kind : Kind
  notifier : Option NotifierId
  deriving DecidableEq, Repr

/-- The binding of a property's list or dictionary to the owner, if the owner has a notifier. -/
def Owner.binding (owner : Owner) (property : String) : Option Binding :=
  owner.notifier.map fun n => ⟨property, n⟩

def Settings.owner (x : Settings) : Owner := ⟨x.schema.name, x.kind, x.notifier⟩

end SettingsForge
