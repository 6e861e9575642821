import SettingsForge.Proofs.Settings.Journal
import SettingsForge.Proofs.Settings.Parts

set_option autoImplicit false

/-! # Without the difference between the observable kinds

`Kind.blur` takes the two observable kinds for one, and so do `Settings.blur`, at every depth of an
instance, and `Context.blur`, for the journal. Each function on instances is shown to do on blurred
arguments what it does on the arguments themselves, up to blurring: what is read is the same, and what
is changed, announced, noted or refused is the same. -/

namespace SettingsForge

namespace Kind

/-- The kind, the observable ones taken for one. -/
def blur : Kind → Kind
  | .real => .inpc
  | kind => kind

variable (kind : Kind)

@[simp] theorem isObservable_blur : kind.blur.isObservable = kind.isObservable := by cases kind <;> rfl

@[simp] theorem isWritable_blur : kind.blur.isWritable = kind.isWritable := by cases kind <;> rfl

theorem blur_eq_self (h : kind.isObservable = false) : kind.blur = kind := by
  cases kind with
  | real => cases h
  | _ => rfl

/-- Kinds that blurring makes equal are equal or both observable. -/
theorem blur_eq_blur_iff {kind other : Kind} :
    kind.blur = other.blur ↔ kind = other ∨ kind.isObservable = true ∧ other.isObservable = true := by
  cases kind <;> cases other <;> decide

end Kind

/-! ## Instances -/

def DictRef.blur (dict : DictRef) : DictRef := { dict with kind := dict.kind.blur }

namespace Settings

mutual

/-- An instance with blurred kinds, its own and those of all entries inside it. -/
def blur : Settings → Settings
  | .mk schema kind slots notifier provider => .mk schema kind.blur (blurSlots slots) notifier provider

def blurSlots : List (SlotOf Settings) → List (SlotOf Settings)
  | [] => []
  | ⟨name, .scalar type value⟩ :: slots => ⟨name, .scalar type value⟩ :: blurSlots slots
  | ⟨name, .list list items⟩ :: slots => ⟨name, .list list items⟩ :: blurSlots slots
  | ⟨name, .dict dict entries⟩ :: slots =>
    ⟨name, .dict dict.blur (blurEntries entries)⟩ :: blurSlots slots

def blurEntries : List (EntryOf Settings) → List (EntryOf Settings)
  | [] => []
  | ⟨key, forwarder, x⟩ :: entries => ⟨key, forwarder, x.blur⟩ :: blurEntries entries

end

end Settings

def EntryOf.blur (e : Entry) : Entry := { e with settings := e.settings.blur }

def ContentOf.blur : Content → Content
  | .dict d entries => .dict d.blur (entries.map EntryOf.blur)
  | content => content

def SlotOf.blur (slot : Slot) : Slot := { slot with content := slot.content.blur }

namespace Settings

theorem blurEntries_eq_map (entries : List Entry) : blurEntries entries = entries.map EntryOf.blur := by
  induction entries with
  | nil => rfl
  | cons e entries ih => rw [blurEntries, ih, List.map_cons, EntryOf.blur]

theorem blurSlots_eq_map (slots : List Slot) : blurSlots slots = slots.map SlotOf.blur := by
  induction slots with
  | nil => rfl
  | cons slot slots ih =>
      obtain ⟨name, content⟩ := slot
      cases content with
      | dict dict entries => simp [blurSlots, ih, blurEntries_eq_map, SlotOf.blur, ContentOf.blur]
      | _ => simp [blurSlots, ih, SlotOf.blur, ContentOf.blur]

theorem blur_mk (schema : Schema) (kind : Kind) (slots : List Slot) (notifier : Option NotifierId)
    (provider : Option ProviderLink) :
    (mk schema kind slots notifier provider).blur =
      .mk schema kind.blur (slots.map SlotOf.blur) notifier provider := by
  rw [blur, blurSlots_eq_map]

variable (x : Settings)

@[simp] theorem schema_blur : x.blur.schema = x.schema := by cases x; rfl

@[simp] theorem kind_blur : x.blur.kind = x.kind.blur := by cases x; rfl

@[simp] theorem notifier_blur : x.blur.notifier = x.notifier := by cases x; rfl

@[simp] theorem provider_blur : x.blur.provider = x.provider := by cases x; rfl

@[simp] theorem slots_blur : x.blur.slots = x.slots.map SlotOf.blur := by
  obtain ⟨schema, kind, slots, notifier, provider⟩ := x
  rw [blur_mk]
  rfl

@[simp] theorem blur_setProvider (link : Option ProviderLink) :
    (x.setProvider link).blur = x.blur.setProvider link := by
  obtain ⟨schema, kind, slots, notifier, provider⟩ := x
  simp only [setProvider, blur_mk]

end Settings

@[simp] theorem SlotOf.name_blur (slot : Slot) : slot.blur.name = slot.name := rfl

@[simp] theorem EntryOf.key_blur (e : Entry) : e.blur.key = e.key := rfl

@[simp] theorem EntryOf.settings_blur (e : Entry) : e.blur.settings = e.settings.blur := rfl

/-! ## Reading -/

namespace Entries

variable (entries : List Entry)

@[simp] theorem keys_blur : keys (entries.map EntryOf.blur) = keys entries := by
  simp [keys, Function.comp_def]

@[simp] theorem find?_blur (key : String) :
    find? (entries.map EntryOf.blur) key = (find? entries key).map EntryOf.blur := by
  simp [find?, List.find?_map, Function.comp_def]

@[simp] theorem erase_blur (key : String) :
    erase (entries.map EntryOf.blur) key = (erase entries key).map EntryOf.blur := by
  simp [erase, List.filter_map, Function.comp_def]

@[simp] theorem insert_blur (e : Entry) :
    insert e.blur (entries.map EntryOf.blur) = (insert e entries).map EntryOf.blur := by
  induction entries with
  | nil => rfl
  | cons first entries ih =>
      simp only [List.map_cons, insert, EntryOf.key_blur, ih]
      split
      · rfl
      · split <;> rfl

end Entries

namespace Settings

@[simp] theorem snapshot_blur (x : Settings) : x.blur.snapshot = x.snapshot := by
  induction x using tree_induction with
  | step x ih =>
      obtain ⟨schema, kind, slots, notifier, provider⟩ := x
      have values : slotValues (slots.map SlotOf.blur) = slotValues slots := by
        rw [slotValues_eq_map, slotValues_eq_map, List.map_map]
        refine List.map_congr_left fun slot hs => ?_
        obtain ⟨name, content⟩ := slot
        cases content with
        | dict dict entries =>
            have inner : entryValues (entries.map EntryOf.blur) = entryValues entries := by
              rw [entryValues_eq_map, entryValues_eq_map, List.map_map]
              exact List.map_congr_left fun e he => congrArg (Prod.mk e.key) (ih _ hs e he)
            exact congrArg (fun values => (name, Value.map values)) inner
        | _ => rfl
      rw [blur_mk, snapshot, snapshot, values]

@[simp] theorem entryValues_blur (entries : List Entry) :
    entryValues (entries.map EntryOf.blur) = entryValues entries := by
  simp [entryValues_eq_map, Function.comp_def]

end Settings

@[simp] theorem ContentOf.value_blur (content : Content) : content.blur.value = content.value := by
  cases content <;> simp [blur, value]

/-- Only dictionaries are blurred to dictionaries. -/
theorem ContentOf.exists_of_blur_eq_dict {content : Content} {dict : DictRef}
    {entries : List Entry} (h : content.blur = .dict dict entries) :
    ∃ sharp inner, content = .dict sharp inner := by
  cases content with
  | dict sharp inner => exact ⟨sharp, inner, rfl⟩
  | _ => cases h

namespace Settings

variable (x : Settings) (property : String)

@[simp] theorem content_blur : x.blur.content property = (x.content property).map ContentOf.blur := by
  unfold content
  rw [slots_blur, List.find?_map, schema_blur]
  simp only [Function.comp_def, SlotOf.name_blur]
  cases x.slots.find? fun slot => slot.name == property <;> rfl

@[simp] theorem get_blur : x.blur.get property = x.get property := by
  unfold get
  rw [content_blur]
  cases x.content property with
  | error e => rfl
  | ok content => exact congrArg Except.ok content.value_blur

theorem shapeMismatch_blur (expected actual : String) :
    x.blur.shapeMismatch property expected actual = x.shapeMismatch property expected actual := by
  rw [shapeMismatch, schema_blur, shapeMismatch]

@[simp] theorem list_blur : x.blur.list property = x.list property := by
  unfold list
  rw [content_blur]
  cases x.content property with
  | error e => rfl
  | ok content => cases content <;> simp [Except.map, ContentOf.blur, shapeMismatch_blur, ContentOf.shape]

@[simp] theorem dict_blur :
    x.blur.dict property =
      (x.dict property).map fun dict => (dict.1.blur, dict.2.map EntryOf.blur) := by
  unfold dict
  rw [content_blur]
  cases x.content property with
  | error e => rfl
  | ok content => cases content <;> simp [Except.map, ContentOf.blur, shapeMismatch_blur, ContentOf.shape]

@[simp] theorem blur_setContent (content : Content) :
    (x.setContent property content).blur = x.blur.setContent property content.blur := by
  obtain ⟨schema, kind, slots, notifier, provider⟩ := x
  simp only [setContent, withSlots, blur_mk, Settings.slots, List.map_map]
  congr 1
  refine List.map_congr_left fun slot _ => ?_
  rw [Function.comp_apply, Function.comp_apply, SlotOf.name_blur]
  cases slot.name == property <;> rfl

end Settings

/-! ## Contexts -/

/-- An entry with a blurred kind. -/
def JournalEntry.blur : JournalEntry → JournalEntry
  | .resetStarted schema kind => .resetStarted schema kind.blur
  | entry => entry

/-- Only resets write down a kind. -/
theorem JournalEntry.blur_of_isEditing (entry : JournalEntry) (h : entry.isEditing = true) :
    entry.blur = entry := by
  cases entry with
  | resetStarted => cases h
  | _ => rfl

theorem JournalEntry.map_blur_eq_self {entries : List JournalEntry}
    (h : ∀ entry ∈ entries, entry.blur = entry) : entries.map JournalEntry.blur = entries :=
  (List.map_congr_left h).trans (List.map_id' entries)

namespace Context

/-- A context with the kinds in its journal blurred. -/
def blur (c : Context) : Context := { c with journal := c.journal.map JournalEntry.blur }

variable (c : Context)

@[simp] theorem hub_blur : c.blur.hub = c.hub := rfl

@[simp] theorem journal_blur : c.blur.journal = c.journal.map JournalEntry.blur := rfl

theorem blur_mk (hub : Hub) (journal : List JournalEntry) :
    Context.blur ⟨hub, journal⟩ = ⟨hub, journal.map JournalEntry.blur⟩ := rfl

@[simp] theorem blur_note (entries : List JournalEntry) :
    (c.note entries).blur = c.blur.note (entries.map JournalEntry.blur) := by
  simp [note, blur]

@[simp] theorem blur_announce (notifier : Option NotifierId) (property : String) :
    (c.announce notifier property).blur = c.blur.announce notifier property := by
  cases notifier <;> rfl

@[simp] theorem blur_tell (binding : Option Binding) :
    (c.tell binding).blur = c.blur.tell binding := by
  cases binding <;> rfl

end Context

/-- The answer to an operation with its subject, its answer and the journal blurred. -/
def Done.blur {σ α : Type} (subject : σ → σ) (answer : α → α) (d : Done σ α) : Done σ α :=
  ⟨d.answer.map answer, subject d.subject, d.context.blur⟩

/-- What is put into a larger subject before or after blurring. -/
theorem Done.blur_within {σ τ α : Type} {wrap wrap' : σ → τ} {subject : σ → σ} {outer : τ → τ}
    (same : ∀ s, outer (wrap s) = wrap' (subject s)) (answer : α → α) (d : Done σ α) :
    (d.within wrap).blur outer answer = (d.blur subject answer).within wrap' := by
  simp only [blur, within, same]

def Owner.blur (owner : Owner) : Owner := { owner with kind := owner.kind.blur }

@[simp] theorem Owner.schema_blur (owner : Owner) : owner.blur.schema = owner.schema := rfl

@[simp] theorem Owner.kind_blur (owner : Owner) : owner.blur.kind = owner.kind.blur := rfl

@[simp] theorem Owner.notifier_blur (owner : Owner) : owner.blur.notifier = owner.notifier := rfl

@[simp] theorem Settings.owner_blur (x : Settings) : x.blur.owner = x.owner.blur := by
  simp [owner, Owner.blur]

/-! ## Editing values and lists -/

/-- Lists know nothing of kinds. -/
theorem ListRef.revise_blur (list : ListRef) (items : List Value) (edit : ListEdit) (c : Context) :
    list.revise items edit c.blur = (list.revise items edit c).blur id id := by
  unfold revise
  cases edited : list.edit items edit with
  | error e => rfl
  | ok revision =>
      have noted : c.blur.note revision.journal = (c.note revision.journal).blur := by
        rw [Context.blur_note, JournalEntry.map_blur_eq_self fun entry mem =>
          entry.blur_of_isEditing (editing_of_edit edited entry mem)]
      dsimp only
      rw [noted, ← Context.blur_tell]
      cases revision.changed <;> rfl

namespace Owner

variable (owner : Owner) (property : String) (c : Context)

theorem store_blur (current value : Value) :
    owner.blur.store property current value c.blur =
      (owner.store property current value c).blur id id := by
  unfold store
  rw [notifier_blur]
  cases owner.notifier with
  | none => rfl
  | some n =>
      dsimp only
      rw [← Context.blur_announce]
      split <;> rfl

theorem write_blur (content : Content) (value : Value) :
    owner.blur.write property content.blur value c.blur =
      (owner.write property content value c).blur ContentOf.blur id := by
  cases content with
  | scalar type current =>
      simp only [write, ContentOf.blur, schema_blur, store_blur]
      cases type.coerce value <;> rfl
  | list list items =>
      cases value with
      | list target =>
          simp only [write, ContentOf.blur, ListRef.revise_blur, Done.blur]
          cases (list.revise items (.reconcile target) c).answer <;> rfl
      | _ => rfl
  | dict dict entries => rfl

end Owner

namespace Settings

variable (x : Settings) (property : String) (c : Context)

theorem refuse_blur {α : Type} (target : String) (answer : α → α) :
    x.blur.refuse target c.blur = (x.refuse target c).blur blur answer := by
  unfold refuse Done.blur
  rw [schema_blur, Context.blur_note]
  rfl

theorem set_blur (value : Value) :
    x.blur.set property value c.blur = (x.set property value c).blur blur id := by
  unfold set
  rw [content_blur, kind_blur, Kind.isWritable_blur]
  cases x.content property with
  | error e => rfl
  | ok content =>
      simp only [Except.map, owner_blur, Owner.write_blur, refuse_blur x c property id]
      split
      · exact (Done.blur_within (fun content => x.blur_setContent property content) id _).symm
      · rfl

theorem editList_blur (edit : ListEdit) :
    x.blur.editList property edit c.blur = (x.editList property edit c).blur blur id := by
  unfold editList
  rw [list_blur, kind_blur, Kind.isWritable_blur]
  cases x.list property with
  | error e => rfl
  | ok list =>
      simp only [ListRef.revise_blur, refuse_blur x c property id]
      split
      · exact (Done.blur_within (fun after => x.blur_setContent property (.list list.1 after)) id _).symm
      · rfl

end Settings

end SettingsForge
