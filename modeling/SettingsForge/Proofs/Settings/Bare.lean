import SettingsForge.Proofs.Settings.Agreement

set_option autoImplicit false

/-! # What instances store

`Settings.bare` leaves of an instance what it stores, at every depth: it forgets the notifiers, the
links, whether changes are announced, and the signs of zeros in scalars, but not in lists. An instance
that announces its changes keeps a scalar that is equal to a new one, and may so keep another sign. All
else that is edited in instances that store the same is answered alike, and they store the same after it
(`Done.Alike`), whatever they announce. -/

namespace SettingsForge

open Value Settings

/-- The kind as far as it says what may be done: the observable ones are taken for the plain one. -/
def Kind.bare (kind : Kind) : Kind := if kind.isObservable then .copy else kind

theorem Kind.isWritable_bare (kind : Kind) : kind.bare.isWritable = kind.isWritable := by
  cases kind <;> rfl

theorem Kind.isWritable_eq {kind other : Kind} (same : kind.bare = other.bare) :
    kind.isWritable = other.isWritable := by
  rw [← kind.isWritable_bare, same, other.isWritable_bare]

/-! ## Instances -/

/-- The list without its binding. -/
def ListRef.bare (list : ListRef) : ListRef := { list with binding := none }

/-- The dictionary without its binding and its engine. -/
def DictRef.bare (dict : DictRef) : DictRef :=
  { dict with engine := 0, kind := dict.kind.bare, binding := none }

namespace Settings

mutual

/-- What an instance stores. -/
def bare : Settings → Settings
  | .mk schema kind slots _ _ => .mk schema kind.bare (bareSlots slots) none none

def bareSlots : List (SlotOf Settings) → List (SlotOf Settings)
  | [] => []
  | ⟨name, .scalar type value⟩ :: slots => ⟨name, .scalar type value.unsigned⟩ :: bareSlots slots
  | ⟨name, .list l items⟩ :: slots => ⟨name, .list l.bare items⟩ :: bareSlots slots
  | ⟨name, .dict d entries⟩ :: slots => ⟨name, .dict d.bare (bareEntries entries)⟩ :: bareSlots slots

def bareEntries : List (EntryOf Settings) → List (EntryOf Settings)
  | [] => []
  | ⟨key, _, x⟩ :: entries => ⟨key, none, x.bare⟩ :: bareEntries entries

end

end Settings

def EntryOf.bare (e : Entry) : Entry := ⟨e.key, none, e.settings.bare⟩

def ContentOf.bare : Content → Content
  | .scalar type value => .scalar type value.unsigned
  | .list l items => .list l.bare items
  | .dict d entries => .dict d.bare (entries.map EntryOf.bare)

def SlotOf.bare (slot : Slot) : Slot := ⟨slot.name, slot.content.bare⟩

@[simp] theorem EntryOf.key_bare (e : Entry) : e.bare.key = e.key := rfl

@[simp] theorem SlotOf.name_bare (slot : Slot) : slot.bare.name = slot.name := rfl

namespace Settings

theorem bareEntries_eq_map (entries : List Entry) : bareEntries entries = entries.map EntryOf.bare := by
  induction entries with
  | nil => rfl
  | cons e entries ih => rw [bareEntries, ih, List.map_cons, EntryOf.bare]

theorem bareSlots_eq_map (slots : List Slot) : bareSlots slots = slots.map SlotOf.bare := by
  induction slots with
  | nil => rfl
  | cons slot slots ih =>
      obtain ⟨name, content⟩ := slot
      cases content <;> simp [bareSlots, ih, bareEntries_eq_map, SlotOf.bare, ContentOf.bare]

theorem bare_eq (x : Settings) :
    x.bare = .mk x.schema x.kind.bare (x.slots.map SlotOf.bare) none none := by
  obtain ⟨schema, kind, slots, notifier, provider⟩ := x
  rw [bare, bareSlots_eq_map]
  rfl

@[simp] theorem schema_bare (x : Settings) : x.bare.schema = x.schema := by cases x; rfl

@[simp] theorem slots_bare (x : Settings) : x.bare.slots = x.slots.map SlotOf.bare := by
  rw [bare_eq]
  rfl

/-- Instances store the same if they are of one schema, may be written alike, and their slots do. -/
theorem bare_eq_bare_iff {x y : Settings} :
    x.bare = y.bare ↔ x.schema = y.schema ∧ x.kind.bare = y.kind.bare ∧
      x.slots.map SlotOf.bare = y.slots.map SlotOf.bare := by
  rw [bare_eq, bare_eq]
  simp

end Settings

/-! ## Reading -/

namespace Entries

variable (entries : List Entry)

theorem keys_bare : keys (entries.map EntryOf.bare) = keys entries := by
  simp [keys, Function.comp_def]

theorem find?_bare (key : String) :
    find? (entries.map EntryOf.bare) key = (find? entries key).map EntryOf.bare := by
  simp [find?, List.find?_map, Function.comp_def]

theorem erase_bare (key : String) :
    erase (entries.map EntryOf.bare) key = (erase entries key).map EntryOf.bare := by
  simp [erase, List.filter_map, Function.comp_def]

theorem insert_bare (e : Entry) :
    insert e.bare (entries.map EntryOf.bare) = (insert e entries).map EntryOf.bare := by
  induction entries with
  | nil => rfl
  | cons first entries ih =>
      simp only [List.map_cons, insert, EntryOf.key_bare, ih]
      split
      · rfl
      · split <;> rfl

end Entries

namespace Settings

variable {x y : Settings} (property : String)

theorem slotViews_bare {slots : List Slot}
    (inside : ∀ slot ∈ slots, ∀ e ∈ slot.content.entries, entryView e.bare = entryView e) :
    slotViews (slots.map SlotOf.bare) = slotViews slots := by
  induction slots with
  | nil => rfl
  | cons slot slots ih =>
      obtain ⟨own, others⟩ := List.forall_mem_cons.1 inside
      rw [List.map_cons, slotViews_cons, slotViews_cons, ih others]
      obtain ⟨name, content⟩ := slot
      cases content with
      | scalar type value => exact congrArg (fun v => (name, v) :: _) value.unsigned_unsigned
      | list l items => rfl
      | dict d entries =>
          have views : unsignedEntries (entryValues (entries.map EntryOf.bare)) =
              unsignedEntries (entryValues entries) := by
            rw [unsigned_entryValues, unsigned_entryValues, List.map_map]
            exact List.map_congr_left fun e he => congrArg (Prod.mk e.key) (own e he)
          exact congrArg (fun views => (name, Value.map views) :: _) views

theorem unsigned_snapshot_bare (x : Settings) : x.bare.snapshot.unsigned = x.snapshot.unsigned := by
  induction x using tree_induction with
  | step x ih =>
      rw [unsigned_snapshot, unsigned_snapshot, bare_eq]
      exact congrArg (fun views => Value.object x.schema.name (Keyed.ofList views)) (slotViews_bare ih)

/-- Instances that store the same read the same, up to the signs of zeros. -/
theorem snapshot_alike (same : x.bare = y.bare) : x.snapshot.unsigned = y.snapshot.unsigned := by
  rw [← unsigned_snapshot_bare, same, unsigned_snapshot_bare]

theorem content_bare (x : Settings) :
    x.bare.content property = (x.content property).map ContentOf.bare := by
  unfold content
  rw [slots_bare, List.find?_map, schema_bare]
  simp only [Function.comp_def, SlotOf.name_bare]
  cases x.slots.find? fun slot => slot.name == property <;> rfl

theorem content_alike (same : x.bare = y.bare) :
    (x.content property).map ContentOf.bare = (y.content property).map ContentOf.bare := by
  rw [← content_bare, same, content_bare]

theorem list_bare (x : Settings) :
    x.bare.list property = (x.list property).map fun list => (list.1.bare, list.2) := by
  unfold list
  rw [content_bare]
  cases x.content property with
  | error e => rfl
  | ok content => cases content <;> simp [Except.map, ContentOf.bare, shapeMismatch, ContentOf.shape]

theorem list_alike (same : x.bare = y.bare) :
    (x.list property).map (fun list => (list.1.bare, list.2)) =
      (y.list property).map fun list => (list.1.bare, list.2) := by
  rw [← list_bare, same, list_bare]

theorem dict_bare (x : Settings) : x.bare.dict property =
    (x.dict property).map fun dict => (dict.1.bare, dict.2.map EntryOf.bare) := by
  unfold dict
  rw [content_bare]
  cases x.content property with
  | error e => rfl
  | ok content => cases content <;> simp [Except.map, ContentOf.bare, shapeMismatch, ContentOf.shape]

theorem dict_alike (same : x.bare = y.bare) :
    (x.dict property).map (fun dict => (dict.1.bare, dict.2.map EntryOf.bare)) =
      (y.dict property).map fun dict => (dict.1.bare, dict.2.map EntryOf.bare) := by
  rw [← dict_bare, same, dict_bare]

theorem bare_setContent (x : Settings) (content : Content) :
    (x.setContent property content).bare = x.bare.setContent property content.bare := by
  obtain ⟨schema, kind, slots, notifier, provider⟩ := x
  simp only [setContent, withSlots, bare_eq, Settings.slots, List.map_map, Settings.schema, Settings.kind]
  congr 1
  refine List.map_congr_left fun slot _ => ?_
  rw [Function.comp_apply, Function.comp_apply, SlotOf.name_bare]
  cases slot.name == property <;> rfl

end Settings

/-! ## Operations -/

/-- Two operations are answered alike, and leave their subjects alike. -/
structure Done.Alike {σ τ α β : Type} (subject : σ → τ) (answer : α → β) (d e : Done σ α) : Prop where
  answers : d.answer.map answer = e.answer.map answer
  subjects : subject d.subject = subject e.subject

namespace Done.Alike

variable {σ τ α β ρ υ : Type} {subject : σ → τ} {answer : α → β} {d e : Done σ α}

/-- Alike operations inside larger subjects. -/
theorem within (h : d.Alike subject answer e) {wrap wrap' : σ → ρ} {outer : ρ → υ}
    (same : ∀ s t, subject s = subject t → outer (wrap s) = outer (wrap' t)) :
    (d.within wrap).Alike outer answer (e.within wrap') :=
  ⟨h.answers, same _ _ h.subjects⟩

/-- An error is the same in both. -/
theorem of_error {error : SettingsError} {s t : σ} {c c' : Context} (same : subject s = subject t) :
    Alike subject answer (⟨.error error, s, c⟩ : Done σ α) ⟨.error error, t, c'⟩ := ⟨rfl, same⟩

theorem answer_eq (h : d.Alike subject id e) : d.answer = e.answer := by
  have same := h.answers
  rwa [Except.map_id, id, id] at same

end Done.Alike

/-- What a slot's operations need of an instance, as far as it matters for what is stored. -/
def Owner.bare (owner : Owner) : Owner := ⟨owner.schema, owner.kind.bare, none⟩

theorem Settings.owner_alike {x y : Settings} (same : x.bare = y.bare) :
    x.owner.bare = y.owner.bare := by
  obtain ⟨schemas, kinds, -⟩ := bare_eq_bare_iff.1 same
  simp only [owner, Owner.bare, schemas, kinds]

/-- Equal lists are edited alike, whoever hears of it. -/
theorem ListRef.revise_alike {list other : ListRef} (same : list.bare = other.bare)
    (items : List Value) (edit : ListEdit) (c c' : Context) :
    (list.revise items edit c).Alike id id (other.revise items edit c') := by
  obtain ⟨schema, property, item, binding⟩ := list
  obtain ⟨schema', property', item', binding'⟩ := other
  obtain ⟨rfl, rfl, rfl, -⟩ := ListRef.mk.inj same
  -- The edit itself does not look at the binding.
  have edits : ListRef.edit ⟨schema, property, item, binding⟩ items edit =
      ListRef.edit ⟨schema, property, item, binding'⟩ items edit := by cases edit <;> rfl
  unfold revise
  rw [edits]
  cases ListRef.edit ⟨schema, property, item, binding'⟩ items edit with
  | error e => exact .of_error rfl
  | ok revision => exact ⟨rfl, rfl⟩

namespace Owner

variable {owner other : Owner} (property : String) (c c' : Context)

/-- A value is written alike. -/
theorem write_alike (same : owner.bare = other.bare) {content current : Content}
    (contents : content.bare = current.bare) (value : Value) :
    (owner.write property content value c).Alike ContentOf.bare id
      (other.write property current value c') := by
  have schemas : owner.schema = other.schema := (Owner.mk.inj same).1
  cases content with
  | scalar type old =>
      cases current with
      | scalar type' old' =>
          obtain ⟨rfl, olds⟩ := ContentOf.scalar.inj contents
          unfold write
          dsimp only
          rw [schemas]
          cases type.coerce value with
          | none => exact .of_error contents
          | some v =>
              obtain ⟨answer, stored⟩ := owner.unsigned_store property old v c
              obtain ⟨answer', stored'⟩ := other.unsigned_store property old' v c'
              have stores : (owner.store property old v c).Alike unsigned id
                  (other.store property old' v c') := ⟨by rw [answer, answer'], stored.trans stored'.symm⟩
              exact stores.within fun _ _ values => congrArg (ContentOf.scalar type) values
      | _ => cases contents
  | list l items =>
      cases current with
      | list l' items' =>
          obtain ⟨lists, rfl⟩ := ContentOf.list.inj contents
          have items_same : l.item = l'.item := (ListRef.mk.inj lists).2.2.1
          unfold write
          dsimp only
          cases value with
          | list target =>
              have edits := ListRef.revise_alike lists items (.reconcile target) c c'
              dsimp only
              refine ⟨by rw [edits.answer_eq], ?_⟩
              exact congrArg₂ ContentOf.list lists edits.subjects
          | _ => rw [schemas, items_same]; exact .of_error contents
      | _ => cases contents
  | dict d entries =>
      cases current with
      | dict d' entries' =>
          unfold write
          dsimp only
          rw [schemas]
          exact .of_error contents
      | _ => cases contents

end Owner

namespace Settings

variable {x y : Settings} (property : String) (c c' : Context)

/-- Equal contents are put into instances that store the same. -/
theorem setContent_alike (same : x.bare = y.bare) {content other : Content}
    (contents : content.bare = other.bare) :
    (x.setContent property content).bare = (y.setContent property other).bare := by
  rw [bare_setContent, bare_setContent, same, contents]

theorem refuse_alike {α β : Type} {answer : α → β} (same : x.bare = y.bare) (target : String) :
    (x.refuse target c : Done Settings α).Alike bare answer (y.refuse target c') := by
  unfold refuse
  rw [(bare_eq_bare_iff.1 same).1]
  exact .of_error same

theorem set_alike (same : x.bare = y.bare) (value : Value) :
    (x.set property value c).Alike bare id (y.set property value c') := by
  have writable := Kind.isWritable_eq (bare_eq_bare_iff.1 same).2.1
  unfold set
  obtain ⟨e, first, second⟩ | ⟨content, other, first, second, contents⟩ :=
    error_or_ok_of_map_eq (content_alike property same)
  · rw [first, second]
    exact .of_error same
  · rw [first, second]
    dsimp only
    rw [writable]
    split
    · exact (Owner.write_alike property c c' (owner_alike same) contents value).within
        fun _ _ => setContent_alike property same
    · exact refuse_alike c c' same property

theorem editList_alike (same : x.bare = y.bare) (edit : ListEdit) :
    (x.editList property edit c).Alike bare id (y.editList property edit c') := by
  have writable := Kind.isWritable_eq (bare_eq_bare_iff.1 same).2.1
  unfold editList
  obtain ⟨e, first, second⟩ | ⟨list, other, first, second, lists⟩ :=
    error_or_ok_of_map_eq (list_alike property same)
  · rw [first, second]
    exact .of_error same
  · rw [first, second]
    obtain ⟨l, items⟩ := list
    obtain ⟨l', items'⟩ := other
    obtain ⟨refs, rfl⟩ := Prod.mk.inj lists
    dsimp only
    rw [writable]
    split
    · refine (ListRef.revise_alike refs items edit c c').within ?_
      exact fun _ _ after => setContent_alike property same (congrArg₂ ContentOf.list refs after)
    · exact refuse_alike c c' same property

end Settings

end SettingsForge
