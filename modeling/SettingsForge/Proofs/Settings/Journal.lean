import SettingsForge.Proofs.Settings.CopyInduction
import SettingsForge.Settings.Path

set_option autoImplicit false

/-! # What operations on instances write down

Operations on instances write plain messages only: about reconciled lists, added and deleted entries
and refused writes (`JournalEntry.isEditing`). The boundaries of resolving and resetting, and what
resolving itself writes down, belong to the engine. -/

namespace SettingsForge

/-- Whether an entry is written by an operation on an instance. -/
def JournalEntry.isEditing : JournalEntry → Bool
  | .entryAdded .. | .entryDeleted .. | .listReconciled .. | .writeRefused .. => true
  | _ => false

namespace Context

/-- The second context's journal continues the first one's with entries of operations on instances. -/
def Continues (before after : Context) : Prop :=
  ∃ more : List JournalEntry,
    after.journal = before.journal ++ more ∧ ∀ entry ∈ more, entry.isEditing = true

theorem Continues.refl (c : Context) : c.Continues c := ⟨[], by simp, by simp⟩

theorem Continues.trans {a b c : Context} (first : a.Continues b) (second : b.Continues c) :
    a.Continues c := by
  obtain ⟨more, hm, editing⟩ := first
  obtain ⟨further, hf, editing'⟩ := second
  refine ⟨more ++ further, by rw [hf, hm, List.append_assoc], fun entry mem => ?_⟩
  exact (List.mem_append.1 mem).elim (editing entry) (editing' entry)

/-- Only the journal counts. -/
theorem Continues.of_journal_eq {a b c : Context} (h : a.Continues b)
    (same : c.journal = b.journal) : a.Continues c := by
  obtain ⟨more, hm, editing⟩ := h
  exact ⟨more, same.trans hm, editing⟩

theorem Continues.start {a b c : Context} (h : b.Continues c) (same : b.journal = a.journal) :
    a.Continues c := by
  obtain ⟨more, hm, editing⟩ := h
  exact ⟨more, by rw [hm, same], editing⟩

theorem continues_note (c : Context) {entries : List JournalEntry}
    (h : ∀ entry ∈ entries, entry.isEditing = true) : c.Continues (c.note entries) :=
  ⟨entries, rfl, h⟩

@[simp] theorem journal_announce (c : Context) (notifier : Option NotifierId) (property : String) :
    (c.announce notifier property).journal = c.journal := by
  cases notifier <;> rfl

theorem Continues.announce {a b : Context} (h : a.Continues b) (notifier : Option NotifierId)
    (property : String) : a.Continues (b.announce notifier property) :=
  h.of_journal_eq (journal_announce b notifier property)

@[simp] theorem journal_tell (c : Context) (binding : Option Binding) :
    (c.tell binding).journal = c.journal := by
  cases binding <;> rfl

theorem Continues.tell {a b : Context} (h : a.Continues b) (binding : Option Binding) :
    a.Continues (b.tell binding) := h.of_journal_eq (journal_tell b binding)

end Context

open Context

/-! ## Edits -/

namespace ListRef

theorem editing_of_edit {list : ListRef} {items : List Value} {edit : ListEdit}
    {revision : ListRevision} (h : list.edit items edit = .ok revision) :
    ∀ entry ∈ revision.journal, entry.isEditing = true := by
  unfold ListRef.edit at h
  cases edit with
  | push value => grind
  | insert index value => grind
  | remove index => grind
  | clear => grind
  | reconcile target =>
      simp only at h
      split at h
      · cases h
        unfold ListRef.reconciled
        dsimp only
        split
        · simp [JournalEntry.isEditing]
        · simp
      · cases h

theorem continues_revise (list : ListRef) (items : List Value) (edit : ListEdit) (c : Context) :
    c.Continues (list.revise items edit c).context := by
  unfold revise
  split
  · exact .refl c
  · next revision h =>
    have noted := continues_note c (editing_of_edit h)
    dsimp only
    split
    · exact noted.tell ..
    · exact noted

end ListRef

namespace Owner

theorem continues_store (owner : Owner) (property : String) (current value : Value) (c : Context) :
    c.Continues (owner.store property current value c).context := by
  unfold store
  split
  · exact .refl c
  · split
    · exact .refl c
    · exact (Continues.refl c).announce ..

theorem continues_write (owner : Owner) (property : String) (content : Content) (value : Value)
    (c : Context) : c.Continues (owner.write property content value c).context := by
  unfold write
  split
  · split
    · exact continues_store ..
    · exact .refl c
  · split
    · exact ListRef.continues_revise ..
    · exact .refl c
  · exact .refl c

end Owner

namespace Settings

theorem continues_refuse {α : Type} (x : Settings) (target : String) (c : Context) :
    c.Continues (x.refuse target c : Done Settings α).context :=
  continues_note c (by simp [JournalEntry.isEditing])

theorem continues_set (x : Settings) (property : String) (value : Value) (c : Context) :
    c.Continues (x.set property value c).context := by
  unfold set
  split
  · exact .refl c
  · split
    · exact Owner.continues_write ..
    · exact continues_refuse ..

theorem continues_editList (x : Settings) (property : String) (edit : ListEdit) (c : Context) :
    c.Continues (x.editList property edit c).context := by
  unfold editList
  split
  · exact .refl c
  · split
    · exact ListRef.continues_revise ..
    · exact continues_refuse ..

theorem continues_dictForEdit (x : Settings) (property : String) (c : Context) :
    c.Continues (x.dictForEdit property c).context := by
  unfold dictForEdit
  split
  · exact .refl c
  · split
    · exact .refl c
    · exact continues_refuse ..

theorem continues_editDict {α : Type} (x : Settings) (property : String)
    {edit : DictRef → List Entry → Context → Done (List Entry) α}
    (edits : ∀ dict entries c, Continues c (edit dict entries c).context) (c : Context) :
    c.Continues (x.editDict property edit c).context := by
  have opened := x.continues_dictForEdit property c
  unfold editDict
  generalize x.dictForEdit property c = looked at opened
  obtain ⟨answer, subject, after⟩ := looked
  cases answer with
  | error e => exact opened
  | ok dict => exact opened.trans (edits ..)

theorem continues_addEntry (x : Settings) (property key : String) (c : Context) :
    c.Continues (x.addEntry property key c).context := by
  refine x.continues_editDict property (fun dict entries c => ?_) c
  unfold DictRef.addEntry
  split
  · exact .refl c
  · refine Continues.tell ?_ _
    exact (continues_note _ (by simp [JournalEntry.isEditing])).start rfl

theorem continues_deleteEntry (x : Settings) (property key : String) (c : Context) :
    c.Continues (x.deleteEntry property key c).context := by
  refine x.continues_editDict property (fun dict entries c => ?_) c
  unfold DictRef.deleteEntry
  split
  · exact .refl c
  · refine Continues.tell ?_ _
    exact (continues_note _ (by simp [JournalEntry.isEditing])).start rfl

theorem continues_followForEdit (path : Path) (x : Settings) (c : Context) :
    c.Continues (followForEdit path x c).2 := by
  induction path generalizing x c with
  | nil => exact .refl c
  | cons step path ih =>
      obtain ⟨property, key⟩ := step
      have opened := x.continues_dictForEdit property c
      unfold followForEdit
      generalize x.dictForEdit property c = looked at opened
      obtain ⟨answer, subject, after⟩ := looked
      cases answer with
      | error e => exact opened
      | ok dict =>
          dsimp only
          cases Entries.find? dict.2 key with
          | none => exact opened
          | some entry => exact opened.trans (ih ..)

/-! ## Copies -/

theorem continues_finishMerge {c : Context} {d : Done Merging Unit}
    (h : c.Continues d.context) (binding : Option Binding) :
    c.Continues (d.finishMerge binding).context := by
  unfold Done.finishMerge
  dsimp only
  split
  · exact h.tell ..
  · exact h

/-- Bringing instances or dictionaries to others writes what the edits in it write. -/
theorem continues_merges :
    (∀ (source target : Settings) (c : Context), c.Continues (assign source target c).context) ∧
      ∀ source dict m c, Continues c (assignEntries source dict m c).context := by
  refine assign_induction (P := fun _ _ c d => c.Continues d.context)
    (Q := fun _ _ _ c d => c.Continues d.context)
    (R := fun _ _ _ c d => c.Continues d.context)
    ?mismatch ?refuse ?within ?stop ?nil ?dict ?write ?halt ?done ?into ?unmade ?make
  case mismatch | stop | nil | halt | done =>
    intros
    exact .refl _
  case refuse =>
    intros
    exact continues_refuse ..
  case within =>
    intro _ _ _ _ _ _ _ _ ih _ _ _ _
    exact ih
  case dict =>
    intro _ _ entries _ _ _ dict _ _ c _ dropped d rest hstart ih ih'
    have same : dropped.journal = c.journal := by
      unfold Merging.start at hstart
      cases hstart
      rfl
    exact ((continues_finishMerge ih dict.binding).start same).trans ih'
  case write =>
    intro _ _ _ _ _ _ _ _ _ ih
    exact (Owner.continues_write ..).trans ih
  case into =>
    intro _ _ _ _ _ _ _ _ _ _ _ ih ih'
    exact ih.trans ih'
  case unmade =>
    intro _ _ _ _ _ _ _ _ _ _ _ _ _ ih
    exact ih.start rfl
  case make =>
    intro _ _ _ _ _ _ _ _ _ _ _ _ _ _ _ ih _ ih'
    exact (ih.start rfl).trans (ih'.start rfl)

theorem continues_assign (source target : Settings) (c : Context) :
    c.Continues (assign source target c).context := continues_merges.1 source target c

theorem continues_assignDict (dict : DictRef) (entries : List Entry)
    (source : DictRef × List Entry) (c : Context) :
    c.Continues (assignDict dict entries source c).context := by
  unfold assignDict
  split
  · have same : (Merging.start (Entries.keys source.2) entries c).2.journal = c.journal := rfl
    exact (continues_finishMerge (continues_merges.2 ..) dict.binding).start same
  · exact .refl c

theorem continues_copy (x : Settings) (source : Option Settings) (c : Context) :
    c.Continues (x.copy source c).context := by
  unfold copy
  split
  · split
    · exact .refl c
    · exact continues_assign ..
  · exact continues_refuse ..

theorem continues_copyUntyped (x : Settings) (candidate : Candidate) (c : Context) :
    c.Continues (x.copyUntyped candidate c).context := by
  unfold copyUntyped
  split
  · cases candidate with
    | absent => exact continues_copy ..
    | alien => exact .refl c
    | settings s => exact continues_copy ..
  · exact continues_refuse ..

end Settings

/-- Making an instance writes what its copy writes. -/
theorem Blueprint.continues_create (blueprint : Blueprint) (engine : EngineId) (kind : Kind)
    (source : Option Settings) (c : Context) :
    c.Continues (blueprint.create engine kind source c).2 := by
  unfold Blueprint.create
  dsimp only
  split
  · exact (Continues.refl c).of_journal_eq rfl
  · exact (Settings.continues_assign ..).start rfl

end SettingsForge
