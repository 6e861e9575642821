import SettingsForge.Proofs.Settings.Conformance
import SettingsForge.Proofs.Settings.Telling

set_option autoImplicit false

/-! # Single edits

An edit of one property, a value that is set, a list that is edited or an entry that is added or
deleted, takes effect or leaves everything as it is (`Settings.Edited`). On an observable instance an
edit that takes effect is announced once, as a change of its property, and the property reads unequal
after it. `PropertyEdit.Changes` says which edits take effect. -/

namespace SettingsForge

/-! ## Effects -/

/-- An edit of one property. -/
inductive PropertyEdit where
  | set (value : Value)
  | list (edit : ListEdit)
  | add (key : String)
  | delete (key : String)

/-- A target whose items are of the type, and whose list is not the one that there is. -/
def ValueType.Differs (item : ValueType) (items target : List Value) : Prop :=
  ∃ conforming, target.mapM (fun v => item.coerce v) = some conforming ∧
    Value.equalItems items conforming = false

/-- Whether an edit of a property that may be edited changes what it holds. -/
def PropertyEdit.Changes : PropertyEdit → Content → Prop
  | .set value, .scalar type current =>
    ∃ v, type.coerce value = some v ∧ current.equals v = false
  | .set (.list target), .list l items => l.item.Differs items target
  | .list (.push value), .list l _ => (l.item.coerce value).isSome = true
  | .list (.insert index value), .list l items =>
    index ≤ items.length ∧ (l.item.coerce value).isSome = true
  | .list (.remove index), .list _ items => index < items.length
  | .list .clear, .list _ items => items ≠ []
  | .list (.reconcile target), .list l items => l.item.Differs items target
  | .add key, .dict _ entries => key ∉ Entries.keys entries
  | .delete key, .dict _ entries => key ∈ Entries.keys entries
  | _, _ => False

namespace Settings

/-- An instance before and after an edit of a property that has an effect or none. -/
inductive Edited (effect : Prop) (property : String) (x : Settings) (hub : Hub) :
    Settings → Hub → Prop
  | idle : ¬ effect → Edited effect property x hub x hub
  /-- Nobody could hear of it. -/
  | silent {y : Settings} {after : Hub} :
      x.notifier = none → Evolves x hub [] y after → Edited effect property x hub y after
  | told {y : Settings} {between : Hub} :
      effect → x.notifier.isSome = true → property ∈ y.names → Evolves x hub [] y between →
      Tells [⟨[], property⟩] x y → Edited effect property x hub y (between.announce y.notifier property)

/-- Every edit is an evolution, and what it announces tells what it changed. -/
theorem Edited.operated {effect : Prop} {property : String} {x y : Settings} {hub after : Hub}
    (h : Edited effect property x hub y after) : x.Operated hub y after := by
  cases h with
  | idle => exact .refl x hub
  | silent none evolves =>
      refine ⟨[], evolves, fun _ _ observable => ?_⟩
      rw [none] at observable
      cases observable
  | told _ _ there evolves tells =>
      exact ⟨_, evolves.trans (.announce y _ there), fun _ _ _ => tells⟩

end Settings

/-! ## Slots -/

namespace Frame

variable {f : Frame}

/-- An edit whose evolution ends with an announcement, if anyone can hear it. -/
theorem edited_of_announce {effect : Prop} {content other : Content} {hub between : Hub}
    (nodup : (f.fill content).names.Nodup)
    (evolves : Settings.Evolves (f.fill content) hub [] (f.fill other) between)
    (takes_effect : f.notifier.isSome = true → effect ∧ content.value.equals other.value = false) :
    Settings.Edited effect f.property (f.fill content) hub (f.fill other)
      (between.announce f.notifier f.property) := by
  cases hn : f.notifier with
  | none => exact .silent hn evolves
  | some n =>
      obtain ⟨effect, unequal⟩ := takes_effect (by rw [hn]; rfl)
      have tells : Settings.Tells [⟨[], f.property⟩] (f.fill content) (f.fill other) :=
        Settings.tells_fill nodup (by simp [Notice.topic]) (fun _ => unequal) (by simp)
      have told := Settings.Edited.told effect (by rw [notifier_fill, hn]; rfl)
        (f.property_mem_names other) evolves tells
      rwa [notifier_fill, hn] at told

end Frame

theorem ListRef.conform_eq_ok {list : ListRef} {value v : Value} :
    list.conform value = .ok v ↔ list.item.coerce value = some v := by
  unfold conform
  split <;> simp_all

theorem ListRef.mapM_conform {list : ListRef} {target conforming : List Value} :
    target.mapM list.conform = .ok conforming ↔
      target.mapM (fun v => list.item.coerce v) = some conforming := by
  rw [forall₂_mapM_except, forall₂_mapM_option]
  simp only [conform_eq_ok]

theorem unequal_of_length {current items : List Value} (h : current.length ≠ items.length) :
    Value.equalItems current items = false :=
  Bool.eq_false_iff.2 fun equal => h (Value.length_eq_of_equalItems equal)

/-- What an edit may make of a list: items of the list or of its type. A change makes the list unequal,
    and what is no change leaves the list. -/
structure ListRevision.Revises (revision : ListRevision) (list : ListRef) (items : List Value)
    (edit : ListEdit) : Prop where
  made : ∀ v ∈ revision.items, v ∈ items ∨ list.item.Makes v
  told : revision.changed = true → (PropertyEdit.list edit).Changes (.list list items) ∧
    Value.equalItems items revision.items = false
  idle : revision.changed = false → ¬ (PropertyEdit.list edit).Changes (.list list items) ∧
    revision.items = items

/-- Edits of single items are changes, since they change the length. -/
theorem ListRevision.Revises.of_length {list : ListRef} {items after : List Value} {edit : ListEdit}
    {answer : ListAnswer} (made : ∀ v ∈ after, v ∈ items ∨ list.item.Makes v)
    (changes : (PropertyEdit.list edit).Changes (.list list items))
    (differ : items.length ≠ after.length) : Revises ⟨after, answer, true, []⟩ list items edit :=
  ⟨made, fun _ => ⟨changes, unequal_of_length differ⟩, fun no => by cases no⟩

theorem ListRef.revises_reconciled (list : ListRef) {items target conforming : List Value}
    (mapped : target.mapM (fun v => list.item.coerce v) = some conforming) :
    (list.reconciled items conforming).Revises list items (.reconcile target) := by
  refine ⟨fun v mem => ?_, fun changed => ⟨?_, ?_⟩, fun unchanged => ⟨?_, ?_⟩⟩
  · obtain ⟨t, ht, same | ⟨there, -⟩⟩ :=
      exists_right_of_forall₂ (forall₂_reconcile Value.equals items conforming) mem
    · obtain ⟨u, -, hu⟩ := exists_left_of_forall₂ (forall₂_mapM_option.1 mapped) ht
      exact Or.inr ⟨u, same ▸ hu⟩
    · exact Or.inl there
  · exact ⟨conforming, mapped, changed_reconcile_iff.1 changed⟩
  · exact equalItems_reconcile_of_changed changed
  · rintro ⟨other, mapped', differs⟩
    rw [mapped] at mapped'
    cases mapped'
    have changed : (list.reconciled items conforming).changed = true :=
      changed_reconcile_iff.2 differs
    rw [changed] at unchanged
    cases unchanged
  · exact items_reconcile_of_unchanged unchanged

theorem ListRef.revises_of_edit {list : ListRef} {items : List Value} {edit : ListEdit}
    {revision : ListRevision} (h : list.edit items edit = .ok revision) :
    revision.Revises list items edit := by
  cases edit with
  | push value =>
      rw [edit] at h
      split at h
      · next v conforms =>
        cases h
        rw [conform_eq_ok] at conforms
        refine .of_length (fun w mem => ?_) ?_ (by simp)
        · rcases List.mem_append.1 mem with mem | mem
          · exact Or.inl mem
          · rw [List.mem_singleton.1 mem]
            exact Or.inr ⟨value, conforms⟩
        · rw [PropertyEdit.Changes, conforms]
          rfl
      · cases h
  | insert index value =>
      rw [edit] at h
      split at h
      · cases h
      · next within =>
        have within : index ≤ items.length := Nat.not_lt.1 within
        split at h
        · next v conforms =>
          cases h
          rw [conform_eq_ok] at conforms
          refine .of_length (fun w mem => ?_) ⟨within, ?_⟩ ?_
          · rcases (List.mem_insertIdx within).1 mem with rfl | mem
            · exact Or.inr ⟨value, conforms⟩
            · exact Or.inl mem
          · rw [conforms]
            rfl
          · rw [List.length_insertIdx_of_le_length within]
            exact (Nat.succ_ne_self _).symm
        · cases h
  | remove index =>
      rw [edit] at h
      split at h
      · next v found =>
        cases h
        have within : index < items.length := (List.getElem?_eq_some_iff.1 found).1
        refine .of_length (fun w mem => Or.inl (List.mem_of_mem_eraseIdx mem)) within ?_
        rw [List.length_eraseIdx_of_lt within]
        exact Nat.ne_of_gt (Nat.sub_one_lt_of_lt within)
      · cases h
  | clear =>
      rw [edit] at h
      cases h
      -- clearing a list without items is no change
      refine ⟨by simp, fun changed => ?_, fun unchanged => ?_⟩
      · cases items with
        | nil => cases changed
        | cons v items => exact ⟨by simp [PropertyEdit.Changes], rfl⟩
      · cases items with
        | nil => exact ⟨by simp [PropertyEdit.Changes], rfl⟩
        | cons v items => cases unchanged
  | reconcile target =>
      rw [edit] at h
      split at h
      · next conforming all =>
        cases h
        exact list.revises_reconciled (ListRef.mapM_conform.1 all)
      · cases h

theorem ListRef.conform_eq_error {list : ListRef} {value : Value} {e : SettingsError} :
    list.conform value = .error e ↔ list.item.coerce value = none ∧
      e = .typeMismatch list.schema list.property list.item.name value.describe := by
  unfold conform
  cases list.item.coerce value <;> simp [eq_comm]

/-- A list edit without a revision changes nothing. -/
theorem ListRef.not_changes_of_error {list : ListRef} {items : List Value} {edit : ListEdit}
    {e : SettingsError} (h : list.edit items edit = .error e) :
    ¬ (PropertyEdit.list edit).Changes (.list list items) := by
  cases edit with
  | push value =>
      rw [edit] at h
      split at h
      · cases h
      · next fails =>
        rw [PropertyEdit.Changes, (conform_eq_error.1 fails).1]
        exact Bool.false_ne_true
  | insert index value =>
      rw [edit] at h
      rintro ⟨within, accepted⟩
      split at h
      · next beyond => exact Nat.not_lt.2 within beyond
      · split at h
        · cases h
        · next fails =>
          rw [(conform_eq_error.1 fails).1] at accepted
          cases accepted
  | remove index =>
      rw [edit] at h
      intro within
      split at h
      · cases h
      · next missing => exact Nat.not_lt.2 (List.getElem?_eq_none_iff.1 missing) within
  | clear =>
      rw [edit] at h
      cases h
  | reconcile target =>
      rw [edit] at h
      rintro ⟨conforming, mapped, -⟩
      split at h
      · cases h
      · next fails =>
        rw [ListRef.mapM_conform.2 mapped] at fails
        cases fails

namespace Owner

variable {f : Frame}

/-- Editing the list in a frame. -/
theorem revise_spec (edit : ListEdit) {list : ListRef} {items : List Value}
    (bound : list.BoundTo f.owner f.property) (nodup : (f.fill (.list list items)).names.Nodup)
    (c : Context) :
    Settings.Edited ((PropertyEdit.list edit).Changes (.list list items)) f.property
      (f.fill (.list list items)) c.hub (f.fill (.list list (list.revise items edit c).subject))
      (list.revise items edit c).context.hub := by
  unfold ListRef.revise
  split
  · next e fails => exact .idle (ListRef.not_changes_of_error fails)
  · next revision succeeds =>
    have revises := ListRef.revises_of_edit succeeds
    dsimp only
    cases hc : revision.changed with
    | true =>
        rw [if_pos rfl, bound.binding, Context.tell_binding, Context.hub_announce]
        exact Frame.edited_of_announce nodup (.rewrite f c.hub (.list revises.made)) fun _ =>
          revises.told hc
    | false =>
        obtain ⟨idle, same⟩ := revises.idle hc
        rw [if_neg Bool.false_ne_true, same]
        exact .idle idle

/-- A value is stored, or one that is equal to it is kept. -/
theorem unsigned_store (owner : Owner) (property : String) (current value : Value) (c : Context) :
    (owner.store property current value c).answer = .ok () ∧
      (owner.store property current value c).subject.unsigned = value.unsigned := by
  unfold store
  cases owner.notifier with
  | none => exact ⟨rfl, rfl⟩
  | some n =>
      dsimp only
      split
      · next equal => exact ⟨rfl, Value.unsigned_eq_of_equals equal⟩
      · exact ⟨rfl, rfl⟩

/-- Writing into the slot of a frame. -/
theorem write_spec {content : Content} (value : Value)
    (bound : content.BoundTo f.owner f.property) (nodup : (f.fill content).names.Nodup) (c : Context) :
    Settings.Edited ((PropertyEdit.set value).Changes content) f.property
      (f.fill content) c.hub (f.fill (f.owner.write f.property content value c).subject)
      (f.owner.write f.property content value c).context.hub := by
  cases content with
  | scalar type current =>
      rw [write]
      split
      · next v coerced =>
        have rewritten : ContentOf.Rewritten (.scalar type current) (.scalar type v) :=
          .scalar ⟨value, coerced⟩
        unfold store
        split
        · next hn =>
          -- nobody can hear of it, so an equal value is stored all the same
          exact .silent hn (.rewrite f c.hub rewritten)
        · next n hn =>
          split
          · next equal =>
            refine .idle fun ⟨w, coerced', unequal⟩ => ?_
            rw [coerced] at coerced'
            cases coerced'
            rw [equal] at unequal
            cases unequal
          · next unequal =>
            have unequal : current.equals v = false := Bool.eq_false_iff.2 unequal
            have hn : f.notifier = some n := hn
            have told : Settings.Edited ((PropertyEdit.set value).Changes (.scalar type current))
                f.property (f.fill (.scalar type current)) c.hub (f.fill (.scalar type v))
                (c.hub.announce f.notifier f.property) :=
              Frame.edited_of_announce nodup (.rewrite f c.hub rewritten)
                fun _ => ⟨⟨v, coerced, unequal⟩, unequal⟩
            rw [hn] at told
            exact told
      · next refused =>
        refine .idle fun ⟨v, coerced, _⟩ => ?_
        rw [refused] at coerced
        cases coerced
  | list list items =>
      cases value with
      | list target => exact revise_spec (.reconcile target) bound nodup c
      | _ => exact .idle (by simp [PropertyEdit.Changes])
  | dict dict entries => exact .idle (by simp [PropertyEdit.Changes])

/-- Adding an entry to the dictionary in a frame. -/
theorem addEntry_spec {dict : DictRef} {entries : List Entry} (key : String)
    (bound : dict.BoundTo f.owner f.property) (sorted : Entries.Sorted entries)
    (nodup : (f.fill (.dict dict entries)).names.Nodup) (c : Context) :
    Settings.Edited ((PropertyEdit.add key).Changes (.dict dict entries)) f.property
      (f.fill (.dict dict entries)) c.hub
      (f.fill (.dict dict (dict.addEntry entries key c).subject))
      (dict.addEntry entries key c).context.hub := by
  unfold DictRef.addEntry
  split
  · next e found =>
    refine .idle fun absent => absent ?_
    obtain ⟨same, before, after, rfl⟩ := Entries.exists_of_find? found
    simp [Entries.keys, same]
  · next missing =>
    rw [Entries.find?_eq_none] at missing
    cases hmake : dict.make c.hub with
    | mk made hub₂ =>
      cases hforward : hub₂.forward made.notifier dict.binding with
      | mk heard hub₃ =>
        -- the three steps in which an entry is made, in one
        have entry : dict.makeEntry key c.hub = (⟨key, heard, made⟩, hub₃) := by
          unfold DictRef.makeEntry
          rw [hmake]
          dsimp only
          rw [hforward]
        rw [entry]
        rw [bound.make_eq] at hmake
        rw [bound.binding] at hforward
        dsimp only
        obtain ⟨before, after, rfl, inserted⟩ :=
          Entries.exists_insert_new ⟨key, heard, made⟩ missing
        have sorted' := Entries.sorted_insert sorted ⟨key, heard, made⟩
        rw [inserted] at sorted' ⊢
        rw [bound.binding, Context.tell_binding, Context.hub_announce]
        refine Frame.edited_of_announce nodup (.add f hmake (.refl ..) hforward sorted') fun _ => ?_
        refine ⟨missing, Entries.unequal_of_keys_ne fun same => ?_⟩
        have lengths := congrArg List.length same
        simp [Entries.keys] at lengths

/-- Deleting an entry from the dictionary in a frame. -/
theorem deleteEntry_spec {dict : DictRef} {entries : List Entry} (key : String)
    (bound : dict.BoundTo f.owner f.property) (sorted : Entries.Sorted entries)
    (nodup : (f.fill (.dict dict entries)).names.Nodup) (c : Context) :
    Settings.Edited ((PropertyEdit.delete key).Changes (.dict dict entries)) f.property
      (f.fill (.dict dict entries)) c.hub
      (f.fill (.dict dict (dict.deleteEntry entries key c).subject))
      (dict.deleteEntry entries key c).context.hub := by
  unfold DictRef.deleteEntry
  split
  · next missing => exact .idle (Entries.find?_eq_none.1 missing)
  · next e found =>
    obtain ⟨rfl, before, after, rfl⟩ := Entries.exists_of_find? found
    dsimp only
    rw [Entries.erase_middle sorted, bound.binding, Context.tell_binding, Context.hub_announce]
    refine Frame.edited_of_announce nodup (.drop f dict before e after c.hub) fun _ => ?_
    refine ⟨by simp [PropertyEdit.Changes, Entries.keys], Entries.unequal_of_keys_ne fun same => ?_⟩
    have lengths := congrArg List.length same
    simp [Entries.keys] at lengths

end Owner

/-! ## Instances -/

/-- The instance may be edited, has the property, and what the property holds changes. -/
def PropertyEdit.TakesEffect (edit : PropertyEdit) (x : Settings) (property : String) : Prop :=
  x.kind.isWritable = true ∧ ∃ content, x.content property = .ok content ∧ edit.Changes content

namespace Settings

variable {x : Settings} {property : String}

theorem Edited.congr {effect other : Prop} (h : effect ↔ other) {y : Settings} {hub after : Hub}
    (edited : Edited effect property x hub y after) : Edited other property x hub y after := by
  rwa [← propext h]

/-- The property is not there. -/
theorem not_takesEffect_of_error {edit : PropertyEdit} {e : SettingsError}
    (h : x.content property = .error e) : ¬ edit.TakesEffect x property := by
  rintro ⟨-, content, found, -⟩
  rw [h] at found
  cases found

/-- What the property holds is all that counts in an instance that may be edited. -/
theorem takesEffect_iff {edit : PropertyEdit} (writable : x.kind.isWritable = true)
    {content : Content} (h : x.content property = .ok content) :
    edit.Changes content ↔ edit.TakesEffect x property := by
  refine ⟨fun changes => ⟨writable, content, h, changes⟩, ?_⟩
  rintro ⟨-, content', found, changes⟩
  rw [h] at found
  cases found
  exact changes

/-- The dictionary under a property name. -/
theorem content_of_dict {dict : DictRef × List Entry} (h : x.dict property = .ok dict) :
    x.content property = .ok (.dict dict.1 dict.2) := by
  unfold Settings.dict at h
  split at h
  · cases h
  · next found =>
    cases h
    exact found
  · cases h

/-- In an instance that may be written, a dictionary is open to edits. -/
theorem dictForEdit_eq {dict : DictRef × List Entry} (found : x.dict property = .ok dict)
    (writable : x.kind.isWritable = true) (c : Context) : x.dictForEdit property c = ⟨.ok dict, x, c⟩ := by
  unfold dictForEdit
  rw [found]
  exact if_pos writable

theorem editDict_eq {α : Type} {dict : DictRef} {entries : List Entry}
    (found : x.dict property = .ok (dict, entries)) (writable : x.kind.isWritable = true)
    (edit : DictRef → List Entry → Context → Done (List Entry) α) (c : Context) :
    x.editDict property edit c = (edit dict entries c).within
      fun entries => x.setContent property (.dict dict entries) := by
  unfold editDict
  rw [dictForEdit_eq found writable]

/-- In an instance that may be written, the dictionary makes the new entry. -/
theorem addEntry_eq {dict : DictRef} {entries : List Entry}
    (found : x.dict property = .ok (dict, entries)) (writable : x.kind.isWritable = true)
    (key : String) (c : Context) :
    x.addEntry property key c = (dict.addEntry entries key c).within
      fun entries => x.setContent property (.dict dict entries) := editDict_eq found writable _ c

theorem content_of_list {list : ListRef × List Value} (h : x.list property = .ok list) :
    x.content property = .ok (.list list.1 list.2) := by
  unfold Settings.list at h
  split at h
  · cases h
  · next found =>
    cases h
    exact found
  · cases h

/-- Without a list there, no edit of a list takes effect. -/
theorem not_takesEffect_of_list {edit : ListEdit} {e : SettingsError}
    (h : x.list property = .error e) : ¬ (PropertyEdit.list edit).TakesEffect x property := by
  rintro ⟨-, content, found, changes⟩
  unfold Settings.list at h
  rw [found] at h
  cases content with
  | list list items => cases h
  | _ => simp [PropertyEdit.Changes] at changes

/-- The content in a frame belongs to the instance there. -/
theorem boundTo_of_fill (bound : ∀ slot ∈ x.slots, slot.content.BoundTo x.owner slot.name) {f : Frame}
    {content : Content} (same : x = f.fill content) : content.BoundTo f.owner f.property := by
  subst same
  exact bound _ ((f.mem_slots_fill content).2 (Or.inl rfl))

section

variable (nodup : x.names.Nodup) (bound : ∀ slot ∈ x.slots, slot.content.BoundTo x.owner slot.name)

include nodup bound

theorem set_edited (value : Value) (c : Context) :
    Edited ((PropertyEdit.set value).TakesEffect x property) property x c.hub
      (x.set property value c).subject (x.set property value c).context.hub := by
  unfold set
  split
  · next e missing => exact .idle (not_takesEffect_of_error missing)
  · next content found =>
    split
    · next writable =>
      obtain ⟨f, rfl, rfl, setContent⟩ := exists_frame nodup found
      dsimp only [Done.within]
      rw [setContent]
      exact (Owner.write_spec value (boundTo_of_fill bound rfl) nodup c).congr
        (takesEffect_iff writable found)
    · next fixed => exact .idle fun effect => fixed effect.1

theorem editList_edited (edit : ListEdit) (c : Context) :
    Edited ((PropertyEdit.list edit).TakesEffect x property) property x c.hub
      (x.editList property edit c).subject (x.editList property edit c).context.hub := by
  unfold editList
  split
  · next e missing => exact .idle (not_takesEffect_of_list missing)
  · next l items list =>
    have found := content_of_list list
    split
    · next writable =>
      obtain ⟨f, rfl, rfl, setContent⟩ := exists_frame nodup found
      dsimp only [Done.within]
      rw [setContent]
      exact (Owner.revise_spec edit (boundTo_of_fill bound rfl) nodup c).congr
        (takesEffect_iff writable found)
    · next fixed => exact .idle fun effect => fixed effect.1

/-- An edit of a dictionary that does in the frame what it should. -/
theorem editDict_edited {α : Type} {edit : PropertyEdit}
    {f : DictRef → List Entry → Context → Done (List Entry) α}
    (only_dict : ∀ content, edit.Changes content → ∃ dict entries, content = .dict dict entries)
    (spec : ∀ (g : Frame) (dict : DictRef) (entries : List Entry) (c : Context),
      x = g.fill (.dict dict entries) → g.property = property → dict.BoundTo g.owner g.property →
      Edited (edit.Changes (.dict dict entries)) property x c.hub
        (g.fill (.dict dict (f dict entries c).subject)) (f dict entries c).context.hub)
    (c : Context) :
    Edited (edit.TakesEffect x property) property x c.hub
      (x.editDict property f c).subject (x.editDict property f c).context.hub := by
  unfold editDict dictForEdit
  cases found : x.dict property with
  | error e =>
      refine .idle ?_
      rintro ⟨-, content, there, changes⟩
      obtain ⟨dict, entries, rfl⟩ := only_dict content changes
      unfold Settings.dict at found
      rw [there] at found
      cases found
  | ok dict =>
      obtain ⟨dict, entries⟩ := dict
      have content := content_of_dict found
      dsimp only
      by_cases writable : x.kind.isWritable = true
      · rw [if_pos writable]
        obtain ⟨g, same, fill, setContent⟩ := exists_frame nodup content
        dsimp only [Done.within]
        rw [setContent]
        exact (spec g dict entries c fill same (boundTo_of_fill bound fill)).congr
          (takesEffect_iff writable content)
      · rw [if_neg writable]
        exact .idle fun effect => writable effect.1

theorem addEntry_edited (sorted : ∀ slot ∈ x.slots, Entries.Sorted slot.content.entries)
    (key : String) (c : Context) :
    Edited ((PropertyEdit.add key).TakesEffect x property) property x c.hub
      (x.addEntry property key c).subject (x.addEntry property key c).context.hub := by
  unfold addEntry
  refine editDict_edited nodup bound (fun content changes => ?_)
    (fun g dict entries c fill same own => ?_) c
  · cases content with
    | dict dict entries => exact ⟨dict, entries, rfl⟩
    | _ => simp [PropertyEdit.Changes] at changes
  · subst fill same
    exact Owner.addEntry_spec key own (sorted _ ((g.mem_slots_fill _).2 (Or.inl rfl))) nodup c

theorem deleteEntry_edited (sorted : ∀ slot ∈ x.slots, Entries.Sorted slot.content.entries)
    (key : String) (c : Context) :
    Edited ((PropertyEdit.delete key).TakesEffect x property) property x c.hub
      (x.deleteEntry property key c).subject (x.deleteEntry property key c).context.hub := by
  unfold deleteEntry
  refine editDict_edited nodup bound (fun content changes => ?_)
    (fun g dict entries c fill same own => ?_) c
  · cases content with
    | dict dict entries => exact ⟨dict, entries, rfl⟩
    | _ => simp [PropertyEdit.Changes] at changes
  · subst fill same
    exact Owner.deleteEntry_spec key own (sorted _ ((g.mem_slots_fill _).2 (Or.inl rfl))) nodup c

end

end Settings

end SettingsForge
