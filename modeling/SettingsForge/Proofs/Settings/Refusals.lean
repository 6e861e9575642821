import SettingsForge.Proofs.Engine.Generation
import SettingsForge.Settings.Path

set_option autoImplicit false

/-! # Instances do not fail with generation errors

Operations of instances refuse what they are asked for (`SettingsError.isRefusal`). None answers with an
error of the generation of schemas: the instance is there, so its schema was generated. This holds
whatever the instance looks like inside. -/

namespace SettingsForge

/-- Whether an error is about what an instance is asked for. -/
def SettingsError.isRefusal : SettingsError → Bool
  | .readOnlyViolation .. | .nullSource .. | .schemaMismatch .. | .unknownProperty ..
  | .typeMismatch .. | .propertyShapeMismatch .. | .notObservable .. | .duplicateKey ..
  | .indexOutOfRange .. => true
  | _ => false

theorem SettingsError.isGeneration_of_isRefusal {e : SettingsError} (h : e.isRefusal = true) :
    e.isGeneration = false := by
  cases e <;> first | rfl | cases h

open SettingsError (isRefusal)

/-! ## Slots -/

namespace ListRef

theorem failsAs_conform (list : ListRef) (value : Value) : FailsAs isRefusal (list.conform value) := by
  unfold conform
  split
  · exact failsAs_ok _
  · exact failsAs_error.2 rfl

theorem failsAs_edit (list : ListRef) (items : List Value) (edit : ListEdit) :
    FailsAs isRefusal (list.edit items edit) := by
  cases edit with
  | push value =>
      rw [ListRef.edit]
      split
      · exact failsAs_ok _
      · next e failed => exact failsAs_error.2 (list.failsAs_conform value e failed)
  | insert index value =>
      rw [ListRef.edit]
      split
      · exact failsAs_error.2 rfl
      · split
        · exact failsAs_ok _
        · next e failed => exact failsAs_error.2 (list.failsAs_conform value e failed)
  | remove index =>
      rw [ListRef.edit]
      split
      · exact failsAs_ok _
      · exact failsAs_error.2 rfl
  | clear => exact failsAs_ok _
  | reconcile target =>
      have all : FailsAs isRefusal (target.mapM list.conform) :=
        failsAs_mapM fun value _ => list.failsAs_conform value
      rw [ListRef.edit]
      split
      · exact failsAs_ok _
      · next e failed => exact failsAs_error.2 (all e failed)

theorem failsAs_revise (list : ListRef) (items : List Value) (edit : ListEdit) (c : Context) :
    FailsAs isRefusal (list.revise items edit c).answer := by
  unfold revise
  split
  · next e failed => exact failsAs_error.2 (list.failsAs_edit items edit e failed)
  · exact failsAs_ok _

end ListRef

namespace Owner

variable (owner : Owner) (property : String) (c : Context)

theorem failsAs_write (content : Content) (value : Value) :
    FailsAs isRefusal (owner.write property content value c).answer := by
  cases content with
  | scalar type current =>
      unfold Owner.write
      dsimp only
      split
      · unfold store Done.within
        dsimp only
        split
        · exact failsAs_ok _
        · split <;> exact failsAs_ok _
      · exact failsAs_error.2 rfl
  | list l items =>
      cases value with
      | list target => exact failsAs_map.2 (l.failsAs_revise items _ c)
      | _ => exact failsAs_error.2 rfl
  | dict d entries => exact failsAs_error.2 rfl

end Owner

namespace DictRef

variable (dict : DictRef) (entries : List Entry) (key : String) (c : Context)

theorem failsAs_addEntry : FailsAs isRefusal (dict.addEntry entries key c).answer := by
  unfold addEntry
  split
  · exact failsAs_error.2 rfl
  · exact failsAs_ok _

theorem failsAs_deleteEntry : FailsAs isRefusal (dict.deleteEntry entries key c).answer := by
  unfold deleteEntry
  split <;> exact failsAs_ok _

end DictRef

/-! ## Instances -/

namespace Settings

variable (x : Settings) (property : String) (c : Context)

theorem failsAs_content : FailsAs isRefusal (x.content property) := by
  unfold content
  split
  · exact failsAs_ok _
  · exact failsAs_error.2 rfl

theorem failsAs_get : FailsAs isRefusal (x.get property) := failsAs_map.2 (x.failsAs_content property)

theorem failsAs_list : FailsAs isRefusal (x.list property) := by
  unfold list
  split
  · next e failed => exact failsAs_error.2 (x.failsAs_content property e failed)
  · exact failsAs_ok _
  · exact failsAs_error.2 rfl

theorem failsAs_dict : FailsAs isRefusal (x.dict property) := by
  unfold dict
  split
  · next e failed => exact failsAs_error.2 (x.failsAs_content property e failed)
  · exact failsAs_ok _
  · exact failsAs_error.2 rfl

theorem failsAs_set (value : Value) : FailsAs isRefusal (x.set property value c).answer := by
  unfold set
  split
  · next e failed => exact failsAs_error.2 (x.failsAs_content property e failed)
  · next content _ =>
    split
    · exact x.owner.failsAs_write property c content value
    · exact failsAs_error.2 rfl

theorem failsAs_editList (edit : ListEdit) : FailsAs isRefusal (x.editList property edit c).answer := by
  unfold editList
  split
  · next e failed => exact failsAs_error.2 (x.failsAs_list property e failed)
  · next l items _ =>
    split
    · exact l.failsAs_revise items edit c
    · exact failsAs_error.2 rfl

theorem failsAs_dictForEdit : FailsAs isRefusal (x.dictForEdit property c).answer := by
  unfold dictForEdit
  split
  · next e failed => exact failsAs_error.2 (x.failsAs_dict property e failed)
  · split
    · exact failsAs_ok _
    · exact failsAs_error.2 rfl

theorem failsAs_editDict {α : Type} {edit : DictRef → List Entry → Context → Done (List Entry) α}
    (h : ∀ dict entries c, FailsAs isRefusal (edit dict entries c).answer) :
    FailsAs isRefusal (x.editDict property edit c).answer := by
  have looked := x.failsAs_dictForEdit property c
  unfold editDict
  split
  · next e _ _ failed =>
    rw [failed] at looked
    exact failsAs_error.2 (failsAs_error.1 looked)
  · exact h _ _ _

theorem failsAs_addEntry (key : String) : FailsAs isRefusal (x.addEntry property key c).answer :=
  x.failsAs_editDict property c fun dict entries c => dict.failsAs_addEntry entries key c

theorem failsAs_deleteEntry (key : String) : FailsAs isRefusal (x.deleteEntry property key c).answer :=
  x.failsAs_editDict property c fun dict entries c => dict.failsAs_deleteEntry entries key c

/-! ## Copies -/

/-- A copy fails with refusals only: a new entry is made from a blueprint. -/
theorem failsAs_assign_failsAs_assignEntries :
    (∀ source target c, FailsAs isRefusal (assign source target c).answer) ∧
      ∀ source dict m c, FailsAs isRefusal (assignEntries source dict m c).answer := by
  suffices all : _ ∧ (∀ name source owner slots c,
      FailsAs isRefusal (assignSlots name source owner slots c).answer) ∧ _ from ⟨all.1, all.2.2⟩
  -- the error is one of the copy itself, of a slot, or of a part that failed
  refine assign.mutual_induct_unfolding (fun _ _ _ d => FailsAs isRefusal d.answer)
    (fun _ _ _ _ _ d => FailsAs isRefusal d.answer) (fun _ _ _ _ d => FailsAs isRefusal d.answer)
    ?within ?mismatch ?nil ?short ?dictFails ?dict ?dictMismatch ?writeFails ?write ?done
    ?intoFails ?into ?unmade ?make
  case within =>
    intro _ _ _ _ _ _ _ _ _ _ _ _ ih
    exact ih
  case mismatch | short | dictMismatch =>
    intros
    exact failsAs_error.2 rfl
  case nil | done =>
    intros
    exact failsAs_ok _
  case dictFails =>
    intro _ _ _ _ _ _ _ _ _ _ _ _ _ _ _ d _ e failed ih
    exact failsAs_error.2 (ih e failed)
  case dict =>
    intro _ _ _ _ _ _ _ _ _ _ _ _ _ _ _ _ _ _ _ _ ih
    exact ih
  case writeFails =>
    intro _ _ content _ owner property current _ c _ d e failed
    exact failsAs_error.2 (owner.failsAs_write property c current _ e failed)
  case write =>
    intro _ _ _ _ _ _ _ _ _ _ _ _ _ ih
    exact ih
  case intoFails =>
    intro key _ source rest _ m c ours _ d _ e failed ih
    unfold d at failed
    split at failed
    · exact failsAs_error.2 (ih e failed)
    · cases failed
      exact failsAs_error.2 rfl
  case into =>
    intro _ _ _ _ _ _ _ _ _ _ _ _ _ _ ih
    exact ih
  case unmade =>
    intro _ _ _ _ _ _ _ _ _ _ _ d e failed ih
    exact failsAs_error.2 (ih e failed)
  case make =>
    intro _ _ _ _ _ _ _ _ _ _ _ _ _ _ _ _ _ _ ih
    exact ih

theorem failsAs_copy (source : Option Settings) : FailsAs isRefusal (x.copy source c).answer := by
  unfold copy
  split
  · split
    · exact failsAs_error.2 rfl
    · exact failsAs_assign_failsAs_assignEntries.1 _ x c
  · exact failsAs_error.2 rfl

theorem failsAs_copyUntyped (candidate : Candidate) :
    FailsAs isRefusal (x.copyUntyped candidate c).answer := by
  unfold copyUntyped
  split
  · split
    · exact x.failsAs_copy c none
    · exact failsAs_error.2 rfl
    · exact x.failsAs_copy c _
  · exact failsAs_error.2 rfl

theorem failsAs_assignDict (ours theirs : DictRef × List Entry) :
    FailsAs isRefusal (assignDict ours.1 ours.2 theirs c).answer := by
  unfold assignDict
  split
  · exact failsAs_assign_failsAs_assignEntries.2 theirs.2 ours.1 _ _
  · exact failsAs_error.2 rfl

/-! ## Paths -/

theorem isRefusal_of_follow {path : Path} {x : Settings} {e : SettingsError}
    (h : follow path x = .error (.failed e)) : e.isRefusal = true := by
  fun_induction follow path x with
  | case1 => cases h
  | case2 property key path x e' failed =>
      cases h
      exact x.failsAs_dict property e failed
  | case3 x property key path _ _ _ _ _ ih => exact ih h
  | case4 => cases h

theorem isRefusal_of_followForEdit {path : Path} {x : Settings} {c : Context}
    {e : SettingsError} (h : (followForEdit path x c).1 = .error (.failed e)) :
    e.isRefusal = true := by
  fun_induction followForEdit path x c with
  | case1 => cases h
  | case2 property key path x c e' _ _ failed =>
      cases h
      exact x.failsAs_dictForEdit property c e (congrArg Done.answer failed)
  | case3 x c property key path _ _ _ _ _ _ _ ih => exact ih h
  | case4 => cases h

end Settings

end SettingsForge
