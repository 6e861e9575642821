import SettingsForge.Proofs.Settings.Places
import SettingsForge.Proofs.Settings.Reading

set_option autoImplicit false

/-! # What an edit checks

An edit checks one thing after another before it changes anything: that the property is there, that it is
of the shape that the edit needs, that the instance may be written, and last what it was given. With the
first check that fails it is refused, and leaves the instance and the hub (`Done.Checked`). An edit at the
end of a path makes the checks of the dictionaries on the path first (`Settings.checksAt`). -/

namespace SettingsForge

open Settings

/-! ## Checks -/

/-- A condition under which an edit is refused, and the error that it is refused with. -/
structure Check where
  fails : Prop
  error : SettingsError

/-- All checks are passed. -/
def Pass (checks : List Check) : Prop := ∀ check ∈ checks, ¬ check.fails

/-- The error of the first check that fails. -/
inductive FirstFailure : List Check → SettingsError → Prop
  | here (check : Check) {rest : List Check} :
      check.fails → FirstFailure (check :: rest) check.error
  | later {check : Check} {rest : List Check} {e : SettingsError} :
      ¬ check.fails → FirstFailure rest e → FirstFailure (check :: rest) e

section

variable {check : Check} {checks rest : List Check} {e : SettingsError}

theorem pass_nil : Pass [] := fun _ mem => by cases mem

theorem pass_cons : Pass (check :: rest) ↔ ¬ check.fails ∧ Pass rest := List.forall_mem_cons

theorem pass_append : Pass (checks ++ rest) ↔ Pass checks ∧ Pass rest := List.forall_mem_append

theorem FirstFailure.not_pass (h : FirstFailure checks e) : ¬ Pass checks := by
  induction h with
  | here _ fails => exact fun pass => (pass_cons.1 pass).1 fails
  | later _ _ ih => exact fun pass => ih (pass_cons.1 pass).2

theorem FirstFailure.unique {other : SettingsError} (h : FirstFailure checks e)
    (h' : FirstFailure checks other) : e = other := by
  induction h with
  | here _ fails =>
      cases h' with
      | here => rfl
      | later passed => exact absurd fails passed
  | later passed _ ih =>
      cases h' with
      | here _ fails => exact absurd fails passed
      | later _ h' => exact ih h'

/-- Later checks do not matter. -/
theorem FirstFailure.append (h : FirstFailure checks e) (rest : List Check) :
    FirstFailure (checks ++ rest) e := by
  induction h with
  | here check fails => exact .here check fails
  | later passed _ ih => exact .later passed ih

/-- Checks that are passed do not matter. -/
theorem Pass.firstFailure (passed : Pass checks) (h : FirstFailure rest e) :
    FirstFailure (checks ++ rest) e := by
  induction checks with
  | nil => exact h
  | cons check checks ih =>
      obtain ⟨own, passed⟩ := pass_cons.1 passed
      exact .later own (ih passed)

end

/-! ## Operations that check -/

/-- An answer is that of checks: the error of the first that fails, if one does. -/
inductive Checked {α : Type} (checks : List Check) : Except SettingsError α → Prop
  | fails {e : SettingsError} : FirstFailure checks e → Checked checks (.error e)
  | passes {a : α} : Pass checks → Checked checks (.ok a)

/-- An operation that makes checks leaves its subject and the hub when one of them fails. -/
inductive Done.Checked {σ α : Type} (checks : List Check) (x : σ) (c : Context) : Done σ α → Prop
  | fails {e : SettingsError} {after : Context} :
      FirstFailure checks e → after.hub = c.hub → Checked checks x c ⟨.error e, x, after⟩
  | passes {a : α} {y : σ} {after : Context} : Pass checks → Checked checks x c ⟨.ok a, y, after⟩

namespace Done.Checked

variable {σ τ α β : Type} {checks rest : List Check} {x : σ} {c : Context} {d : Done σ α}

theorem map (h : d.Checked checks x c) (f : α → β) :
    Done.Checked checks x c ⟨d.answer.map f, d.subject, d.context⟩ := by
  cases h with
  | fails first same => exact .fails first same
  | passes passed => exact .passes passed

/-- A part is put back where it was. -/
theorem within (h : d.Checked checks x c) (wrap : σ → τ) {y : τ} (same : wrap x = y) :
    (d.within wrap).Checked checks y c := by
  cases h with
  | fails first hub => exact same ▸ .fails first hub
  | passes passed => exact .passes passed

theorem after (passed : Pass checks) (h : d.Checked rest x c) : d.Checked (checks ++ rest) x c := by
  cases h with
  | fails first hub => exact .fails (passed.firstFailure first) hub
  | passes passed' => exact .passes (pass_append.2 ⟨passed, passed'⟩)

end Done.Checked

/-! ## Lists -/

namespace ListRef

/-- An item has to be of the list's item type. -/
def check (list : ListRef) (value : Value) : Check :=
  ⟨list.item.coerce value = none,
    .typeMismatch list.schema list.property list.item.name value.describe⟩

/-- What an edit of a list checks: an index before a value, and items in order. -/
def checks (list : ListRef) (items : List Value) : ListEdit → List Check
  | .push value => [list.check value]
  | .insert index value => [⟨items.length < index, list.outOfRange index items⟩, list.check value]
  | .remove index => [⟨items.length ≤ index, list.outOfRange index items⟩]
  | .clear => []
  | .reconcile target => target.map list.check

theorem checked_conform (list : ListRef) (value : Value) :
    Checked [list.check value] (list.conform value) := by
  cases conforming : list.conform value with
  | error e =>
      obtain ⟨refused, rfl⟩ := conform_eq_error.1 conforming
      exact .fails (.here (list.check value) refused)
  | ok v =>
      have coerced := conform_eq_ok.1 conforming
      refine .passes (pass_cons.2 ⟨fun refused => ?_, pass_nil⟩)
      cases (show list.item.coerce value = none from refused).symm.trans coerced

theorem checked_mapM (list : ListRef) (target : List Value) :
    Checked (target.map list.check) (target.mapM list.conform) := by
  induction target with
  | nil => exact .passes pass_nil
  | cons value target ih =>
      have first := list.checked_conform value
      rw [List.map_cons, List.mapM_cons]
      generalize list.conform value = conforming at first
      generalize target.mapM list.conform = others at ih
      cases first with
      | fails failed => exact .fails (failed.append (target.map list.check))
      | passes passed =>
          cases ih with
          | fails failed => exact .fails (passed.firstFailure failed)
          | passes passed' => exact .passes (pass_append.2 ⟨passed, passed'⟩)

theorem checked_edit (list : ListRef) (items : List Value) (edit : ListEdit) :
    Checked (list.checks items edit) (list.edit items edit) := by
  cases edit with
  | push value =>
      have conforming := list.checked_conform value
      rw [ListRef.edit]
      generalize list.conform value = v at conforming
      cases conforming with
      | fails failed => exact .fails failed
      | passes passed => exact .passes passed
  | insert index value =>
      have conforming := list.checked_conform value
      rw [ListRef.edit]
      split
      · next beyond => exact .fails (.here ⟨_, list.outOfRange index items⟩ beyond)
      · next within =>
        generalize list.conform value = v at conforming
        cases conforming with
        | fails failed => exact .fails (.later within failed)
        | passes passed => exact .passes (pass_cons.2 ⟨within, passed⟩)
  | remove index =>
      rw [ListRef.edit]
      split
      · next v found =>
        have within := (List.getElem?_eq_some_iff.1 found).1
        exact .passes (pass_cons.2 ⟨Nat.not_le.2 within, pass_nil⟩)
      · next missing =>
        exact .fails (.here ⟨_, list.outOfRange index items⟩
          (List.getElem?_eq_none_iff.1 missing))
  | clear => exact .passes pass_nil
  | reconcile target =>
      have conforming := list.checked_mapM target
      rw [ListRef.edit]
      generalize target.mapM list.conform = v at conforming
      cases conforming with
      | fails failed => exact .fails failed
      | passes passed => exact .passes passed

end ListRef

/-! ## Slots -/

/-- The shape that the edited property has to be of. A value may be set that is a list. -/
def PropertyEdit.wanted : PropertyEdit → Option String
  | .set _ => none
  | .list _ => some "collection"
  | .add _ | .delete _ => some "dictionary"

/-- What an edit checks of what it was given, by what the property holds. -/
def PropertyEdit.checks (schema property : String) : PropertyEdit → Content → List Check
  | .set value, .scalar type _ =>
    [⟨type.coerce value = none, .typeMismatch schema property type.name value.describe⟩]
  | .set (.list target), .list l items =>
    ListRef.checks { l with schema, property } items (.reconcile target)
  | .set value, .list l _ =>
    [⟨True, .typeMismatch schema property (ValueType.list l.item).name value.describe⟩]
  | .set _, .dict .. => [⟨True, .propertyShapeMismatch schema property "value" "dictionary"⟩]
  | .list edit, .list l items => ListRef.checks { l with schema, property } items edit
  | .add key, .dict _ entries => [⟨key ∈ Entries.keys entries, .duplicateKey property key⟩]
  | _, _ => []

theorem ListRef.checked_revise (list : ListRef) (items : List Value) (edit : ListEdit) (c : Context) :
    (list.revise items edit c).Checked (list.checks items edit) items c := by
  have edited := list.checked_edit items edit
  unfold revise
  generalize list.edit items edit = revised at edited
  cases edited with
  | fails failed => exact .fails failed rfl
  | passes passed => exact .passes passed

theorem ListRef.BoundTo.checked_revise {list : ListRef} {owner : Owner} {property : String}
    (bound : list.BoundTo owner property) (items : List Value) (edit : ListEdit) (c : Context) :
    (list.revise items edit c).Checked
      (ListRef.checks { list with schema := owner.schema, property } items edit) items c := by
  rw [← bound.schema, ← bound.property]
  exact ListRef.checked_revise list items edit c

theorem Owner.checked_write (owner : Owner) {property : String} {content : Content}
    (bound : content.BoundTo owner property) (value : Value) (c : Context) :
    (owner.write property content value c).Checked
      ((PropertyEdit.set value).checks owner.schema property content) content c := by
  cases content with
  | scalar type current =>
      rw [write]
      cases coerced : type.coerce value with
      | none => exact .fails (.here _ coerced) rfl
      | some v =>
          obtain ⟨answer, -⟩ := owner.unsigned_store property current v c
          dsimp only
          generalize owner.store property current v c = stored at answer
          obtain ⟨_, after, c'⟩ := stored
          cases answer
          refine .passes (pass_cons.2 ⟨fun refused => ?_, pass_nil⟩)
          cases (show type.coerce value = none from refused).symm.trans coerced
  | list l items =>
      have bound : l.BoundTo owner property := bound
      cases value with
      | list target =>
          exact ((bound.checked_revise items (.reconcile target) c).map _).within
            (ContentOf.list l) rfl
      | _ => exact .fails (.here _ trivial) rfl
  | dict d entries => exact .fails (.here _ trivial) rfl

namespace DictRef

variable {dict : DictRef} {property : String} (schema : String) (entries : List Entry) (key : String)
  (c : Context)

theorem checked_addEntry (named : dict.property = property) :
    (dict.addEntry entries key c).Checked
      ((PropertyEdit.add key).checks schema property (.dict dict entries)) entries c := by
  unfold addEntry
  rw [named]
  split
  · next e taken =>
    obtain ⟨rfl, before, after, rfl⟩ := Entries.exists_of_find? taken
    exact .fails (.here ⟨_, .duplicateKey property e.key⟩ (by simp [Entries.keys])) rfl
  · next free => exact .passes (pass_cons.2 ⟨Entries.find?_eq_none.1 free, pass_nil⟩)

theorem checked_deleteEntry : (dict.deleteEntry entries key c).Checked
    ((PropertyEdit.delete key).checks schema property (.dict dict entries)) entries c := by
  unfold deleteEntry
  split <;> exact .passes pass_nil

end DictRef

/-! ## Instances -/

namespace Settings

/-- What is checked before a property may be edited: its name, its shape if a shape is wanted, and that
    the instance is not of the reading kind. -/
def opening (x : Settings) (property : String) (wanted : Option String) : List Check :=
  ⟨x.schema.property? property = none, .unknownProperty x.schema.name property⟩ ::
    match x.schema.property? property, wanted with
    | some p, some shape =>
      [⟨p.type.shape ≠ shape, x.shapeMismatch property shape p.type.shape⟩,
        ⟨x.kind = .read, .readOnlyViolation x.schema.name property⟩]
    | _, _ => [⟨x.kind = .read, .readOnlyViolation x.schema.name property⟩]

/-- What an edit of a property checks, in order. -/
def checks (x : Settings) (property : String) (edit : PropertyEdit) : List Check :=
  x.opening property edit.wanted ++
    match x.content property with
    | .ok content => edit.checks x.schema.name property content
    | .error _ => []

/-- What an edit at the end of a path checks: the dictionaries on the path, from the first on, and then
    what the edit does there. -/
def checksAt (last : Settings → List Check) : Path → Settings → List Check
  | [], x => last x
  | (property, key) :: path, x =>
    x.opening property (some "dictionary") ++
      match x.dict property with
      | .error _ => []
      | .ok (_, entries) =>
        match Entries.find? entries key with
        | some e => checksAt last path e.settings
        | none => []

/-- All entries are there whose keys a path names. -/
def HasEntries : Path → Settings → Prop
  | [], _ => True
  | (property, key) :: path, x =>
    ∀ dict entries, x.dict property = .ok (dict, entries) →
      ∃ e, Entries.find? entries key = some e ∧ HasEntries path e.settings

/-- Ask for a property that may be edited, of the wanted shape if one is wanted. -/
def opened {α : Type} (x : Settings) (property : String) (wanted : Option String) (c : Context)
    (edit : Content → Done Settings α) : Done Settings α :=
  match x.content property with
  | .error e => ⟨.error e, x, c⟩
  | .ok content =>
    if wanted.getD content.shape = content.shape then
      if x.kind.isWritable then edit content else x.refuse property c
    else ⟨.error (x.shapeMismatch property (wanted.getD "") content.shape), x, c⟩

variable {x : Settings} {property : String}

theorem set_eq_opened (x : Settings) (property : String) (value : Value) (c : Context) :
    x.set property value c = x.opened property none c fun content =>
      (x.owner.write property content value c).within (x.setContent property) := by
  unfold Settings.set opened
  cases x.content property with
  | error e => rfl
  | ok content => exact (if_pos (c := _ = content.shape) rfl).symm

theorem editList_eq_opened (x : Settings) (property : String) (edit : ListEdit) (c : Context) :
    x.editList property edit c = x.opened property (some "collection") c fun content =>
      match content with
      | .list l items =>
        (l.revise items edit c).within fun after => x.setContent property (.list l after)
      | _ => ⟨.error (x.shapeMismatch property "collection" content.shape), x, c⟩ := by
  unfold Settings.editList opened Settings.list
  cases x.content property with
  | error e => rfl
  | ok content =>
      cases content with
      | list l items => rfl
      | _ => rfl

theorem dictForEdit_eq_opened (x : Settings) (property : String) (c : Context) :
    x.dictForEdit property c = x.opened property (some "dictionary") c fun content =>
      match content with
      | .dict d entries => ⟨.ok (d, entries), x, c⟩
      | _ => ⟨.error (x.shapeMismatch property "dictionary" content.shape), x, c⟩ := by
  unfold Settings.dictForEdit opened Settings.dict
  cases x.content property with
  | error e => rfl
  | ok content =>
      cases content with
      | dict d entries => rfl
      | _ => rfl

variable {known : Schema → Prop} {catalogs : List Catalog}

/-- Asking for a property makes the checks of it, and the edit its own. -/
theorem Conforms.checked_opened (registry : Schema.Registry known) (h : x.Conforms known catalogs)
    {α : Type} {wanted : Option String} {c : Context} {edit : Content → Done Settings α}
    {further : Content → List Check}
    (checked : ∀ content, x.content property = .ok content → wanted.getD content.shape = content.shape →
      (edit content).Checked (further content) x c) :
    (x.opened property wanted c edit).Checked
      (x.opening property wanted ++
        match x.content property with
        | .ok content => further content
        | .error _ => []) x c := by
  unfold opened opening
  rcases h.content_cases registry property with
    ⟨declared, found⟩ | ⟨p, content, declared, found, shape⟩
  · rw [declared, found]
    exact .fails (.here ⟨_, .unknownProperty x.schema.name property⟩ rfl) rfl
  · have known : ¬ (some p = none) := Option.some_ne_none p
    have checked := checked content found
    rw [declared, found]
    dsimp only
    -- a shape that is not the wanted one comes before the kind, and the kind before the edit
    cases wanted with
    | none =>
        have checked := checked rfl
        rw [if_pos (show Option.getD none content.shape = content.shape from rfl)]
        cases kind : x.kind with
        | read =>
            exact .fails (.later known (.here ⟨_, .readOnlyViolation x.schema.name property⟩ rfl)) rfl
        | _ =>
            exact checked.after (pass_cons.2 ⟨known, pass_cons.2 ⟨Kind.noConfusion, pass_nil⟩⟩)
    | some wanted =>
        dsimp only
        by_cases fits : wanted = content.shape
        · have fits' : ¬ p.type.shape ≠ wanted := not_not_intro (shape ▸ fits.symm)
          have checked := checked fits
          rw [if_pos (show (some wanted).getD content.shape = content.shape from fits)]
          cases kind : x.kind with
          | read =>
              exact .fails (.later known (.later fits'
                (.here ⟨_, .readOnlyViolation x.schema.name property⟩ rfl))) rfl
          | _ =>
              exact checked.after (pass_cons.2 ⟨known, pass_cons.2 ⟨fits',
                pass_cons.2 ⟨Kind.noConfusion, pass_nil⟩⟩⟩)
        · rw [if_neg (show ¬ (some wanted).getD content.shape = content.shape from fits), ← shape]
          exact .fails (.later known (.here ⟨content.shape ≠ wanted,
            x.shapeMismatch property wanted content.shape⟩ (Ne.symm fits))) rfl

/-- Putting back what a property holds changes nothing. -/
theorem setContent_self (nodup : x.names.Nodup) {content : Content}
    (found : x.content property = .ok content) : x.setContent property content = x := by
  obtain ⟨f, -, fill, setContent⟩ := exists_frame nodup found
  rw [setContent, fill]

theorem Conforms.checked_set (registry : Schema.Registry known) (h : x.Conforms known catalogs)
    (property : String) (value : Value) (c : Context) :
    (x.set property value c).Checked (x.checks property (.set value)) x c := by
  rw [set_eq_opened]
  refine h.checked_opened registry fun content found _ => ?_
  exact (x.owner.checked_write (h.boundTo found) value c).within _
    (setContent_self (h.self.nodup registry) found)

theorem Conforms.checked_editList (registry : Schema.Registry known) (h : x.Conforms known catalogs)
    (property : String) (edit : ListEdit) (c : Context) :
    (x.editList property edit c).Checked (x.checks property (.list edit)) x c := by
  rw [editList_eq_opened]
  refine h.checked_opened registry fun content found shape => ?_
  cases content with
  | list l items =>
      have bound : l.BoundTo x.owner property := h.boundTo found
      exact (bound.checked_revise items edit c).within _
        (setContent_self (h.self.nodup registry) found)
  | _ => exact absurd shape (by simp [PropertyEdit.wanted, ContentOf.shape])

/-- Asking for a dictionary to edit fails with the first of its checks that fails, or the dictionary is
    there. -/
theorem Conforms.dictForEdit_cases (registry : Schema.Registry known) (h : x.Conforms known catalogs)
    (property : String) (c : Context) :
    (∃ e after, x.dictForEdit property c = ⟨.error e, x, after⟩ ∧ after.hub = c.hub ∧
      FirstFailure (x.opening property (some "dictionary")) e) ∨
    ∃ dict entries, x.dict property = .ok (dict, entries) ∧
      x.dictForEdit property c = ⟨.ok (dict, entries), x, c⟩ ∧
      Pass (x.opening property (some "dictionary")) := by
  have checked : (x.dictForEdit property c).Checked
      (x.opening property (some "dictionary") ++
        match x.content property with
        | .ok _ => []
        | .error _ => []) x c := by
    rw [dictForEdit_eq_opened]
    refine h.checked_opened registry fun content _ shape => ?_
    cases content with
    | dict d entries => exact .passes pass_nil
    | _ => exact absurd shape (by simp [ContentOf.shape])
  have only_own : (match x.content property with
      | .ok _ => []
      | .error _ => [] : List Check) = [] := by
    split <;> rfl
  rw [only_own, List.append_nil] at checked
  unfold Settings.dictForEdit refuse at checked ⊢
  cases found : x.dict property with
  | error e =>
      rw [found] at checked
      cases checked with
      | fails first same => exact Or.inl ⟨e, c, rfl, same, first⟩
  | ok dict =>
      rw [found] at checked
      dsimp only at checked ⊢
      cases writable : x.kind.isWritable with
      | false =>
          rw [writable] at checked
          cases checked with
          | fails first same => exact Or.inl ⟨_, _, rfl, same, first⟩
      | true =>
          rw [writable] at checked
          cases checked with
          | passes passed => exact Or.inr ⟨dict.1, dict.2, rfl, rfl, passed⟩

theorem Conforms.checked_dictForEdit (registry : Schema.Registry known) (h : x.Conforms known catalogs)
    (property : String) (c : Context) :
    (x.dictForEdit property c).Checked (x.opening property (some "dictionary")) x c := by
  rcases h.dictForEdit_cases registry property c with
    ⟨e, after, asked, same, first⟩ | ⟨dict, entries, -, asked, passed⟩
  · rw [asked]
    exact .fails first same
  · rw [asked]
    exact .passes passed

/-- An edit of a dictionary asks for it and then makes its own checks. -/
theorem Conforms.checked_editDict (registry : Schema.Registry known) (h : x.Conforms known catalogs)
    {α : Type} {edit : DictRef → List Entry → Context → Done (List Entry) α}
    {further : Content → List Check}
    (checked : ∀ d entries c, d.property = property →
      (edit d entries c).Checked (further (.dict d entries)) entries c) (c : Context) :
    (x.editDict property edit c).Checked
      (x.opening property (some "dictionary") ++
        match x.content property with
        | .ok content => further content
        | .error _ => []) x c := by
  unfold editDict
  rcases h.dictForEdit_cases registry property c with
    ⟨e, after, asked, same, first⟩ | ⟨d, entries, found, asked, passed⟩
  · rw [asked]
    exact .fails (first.append _) same
  · have content := content_of_dict found
    have bound : d.BoundTo x.owner property := h.boundTo content
    rw [asked, content]
    exact ((checked d entries c bound.property).within _
      (setContent_self (h.self.nodup registry) content)).after passed

/-! ## Paths -/

/-- Following a path for an edit fails with the first check that fails on the path. At its end, the checks
    that are made there are all that is left. -/
theorem Conforms.followForEdit_cases (registry : Schema.Registry known) (last : Settings → List Check)
    {path : Path} (h : x.Conforms known catalogs) (present : HasEntries path x) (c : Context) :
    (∃ e after, followForEdit path x c = (.error (.failed e), after) ∧
      FirstFailure (checksAt last path x) e) ∨
    ∃ y after, followForEdit path x c = (.ok y, after) ∧ y.Conforms known catalogs ∧
      (∀ e, FirstFailure (last y) e → FirstFailure (checksAt last path x) e) ∧
      (Pass (last y) → Pass (checksAt last path x)) := by
  induction path generalizing x with
  | nil => exact Or.inr ⟨x, c, rfl, h, fun _ first => first, id⟩
  | cons step path ih =>
      obtain ⟨property, key⟩ := step
      rw [followForEdit, checksAt]
      rcases h.dictForEdit_cases registry property c with
        ⟨e, after, asked, same, first⟩ | ⟨d, entries, found, asked, passed⟩
      · rw [asked]
        exact Or.inl ⟨e, after, rfl, first.append _⟩
      · obtain ⟨e, there, present⟩ := present d entries found
        rw [asked, found]
        dsimp only
        rw [there]
        obtain ⟨slot, hs, held⟩ := exists_slot (content_of_dict found)
        have he : e ∈ slot.content.entries := held ▸ List.mem_of_find?_eq_some there
        rcases ih (h.entry hs he) present with
          ⟨e', after, followed, first⟩ | ⟨y, after, followed, conforms, firsts, passes⟩
        · exact Or.inl ⟨e', after, followed, passed.firstFailure first⟩
        · exact Or.inr ⟨y, after, followed, conforms,
            fun e' first => passed.firstFailure (firsts e' first),
            fun passed' => pass_append.2 ⟨passed, passes passed'⟩⟩

end Settings

end SettingsForge
