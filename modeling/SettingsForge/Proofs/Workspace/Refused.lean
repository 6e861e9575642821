import SettingsForge.Proofs.Settings.Checks
import SettingsForge.Proofs.Workspace.Assigned

set_option autoImplicit false

/-! # Edits that are refused

A step that edits one property makes its checks before it changes anything. So when it fails, the workspace
is as it was, and the error is that of the first check that fails
(`Workspace.refused_edits_change_nothing`). -/

namespace SettingsForge

open Settings

namespace Action

/-- Where a step edits one property, or asks for a dictionary to edit. -/
def single : Action → Option Location
  | .set place .. | .editList place .. | .addEntry place .. | .deleteEntry place ..
  | .dictForEdit place _ => some place
  | _ => none

/-- What such a step checks of the instance that it edits, in order. -/
def checks : Action → Settings → List Check
  | .set _ property value, x => x.checks property (.set value)
  | .editList _ property edit, x => x.checks property (.list edit)
  | .addEntry _ property key, x => x.checks property (.add key)
  | .deleteEntry _ property key, x => x.checks property (.delete key)
  | .dictForEdit _ property, x => x.opening property (some "dictionary")
  | _, _ => []

end Action

namespace Workspace

variable {known : Schema → Prop} {w : Workspace} {place : Location} {α : Type}

/-- A step that edits one property is an edit by an operation that makes these checks. -/
theorem Sound.exists_checked (sound : w.Sound known) {action : Action}
    (single : action.single = some place) :
    ∃ (α : Type) (report : α → Report) (f : Settings → Context → Done Settings α),
      w.act action = w.editReport place report f ∧
      ∀ x c, x.Conforms known w.catalogs → (f x c).Checked (action.checks x) x c := by
  cases action with
  | set _ property value =>
      cases single
      exact ⟨_, _, _, rfl, fun x c conforms => conforms.checked_set sound.registry property value c⟩
  | editList _ property edit =>
      cases single
      exact ⟨_, _, _, rfl, fun x c conforms =>
        (conforms.checked_editList sound.registry property edit c).map _⟩
  | addEntry _ property key =>
      cases single
      refine ⟨_, _, _, rfl, fun x c conforms => ?_⟩
      exact conforms.checked_editDict sound.registry
        (fun _ entries c => DictRef.checked_addEntry x.schema.name entries key c) c
  | deleteEntry _ property key =>
      cases single
      refine ⟨_, _, _, rfl, fun x c conforms => ?_⟩
      exact conforms.checked_editDict sound.registry
        (fun _ entries c _ => DictRef.checked_deleteEntry x.schema.name entries key c) c
  | dictForEdit _ property =>
      cases single
      exact ⟨_, _, _, rfl, fun x c conforms =>
        (conforms.checked_dictForEdit sound.registry property c).map _⟩
  | _ => cases single

section

variable {f : Settings → Context → Done Settings α} {checks : Settings → List Check}

/-- An edit that fails leaves the workspace, but for the journal. -/
theorem Sound.edit_failed (sound : w.Sound known)
    (checked : ∀ x c, x.Conforms known w.catalogs → (f x c).Checked (checks x) x c) {o : Obstacle}
    (failed : (w.edit place fun x c => ofDone (f x c)).answer = .error o) :
    ∃ c : Context, c.hub = w.context.hub ∧
      (w.edit place fun x c => ofDone (f x c)).subject = { w with context := c } := by
  have edited := edit_cases w place fun x c => ofDone (f x c)
  generalize (w.edit place fun x c => ofDone (f x c)) = attempt at edited failed
  cases edited with
  | nowhere same => exact ⟨_, same, rfl⟩
  | @there root x c mem found followed same =>
      have root_conforms : root.Conforms known w.catalogs := sound.conforms _ mem
      have checked := checked x c
        (root_conforms.part (mem_parts_of_follow sound.registry root_conforms followed))
      generalize f x c = d at checked failed
      cases checked with
      | passes => cases failed
      | fails first hub =>
          refine ⟨_, hub.trans same, ?_⟩
          dsimp only [ofDone]
          rw [sound.putInstance_self found followed]

/-- An edit at the end of a path whose entries are all there fails with the first check that fails on the
    way. -/
theorem Sound.edit_checked (sound : w.Sound known)
    (checked : ∀ x c, x.Conforms known w.catalogs → (f x c).Checked (checks x) x c) {root : Settings}
    (found : w.instances.lookup place.name = some root) (present : HasEntries place.path root) :
    (∃ e, (w.edit place fun x c => ofDone (f x c)).answer = .error (.failed e) ∧
      FirstFailure (checksAt checks place.path root) e) ∨
    ∃ a, (w.edit place fun x c => ofDone (f x c)).answer = .ok a ∧
      Pass (checksAt checks place.path root) := by
  have root_conforms : root.Conforms known w.catalogs := sound.conforms _ (Keyed.mem_of_lookup found)
  unfold Workspace.edit
  rw [find_eq_ok.2 found]
  dsimp only
  rcases root_conforms.followForEdit_cases sound.registry checks present w.context with
    ⟨e, after, followed, first⟩ | ⟨x, after, followed, conforms, firsts, passes⟩
  · rw [followed]
    exact Or.inl ⟨e, rfl, first⟩
  · have checked := checked x after conforms
    rw [followed]
    dsimp only
    generalize f x after = d at checked
    cases checked with
    | fails first => exact Or.inl ⟨_, rfl, firsts _ first⟩
    | passes passed => exact Or.inr ⟨_, rfl, passes passed⟩

end

/-- Take a workspace that a run reaches and a step that edits one property of an instance at any depth, or
    asks for a dictionary to edit. If it fails, then nothing has changed in the workspace, no subscription
    either, and nobody was told; only the journal may say that it was refused. Assume that all entries are
    there whose keys the path names. Then the step fails if and only if one of its checks does, from the
    root down to the edit itself, and the error is that of the first check that fails. -/
theorem refused_edits_change_nothing (reachable : w.Reachable) {action : Action}
    (single : action.single = some place) :
    (∀ o, (w.perform action).answer = .error o → ∃ journal, (w.perform action).subject =
      { w with context := ⟨{ w.context.hub with deliveries := [] }, journal⟩ }) ∧
    ∀ root, w.read ⟨place.name, []⟩ = .ok root → HasEntries place.path root →
      ((∃ o, (w.perform action).answer = .error o) ↔
        ∃ check ∈ checksAt action.checks place.path root, check.fails) ∧
      ∀ o, (w.perform action).answer = .error o ↔
        ∃ e, o = .failed e ∧ FirstFailure (checksAt action.checks place.path root) e := by
  obtain ⟨known, sound⟩ := reachable.sound
  have sound := sound.fresh
  obtain ⟨α, report, f, performed, checked⟩ := sound.exists_checked single
  have performed : w.perform action = w.fresh.editReport place report f := performed
  rw [performed]
  unfold Workspace.editReport
  dsimp only
  constructor
  · intro o failed
    obtain ⟨o', failed⟩ : ∃ o', (w.fresh.edit place fun x c => ofDone (f x c)).answer = .error o' := by
      cases answer : (w.fresh.edit place fun x c => ofDone (f x c)).answer with
      | error o' => exact ⟨o', rfl⟩
      | ok a =>
          rw [answer] at failed
          cases failed
    obtain ⟨⟨hub, journal⟩, same, subject⟩ := sound.edit_failed checked failed
    cases same
    exact ⟨journal, subject⟩
  · intro root read present
    obtain ⟨root, found, ⟨⟩⟩ := read_eq_ok.1 read
    have found : w.fresh.instances.lookup place.name = some root := found
    rcases sound.edit_checked checked found present with ⟨e, failed, first⟩ | ⟨a, answer, passed⟩
    · rw [failed]
      have fails : ∃ check ∈ checksAt action.checks place.path root, check.fails := by
        have not_all := first.not_pass
        unfold Pass at not_all
        push Not at not_all
        exact not_all
      refine ⟨⟨fun _ => fails, fun _ => ⟨_, rfl⟩⟩, fun o => ⟨?_, ?_⟩⟩
      · rintro ⟨⟩
        exact ⟨e, rfl, first⟩
      · rintro ⟨e', rfl, first'⟩
        rw [first.unique first']
        rfl
    · rw [answer]
      refine ⟨⟨fun ⟨o, failed⟩ => (by cases failed), fun ⟨check, mem, fails⟩ => ?_⟩, fun o => ⟨?_, ?_⟩⟩
      · exact absurd fails (passed check mem)
      · rintro ⟨⟩
      · rintro ⟨e, -, first⟩
        exact absurd passed first.not_pass

/-- A text is put behind the end of a list of numbers. -/
def misplaced : Action := .editList ⟨"rack", [("scales", "a")]⟩ "weights" (.insert 2 (.str "heavy"))

/-- The index is found wrong before the text is, and the client hears nothing. -/
theorem refuses_the_index_first :
    ∃ root journal, rack.read ⟨"rack", []⟩ = .ok root ∧
      misplaced.single = some ⟨"rack", [("scales", "a")]⟩ ∧ HasEntries [("scales", "a")] root ∧
      FirstFailure (checksAt misplaced.checks [("scales", "a")] root) (.indexOutOfRange "weights" 2 1) ∧
      (rack.perform misplaced).answer = .error (.failed (.indexOutOfRange "weights" 2 1)) ∧
      (rack.perform misplaced).subject =
        { rack with context := ⟨{ rack.context.hub with deliveries := [] }, journal⟩ } := by
  obtain ⟨root, read, present⟩ : ∃ root, rack.read ⟨"rack", []⟩ = .ok root ∧
      HasEntries [("scales", "a")] root := by
    refine ⟨_, rfl, fun dict entries found => ?_⟩
    cases found
    exact ⟨_, rfl, trivial⟩
  have single : misplaced.single = some ⟨"rack", [("scales", "a")]⟩ := rfl
  obtain ⟨leaves, errs⟩ := refused_edits_change_nothing reachable_rack single
  have answer : (rack.perform misplaced).answer = .error (.failed (.indexOutOfRange "weights" 2 1)) := rfl
  obtain ⟨journal, subject⟩ := leaves _ answer
  obtain ⟨e, ⟨⟩, first⟩ := ((errs root read present).2 _).1 answer
  exact ⟨root, journal, read, single, present, first, answer, subject⟩

end Workspace

end SettingsForge
