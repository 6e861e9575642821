import SettingsForge.Proofs.Settings.Reading
import SettingsForge.Proofs.Workspace.Failed
import SettingsForge.Proofs.Workspace.Restored
import SettingsForge.Proofs.Workspace.Turns
import SettingsForge.Proofs.Workspace.Twins

set_option autoImplicit false

/-! # Instances of the reading kind never change

No step changes an instance of the reading kind, at any depth, but for the provider that it is linked to
(`Workspace.Sound.lookup_reading`). So it reads the same after every run that does not give its name to
something else, and each step that would edit it is refused (`Workspace.reading_instances_never_change`). -/

namespace SettingsForge

open Settings

theorem Keyed.lookup_erase_of_ne {β : Type} {key other : String} (h : other ≠ key)
    (entries : List (String × β)) : (erase key entries).lookup other = entries.lookup other := by
  unfold erase
  induction entries with
  | nil => rfl
  | cons entry rest ih =>
      obtain ⟨k, v⟩ := entry
      by_cases same : k = key
      · rw [List.filter_cons_of_neg (by simpa using same), ih, List.lookup_cons,
          beq_false_of_ne (same ▸ h)]
      · rw [List.filter_cons_of_pos (by simpa using same), List.lookup_cons, List.lookup_cons, ih]

theorem Settings.setProvider_self (x : Settings) : x.setProvider x.provider = x := by
  obtain ⟨schema, kind, slots, notifier, provider⟩ := x
  rfl

theorem Settings.setProvider_setProvider (x : Settings) (link last : Option ProviderLink) :
    (x.setProvider link).setProvider last = x.setProvider last := by
  obtain ⟨schema, kind, slots, notifier, provider⟩ := x
  rfl

/-- A path leads to the same under another provider. -/
theorem Settings.follow_setProvider {path : Path} {x y : Settings} (h : follow path x = .ok y)
    (link : Option ProviderLink) : ∃ last, follow path (x.setProvider link) = .ok (y.setProvider last) := by
  obtain ⟨schema, kind, slots, notifier, provider⟩ := x
  cases path with
  | nil =>
      cases h
      exact ⟨link, rfl⟩
  | cons step path => exact ⟨y.provider, by rw [setProvider_self]; exact h⟩

theorem Settings.snapshot_setProvider (x : Settings) (link : Option ProviderLink) :
    (x.setProvider link).snapshot = x.snapshot := by
  obtain ⟨schema, kind, slots, notifier, provider⟩ := x
  rfl

/-- Where a step opens an instance, to edit it or to hand one of its dictionaries out for edits. -/
def Action.opened : Action → Option Location
  | .dictForEdit place _ => some place
  | action => action.edited

/-- The property that a step edits, and the shape it has to be of. -/
def Action.wants : Action → Option (String × Option String)
  | .set _ property _ => some (property, none)
  | .editList _ property _ => some (property, some "collection")
  | .dictForEdit _ property | .addEntry _ property _ | .deleteEntry _ property _
  | .assignDict _ property _ _ => some (property, some "dictionary")
  | _ => none

/-- Where a step links an instance to a provider. -/
def Action.links : Action → Option Location
  | .setProvider place _ _ => some place
  | _ => none

/-- The name that a step gives to another instance or to none. -/
def Action.renames : Action → Option String
  | .create name _ _ | .drop name => some name
  | _ => none

/-- The step is refused, and touches neither the instances nor the hub. -/
structure Attempt.Refused {α : Type} (attempt : Attempt Workspace α) (w : Workspace) (o : Obstacle) :
    Prop where
  answer : attempt.answer = .error o
  instances : attempt.subject.instances = w.instances
  hub : attempt.subject.context.hub = w.context.hub

theorem Attempt.Refused.map {α β : Type} {attempt : Attempt Workspace α} {w : Workspace} {o : Obstacle}
    (h : attempt.Refused w o) (f : α → β) :
    Attempt.Refused ⟨attempt.answer.map f, attempt.subject⟩ w o :=
  ⟨by rw [h.answer]; rfl, h.instances, h.hub⟩

namespace Workspace

/-- What a reset of an instance of the reading kind meets: there is no engine, or it has no defaults, or
    else the instance refuses them. -/
def resetRefusal (w : Workspace) (schema : Schema) (engine : String) : Obstacle :=
  match w.handle engine, w.engine engine with
  | .ok _, .ok e =>
    match (e.factory schema .read).answer with
    | .error error => .failed error
    | .ok _ => .failed (.readOnlyViolation schema.name "contents")
  | .error o, _ => o
  | _, .error o => o

/-- Every step that edits a named instance, or an entry in it, is refused: at the instance itself for
    the property that it names, or for the contents as a whole; at an entry for the first dictionary on
    the way. A source that is not there is an obstacle of its own. -/
structure Closed (w : Workspace) (name : String) (s : Schema) : Prop where
  property : ∀ action property wanted, action.opened = some ⟨name, []⟩ →
    action.wants = some (property, wanted) →
    (w.act action).Refused w (.failed (s.refusal property wanted))
  copy : ∀ source, (w.act (.copy ⟨name, []⟩ source)).Refused w
    (match source.mapM (w.source ⟨name, []⟩) with
      | .error o => o
      | .ok _ => .failed (.readOnlyViolation s.name "contents"))
  copyUntyped : ∀ source, (w.act (.copyUntyped ⟨name, []⟩ source)).Refused w
    (match Sound.candidate w ⟨name, []⟩ source with
      | .error o => o
      | .ok _ => .failed (.readOnlyViolation s.name "contents"))
  reset : ∀ engine, (w.act (.reset ⟨name, []⟩ engine)).Refused w (w.resetRefusal s engine)
  inside : ∀ action property key path, action.opened = some ⟨name, (property, key) :: path⟩ →
    (w.act action).Refused w (.failed (s.refusal property (some "dictionary")))

variable {known : Schema → Prop} {w : Workspace} {name : String} {s : Schema} {root : Settings}
  {α : Type}

/-! ## Edits of an instance that refuses them -/

/-- An edit of the named instance itself. -/
theorem edit_root (found : w.instances.lookup name = some root)
    (f : Settings → Context → Except Obstacle α × Settings × Context) :
    w.edit ⟨name, []⟩ f = ⟨(f root w.context).1,
      { w.putInstance name (f root w.context).2.1 with context := (f root w.context).2.2 }⟩ := by
  unfold Workspace.edit
  rw [find_eq_ok.2 found]
  rfl

/-- What is refused at the named instance is refused as a step. -/
theorem Sound.refused_edit (sound : w.Sound known) (found : w.instances.lookup name = some root)
    {f : Settings → Context → Except Obstacle α × Settings × Context} {o : Obstacle}
    (answer : (f root w.context).1 = .error o) (subject : (f root w.context).2.1 = root)
    (hub : (f root w.context).2.2.hub = w.context.hub) : (w.edit ⟨name, []⟩ f).Refused w o := by
  rw [edit_root found]
  refine ⟨answer, ?_, hub⟩
  dsimp only
  rw [subject]
  exact Keyed.insert_of_lookup sound.forest.sorted found

theorem Sound.refused_done (sound : w.Sound known) (found : w.instances.lookup name = some root)
    {f : Settings → Context → Done Settings α} {e : SettingsError}
    (h : (f root w.context).Refused root w.context e) (report : α → Report) :
    (w.editReport ⟨name, []⟩ report f).Refused w (.failed e) := by
  refine Attempt.Refused.map (sound.refused_edit found ?_ h.subject h.hub) report
  unfold ofDone
  rw [h.answer]
  rfl

/-- An edit of an entry is refused on the way. -/
theorem refused_edit_inside (found : w.instances.lookup name = some root) (closed : root.Unwritable)
    (property key : String) (path : Path)
    (f : Settings → Context → Except Obstacle α × Settings × Context) :
    (w.edit ⟨name, (property, key) :: path⟩ f).Refused w
      (.failed (root.schema.refusal property (some "dictionary"))) := by
  obtain ⟨after, hub, followed⟩ := closed.followForEdit_eq property key path w.context
  unfold Workspace.edit
  rw [find_eq_ok.2 found]
  dsimp only
  rw [followed]
  exact ⟨rfl, rfl, hub⟩

/-- A reset that is refused has no engine learn. -/
theorem refused_afterReset {attempt : Attempt Workspace (Nat × Engine × Except SettingsError Unit)}
    {o : Obstacle} (h : attempt.Refused w o) : (Sound.afterReset attempt).Refused w o := by
  obtain ⟨instances, context, answer⟩ := Sound.afterReset_spec attempt
  refine ⟨?_, instances.trans h.instances, (congrArg Context.hub context).trans h.hub⟩
  rw [answer, h.answer]
  rfl

namespace Sound

theorem refused_reset (sound : w.Sound known) (found : w.instances.lookup name = some root)
    (closed : root.Unwritable) (engine : String) :
    (w.reset ⟨name, []⟩ engine).Refused w (w.resetRefusal root.schema engine) := by
  show (afterReset (w.edit ⟨name, []⟩ (resetting w engine))).Refused w _
  unfold resetRefusal
  cases hindex : w.handle engine with
  | error o =>
      refine refused_afterReset (sound.refused_edit found ?_ ?_ ?_) <;>
        (unfold resetting; rw [hindex])
  | ok index =>
      cases he : w.engine engine with
      | error o =>
          refine refused_afterReset (sound.refused_edit found ?_ ?_ ?_) <;>
            (unfold resetting; rw [hindex, he])
      | ok e =>
          obtain ⟨refused, subject, hub⟩ := closed.refused_reset e w.context
          have attempt : w.edit ⟨name, []⟩ (resetting w engine) =
              ⟨.ok (index, (e.reset root w.context).2, (e.reset root w.context).1.answer),
                { w.putInstance name root with context := (e.reset root w.context).1.context }⟩ := by
            rw [edit_root found]
            unfold resetting
            rw [hindex, he]
            dsimp only
            rw [subject]
          rw [attempt]
          refine ⟨?_, Keyed.insert_of_lookup sound.forest.sorted found, hub⟩
          show ((e.reset root w.context).1.answer.map fun _ => Report.nothing).mapError
            Obstacle.failed = _
          rw [refused]
          dsimp only
          cases (e.factory root.schema .read).answer <;> rfl

theorem refused_copy (sound : w.Sound known) (found : w.instances.lookup name = some root)
    (closed : root.Unwritable) (source : Option Location) :
    (w.copy ⟨name, []⟩ source).Refused w
      (match source.mapM (w.source ⟨name, []⟩) with
        | .error o => o
        | .ok _ => .failed (.readOnlyViolation root.schema.name "contents")) := by
  have refused : (w.edit ⟨name, []⟩ (copying w ⟨name, []⟩ source)).Refused w
      (match source.mapM (w.source ⟨name, []⟩) with
        | .error o => o
        | .ok _ => .failed (.readOnlyViolation root.schema.name "contents")) := by
    refine sound.refused_edit found ?_ ?_ ?_ <;> unfold copying <;>
      cases source.mapM (w.source ⟨name, []⟩) with
      | error o => rfl
      | ok from? =>
          obtain ⟨answer, subject, hub⟩ := closed.copy from? w.context
          simp only [ofDone, answer, subject, hub, Except.mapError]
  exact refused.map fun _ => Report.nothing

theorem refused_copyUntyped (sound : w.Sound known) (found : w.instances.lookup name = some root)
    (closed : root.Unwritable) (source : Source) :
    (w.copyUntyped ⟨name, []⟩ source).Refused w
      (match candidate w ⟨name, []⟩ source with
        | .error o => o
        | .ok _ => .failed (.readOnlyViolation root.schema.name "contents")) := by
  have refused : (w.edit ⟨name, []⟩ (copyingUntyped w ⟨name, []⟩ source)).Refused w
      (match candidate w ⟨name, []⟩ source with
        | .error o => o
        | .ok _ => .failed (.readOnlyViolation root.schema.name "contents")) := by
    refine sound.refused_edit found ?_ ?_ ?_ <;> unfold copyingUntyped <;>
      cases candidate w ⟨name, []⟩ source with
      | error o => rfl
      | ok from? =>
          obtain ⟨answer, subject, hub⟩ := closed.copyUntyped from? w.context
          simp only [ofDone, answer, subject, hub, Except.mapError]
  exact refused.map fun _ => Report.nothing

theorem refused_assignDict (sound : w.Sound known) (found : w.instances.lookup name = some root)
    (closed : root.Unwritable) (property : String) (source : Location) (sourceProperty : String) :
    (w.assignDict ⟨name, []⟩ property source sourceProperty).Refused w
      (.failed (root.schema.refusal property (some "dictionary"))) := by
  obtain ⟨answer, -, hub⟩ := closed.dictForEdit property w.context
  show (w.edit ⟨name, []⟩ (assigning w ⟨name, []⟩ property source sourceProperty)).Refused w _
  -- the dictionary is asked for before the source is looked up
  have refused : ∃ after, after.hub = w.context.hub ∧
      assigning w ⟨name, []⟩ property source sourceProperty root w.context =
        (.error (.failed (root.schema.refusal property (some "dictionary"))), root, after) := by
    unfold assigning
    generalize root.dictForEdit property w.context = asked at answer hub
    obtain ⟨_, _, after⟩ := asked
    cases answer
    exact ⟨after, hub, rfl⟩
  obtain ⟨after, same, refused⟩ := refused
  refine sound.refused_edit found ?_ ?_ ?_ <;> rw [refused]
  exact same

/-- An instance that refuses every edit refuses every step that edits it. -/
theorem closed_of_unwritable (sound : w.Sound known) (found : w.instances.lookup name = some root)
    (closed : root.Unwritable) : w.Closed name root.schema where
  property action property wanted opened wants := by
    cases action with
    | set _ _ value =>
        cases opened
        cases wants
        exact sound.refused_done found (closed.set property value w.context) _
    | editList _ _ edit =>
        cases opened
        cases wants
        exact sound.refused_done found ((closed.editList property edit w.context).map _) _
    | dictForEdit _ _ =>
        cases opened
        cases wants
        exact sound.refused_done found ((closed.dictForEdit property w.context).map _) _
    | addEntry _ _ key =>
        cases opened
        cases wants
        exact sound.refused_done found (closed.refused_editDict property _ w.context) _
    | deleteEntry _ _ key =>
        cases opened
        cases wants
        exact sound.refused_done found (closed.refused_editDict property _ w.context) _
    | assignDict _ _ source sourceProperty =>
        cases opened
        cases wants
        exact sound.refused_assignDict found closed property source sourceProperty
    | _ => cases wants
  copy source := sound.refused_copy found closed source
  copyUntyped source := sound.refused_copyUntyped found closed source
  reset engine := sound.refused_reset found closed engine
  inside action property key path opened := by
    cases action with
    | reset _ engine =>
        cases opened
        exact refused_afterReset (refused_edit_inside found closed property key path _)
    | set | editList | dictForEdit | addEntry | deleteEntry | copy | copyUntyped =>
        cases opened
        exact (refused_edit_inside found closed property key path _).map _
    | assignDict =>
        cases opened
        exact refused_edit_inside found closed property key path _
    | _ => cases opened

/-! ## Steps and runs -/

/-- A step that edits an instance that refuses it leaves all instances. -/
theorem instances_of_opened (closed : w.Closed name s) {action : Action} {path : Path}
    (opened : action.opened = some ⟨name, path⟩) :
    (w.act action).subject.instances = w.instances := by
  cases path with
  | cons step path => exact (closed.inside action step.1 step.2 path opened).instances
  | nil =>
      cases action with
      | copy _ source =>
          cases opened
          exact (closed.copy source).instances
      | copyUntyped _ source =>
          cases opened
          exact (closed.copyUntyped source).instances
      | reset _ engine =>
          cases opened
          exact (closed.reset engine).instances
      | set | editList | dictForEdit | addEntry | deleteEntry | assignDict =>
          exact (closed.property _ _ _ opened rfl).instances
      | _ => cases opened

end Sound

/-- A step that asks an engine, builds a schema, reads or subscribes leaves all instances. -/
theorem instances_act (w : Workspace) {action : Action} (opened : action.opened = none)
    (kept : action.renames = none) (unlinked : action.links = none) :
    (w.act action).subject.instances = w.instances := by
  cases action with
  | build id name base properties =>
      unfold Workspace.act Workspace.build
      dsimp only
      split <;> rfl
  | cloneEngine name source =>
      unfold Workspace.act
      dsimp only
      split <;> rfl
  | typeOf schema kind engine saveAs =>
      unfold Workspace.act Workspace.typeOf
      dsimp only
      split
      · rfl
      · next s _ =>
        have same := (ask_frame w engine fun e => e.typeOf s kind).1
        generalize w.ask engine (fun e => e.typeOf s kind) = attempt at same
        obtain ⟨answer, after⟩ := attempt
        cases answer with
        | error e => exact same
        | ok shape => cases saveAs <;> exact same
  | newFactory schema kind engine name =>
      unfold Workspace.act Workspace.newFactory
      dsimp only
      split
      · rfl
      · next s _ =>
        have same := (ask_frame w engine fun e => e.factory s kind).1
        generalize w.ask engine (fun e => e.factory s kind) = attempt at same
        obtain ⟨answer, after⟩ := attempt
        cases answer <;> exact same
  | resolveDefault | debugInitializer =>
      unfold Workspace.act Workspace.resolveDefault
      dsimp only
      split <;> rfl
  | blueprint =>
      unfold Workspace.act Workspace.blueprint
      dsimp only
      split <;> rfl
  | subscribe =>
      unfold Workspace.act Workspace.subscribe
      dsimp only
      split
      · rfl
      · split <;> rfl
  | unsubscribe =>
      unfold Workspace.act Workspace.unsubscribe
      dsimp only
      split
      · rfl
      · split
        · rfl
        · split <;> rfl
  | holdNotifier =>
      unfold Workspace.act
      dsimp only
      split
      · rfl
      · split <;> rfl
  | notifierSubscribe | notifierUnsubscribe | notifierCount | notifierNotify =>
      unfold Workspace.act Workspace.atNotifier
      dsimp only
      split <;> rfl
  | setProvider => cases unlinked
  | create | drop => cases kept
  | set | reset | copy | copyUntyped | editList | dictForEdit | addEntry | deleteEntry | assignDict =>
      cases opened
  | _ => rfl

namespace Sound

/-- A step that does not open an instance and does not take its name leaves it as it is. -/
theorem lookup_act_of_ne (sound : w.Sound known) {action : Action} (kept : action.renames ≠ some name)
    (elsewhere : ∀ place, action.opened = some place → place.name ≠ name)
    (unlinked : ∀ place, action.links = some place → place.name ≠ name) :
    (w.act action).subject.instances.lookup name = w.instances.lookup name := by
  cases edited : action.edited with
  | some place =>
      have opened : action.opened = some place := by
        cases action with
        | dictForEdit => cases edited
        | _ => exact edited
      exact (sound.frame_act edited).1 name (elsewhere place opened).symm
  | none =>
      cases action with
      | create other maker source =>
          exact (sound.frame_create other maker source).1 name fun same => kept (congrArg some same.symm)
      | drop other =>
          exact Keyed.lookup_erase_of_ne (fun same => kept (congrArg some same.symm)) w.instances
      | dictForEdit place property =>
          exact (w.frame_edit place _).1 name (elsewhere place rfl).symm
      | setProvider place provider key =>
          unfold Workspace.act Workspace.setProvider
          dsimp only
          split
          · rfl
          · exact (w.frame_edit place _).1 name (unlinked place rfl).symm
      | set | reset | copy | copyUntyped | editList | addEntry | deleteEntry | assignDict => cases edited
      | _ => rw [w.instances_act rfl rfl rfl]

/-- Linking an instance to a provider leaves it otherwise, and linking one of its entries is refused if it
    may not be changed. -/
theorem lookup_setProvider (found : w.instances.lookup name = some root) (closed : root.Unwritable)
    (path : Path) (provider key : Option String) :
    ∃ link, (w.setProvider ⟨name, path⟩ provider key).subject.instances.lookup name =
      some (root.setProvider link) := by
  unfold Workspace.setProvider
  split
  · exact ⟨root.provider, by rw [found, setProvider_self]⟩
  · next id _ =>
    cases path with
    | nil =>
        refine ⟨id.map fun id => ⟨id, key⟩, ?_⟩
        unfold editReport
        dsimp only
        rw [edit_root found]
        exact Keyed.lookup_insert_self ..
    | cons step path =>
        refine ⟨root.provider, ?_⟩
        unfold editReport
        dsimp only
        rw [(refused_edit_inside found closed step.1 step.2 path _).instances, found, setProvider_self]

/-- No step changes an instance of the reading kind, but for its provider. -/
theorem lookup_reading (sound : w.Sound known) (found : w.instances.lookup name = some root)
    (reading : root.kind = .read) {action : Action} (kept : action.renames ≠ some name) :
    ∃ link, (w.act action).subject.instances.lookup name = some (root.setProvider link) := by
  have conforms : root.Conforms known w.catalogs := sound.conforms _ (Keyed.mem_of_lookup found)
  have closed := conforms.unwritable sound.registry reading
  have unchanged : (w.act action).subject.instances.lookup name = w.instances.lookup name →
      ∃ link, (w.act action).subject.instances.lookup name = some (root.setProvider link) :=
    fun same => ⟨root.provider, by rw [same, found, setProvider_self]⟩
  by_cases opened : ∃ path, action.opened = some ⟨name, path⟩
  · obtain ⟨path, opened⟩ := opened
    refine unchanged ?_
    rw [instances_of_opened (sound.closed_of_unwritable found closed) opened]
  by_cases linked : ∃ path, action.links = some ⟨name, path⟩
  · obtain ⟨path, linked⟩ := linked
    cases action with
    | setProvider _ provider key =>
        cases linked
        exact lookup_setProvider found closed path provider key
    | _ => cases linked
  · refine unchanged (sound.lookup_act_of_ne kept ?_ ?_) <;> rintro ⟨_, path⟩ there rfl
    · exact opened ⟨path, there⟩
    · exact linked ⟨path, there⟩

end Sound

/-- No run changes an instance of the reading kind, but for its provider. -/
theorem Sound.lookup_run_reading (sound : w.Sound known) (found : w.instances.lookup name = some root)
    (reading : root.kind = .read) {actions : List Action}
    (kept : ∀ action ∈ actions, action.renames ≠ some name) :
    ∃ link, (w.run actions).instances.lookup name = some (root.setProvider link) := by
  induction actions generalizing known w root with
  | nil => exact ⟨root.provider, by rw [setProvider_self]; exact found⟩
  | cons action rest ih =>
      obtain ⟨later, -, sound_after⟩ := sound.perform action
      obtain ⟨link, found⟩ :=
        sound.fresh.lookup_reading found reading (kept action (List.mem_cons_self ..))
      obtain ⟨last, found⟩ := ih sound_after found (by rw [kind_setProvider, reading]) fun a mem =>
        kept a (List.mem_cons_of_mem _ mem)
      exact ⟨last, by rw [setProvider_setProvider] at found; exact found⟩

/-- Take a workspace that a run reaches and any instance of the reading kind in it, at any depth, and any
    later steps that do not give the name it is found under to another instance or to none. Then the
    instance under that name is still there and of the reading kind, and so is the one at hand, with what
    it stores and how it reads at every depth. Every operation on it that would change it is refused,
    with the error of an unknown property first, that of another shape second, and only then that of an
    instance that may not be changed; no path leads through its dictionaries to an entry that is open to
    edits. And every step that would edit it is refused, and leaves all instances and the hub. -/
theorem reading_instances_never_change (reachable : w.Reachable) {place : Location} {x : Settings}
    (read : w.read place = .ok x) (reading : x.kind = .read) {actions : List Action}
    (kept : ∀ action ∈ actions, action.renames ≠ some place.name) :
    ∃ root y, (w.run actions).read ⟨place.name, []⟩ = .ok root ∧ root.kind = .read ∧
      (w.run actions).read place = .ok y ∧ y.schema = x.schema ∧ y.kind = .read ∧
      y.slots = x.slots ∧ y.snapshot = x.snapshot ∧ y.Unwritable ∧
      (∀ property key path c, ∃ after, followForEdit ((property, key) :: path) y c =
        (.error (.failed (y.schema.refusal property (some "dictionary"))), after)) ∧
      (w.run actions).fresh.Closed place.name root.schema := by
  obtain ⟨known, sound⟩ := reachable.sound
  obtain ⟨later, sound_after⟩ := (reachable.run actions).sound
  obtain ⟨root, found, followed⟩ := read_eq_ok.1 read
  have there := Keyed.mem_of_lookup found
  have part := mem_parts_of_follow sound.registry (sound.conforms _ there) followed
  -- an instance of the reading kind stands in a tree of that kind
  have root_reading : root.kind = .read := by
    rw [← (sound.forest.rooted _ there).toWired.kind_eq part, reading]
  obtain ⟨link, found_after⟩ := sound.lookup_run_reading found root_reading kept
  obtain ⟨last, followed_after⟩ := follow_setProvider followed link
  have read_after : (w.run actions).read place = .ok (x.setProvider last) :=
    read_eq_ok.2 ⟨_, found_after, followed_after⟩
  obtain ⟨-, -, -, -, conforms⟩ := sound_after.read read_after
  have root_conforms := sound_after.conforms _ (Keyed.mem_of_lookup found_after)
  have kind : (x.setProvider last).kind = .read := by rw [kind_setProvider, reading]
  have root_kind : (root.setProvider link).kind = .read := by rw [kind_setProvider, root_reading]
  have closed := conforms.unwritable sound_after.registry kind
  refine ⟨root.setProvider link, x.setProvider last, read_eq_ok.2 ⟨_, found_after, rfl⟩, root_kind,
    read_after, schema_setProvider .., kind, slots_setProvider .., snapshot_setProvider .., closed, ?_, ?_⟩
  · intro property key path c
    obtain ⟨after, -, refused⟩ := closed.followForEdit_eq property key path c
    exact ⟨after, refused⟩
  · exact sound_after.fresh.closed_of_unwritable found_after
      (root_conforms.unwritable sound_after.registry root_kind)

/-! ### A shelf that is kept -/

/-- The shelves, and one that keeps what the first one holds. -/
def archive : Workspace :=
  shelves.run [.create "archive" (.schema "shelf" .read "engine") (some ⟨"first", []⟩)]

theorem reachable_archive : archive.Reachable := reachable_shelves.run _

/-- Steps that change the first shelf, and steps that would change the one that is kept. -/
def restocking : List Action :=
  [recount, .set ⟨"archive", []⟩ "title" (.str "new"), .copy ⟨"archive", []⟩ (some ⟨"second", []⟩),
    .deleteEntry ⟨"archive", []⟩ "entries" "a", .set ⟨"archive", [("entries", "a")]⟩ "count" (.int 2),
    .reset ⟨"archive", []⟩ "engine"]

/-- The entry that is kept counts none still, and may not be changed. -/
theorem keeps_the_entry :
    ∃ y, (archive.run restocking).read ⟨"archive", [("entries", "a")]⟩ = .ok y ∧
      y.get "count" = .ok (.int 0) ∧ y.Unwritable := by
  obtain ⟨x, read, reading, count⟩ : ∃ x, archive.read ⟨"archive", [("entries", "a")]⟩ = .ok x ∧
      x.kind = .read ∧ x.get "count" = .ok (.int 0) := ⟨_, rfl, rfl, rfl⟩
  obtain ⟨-, y, -, -, read_after, schema, -, slots, -, closed, -⟩ :=
    @reading_instances_never_change _ reachable_archive _ _ read reading restocking (by decide)
  refine ⟨y, read_after, ?_, closed⟩
  unfold Settings.get Settings.content at count ⊢
  rw [slots, schema]
  exact count

end Workspace

end SettingsForge
