import SettingsForge.Proofs.Settings.Edits
import SettingsForge.Proofs.Settings.Places

set_option autoImplicit false

/-! # How an edit bubbles

An edit that takes effect is announced once, and the change goes up the path to the root. At each level
the clients take one note of the property under which the level has the change
(`Settings.bubble_levels`), from the root down (`Settings.Edited.deliveries`). -/

namespace SettingsForge

open Hub

namespace Settings

/-! ## Levels -/

/-- The notes that the clients of an instance take of a change, in the order in which they came. -/
def notes (x : Settings) (hub : Hub) (property : String) : List Delivery :=
  match x.notifier with
  | some n => hub.notes n property
  | none => []

/-- The instances that a path goes through, from its start to its end, each with the property that it
    announces when the given one changes at the end. -/
def levels (property : String) : Path → Settings → List (Settings × String)
  | [], x => [(x, property)]
  | (outer, key) :: path, x =>
    (x, outer) ::
      match follow [(outer, key)] x with
      | .ok entry => levels property path entry
      | .error _ => []

variable {known : Schema → Prop} {catalogs : List Catalog} {x y : Settings} {hub after : Hub}

theorem levels_step {outer key property : String} {f : Frame} {dict : DictRef}
    {before rest : List Entry} {e : Entry} (step : x.Step outer key f dict before e rest)
    (path : Path) :
    levels property ((outer, key) :: path) x = (x, outer) :: levels property path e.settings := by
  rw [levels, step.follow_eq]
  rfl

/-- The levels start at the root, and a change at the end of the path is heard there and then at each
    of the others. -/
theorem bubble_levels (registry : Schema.Registry known) {path : Path} {root : Settings}
    (conforms : root.Conforms known catalogs) (tidy : hub.Tidy) (disciplined : hub.Disciplined)
    (wired : Wired hub root) (h : follow path root = .ok x) {n : NotifierId}
    (own : x.notifier = some n) (property : String) :
    ∃ r first rest, root.notifier = some r ∧ levels property path root = (root, first) :: rest ∧
      hub.bubble n property =
        hub.bubble r first ++ rest.flatMap fun level => level.1.notes hub level.2 := by
  induction path generalizing root with
  | nil =>
      cases h
      exact ⟨n, property, [], own, rfl, (List.append_nil _).symm⟩
  | cons step path ih =>
      obtain ⟨outer, key⟩ := step
      obtain ⟨f, dict, before, e, later, step⟩ := conforms.exists_step registry h
      rw [step.follow_eq] at h
      rw [levels_step step]
      have entry_conforms := conforms.entry step.mem_slots step.mem_entries
      have wired_entry := wired.part
        (mem_parts_of_entry step.mem_slots step.mem_entries (self_mem_parts _))
      obtain ⟨m, first, rest, hm, levels_eq, bubble_eq⟩ := ih entry_conforms wired_entry h
      -- the owner of an observable entry is observable, and hears of the entry
      obtain ⟨r, id, hr, heard⟩ := wired.exists_heard step.mem_slots step.mem_entries hm
      refine ⟨r, outer, _, hr, rfl, ?_⟩
      rw [bubble_eq, levels_eq, tidy.bubble_of_some (heard.kept disciplined), List.flatMap_cons,
        List.append_assoc]
      simp only [notes, hm]

/-- Each level is where the path has led. -/
theorem follow_of_mem_levels (registry : Schema.Registry known) {path : Path} {root : Settings}
    (conforms : root.Conforms known catalogs) (h : follow path root = .ok x) {property : String}
    {level : Settings × String} (mem : level ∈ levels property path root) :
    ∃ above below, path = above ++ below ∧ follow above root = .ok level.1 := by
  induction path generalizing root with
  | nil =>
      rw [List.mem_singleton.1 mem]
      exact ⟨[], [], rfl, rfl⟩
  | cons step path ih =>
      obtain ⟨outer, key⟩ := step
      obtain ⟨f, dict, before, e, later, step⟩ := conforms.exists_step registry h
      rw [step.follow_eq] at h
      rw [levels_step step] at mem
      rcases List.mem_cons.1 mem with rfl | mem
      · exact ⟨[], _, rfl, rfl⟩
      · obtain ⟨above, below, rfl, there⟩ :=
          ih (conforms.entry step.mem_slots step.mem_entries) h mem
        exact ⟨(outer, key) :: above, below, rfl, (step.follow_eq above).trans there⟩

/-- What lies deeper has another notifier. -/
theorem Wired.ne_of_follow (registry : Schema.Registry known) {root : Settings}
    (conforms : root.Conforms known catalogs) (wired : Wired hub root) {m : NotifierId}
    (own : root.notifier = some m) {step : String × String} {path : Path}
    (h : follow (step :: path) root = .ok y) : y.notifier ≠ some m := by
  intro hy
  obtain ⟨f, dict, before, e, later, step⟩ := conforms.exists_step registry h
  rw [step.follow_eq] at h
  have part := mem_parts_of_follow registry (conforms.entry step.mem_slots step.mem_entries) h
  exact wired.not_mem_inner own (Nat.le_refl m) (mem_inner.2 ⟨_, step.mem_slots, e,
    step.mem_entries, mem_notifiers.2 ⟨y, part, hy⟩⟩)

/-- Only one path leads to a notifier. -/
theorem Wired.follow_unique (registry : Schema.Registry known) {root : Settings}
    (conforms : root.Conforms known catalogs) (wired : Wired hub root) {path path' : Path}
    (h : follow path root = .ok x) (h' : follow path' root = .ok y) {m : NotifierId}
    (hm : x.notifier = some m) (hm' : y.notifier = some m) : path = path' := by
  induction path generalizing root path' with
  | nil =>
      cases h
      cases path' with
      | nil => rfl
      | cons step' path' => exact absurd hm' (wired.ne_of_follow registry conforms hm h')
  | cons step path ih =>
      cases path' with
      | nil =>
          cases h'
          exact absurd hm (wired.ne_of_follow registry conforms hm' h)
      | cons step' path' =>
          obtain ⟨outer, key⟩ := step
          obtain ⟨outer', key'⟩ := step'
          obtain ⟨f, dict, before, e, later, step⟩ := conforms.exists_step registry h
          obtain ⟨f', dict', before', e', later', step'⟩ := conforms.exists_step registry h'
          rw [step.follow_eq] at h
          rw [step'.follow_eq] at h'
          have entry_conforms := conforms.entry step.mem_slots step.mem_entries
          have part := mem_parts_of_follow registry entry_conforms h
          have part' := mem_parts_of_follow registry
            (conforms.entry step'.mem_slots step'.mem_entries) h'
          obtain ⟨same_slot, same⟩ := wired.entry_unique step.mem_slots step'.mem_slots
            step.mem_entries step'.mem_entries (mem_notifiers.2 ⟨x, part, hm⟩)
            (mem_notifiers.2 ⟨y, part', hm'⟩)
          have same_outer : outer = outer' := congrArg SlotOf.name same_slot
          have same_key : key = key' := by rw [← step.at_key, ← step'.at_key, same]
          subst same
          have wired_entry := wired.part
            (mem_parts_of_entry step.mem_slots step.mem_entries (self_mem_parts _))
          rw [same_outer, same_key, ih entry_conforms wired_entry h h']

/-! ## Silent evolutions -/

/-- Without a notice, nobody takes note of anything. -/
theorem Evolves.silent (h : Evolves x hub [] y after) :
    after.deliveries = hub.deliveries ∧ after.calls = hub.calls := by
  generalize hns : ([] : List Notice) = ns at h
  induction h with
  | refl | rewrite | link => exact ⟨rfl, rfl⟩
  | trans _ _ ih ih' =>
      obtain ⟨none, none'⟩ := List.append_eq_nil_iff.1 hns.symm
      obtain ⟨deliveries, calls⟩ := ih none.symm
      obtain ⟨deliveries', calls'⟩ := ih' none'.symm
      exact ⟨deliveries'.trans deliveries, calls'.trans calls⟩
  | announce => cases hns
  | drop =>
      unfold Hub.unforward
      split <;> exact ⟨rfl, rfl⟩
  | @add f dict before after key heard made y ns hub₁ hub₂ hub₃ hub₄ hmake evolves hforward _ ih =>
      have first := evolves.unheard hmake
      have last : (hub₃.forward y.notifier (f.owner.binding f.property)).2.deliveries =
            hub₃.deliveries ∧
          (hub₃.forward y.notifier (f.owner.binding f.property)).2.calls = hub₃.calls := by
        unfold Hub.forward
        split <;> exact ⟨rfl, rfl⟩
      rw [hforward] at last
      exact ⟨last.1.trans first.deliveries, last.2.trans first.calls⟩
  | @discard x blueprint engine kind made y ns hub₁ hub₂ hub₃ hmake evolves ih =>
      have first := evolves.unheard hmake
      exact ⟨first.deliveries, first.calls⟩
  | inside _ _ _ _ _ _ ih => exact ih (List.map_eq_nil_iff.1 hns.symm).symm

/-- Where no client calls, subscribers stay at the instance and at all older notifiers. -/
theorem Evolves.subscribers (h : Evolves x hub [] y after) (tidy : hub.Tidy) (wired : Wired hub x)
    {n : NotifierId} (own : x.notifier = some n) {m : NotifierId} (le : m ≤ n) :
    after.subscribers m = hub.subscribers m := by
  obtain ⟨added, calls, same⟩ := (h.carries tidy wired).leads.calls
  rw [h.silent.2] at calls
  have none : added = [] := List.append_left_eq_self.1 calls.symm
  have lt : m < hub.size := Nat.lt_of_le_of_lt le (wired.self.lt n own)
  refine (same m lt (wired.not_mem_inner own le) ?_).1
  rw [none]
  simp

end Settings

/-- Changes are heard by the same subscribers at older notifiers. -/
theorem Hub.Tidy.bubble_congr {hub after : Hub} (tidy : hub.Tidy) {n : NotifierId}
    (same : ∀ m ≤ n, after.subscribers m = hub.subscribers m) (property : String) :
    after.bubble n property = hub.bubble n property := by
  induction n using Nat.strongRecOn generalizing property with
  | ind n ih =>
      have own := same n (Nat.le_refl n)
      have notes_eq : after.notes n property = hub.notes n property := by
        rw [Hub.notes, Hub.notes, own]
      rcases tidy.subscribers_cases n with ⟨-, clients⟩ | ⟨id, owner, outer, clients, h, -, lt, rest⟩
      · rw [bubble_of_clients clients, bubble_of_clients (own ▸ clients), notes_eq]
      · rw [bubble_of_forwarder h lt rest, bubble_of_forwarder (own.trans h) lt rest, notes_eq,
          ih owner lt fun m le => same m (Nat.le_trans le (Nat.le_of_lt lt))]

namespace Settings

/-- What an edit has clients take note of. -/
theorem Edited.deliveries {effect : Prop} {property : String} {x y : Settings} {hub after : Hub}
    (h : Edited effect property x hub y after) (tidy : hub.Tidy) (wired : Wired hub x)
    {n : NotifierId} (own : x.notifier = some n) :
    (effect → after.deliveries = hub.deliveries ++ hub.bubble n property) ∧
      (¬ effect → after.deliveries = hub.deliveries) := by
  cases h with
  | idle none => exact ⟨fun effect => absurd effect none, fun _ => rfl⟩
  | silent none =>
      rw [own] at none
      cases none
  | @told y between effect _ _ evolves =>
      refine ⟨fun _ => ?_, fun none => absurd effect none⟩
      have carried := evolves.carries tidy wired
      have own' : y.notifier = some n := evolves.alike.notifier.trans own
      rw [own']
      show (between.notify n property).deliveries = _
      rw [(carried.leads.tidy tidy).deliveries_notify, evolves.silent.1,
        tidy.bubble_congr (fun m le => evolves.subscribers tidy wired own le)]

end Settings

end SettingsForge
