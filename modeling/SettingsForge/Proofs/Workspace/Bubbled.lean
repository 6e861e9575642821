import SettingsForge.Proofs.Settings.Bubbling
import SettingsForge.Proofs.Workspace.Steps

set_option autoImplicit false

/-! # Edits bubble once per level

A single edit that takes effect has the clients on its path take one note each, from the root down, and
nobody else; every other single edit has nobody take note (`Workspace.bubbles_once_per_level`). -/

namespace SettingsForge

open Hub Settings

/-- The step that performs an edit. -/
def PropertyEdit.action (edit : PropertyEdit) (place : Location) (property : String) : Action :=
  match edit with
  | .set value => .set place property value
  | .list edit => .editList place property edit
  | .add key => .addEntry place property key
  | .delete key => .deleteEntry place property key

namespace Workspace

variable {known : Schema → Prop} {w : Workspace} {place : Location} {x root : Settings}

/-- A step that performs an edit has the effect of the edit. -/
theorem Sound.exists_edited (sound : w.Sound known) (found : w.instances.lookup place.name = some root)
    (followed : follow place.path root = .ok x)
    (writable : ∀ z ∈ root.parts, z.kind.isWritable = true) (conforms : x.Conforms known w.catalogs)
    (edit : PropertyEdit) (property : String) :
    ∃ y, Edited (edit.TakesEffect x property) property x w.context.hub y
      (w.act (edit.action place property)).subject.context.hub := by
  have nodup := conforms.self.nodup sound.registry
  have bound := conforms.self.bound
  have sorted : ∀ slot ∈ x.slots, Entries.Sorted slot.content.entries := fun _ => conforms.self.sorted
  have of_edit : ∀ {α : Type} {f : Settings → Context → Except Obstacle α × Settings × Context}
      {y : Settings},
      Edited (edit.TakesEffect x property) property x w.context.hub y (f x w.context).2.2.hub →
      (w.act (edit.action place property)).subject = (w.edit place f).subject →
      ∃ y, Edited (edit.TakesEffect x property) property x w.context.hub y
        (w.act (edit.action place property)).subject.context.hub := by
    intro α f y edited same
    rw [same, edit_eq found followed writable f]
    exact ⟨y, edited⟩
  cases edit with
  | set value =>
      exact of_edit (f := fun x c => ofDone (x.set property value c))
        (set_edited nodup bound value w.context) rfl
  | list edit => exact of_edit (editList_edited nodup bound edit w.context) rfl
  | add key =>
      exact of_edit (f := fun x c => ofDone (x.addEntry property key c))
        (addEntry_edited nodup bound sorted key w.context) rfl
  | delete key =>
      exact of_edit (f := fun x c => ofDone (x.deleteEntry property key c))
        (deleteEntry_edited nodup bound sorted key w.context) rfl

/-- What is announced at the end of a path is noted at the levels of the path. -/
theorem Sound.bubble_eq (sound : w.Sound known) (there : (place.name, root) ∈ w.instances)
    (disciplined : w.context.hub.Disciplined) (followed : follow place.path root = .ok x)
    {n : NotifierId} (own : x.notifier = some n) (property : String) :
    w.context.hub.bubble n property =
      (levels property place.path root).flatMap fun level =>
        level.1.notes w.context.hub level.2 := by
  have rooted : Rooted w.context.hub root := sound.forest.rooted _ there
  obtain ⟨r, first, rest, hr, levels_eq, bubble_eq⟩ := bubble_levels sound.registry
    (sound.conforms _ there) sound.tidy disciplined rooted.toWired followed own property
  -- above the root there is nobody to forward to
  rw [bubble_eq, levels_eq, List.flatMap_cons, sound.tidy.bubble_of_none (rooted.top r hr)]
  simp only [Settings.notes, hr]

/-- Who notes something at the levels of a path is a client of an instance on the path. -/
theorem Sound.on_path (sound : w.Sound known) (there : (place.name, root) ∈ w.instances)
    (followed : follow place.path root = .ok x) {property : String} {d : Delivery}
    (mem : d ∈ (levels property place.path root).flatMap fun level =>
      level.1.notes w.context.hub level.2)
    {other : Location} {z : Settings} (read : w.read other = .ok z)
    (at_notifier : z.notifier = some d.notifier) :
    other.name = place.name ∧ other.path <+: place.path := by
  have conforms : root.Conforms known w.catalogs := sound.conforms _ there
  obtain ⟨level, at_level, mem⟩ := List.mem_flatMap.1 mem
  obtain ⟨above, below, path, hlevel⟩ :=
    follow_of_mem_levels sound.registry conforms followed at_level
  have level_notifier : level.1.notifier = some d.notifier := by
    unfold Settings.notes at mem
    split at mem
    · next m hm => rw [hm, (mem_notes mem).1]
    · cases mem
  obtain ⟨root', there', followed', part', -⟩ := sound.read read
  -- two instances with one notifier are in one tree, and there at one path
  have same := sound.forest.eq_of_mem_notifiers there' there
    (mem_notifiers.2 ⟨z, part', at_notifier⟩)
    (mem_notifiers.2 ⟨level.1, mem_parts_of_follow sound.registry conforms hlevel, level_notifier⟩)
  cases congrArg Prod.snd same
  have rooted : Rooted w.context.hub root := sound.forest.rooted _ there
  have same_path := rooted.toWired.follow_unique sound.registry conforms followed' hlevel at_notifier
    level_notifier
  exact ⟨congrArg Prod.fst same, same_path ▸ path ▸ List.prefix_append ..⟩

/-- Take a workspace that a run reaches and a step that performs one edit of an observable instance,
    however deep. Clients have ended subscriptions with numbers of the same instance only. If the edit
    takes effect, the notes that clients take are those at the levels of the path, from the root down:
    at each level one note by each client, in the order in which they came, of the dictionary that the
    path goes on through, and of the edited property at the end. If not, nobody takes note. No client
    of an instance that is not on the path ever does. -/
theorem bubbles_once_per_level (reachable : w.Reachable) (read : w.read place = .ok x)
    (observable : x.kind.isObservable = true) (edit : PropertyEdit) (property : String)
    (disciplined : (w.perform (edit.action place property)).subject.context.hub.Disciplined) :
    ∃ root, w.read ⟨place.name, []⟩ = .ok root ∧
      (edit.TakesEffect x property →
        (w.perform (edit.action place property)).subject.context.hub.deliveries =
          (levels property place.path root).flatMap fun level =>
            level.1.notes w.context.hub level.2) ∧
      (¬ edit.TakesEffect x property →
        (w.perform (edit.action place property)).subject.context.hub.deliveries = []) ∧
      ∀ d ∈ (w.perform (edit.action place property)).subject.context.hub.deliveries,
        ∀ other z, w.read other = .ok z → z.notifier = some d.notifier →
          other.name = place.name ∧ other.path <+: place.path := by
  obtain ⟨known, sound⟩ := reachable.sound
  have sound := sound.fresh
  obtain ⟨root, found, followed⟩ := read_eq_ok.1 read
  have there := Keyed.mem_of_lookup found
  have there : (place.name, root) ∈ w.fresh.instances := there
  have rooted : Rooted w.fresh.context.hub root := sound.forest.rooted _ there
  have conforms : root.Conforms known w.fresh.catalogs := sound.conforms _ there
  have part := mem_parts_of_follow sound.registry conforms followed
  have wired := rooted.toWired.part part
  obtain ⟨n, own⟩ := Option.isSome_iff_exists.1 (wired.self.notifier.trans observable)
  have writable := rooted.toWired.writable part (Kind.isWritable_of_isObservable observable)
  obtain ⟨y, edited⟩ := sound.exists_edited found followed writable (conforms.part part) edit property
  have earlier : w.fresh.context.hub.Disciplined := by
    obtain ⟨ns, evolves, -⟩ := edited.operated
    exact (evolves.carries sound.tidy wired).leads.disciplined disciplined
  obtain ⟨effect, idle⟩ := edited.deliveries sound.tidy wired own
  have effect : edit.TakesEffect x property →
      (w.perform (edit.action place property)).subject.context.hub.deliveries =
        (levels property place.path root).flatMap fun level =>
          level.1.notes w.fresh.context.hub level.2 := fun takes_effect =>
    (effect takes_effect).trans (sound.bubble_eq there earlier followed own property)
  have idle : ¬ edit.TakesEffect x property →
      (w.perform (edit.action place property)).subject.context.hub.deliveries = [] := idle
  refine ⟨root, read_eq_ok.2 ⟨root, found, rfl⟩, effect, idle, fun d mem other z hz hn => ?_⟩
  by_cases takes_effect : edit.TakesEffect x property
  · rw [effect takes_effect] at mem
    exact sound.on_path there followed mem hz hn
  · rw [idle takes_effect] at mem
    cases mem

/-- A change of an entry is heard at the shelf first, then at the entry. -/
theorem bubbles_to_the_shelf :
    ∃ root, shelves.read ⟨"first", []⟩ = .ok root ∧
      (shelves.perform recount).subject.context.hub.deliveries =
        ((levels "count" [("entries", "a")] root).flatMap fun level =>
          level.1.notes shelves.context.hub level.2) ∧
      ∀ d ∈ (shelves.perform recount).subject.context.hub.deliveries,
        ∀ other z, shelves.read other = .ok z → z.notifier = some d.notifier →
          other.name = "first" ∧ other.path <+: [("entries", "a")] := by
  obtain ⟨root, read, effect, -, only⟩ :=
    @bubbles_once_per_level shelves ⟨"first", [("entries", "a")]⟩ _ reachable_shelves rfl rfl
      (.set (.int 1)) "count" disciplined_recount
  exact ⟨root, read, effect ⟨rfl, _, rfl, .int 1, rfl, rfl⟩, only⟩

end Workspace

end SettingsForge
