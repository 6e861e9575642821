import SettingsForge.Proofs.Settings.Restoring
import SettingsForge.Proofs.Workspace.Copied

set_option autoImplicit false

/-! # What is saved can be restored

An observable instance is saved in an instance that announces nothing and is made as a copy of it. As
long as the two stay as they are, copying the second one back changes nothing, and the only notes that
clients take are of properties that read unequal to themselves, as values with a not-a-number in them
do (`Workspace.restoring_changes_nothing`). -/

namespace SettingsForge

open Hub Settings

/-- What is announced of properties with a not-a-number in a tree is announced of such ones only. -/
theorem Settings.Rooted.carries_restless {known : Schema → Prop} {catalogs : List Catalog}
    (registry : Schema.Registry known) {hub : Hub} {x : Settings} (rooted : Rooted hub x)
    (conforms : x.Conforms known catalogs) : hub.Carries x.Restless := by
  rintro n property ⟨y, part, own, slot, mem, -, nan⟩ f hf
  obtain ⟨z, hz, notifier, outer, houter, name, e, he, rfl⟩ := rooted.exists_of_forwarder part own hf
  have shown := hasNan_snapshot ((conforms _ part).nodup registry) mem nan
  exact ⟨z, hz, notifier, outer, houter, name, ContentOf.hasNan_value he shown⟩

namespace Workspace

variable {known : Schema → Prop} {w : Workspace}

theorem Reachable.run (reachable : w.Reachable) (actions : List Action) : (w.run actions).Reachable := by
  obtain ⟨name, catalog, earlier, rfl⟩ := reachable
  exact ⟨name, catalog, earlier ++ actions, (run_append ..).symm⟩

/-- What copying an instance back from where it is saved leaves: all instances as they are, and notes
    of properties that read as something with a not-a-number in it, each at an instance of the same
    tree. If there is none in the instance, nobody takes note. -/
structure Restored (w after : Workspace) (place : Location) (x : Settings) : Prop where
  instances : after.instances = w.instances
  noted : ∀ d ∈ after.context.hub.deliveries, ∃ path z value, w.read ⟨place.name, path⟩ = .ok z ∧
    z.notifier = some d.notifier ∧ z.get d.property = .ok value ∧ value.hasNan = true
  silent : x.snapshot.hasNan = false → after.context.hub.deliveries = []

/-- A copy that leaves the instance leaves the workspace but for what is announced. -/
theorem Sound.restored (sound : w.Sound known) (none : w.context.hub.deliveries = [])
    {place source : Location} {x y : Settings} (read : w.read place = .ok x)
    (read' : w.read source = .ok y) (apart : source.name ≠ place.name)
    (writable : x.kind.isWritable = true) (restores : y.Restores x) :
    (w.copy place (some source)).answer = .ok .nothing ∧
      Restored w (w.copy place (some source)).subject place x := by
  obtain ⟨root, found, followed⟩ := read_eq_ok.1 read
  have there := Keyed.mem_of_lookup found
  have conforms : root.Conforms known w.catalogs := sound.conforms _ there
  have rooted : Rooted w.context.hub root := sound.forest.rooted _ there
  have part := mem_parts_of_follow sound.registry conforms followed
  obtain ⟨after, assigned, announced⟩ := restores w.context
  rw [sound.copy_eq found followed read' apart writable, assigned]
  dsimp only
  rw [sound.putInstance_self found followed]
  refine ⟨rfl, rfl, fun d mem => ?_, fun quiet => ?_⟩
  · -- on its way up to the root, too, a change is announced of such properties only
    have among := announced.mono fun n property (h : x.Restless n property) =>
      (h.imp fun _ => And.imp_left (parts_trans part) : root.Restless n property)
    obtain ⟨added, deliveries, only⟩ :=
      among.deliveries (rooted.carries_restless sound.registry conforms)
    have mem : d ∈ after.hub.deliveries := mem
    rw [deliveries, none, List.nil_append] at mem
    obtain ⟨z, hz, notifier, slot, hs, name, nan⟩ := only d mem
    obtain ⟨path, leads⟩ := conforms.exists_follow sound.registry hz
    have get_eq : z.get d.property = .ok slot.content.value := by
      unfold Settings.get
      rw [← name, content_of_mem ((conforms z hz).nodup sound.registry) hs]
      rfl
    exact ⟨path, z, slot.content.value, read_eq_ok.2 ⟨root, found, leads⟩, notifier, get_eq, nan⟩
  · have same := announced.eq_of_none fun n property h => by
      rw [h.hasNan sound.registry (conforms.part part)] at quiet
      cases quiet
    show after.hub.deliveries = []
    rw [same, none]

/-- An instance is saved in a new one of its schema that announces nothing. -/
theorem Sound.saved (sound : w.Sound known) {place : Location} {x : Settings}
    (read : w.read place = .ok x) (writable : x.kind.isWritable = true)
    (exact : x.schema.Exact w.catalogs) (name : String) {maker : Maker} {factory : Engine.Factory}
    (available : (w.factoryOf maker).answer = .ok factory)
    (plain : factory.kind.isObservable = false) (same : factory.blueprint.schema = x.schema) :
    ∃ y, (w.create name maker (some place)).subject.read ⟨name, []⟩ = .ok y ∧ y.Restores x := by
  obtain ⟨root, there, -, part, conforms⟩ := sound.read read
  obtain ⟨-, -, made_for⟩ := sound.factoryOf maker
  obtain ⟨t, -, made_for⟩ := made_for factory available
  cases made_for.schema_eq.symm.trans same
  have wired := (sound.forest.rooted _ there).toWired.part part
  obtain ⟨y, after, created, restores⟩ := made_for.exists_restores sound.registry conforms exact
    (wired.writable_inside writable) plain factory.engine (w.factoryOf maker).subject.context
  rw [create_eq read name available]
  unfold Engine.Factory.create
  rw [created]
  exact ⟨y, read_eq_ok.2 ⟨y, Keyed.lookup_insert_self .., rfl⟩, restores⟩

/-- Take a workspace that a run reaches and any observable instance in it, at any depth, and assume that
    all first values of its schema and of those nested in it fit their types exactly. A step that makes
    a `copy` instance of it, of a schema that its own one is or inherits from, works: the new instance
    agrees with the first one, which stays. Take any later steps that leave the two. If they are of one
    schema, then a step that copies the second one back works, no instance changes, and clients take
    notes only of properties with a not-a-number in them (`Restored`). If not, then the answer says that
    the schemas do not match, and nothing changes. -/
theorem restoring_changes_nothing (reachable : w.Reachable) {place : Location} {x : Settings}
    (read : w.read place = .ok x) (observable : x.kind.isObservable = true)
    (exact : x.schema.Exact w.catalogs) {name : String} (apart : name ≠ place.name) {maker : Maker}
    {factory : Engine.Factory} (available : (w.factoryOf maker).answer = .ok factory)
    (copies : factory.kind = .copy)
    (inherits : x.schema.isA factory.blueprint.schema.id = true) :
    (w.perform (.create name maker (some place))).answer = .ok (.shape factory.shape) ∧
    ∃ y, (w.perform (.create name maker (some place))).subject.read ⟨name, []⟩ = .ok y ∧
      y.Agrees x ∧ y.kind = .copy ∧ y.schema = factory.blueprint.schema ∧
      (w.perform (.create name maker (some place))).subject.read place = .ok x ∧
      ∀ actions v, v = (w.perform (.create name maker (some place))).subject.run actions →
        v.read place = .ok x → v.read ⟨name, []⟩ = .ok y →
        (y.schema = x.schema →
          (v.perform (.copy place (some ⟨name, []⟩))).answer = .ok .nothing ∧
            Restored v (v.perform (.copy place (some ⟨name, []⟩))).subject place x) ∧
        (y.schema ≠ x.schema →
          v.perform (.copy place (some ⟨name, []⟩)) =
            ⟨.error (.failed (.schemaMismatch x.schema.name y.schema.name)), v.fresh⟩) := by
  obtain ⟨known, sound⟩ := reachable.sound
  have sound := sound.fresh
  have read : w.fresh.read place = .ok x := read
  rw [← answer_factoryOf_fresh] at available
  have writable := Kind.isWritable_of_isObservable observable
  obtain ⟨works, -⟩ := sound.created rfl read exact name available
  obtain ⟨answer, created⟩ := works inherits
  obtain ⟨y, there, agrees, schema, kind, -⟩ := created.made
  refine ⟨answer, y, there, agrees, kind.trans copies, schema,
    (created.others place apart.symm).trans read, ?_⟩
  intro actions v later stays stays'
  have reachable : v.Reachable := later ▸ reachable.run (.create name maker (some place) :: actions)
  obtain ⟨known', sound'⟩ := reachable.sound
  constructor
  · intro same
    have plain : factory.kind.isObservable = false := by rw [copies]; rfl
    obtain ⟨y', there', restores⟩ :=
      sound.saved read writable exact name available plain (schema.symm.trans same)
    cases there.symm.trans there'
    obtain ⟨answer, restored⟩ := sound'.fresh.restored rfl stays stays' apart writable restores
    exact ⟨answer, restored.instances, restored.noted, restored.silent⟩
  · intro differ
    have inherits : x.schema.isA y.schema.id = true := schema ▸ inherits
    obtain ⟨-, -, -, -, conforms⟩ := sound'.read stays
    obtain ⟨-, -, -, -, conforms'⟩ := sound'.read stays'
    have apart_schemas : y.schema.isA x.schema.id = false := Bool.eq_false_iff.2 fun back =>
      differ (sound'.registry.eq_of_isA conforms'.self.known conforms.self.known back inherits)
    exact sound'.fresh.copy_of_not_isA stays stays' apart writable apart_schemas

/-! ### A gauge -/

/-- A gauge that reads as no number, and a client there. -/
def gauge : Workspace :=
  (start "engine" .empty).run [
    .build "gauge" "Gauge" none [⟨"reading", .value .float, []⟩],
    .create "gauge" (.schema "gauge" .inpc "engine") none,
    .set ⟨"gauge", []⟩ "reading" (.float .nan),
    .subscribe ⟨"gauge", []⟩ "view" {}]

theorem reachable_gauge : gauge.Reachable := ⟨"engine", .empty, _, rfl⟩

theorem exact_gauge :
    Schema.Exact gauge.catalogs
      (.mk ⟨0⟩ "Gauge" none [⟨"reading", .value .float, []⟩] [("reading", 0)]) := by
  refine Schema.exact_of_no_defaults fun t reaches p hp => ?_
  rcases Schema.reaches_iff.1 reaches with rfl | ⟨u, mem, -⟩
  · cases List.mem_singleton.1 hp
    rfl
  · cases mem

def saveGauge : Action := .create "saved" (.schema "gauge" .copy "engine") (some ⟨"gauge", []⟩)

def restoreGauge : Action := .copy ⟨"gauge", []⟩ (some ⟨"saved", []⟩)

/-- The gauge is restored, and a note that is taken is of a reading that is no number. -/
theorem restores_the_gauge :
    ∃ x y, gauge.read ⟨"gauge", []⟩ = .ok x ∧
      (gauge.perform saveGauge).subject.read ⟨"saved", []⟩ = .ok y ∧
      ((gauge.perform saveGauge).subject.perform restoreGauge).answer = .ok .nothing ∧
      Restored (gauge.perform saveGauge).subject
        ((gauge.perform saveGauge).subject.perform restoreGauge).subject ⟨"gauge", []⟩ x := by
  obtain ⟨-, y, there, -, -, schema, stays, restores⟩ :=
    @restoring_changes_nothing gauge reachable_gauge ⟨"gauge", []⟩ _ rfl rfl exact_gauge "saved"
      (by decide) (.schema "gauge" .copy "engine") _ rfl rfl rfl
  exact ⟨_, y, rfl, there, (restores [] _ rfl stays there).1 schema⟩

/-- The client is told of the reading all the same, for it is unequal to itself. -/
theorem announces_the_gauge_restored :
    gauge.Reachable ∧ ∃ x y, gauge.read ⟨"gauge", []⟩ = .ok x ∧ x.kind.isObservable = true ∧
      x.schema.Exact gauge.catalogs ∧
      (gauge.perform saveGauge).subject.read ⟨"saved", []⟩ = .ok y ∧ y.kind = .copy ∧
      y.schema = x.schema ∧ (gauge.perform saveGauge).subject.read ⟨"gauge", []⟩ = .ok x ∧
      ((gauge.perform saveGauge).subject.perform restoreGauge).answer = .ok .nothing ∧
      ((gauge.perform saveGauge).subject.perform restoreGauge).subject.context.hub.deliveries =
        [⟨0, 0, "view", "reading"⟩] := by
  refine ⟨reachable_gauge, _, _, rfl, rfl, exact_gauge, rfl, rfl, rfl, rfl, rfl, ?_⟩
  decide +kernel

end Workspace

end SettingsForge
