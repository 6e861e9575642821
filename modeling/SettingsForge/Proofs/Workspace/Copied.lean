import SettingsForge.Proofs.Settings.Agreement
import SettingsForge.Proofs.Workspace.Notified

set_option autoImplicit false

/-! # Copies agree, and fail up front only

A copy into an instance, or into a new one, works if and only if the source's schema is the target's or
inherits from it, and the target then agrees with the source. Nothing else changes, and nobody at the
source takes note (`Workspace.copies_agree`). -/

namespace SettingsForge

open Hub Settings

namespace Workspace

variable {known : Schema → Prop} {w : Workspace}

/-- What a copy into an instance leaves: the instance agrees with the source and is otherwise the same
    one, its subscribers are those from before unless a client asked there for something else while it
    was told, the other named instances are as they were, and none of theirs was told. -/
structure Copied (w after : Workspace) (place : Location) (x source : Settings) : Prop where
  target : ∃ y, after.read place = .ok y ∧ y.Agrees source ∧ y.schema = x.schema ∧
    y.kind = x.kind ∧ y.notifier = x.notifier ∧ y.provider = x.provider
  subscribers : ∀ n, x.notifier = some n → ∃ calls,
    after.context.hub.calls = calls ++ w.context.hub.calls ∧
      ((∀ call ∈ calls, call.notifier ≠ n) →
        after.context.hub.subscribers n = w.context.hub.subscribers n)
  others : ∀ other : Location, other.name ≠ place.name → after.read other = w.read other
  unnoticed : ∀ d ∈ after.context.hub.deliveries, ∀ other z, w.read other = .ok z →
    z.notifier = some d.notifier → other.name = place.name

/-- What a copy into a new instance leaves: the instance agrees with the source, belongs to no provider,
    and has no clients anywhere inside; the other named instances are as they were, and nobody was told
    anything. -/
structure Created (w after : Workspace) (name : String) (factory : Engine.Factory)
    (source : Settings) : Prop where
  made : ∃ y, after.read ⟨name, []⟩ = .ok y ∧ y.Agrees source ∧
    y.schema = factory.blueprint.schema ∧ y.kind = factory.kind ∧ y.provider = none ∧
    ∀ n ∈ y.notifiers, ∀ s ∈ after.context.hub.subscribers n, s.2.isClient = false
  others : ∀ other : Location, other.name ≠ name → after.read other = w.read other
  unnoticed : after.context.hub.deliveries = []

/-- Reading elsewhere does not see a new instance. -/
theorem read_putInstance {other : Location} {name : String} (h : other.name ≠ name) (x : Settings)
    (c : Context) : ({ w.putInstance name x with context := c } : Workspace).read other =
      w.read other := by
  unfold Workspace.read find putInstance
  dsimp only
  rw [Keyed.lookup_insert_of_ne h]

/-- An edit has nobody outside the instance's tree take note. -/
theorem Sound.confined (sound : w.Sound known) {name : String} {root y : Settings} {after : Hub}
    {ns : List Notice} (there : (name, root) ∈ w.instances)
    (evolves : Evolves root w.context.hub ns y after) (none : w.context.hub.deliveries = []) :
    ∀ d ∈ after.deliveries, ∀ other z, w.read other = .ok z → z.notifier = some d.notifier →
      other.name = name := by
  intro d mem other z hz hn
  have rooted : Rooted w.context.hub root := sound.forest.rooted _ there
  obtain ⟨added, deliveries, inside⟩ := (evolves.confined (fun m hm => Or.inl hm)
    (fun m le => Or.inr le) rooted.closed).deliveries
  rw [deliveries, none, List.nil_append] at mem
  obtain ⟨root', there', -, part', -⟩ := sound.read hz
  -- notifiers that came on the way are no instance's from before
  rcases inside d mem with at_root | fresh
  · have same := sound.forest.eq_of_mem_notifiers there' there (mem_notifiers.2 ⟨z, part', hn⟩) at_root
    exact congrArg Prod.fst same
  · exact absurd fresh (Nat.not_le.2 (sound.lt_size hz hn))

/-- The workspace after a copy from one tree into another. -/
theorem Sound.copy_eq (sound : w.Sound known) {place source : Location} {root x s : Settings}
    (found : w.instances.lookup place.name = some root) (followed : follow place.path root = .ok x)
    (read : w.read source = .ok s) (apart : source.name ≠ place.name)
    (writable : x.kind.isWritable = true) :
    w.copy place (some source) =
      ⟨((assign s x w.context).answer.mapError .failed).map fun _ => .nothing,
        { w.putInstance place.name (replaceAt place.path root (assign s x w.context).subject) with
          context := (assign s x w.context).context }⟩ := by
  have found_source : w.source place source = .ok s := by
    unfold Workspace.source
    rw [beq_false_of_ne apart]
    exact read
  unfold Workspace.copy
  dsimp only
  rw [sound.edit_writable found followed writable]
  dsimp only
  rw [mapM_some_of_eq_ok found_source]
  unfold ofDone Settings.copy
  dsimp only
  rw [if_pos writable]

/-- A copy of a source whose schema is not the target's changes nothing. -/
theorem Sound.copy_of_not_isA (sound : w.Sound known) {place source : Location} {x s : Settings}
    (read : w.read place = .ok x) (read' : w.read source = .ok s) (apart : source.name ≠ place.name)
    (writable : x.kind.isWritable = true) (differs : s.schema.isA x.schema.id = false) :
    w.copy place (some source) =
      ⟨.error (.failed (.schemaMismatch x.schema.name s.schema.name)), w⟩ := by
  obtain ⟨root, found, followed⟩ := read_eq_ok.1 read
  rw [sound.copy_eq found followed read' apart writable, assign_of_not_isA _ differs]
  dsimp only
  rw [sound.putInstance_self found followed]
  rfl

/-- A copy from one tree into another. -/
theorem Sound.copied (sound : w.Sound known) (none : w.context.hub.deliveries = [])
    {place source : Location} {x s : Settings} (read : w.read place = .ok x)
    (read' : w.read source = .ok s) (apart : source.name ≠ place.name)
    (writable : x.kind.isWritable = true) (exact : s.schema.Exact w.catalogs) :
    (s.schema.isA x.schema.id = true →
      (w.copy place (some source)).answer = .ok .nothing ∧
        Copied w (w.copy place (some source)).subject place x s) ∧
    (s.schema.isA x.schema.id = false →
      w.copy place (some source) =
        ⟨.error (.failed (.schemaMismatch x.schema.name s.schema.name)), w⟩) := by
  obtain ⟨root, found, followed⟩ := read_eq_ok.1 read
  have there := Keyed.mem_of_lookup found
  have root_conforms : root.Conforms known w.catalogs := sound.conforms _ there
  have rooted : Rooted w.context.hub root := sound.forest.rooted _ there
  have part := mem_parts_of_follow sound.registry root_conforms followed
  have conforms := root_conforms.part part
  obtain ⟨-, -, -, -, source_conforms⟩ := sound.read read'
  refine ⟨fun inherits => ?_, sound.copy_of_not_isA read read' apart writable⟩
  rw [sound.copy_eq found followed read' apart writable]
  have wired := rooted.toWired.part part
  have copyable : Copyable known w.catalogs s x :=
    ⟨source_conforms, exact, conforms, wired.writable_inside writable, inherits⟩
  have agrees := assign_agrees sound.registry w.context copyable
  -- for the hub, the copy evolves the instance, and with it the root that it is in
  have operated := operated_assign sound.registry s x w.context source_conforms.keysSorted conforms
  have provider := provider_assign s x w.context
  have subject_agrees := agrees.subject_agrees sound.registry copyable
  have root_operated := operated_replaceAt sound.registry root_conforms followed operated
  generalize assign s x w.context = d at *
  obtain ⟨ns, evolves, -⟩ := operated
  obtain ⟨ms, root_evolves, -⟩ := root_operated
  have alike := evolves.alike
  refine ⟨by rw [agrees.answer]; rfl, ⟨d.subject, ?_, subject_agrees, alike.schema, alike.kind,
    alike.notifier, provider⟩, fun n hn => ?_, fun other differs => ?_, ?_⟩
  · refine read_eq_ok.2 ⟨_, Keyed.lookup_insert_self .., ?_⟩
    have replaced := follow_replaceAt sound.registry root_conforms followed [] d.subject
    rwa [List.append_nil] at replaced
  · obtain ⟨calls, heq, same⟩ := (evolves.carries sound.tidy wired).leads.calls
    refine ⟨calls, heq, fun elsewhere => (same n (wired.self.lt n hn) ?_ elsewhere).1⟩
    exact wired.not_mem_inner hn (Nat.le_refl n)
  · exact read_putInstance differs _ _
  · exact sound.confined there root_evolves none

/-- Looking for a factory leaves the instances and the hub. -/
theorem factoryOf_frame (w : Workspace) (maker : Maker) :
    (w.factoryOf maker).subject.instances = w.instances ∧
      (w.factoryOf maker).subject.context.hub = w.context.hub := by
  unfold Workspace.factoryOf
  cases maker with
  | factory name => exact ⟨rfl, rfl⟩
  | schema name kind engine =>
      dsimp only
      split
      · exact ⟨rfl, rfl⟩
      · unfold Workspace.ask
        split <;> exact ⟨rfl, rfl⟩

/-- A new instance is a copy that the factory makes, if it makes one. -/
theorem create_eq {source : Location} {s : Settings} (read : w.read source = .ok s) (name : String)
    {maker : Maker} {factory : Engine.Factory}
    (available : (w.factoryOf maker).answer = .ok factory) :
    w.create name maker (some source) =
      match factory.create (some s) (w.factoryOf maker).subject.context with
      | (.error e, c) => ⟨.error (.failed e), { (w.factoryOf maker).subject with context := c }⟩
      | (.ok x, c) =>
        ⟨.ok (.shape x.shape), { (w.factoryOf maker).subject.putInstance name x with context := c }⟩ := by
  unfold Workspace.create
  rw [mapM_some_of_eq_ok read]
  dsimp only
  generalize w.factoryOf maker = attempt at available
  obtain ⟨answer, w'⟩ := attempt
  cases available
  rfl

/-- A copy into a new instance. -/
theorem Sound.created (sound : w.Sound known) (none : w.context.hub.deliveries = [])
    {source : Location} {s : Settings} (read : w.read source = .ok s)
    (exact : s.schema.Exact w.catalogs) (name : String) {maker : Maker} {factory : Engine.Factory}
    (available : (w.factoryOf maker).answer = .ok factory) :
    (s.schema.isA factory.blueprint.schema.id = true →
      (w.create name maker (some source)).answer = .ok (.shape factory.shape) ∧
        Created w (w.create name maker (some source)).subject name factory s) ∧
    (s.schema.isA factory.blueprint.schema.id = false →
      (w.create name maker (some source)).answer =
          .error (.failed (.schemaMismatch factory.blueprint.schema.name s.schema.name)) ∧
        (w.create name maker (some source)).subject.instances = w.instances ∧
        (w.create name maker (some source)).subject.context.hub.deliveries = []) := by
  obtain ⟨-, -, -, -, source_conforms⟩ := sound.read read
  obtain ⟨-, -, made_for⟩ := sound.factoryOf maker
  obtain ⟨t, ht, made_for⟩ := made_for factory available
  obtain ⟨instances, hub⟩ := factoryOf_frame w maker
  have tidy : (w.factoryOf maker).subject.context.hub.Tidy := hub ▸ sound.tidy
  obtain ⟨agrees, fails⟩ := made_for.create_agrees sound.registry ht factory.engine factory.kind
    source_conforms exact (w.factoryOf maker).subject.context tidy
  rw [create_eq read name available, made_for.schema_eq]
  unfold Engine.Factory.create
  constructor
  · intro inherits
    obtain ⟨y, after, created, there, schema, kind, provider, quiet, deliveries⟩ := agrees inherits
    rw [created]
    refine ⟨?_, ⟨y, read_eq_ok.2 ⟨y, Keyed.lookup_insert_self .., rfl⟩, there,
      schema.trans made_for.schema_eq.symm, kind, provider, quiet⟩, fun other differs => ?_, ?_⟩
    · dsimp only
      unfold Settings.shape Engine.Factory.shape
      rw [schema, kind, made_for.schema_eq]
    · exact (read_putInstance differs y after).trans (read_congr instances other)
    · rw [← none, ← hub]
      exact deliveries
  · intro differs
    obtain ⟨after, created, deliveries⟩ := fails differs
    rw [created]
    refine ⟨rfl, instances, ?_⟩
    rw [← none, ← hub]
    exact deliveries

/-- Looking for a factory does not see the context. -/
theorem answer_factoryOf_fresh (w : Workspace) (maker : Maker) :
    (w.fresh.factoryOf maker).answer = (w.factoryOf maker).answer := by
  cases maker with
  | factory name => rfl
  | schema name kind engine =>
      unfold Workspace.factoryOf
      have same : w.fresh.schema name = w.schema name := rfl
      dsimp only
      rw [same]
      cases w.schema name with
      | error e => rfl
      | ok s =>
          have handle : w.fresh.handle engine = w.handle engine := rfl
          have found : w.fresh.engine engine = w.engine engine := rfl
          dsimp only
          unfold Workspace.ask
          rw [handle, found]
          cases w.handle engine with
          | error e => rfl
          | ok index => cases w.engine engine <;> rfl

/-- Take a workspace that a run reaches and any instance in it, as a source, and assume that all first
    values of its schema and of those nested in it fit their types exactly. A step that copies the
    source into a writable instance of another tree works if the source's schema is that instance's or
    inherits from it (`Copied`); otherwise its answer says that the schemas do not match, and nothing
    changes. So it is with a step that makes an instance of any kind as a copy of the source
    (`Created`). -/
theorem copies_agree (reachable : w.Reachable) {source : Location} {s : Settings}
    (read : w.read source = .ok s) (exact : s.schema.Exact w.catalogs) :
    (∀ place x, w.read place = .ok x → source.name ≠ place.name → x.kind.isWritable = true →
      (s.schema.isA x.schema.id = true →
        (w.perform (.copy place (some source))).answer = .ok .nothing ∧
          Copied w (w.perform (.copy place (some source))).subject place x s) ∧
      (s.schema.isA x.schema.id = false →
        w.perform (.copy place (some source)) =
          ⟨.error (.failed (.schemaMismatch x.schema.name s.schema.name)), w.fresh⟩)) ∧
    ∀ name maker factory, (w.factoryOf maker).answer = .ok factory →
      (s.schema.isA factory.blueprint.schema.id = true →
        (w.perform (.create name maker (some source))).answer = .ok (.shape factory.shape) ∧
          Created w (w.perform (.create name maker (some source))).subject name factory s) ∧
      (s.schema.isA factory.blueprint.schema.id = false →
        (w.perform (.create name maker (some source))).answer =
            .error (.failed (.schemaMismatch factory.blueprint.schema.name s.schema.name)) ∧
          (w.perform (.create name maker (some source))).subject.instances = w.instances ∧
          (w.perform (.create name maker (some source))).subject.context.hub.deliveries = []) := by
  obtain ⟨known, sound⟩ := reachable.sound
  have sound := sound.fresh
  have read : w.fresh.read source = .ok s := read
  constructor
  · intro place x there apart writable
    obtain ⟨works, fails⟩ := sound.copied rfl there read apart writable exact
    refine ⟨fun inherits => ?_, fails⟩
    obtain ⟨answer, copied⟩ := works inherits
    exact ⟨answer, copied.target, copied.subscribers, copied.others, copied.unnoticed⟩
  · intro name maker factory available
    rw [← answer_factoryOf_fresh] at available
    obtain ⟨works, fails⟩ := sound.created rfl read exact name available
    refine ⟨fun inherits => ?_, fails⟩
    obtain ⟨answer, created⟩ := works inherits
    exact ⟨answer, created.made, created.others, created.unnoticed⟩

/-- The plain shelf becomes a copy of the other one. -/
theorem copies_the_shelf :
    ∃ s x, shelves.read ⟨"first", []⟩ = .ok s ∧ shelves.read ⟨"second", []⟩ = .ok x ∧
      s.schema.Exact shelves.catalogs ∧
      (shelves.perform (.copy ⟨"second", []⟩ (some ⟨"first", []⟩))).answer = .ok .nothing ∧
      Copied shelves (shelves.perform (.copy ⟨"second", []⟩ (some ⟨"first", []⟩))).subject
        ⟨"second", []⟩ x s := by
  obtain ⟨s, read, schema⟩ : ∃ s, shelves.read ⟨"first", []⟩ = .ok s ∧ s.schema = .mk ⟨1⟩ "Shelf" none
      [⟨"title", .value .str, []⟩,
        ⟨"entries", .dict (.mk ⟨0⟩ "Entry" none [⟨"count", .value .int, []⟩] [("count", 0)]), []⟩]
      [("entries", 1), ("title", 0)] := ⟨_, rfl, rfl⟩
  have exact : s.schema.Exact shelves.catalogs := by
    refine Schema.exact_of_no_defaults fun t reaches p hp => ?_
    rw [schema] at reaches
    rcases Schema.reaches_iff.1 reaches with rfl | ⟨u, mem, reaches⟩
    · rcases List.mem_pair.1 hp with rfl | rfl <;> rfl
    · cases List.mem_singleton.1 mem
      rcases Schema.reaches_iff.1 reaches with rfl | ⟨v, mem, -⟩
      · cases List.mem_singleton.1 hp
        rfl
      · cases mem
  obtain ⟨works, -⟩ := (copies_agree reachable_shelves read exact).1 ⟨"second", []⟩ _ rfl (by decide) rfl
  rw [schema] at works
  exact ⟨s, _, read, rfl, exact, works rfl⟩

end Workspace

end SettingsForge
