import SettingsForge.Proofs.Settings.Resetting
import SettingsForge.Proofs.Workspace.Reading
import SettingsForge.Proofs.Workspace.Subscriptions

set_option autoImplicit false

/-! # Resets restore the defaults

A reset brings an instance to what its engine makes as the defaults, whatever the instance holds and
whichever engine has made it, and announces just where it departed from them
(`Workspace.resets_to_the_defaults`). -/

namespace SettingsForge

open Hub Settings

/-! ## Subscriptions -/

/-- A subscription stands as long as nobody ends it. -/
theorem Call.Live.append {n : NotifierId} {id : SubscriptionId} {calls earlier : List Call}
    (live : Live n id earlier) (kept : .unsubscribed n id ∉ calls) :
    Live n id (calls ++ earlier) := by
  induction calls with
  | nil => exact live
  | cons call calls ih =>
      obtain ⟨own, others⟩ := not_or.1 (List.mem_cons.not.1 kept)
      cases call with
      | subscribed m i => exact Or.inr (ih others)
      | unsubscribed m i =>
          exact ⟨fun same => own (by rw [same.1, same.2]), ih others⟩

/-- A client whose subscription nobody ends stays subscribed. -/
theorem Hub.Leads.stays_client {dropped : NotifierId → Prop} {hub after : Hub}
    (leads : Leads dropped hub after) (tidy : hub.Tidy) (recorded : hub.Recorded)
    (recorded' : after.Recorded) {calls : List Call} (same : after.calls = calls ++ hub.calls)
    {n : NotifierId} (lt : n < hub.size) {id : SubscriptionId} {client : String} {reaction : Reaction}
    (early : (id, .client client reaction) ∈ hub.subscribers n) (kept : .unsubscribed n id ∉ calls) :
    (id, .client client reaction) ∈ after.subscribers n := by
  have live := ((recorded.live n id).2 ⟨client, reaction, early⟩).append kept
  rw [← same] at live
  obtain ⟨client', reaction', later⟩ := (recorded'.live n id).1 live
  -- the number was given once only
  have below : id < hub.next n := tidy.below n _ early
  have there := leads.stays lt later below
  rwa [List.inj_on_of_nodup_map (tidy.nodup n) there early rfl] at later

/-! ## Fresh defaults -/

/-- Fresh defaults of any kind are made from the plans for the reading kind. -/
theorem Engine.Held.fresh_defaults {known : Schema → Prop} {engine : Engine} (held : engine.Held known)
    (identified : Schema.Identified known) {s : Schema} (hs : known s) {factory : Engine.Factory}
    (available : (engine.factory s .read).answer = .ok factory) {kind : Kind} {c : Context}
    {fresh : Settings} (made : (engine.create s kind none c).answer = .ok fresh) :
    ∃ serial hub, fresh = (factory.blueprint.make serial kind hub).1 := by
  obtain ⟨_, holds⟩ := held
  rw [answer_factory identified holds hs] at available
  obtain ⟨blueprint, reading, rfl⟩ := exists_of_map_eq_ok available
  unfold Engine.create at made
  cases answer : (engine.factory s kind).answer with
  | error e =>
      simp only [answer] at made
      cases made
  | ok factory =>
      simp only [answer] at made
      rw [answer_factory identified holds hs] at answer
      obtain ⟨same, own, rfl⟩ := exists_of_map_eq_ok answer
      -- the plans do not depend on the kind
      cases (Resolution.blueprintFor_eq_ok.1 reading).1.symm.trans
        (Resolution.blueprintFor_eq_ok.1 own).1
      obtain rfl := Except.ok.inj made
      exact ⟨_, _, rfl⟩

namespace Workspace

variable {known : Schema → Prop} {w : Workspace} {place : Location} {name : String} {engine : Engine}
  {x root : Settings}

/-- What a reset leaves: an instance that is the same one, agrees with the defaults, and has empty
    dictionaries; the other named instances as they were; at the instance the clients from before, except
    whom a client had end there; and at each of these one note of every property in which the instance
    departed from the defaults, in this order. -/
structure ResetTo (w after : Workspace) (place : Location) (x d : Settings) : Prop where
  target : ∃ y, after.read place = .ok y ∧ y.Agrees d ∧
    (∀ slot ∈ y.slots, slot.content.entries = []) ∧ y.schema = x.schema ∧ y.kind = x.kind ∧
    y.notifier = x.notifier ∧ y.provider = x.provider
  others : ∀ other : Location, other.name ≠ place.name → after.read other = w.read other
  subscribers : ∃ calls, after.context.hub.calls = calls ++ w.context.hub.calls ∧
    ∀ n, x.notifier = some n → ∀ id client reaction,
      (id, .client client reaction) ∈ w.context.hub.subscribers n → .unsubscribed n id ∉ calls →
      (id, .client client reaction) ∈ after.context.hub.subscribers n
  told : ∀ n, x.notifier = some n → ∀ id client reaction,
    (id, .client client reaction) ∈ w.context.hub.subscribers n →
    (id, .client client reaction) ∈ after.context.hub.subscribers n →
    after.context.hub.deliveries.filter (fun d => d.notifier == n && d.subscription == id) =
      (x.departures d).map fun property => ⟨n, id, client, property⟩

/-! ## Resets -/

theorem exists_handle (he : w.engine name = .ok engine) : ∃ index, w.handle name = .ok index := by
  unfold Workspace.engine at he
  cases hindex : w.handle name with
  | error o =>
      rw [hindex] at he
      cases he
  | ok index => exact ⟨index, rfl⟩

/-- A reset of an instance that may be written. -/
theorem Sound.reset_eq (sound : w.Sound known) (found : w.instances.lookup place.name = some root)
    (followed : follow place.path root = .ok x) (writable : x.kind.isWritable = true) {index : Nat}
    (hindex : w.handle name = .ok index) (he : w.engine name = .ok engine) :
    w.reset place name =
      ⟨((engine.reset x w.context).1.answer.map fun _ => Report.nothing).mapError .failed,
        ({ w.putInstance place.name (replaceAt place.path root (engine.reset x w.context).1.subject) with
          context := (engine.reset x w.context).1.context } : Workspace).setEngine index
            (engine.reset x w.context).2⟩ := by
  show afterReset (w.edit place (resetting w name)) = _
  rw [sound.edit_writable found followed writable]
  unfold resetting
  rw [hindex, he]
  rfl

/-- The engine behind the handle of a reset has learned. -/
theorem engine_setEngine {v : Workspace} {index : Nat} {learned : Engine}
    (handles : v.handles = w.handles) (engines : v.engines = w.engines)
    (hindex : w.handle name = .ok index) (he : w.engine name = .ok engine) :
    (v.setEngine index learned).engine name = .ok learned := by
  have same : (v.setEngine index learned).handle name = .ok index := by
    rw [← hindex]
    exact handle_eq (w := w) handles name
  unfold Workspace.engine at he ⊢
  rw [hindex] at he
  rw [same]
  simp only [bind, Except.bind] at he ⊢
  have lt : index < w.engines.length := by
    split at he
    · next there => exact (List.getElem?_eq_some_iff.1 there).1
    · cases he
  have set : (v.setEngine index learned).engines[index]? = some learned :=
    List.getElem?_set_self (by rw [engines]; exact lt)
  rw [set]
  rfl

namespace Sound

/-- The defaults that an engine behind a handle makes. -/
theorem defaults (sound : w.Sound known) (he : w.engine name = .ok engine) {s : Schema} (hs : known s)
    {factory : Engine.Factory} (available : (engine.factory s .read).answer = .ok factory)
    (exact : ∀ plan ∈ factory.blueprint.slots, SlotPlan.Exact plan) :
    Defaults known w.catalogs s (factory.blueprint.make factory.engine .read {}).1 := by
  obtain ⟨index, hindex⟩ := exists_handle he
  obtain ⟨-, held, mem⟩ := sound.engine hindex he
  exact (held.madeFor sound.registry.toIdentified hs available mem).defaults hs exact factory.engine .read {}

/-- A reset brings the instance to defaults that fit, and leaves the other instances. If it was brought to
    them before, nothing comes of it unless there is a not-a-number in them. -/
theorem reset_defaulted (sound : w.Sound known) (read : w.read place = .ok x)
    (writable : x.kind.isWritable = true) (he : w.engine name = .ok engine) {factory : Engine.Factory}
    (available : (engine.factory x.schema .read).answer = .ok factory)
    (exact : ∀ plan ∈ factory.blueprint.slots, SlotPlan.Exact plan) :
    (w.reset place name).answer = .ok .nothing ∧
      (w.reset place name).subject.engine name = .ok (engine.factory x.schema .read).engine ∧
      (∀ other : Location, other.name ≠ place.name →
        (w.reset place name).subject.read other = w.read other) ∧
      (∃ y, (w.reset place name).subject.read place = .ok y ∧
        Defaulted (factory.blueprint.make factory.engine .read {}).1 x y w.context.hub
          (w.reset place name).subject.context.hub ∧
        x.Operated w.context.hub y (w.reset place name).subject.context.hub) ∧
      ∀ before hub after, Defaulted (factory.blueprint.make factory.engine .read {}).1 before x hub after →
        (factory.blueprint.make factory.engine .read {}).1.snapshot.hasNan = false →
        (w.reset place name).subject.instances = w.instances ∧
          (w.reset place name).subject.context.hub.deliveries = w.context.hub.deliveries := by
  obtain ⟨root, found, followed⟩ := read_eq_ok.1 read
  obtain ⟨index, hindex⟩ := exists_handle he
  have there := Keyed.mem_of_lookup found
  have root_conforms : root.Conforms known w.catalogs := sound.conforms _ there
  have part := mem_parts_of_follow sound.registry root_conforms followed
  have conforms := root_conforms.part part
  have wired := (sound.forest.rooted _ there).toWired.part part
  obtain ⟨answer, defaulted, again⟩ := Engine.reset_defaults sound.registry conforms wired writable
    available (sound.defaults he conforms.self.known available exact)
  have operated := engine.operated_reset sound.registry conforms w.context
  rw [sound.reset_eq found followed writable hindex he, Engine.snd_reset]
  generalize (engine.reset x w.context).1 = d at *
  refine ⟨by rw [answer]; rfl, engine_setEngine rfl rfl hindex he,
    fun other differs => read_putInstance differs _ d.context, ⟨d.subject, ?_, defaulted, operated⟩, ?_⟩
  · refine read_eq_ok.2 ⟨_, Keyed.lookup_insert_self .., ?_⟩
    have replaced := follow_replaceAt sound.registry root_conforms followed [] d.subject
    rwa [List.append_nil] at replaced
  · intro before hub after earlier proper
    obtain ⟨same, deliveries⟩ := again before hub after earlier proper
    refine ⟨?_, deliveries⟩
    show (w.putInstance place.name (replaceAt place.path root d.subject)).instances = w.instances
    rw [same, sound.putInstance_self found followed]

/-- What a reset leaves, if the engine has defaults that fit. -/
theorem resetTo (sound : w.Sound known) (none : w.context.hub.deliveries = [])
    (recorded : w.context.hub.Recorded)
    (recorded' : (w.reset place name).subject.context.hub.Recorded) (read : w.read place = .ok x)
    (writable : x.kind.isWritable = true) (he : w.engine name = .ok engine) {factory : Engine.Factory}
    (available : (engine.factory x.schema .read).answer = .ok factory)
    (exact : ∀ plan ∈ factory.blueprint.slots, SlotPlan.Exact plan) {fresh : Settings}
    (reads : fresh.get = (factory.blueprint.make factory.engine .read {}).1.get) :
    ResetTo w (w.reset place name).subject place x fresh := by
  obtain ⟨_, there, -, part, conforms⟩ := sound.read read
  have wired := (sound.forest.rooted _ there).toWired.part part
  have defaults := sound.defaults he conforms.self.known available exact
  obtain ⟨-, -, others, ⟨y, read_after, defaulted, ns, evolves, -⟩, -⟩ :=
    sound.reset_defaulted read writable he available exact
  have leads := (evolves.carries sound.tidy wired).leads
  have departures : x.departures fresh = x.departures (factory.blueprint.make factory.engine .read {}).1 := by
    unfold departures
    rw [reads]
  refine ⟨⟨y, read_after, defaulted.agrees sound.registry defaults reads, defaulted.entries_eq,
    defaulted.alike.schema, defaulted.alike.kind, defaulted.alike.notifier, defaulted.provider⟩, others,
    ?_, fun n own id client reaction early late => ?_⟩
  · obtain ⟨calls, same, -⟩ := leads.calls
    refine ⟨calls, same, fun n own id client reaction early kept => ?_⟩
    exact leads.stays_client sound.tidy recorded recorded' same (wired.self.lt n own) early kept
  · have signals := defaulted.signals
    rw [own] at signals
    obtain ⟨added, deliveries, -, notes⟩ :=
      (signals.heard sound.tidy (wired.self.lt n own)).exists_notice
    rw [none, List.nil_append] at deliveries
    have noted := notes id client reaction early late
    rw [List.map_map] at noted
    rw [deliveries, departures]
    exact noted

/-- A second reset by the same engine finds the instance at the defaults. -/
theorem reset_again (sound : w.Sound known) (read : w.read place = .ok x)
    (writable : x.kind.isWritable = true) (he : w.engine name = .ok engine) {factory : Engine.Factory}
    (available : (engine.factory x.schema .read).answer = .ok factory)
    (exact : ∀ plan ∈ factory.blueprint.slots, SlotPlan.Exact plan)
    (proper : (factory.blueprint.make factory.engine .read {}).1.snapshot.hasNan = false) :
    ((w.reset place name).subject.fresh.reset place name).answer = .ok .nothing ∧
      ((w.reset place name).subject.fresh.reset place name).subject.instances =
        (w.reset place name).subject.instances ∧
      ((w.reset place name).subject.fresh.reset place name).subject.context.hub.deliveries = [] := by
  obtain ⟨-, he_after, -, ⟨y, read_after, defaulted, -⟩, -⟩ :=
    sound.reset_defaulted read writable he available exact
  obtain ⟨index, hindex⟩ := exists_handle he
  obtain ⟨-, held, -⟩ := sound.engine hindex he
  obtain ⟨_, _, -, -, conforms⟩ := sound.read read
  have hs := conforms.self.known
  obtain ⟨same_held, learns⟩ := held.factory sound.registry.toIdentified hs .read
  have available_after :
      ((engine.factory x.schema .read).engine.factory y.schema .read).answer = .ok factory := by
    rw [defaulted.alike.schema, ← available]
    exact same_held.factory_alike sound.registry.toIdentified held learns.serial learns.catalog hs .read
  have writable_after : y.kind.isWritable = true := by rw [defaulted.alike.kind, writable]
  obtain ⟨answer, -, -, -, idle⟩ := (sound.reset place name).1.fresh.reset_defaulted read_after
    writable_after he_after available_after exact
  exact ⟨answer, idle x _ _ defaulted proper⟩

/-- An engine without defaults for the schema leaves everything as it is. -/
theorem reset_unavailable (sound : w.Sound known) (read : w.read place = .ok x)
    (writable : x.kind.isWritable = true) (he : w.engine name = .ok engine) {e : SettingsError}
    (failed : (engine.factory x.schema .read).answer = .error e) :
    (w.reset place name).Refused w (.failed e) := by
  obtain ⟨root, found, followed⟩ := read_eq_ok.1 read
  obtain ⟨index, hindex⟩ := exists_handle he
  obtain ⟨answer, subject, hub⟩ := Engine.reset_of_unavailable failed w.context
  rw [sound.reset_eq found followed writable hindex he]
  refine ⟨by rw [answer]; rfl, ?_, hub⟩
  show (w.putInstance place.name (replaceAt place.path root _)).instances = _
  rw [subject, sound.putInstance_self found followed]

/-- Nothing is reset at the reading kind, which the whole tree is then of. -/
theorem reset_reading (sound : w.Sound known) (read : w.read place = .ok x) (reading : x.kind = .read)
    (engine : String) : ∃ o, (w.reset place engine).Refused w o := by
  obtain ⟨root, found, followed⟩ := read_eq_ok.1 read
  obtain ⟨name, path⟩ := place
  have there := Keyed.mem_of_lookup found
  have conforms : root.Conforms known w.catalogs := sound.conforms _ there
  have part := mem_parts_of_follow sound.registry conforms followed
  have root_reading : root.kind = .read := by
    rw [← (sound.forest.rooted _ there).toWired.kind_eq part, reading]
  have closed := sound.closed_of_unwritable found (conforms.unwritable sound.registry root_reading)
  cases path with
  | nil => exact ⟨_, closed.reset engine⟩
  | cons step path =>
      exact ⟨_, closed.inside (.reset ⟨name, step :: path⟩ engine) step.1 step.2 path rfl⟩

end Sound

/-- Take a workspace that a run reaches, any instance in it, at any depth, and any engine, also one that
    has not made the instance. If the instance may be written and the engine has defaults of the reading
    kind for its schema, from initializers that make values that fit exactly, then a reset works, and it
    does what `ResetTo` says, for the defaults as the engine makes them fresh, of any kind; the properties
    are announced in the order of the schema. If there is no not-a-number in the defaults, then a second
    reset works as well, no instance changes, and nobody takes a note. If the engine has no defaults, or
    the instance is of the reading kind, then the reset fails, no instance changes, and nobody takes a
    note. -/
theorem resets_to_the_defaults (reachable : w.Reachable) (read : w.read place = .ok x)
    (he : w.engine name = .ok engine) :
    x.names = x.schema.properties.map PropertyOf.name ∧
    (∀ factory, x.kind.isWritable = true → (engine.factory x.schema .read).answer = .ok factory →
      (∀ plan ∈ factory.blueprint.slots, SlotPlan.Exact plan) →
      (w.perform (.reset place name)).answer = .ok .nothing ∧
      ∀ kind c fresh, (engine.create x.schema kind none c).answer = .ok fresh →
        ResetTo w (w.perform (.reset place name)).subject place x fresh ∧
        (fresh.snapshot.hasNan = false →
          ((w.perform (.reset place name)).subject.perform (.reset place name)).answer = .ok .nothing ∧
          ((w.perform (.reset place name)).subject.perform (.reset place name)).subject.instances =
            (w.perform (.reset place name)).subject.instances ∧
          ((w.perform (.reset place name)).subject.perform
            (.reset place name)).subject.context.hub.deliveries = [])) ∧
    (∀ e, x.kind.isWritable = true → (engine.factory x.schema .read).answer = .error e →
      (w.perform (.reset place name)).Refused w.fresh (.failed e)) ∧
    (x.kind = .read → ∃ o, (w.perform (.reset place name)).Refused w.fresh o) := by
  obtain ⟨known, sound⟩ := reachable.sound
  have recorded := reachable.recorded.fresh.hub
  have recorded_after := (reachable.run [.reset place name]).recorded.hub
  have sound := sound.fresh
  have read : w.fresh.read place = .ok x := read
  have he : w.fresh.engine name = .ok engine := he
  obtain ⟨_, _, -, -, conforms⟩ := sound.read read
  refine ⟨conforms.self.names_eq, fun factory writable available exact => ?_,
    fun e writable failed => sound.reset_unavailable read writable he failed,
    fun reading => sound.reset_reading read reading name⟩
  obtain ⟨answer, -⟩ := sound.reset_defaulted read writable he available exact
  refine ⟨answer, fun kind c fresh made => ?_⟩
  -- fresh defaults are the ones that the reset copies, but for their kind
  obtain ⟨index, hindex⟩ := exists_handle he
  obtain ⟨-, held, -⟩ := sound.engine hindex he
  obtain ⟨serial, hub, rfl⟩ :=
    held.fresh_defaults sound.registry.toIdentified conforms.self.known available made
  have reset := sound.resetTo rfl recorded recorded_after read writable he available exact
    (factory.blueprint.get_make_eq serial factory.engine kind .read hub {})
  refine ⟨⟨reset.target, reset.others, reset.subscribers, reset.told⟩, fun proper => ?_⟩
  rw [factory.blueprint.snapshot_make serial factory.engine kind .read hub {}] at proper
  exact sound.reset_again read writable he available exact proper

/-! ### A shelf is cleared -/

/-- The shelves, of which the first one has a title, and an engine that has made neither. -/
def titled : Workspace :=
  shelves.run [.set ⟨"first", []⟩ "title" (.str "atlases"), .newEngine "other" .empty]

theorem reachable_titled : titled.Reachable := reachable_shelves.run _

/-- The other engine clears the shelf, and the client there is told of the title and of the entries. -/
theorem clears_the_shelf :
    ∃ x y, titled.read ⟨"first", []⟩ = .ok x ∧
      (titled.perform (.reset ⟨"first", []⟩ "other")).answer = .ok .nothing ∧
      (titled.perform (.reset ⟨"first", []⟩ "other")).subject.read ⟨"first", []⟩ = .ok y ∧
      (∀ slot ∈ y.slots, slot.content.entries = []) ∧
      (titled.perform (.reset ⟨"first", []⟩ "other")).subject.context.hub.deliveries.filter
          (fun d => d.notifier == 0 && d.subscription == 0) =
        [⟨0, 0, "view", "title"⟩, ⟨0, 0, "view", "entries"⟩] := by
  obtain ⟨x, engine, factory, fresh, read, he, writable, own, available, made, plans, departures⟩ :
      ∃ x engine factory fresh, titled.read ⟨"first", []⟩ = .ok x ∧
        titled.engine "other" = .ok engine ∧ x.kind.isWritable = true ∧ x.notifier = some 0 ∧
        (engine.factory x.schema .read).answer = .ok factory ∧
        (engine.create x.schema .read none {}).answer = .ok fresh ∧
        (∃ entry, factory.blueprint.slots =
          [⟨"title", .value .str .zero⟩, ⟨"entries", .entries entry⟩]) ∧
        x.departures fresh = ["title", "entries"] := by
    refine ⟨_, _, _, _, rfl, rfl, rfl, rfl, rfl, rfl, ⟨_, rfl⟩, ?_⟩
    decide +kernel
  have exact : ∀ plan ∈ factory.blueprint.slots, SlotPlan.Exact plan := by
    obtain ⟨entry, plans⟩ := plans
    intro plan mem type initializer value
    rw [plans] at mem
    rcases List.mem_pair.1 mem with rfl | rfl
    · cases value
      rfl
    · cases value
  obtain ⟨answer, reset⟩ :=
    (resets_to_the_defaults reachable_titled read he).2.1 factory writable available exact
  obtain ⟨⟨target, -, -, told⟩, -⟩ := reset .read {} fresh made
  obtain ⟨y, read_after, -, empty, -⟩ := target
  refine ⟨x, y, read, answer, read_after, empty, ?_⟩
  rw [told 0 own 0 "view" {} (by decide +kernel) (by decide +kernel), departures]
  rfl

end Workspace

end SettingsForge
