import SettingsForge.Proofs.Engine.Requests
import SettingsForge.Proofs.Engine.Serving
import SettingsForge.Proofs.Settings.Places
import SettingsForge.Proofs.Workspace.Forest
import SettingsForge.Workspace.Perform

set_option autoImplicit false

/-! # Sound workspaces

`Workspace.Sound` is what holds of every workspace that a run reaches: the schemas are the ones that
were built, engines hold their resolutions, instances conform, and they are a forest. Here it is shown
that what the steps are made of keeps a workspace sound: asking an engine, building a schema, editing an
instance at a location, and making a new one. -/

namespace SettingsForge

open Hub Settings

/-! ## Engines -/

namespace Engine

/-- An engine holds the resolutions of known schemas only. -/
def Held (known : Schema → Prop) (engine : Engine) : Prop :=
  ∃ schemas, Holds known engine.serial engine.catalog schemas engine

variable {known : Schema → Prop} {engine : Engine} {s : Schema}

theorem held_unused (known : Schema → Prop) (serial : EngineId) (catalog : Catalog) :
    Held known (unused serial catalog) := ⟨[], holds_unused known serial catalog⟩

theorem Held.mono {later : Schema → Prop} (h : Held known engine) (wider : ∀ s, known s → later s) :
    Held later engine := by
  obtain ⟨schemas, complete, engine_eq⟩ := h
  exact ⟨schemas, { complete with known := fun s mem => wider s (complete.known s mem) }, engine_eq⟩

theorem Held.factory (identified : Schema.Identified known) (h : Held known engine) (hs : known s)
    (kind : Kind) :
    Held known (engine.factory s kind).engine ∧ Learns engine (engine.factory s kind).engine := by
  obtain ⟨schemas, holds⟩ := h
  obtain ⟨-, added, holds, -⟩ := resolution_spec identified holds hs
  have learns := learns_factory engine s kind
  refine ⟨⟨added ++ schemas, ?_⟩, learns⟩
  rw [learns.serial, learns.catalog]
  exact holds

/-- A factory makes instances from the schema's blueprint. -/
theorem Held.madeFor (identified : Schema.Identified known) (h : Held known engine) (hs : known s)
    {kind : Kind} {factory : Factory} (answer : (engine.factory s kind).answer = .ok factory)
    {catalogs : List Catalog} (mem : engine.catalog ∈ catalogs) :
    factory.blueprint.MadeFor catalogs s := by
  obtain ⟨schemas, holds⟩ := h
  rw [answer_factory identified holds hs] at answer
  refine ⟨engine.catalog, mem, ?_⟩
  cases found : (s.resolve engine.catalog).blueprintFor kind with
  | error e =>
      rw [found] at answer
      cases answer
  | ok blueprint =>
      rw [found] at answer
      cases answer
      unfold Resolution.blueprintFor at found
      split at found
      · cases found
      · next own _ =>
        cases found
        exact own
      · next own _ =>
        split at found
        · cases found
        · cases found
          exact own

/-- A reset leaves the engine as asking for the defaults does. -/
theorem snd_reset (engine : Engine) (x : Settings) (c : Context) :
    (engine.reset x c).2 = (engine.factory x.schema .read).engine := by
  unfold Engine.reset Engine.create
  dsimp only
  cases (engine.factory x.schema .read).answer with
  | error e => rfl
  | ok factory =>
      dsimp only
      cases (factory.create none
        ((c.note [.resetStarted x.schema.name x.kind]).note
          (engine.factory x.schema .read).journal)).1 <;> rfl

theorem Held.reset (identified : Schema.Identified known) (h : Held known engine) {x : Settings}
    (hs : known x.schema) (c : Context) :
    Held known (engine.reset x c).2 ∧ Learns engine (engine.reset x c).2 := by
  rw [snd_reset]
  exact h.factory identified hs .read

end Engine

namespace Workspace

/-! ## Edits -/

theorem find_eq_ok {β : Type} {table : List (String × β)} {name : String} {what : Missing} {x : β} :
    find table name what = .ok x ↔ table.lookup name = some x := by
  unfold find
  cases table.lookup name <;> simp

theorem read_eq_ok {w : Workspace} {place : Location} {x : Settings} :
    w.read place = .ok x ↔
      ∃ root, w.instances.lookup place.name = some root ∧ follow place.path root = .ok x := by
  unfold Workspace.read find
  cases w.instances.lookup place.name with
  | none => simp [bind, Except.bind]
  | some root =>
      simp only [bind, Except.bind, Except.mapError, Option.some.injEq, exists_eq_left']
      cases follow place.path root <;> simp

/-- What is done to instances that conform are operations. -/
def Operates (known : Schema → Prop) (catalogs : List Catalog) {α : Type}
    (f : Settings → Context → Except Obstacle α × Settings × Context) : Prop :=
  ∀ (x : Settings) (c : Context), x.Conforms known catalogs →
    x.Operated c.hub (f x c).2.1 (f x c).2.2.hub

/-- What an edit does: it leads nowhere, or works on the instance at the place. -/
inductive EditCases {α : Type} (w : Workspace) (place : Location)
    (f : Settings → Context → Except Obstacle α × Settings × Context) : Attempt Workspace α → Prop
  | nowhere {o : Obstacle} {c : Context} :
      c.hub = w.context.hub → EditCases w place f ⟨.error o, { w with context := c }⟩
  | there {root x : Settings} {c : Context} :
      (place.name, root) ∈ w.instances → w.instances.lookup place.name = some root →
      follow place.path root = .ok x → c.hub = w.context.hub →
      EditCases w place f ⟨(f x c).1,
        { w.putInstance place.name (replaceAt place.path root (f x c).2.1) with
          context := (f x c).2.2 }⟩

theorem edit_cases {α : Type} (w : Workspace) (place : Location)
    (f : Settings → Context → Except Obstacle α × Settings × Context) :
    EditCases w place f (w.edit place f) := by
  unfold Workspace.edit
  cases found : find w.instances place.name .settings with
  | error e => exact .nowhere rfl
  | ok root =>
      obtain ⟨same, leads⟩ := followForEdit_spec place.path root w.context
      have found := find_eq_ok.1 found
      dsimp only
      generalize followForEdit place.path root w.context = followed at same leads
      obtain ⟨answer, c⟩ := followed
      cases answer with
      | error fault => exact .nowhere same
      | ok x => exact .there (Keyed.mem_of_lookup found) found (leads x rfl) same

/-- Where everything may be written, an edit works. -/
theorem edit_eq {α : Type} {w : Workspace} {place : Location} {x root : Settings}
    (found : w.instances.lookup place.name = some root)
    (followed : follow place.path root = .ok x)
    (writable : ∀ z ∈ root.parts, z.kind.isWritable = true)
    (f : Settings → Context → Except Obstacle α × Settings × Context) :
    w.edit place f = ⟨(f x w.context).1,
      { w.putInstance place.name (replaceAt place.path root (f x w.context).2.1) with
        context := (f x w.context).2.2 }⟩ := by
  unfold Workspace.edit
  rw [find_eq_ok.2 found]
  dsimp only
  rw [followForEdit_eq followed writable]

/-! ## Builds -/

/-- What building does: it is refused, or a schema is built from those that its names lead to. -/
inductive BuildCases (w : Workspace) (id name : String) (base : Option String)
    (specs : List PropertySpec) : Attempt Workspace Report → Prop
  | refused {o : Obstacle} : BuildCases w id name base specs ⟨.error o, w⟩
  | built {own : List Property} {from? : Option Schema} {s : Schema} :
      specs.mapM w.property = .ok own → base.mapM w.schema = .ok from? →
      Schema.build ⟨w.nextSchema⟩ name from? own = .ok s →
      BuildCases w id name base specs ⟨.ok (.names (s.properties.map PropertyOf.name)),
        { w with schemas := Keyed.insert id s w.schemas, nextSchema := w.nextSchema + 1 }⟩

theorem build_cases (w : Workspace) (id name : String) (base : Option String)
    (specs : List PropertySpec) : BuildCases w id name base specs (w.build id name base specs) := by
  unfold Workspace.build
  cases hown : specs.mapM w.property with
  | error e => exact .refused
  | ok own =>
      cases hbase : base.mapM w.schema with
      | error e => exact .refused
      | ok from? =>
          simp only [bind, Except.bind]
          cases made : Schema.build ⟨w.nextSchema⟩ name from? own with
          | error e => exact .refused
          | ok s => exact .built hown hbase made

/-! ## The invariant -/

def catalogs (w : Workspace) : List Catalog := w.engines.map Engine.catalog

structure Sound (known : Schema → Prop) (w : Workspace) : Prop where
  registry : Schema.Registry known
  serials : ∀ s, known s → s.id.serial < w.nextSchema
  schemas : ∀ entry ∈ w.schemas, known entry.2
  engines : ∀ engine ∈ w.engines, engine.Held known
  places : ∀ (i : Nat) (engine : Engine), w.engines[i]? = some engine → engine.serial = i
  factories : ∀ entry ∈ w.factories, ∃ s, known s ∧ entry.2.blueprint.MadeFor w.catalogs s
  conforms : ∀ entry ∈ w.instances, entry.2.Conforms known w.catalogs
  tidy : w.context.hub.Tidy
  forest : Forest w.context.hub w.instances
  held : ∀ entry ∈ w.notifiers, entry.2 < w.context.hub.size

variable {known : Schema → Prop} {w : Workspace}

theorem sound_start (name : String) (catalog : Catalog) :
    (start name catalog).Sound fun _ => False where
  registry := ⟨⟨False.elim, False.elim⟩, False.elim, False.elim, False.elim⟩
  serials _ := False.elim
  schemas _ mem := by cases mem
  engines engine mem := by
    rw [List.mem_singleton.1 mem]
    exact Engine.held_unused _ 0 catalog
  places i engine there := by
    obtain ⟨lt, rfl⟩ := List.getElem?_eq_some_iff.1 there
    cases Nat.lt_one_iff.1 lt
    rfl
  factories _ mem := by cases mem
  conforms _ mem := by cases mem
  tidy := tidy_empty
  forest := forest_nil _
  held _ mem := by cases mem

namespace Sound

theorem schema (sound : w.Sound known) {name : String} {s : Schema} (h : w.schema name = .ok s) :
    known s :=
  sound.schemas _ (Keyed.mem_of_lookup (find_eq_ok.1 h))

/-- The instance at a location conforms. -/
theorem read (sound : w.Sound known) {place : Location} {x : Settings} (h : w.read place = .ok x) :
    ∃ root, (place.name, root) ∈ w.instances ∧ follow place.path root = .ok x ∧ x ∈ root.parts ∧
      x.Conforms known w.catalogs := by
  obtain ⟨root, found, followed⟩ := read_eq_ok.1 h
  have there := Keyed.mem_of_lookup found
  have conforms := sound.conforms _ there
  have part := mem_parts_of_follow sound.registry conforms followed
  exact ⟨root, there, followed, part, conforms.part part⟩

/-- An instance that may be written is edited. -/
theorem edit_writable (sound : w.Sound known) {place : Location} {root x : Settings}
    (found : w.instances.lookup place.name = some root) (followed : follow place.path root = .ok x)
    (writable : x.kind.isWritable = true) {α : Type}
    (f : Settings → Context → Except Obstacle α × Settings × Context) :
    w.edit place f = ⟨(f x w.context).1,
      { w.putInstance place.name (replaceAt place.path root (f x w.context).2.1) with
        context := (f x w.context).2.2 }⟩ := by
  have there := Keyed.mem_of_lookup found
  have part := mem_parts_of_follow sound.registry (sound.conforms _ there) followed
  exact edit_eq found followed ((sound.forest.rooted _ there).toWired.writable part writable) f

/-- Putting back what is at a location changes nothing. -/
theorem putInstance_self (sound : w.Sound known) {place : Location} {root x : Settings}
    (found : w.instances.lookup place.name = some root) (followed : follow place.path root = .ok x) :
    w.putInstance place.name (replaceAt place.path root x) = w := by
  have conforms : root.Conforms known w.catalogs := sound.conforms _ (Keyed.mem_of_lookup found)
  rw [replaceAt_self sound.registry conforms followed, putInstance,
    Keyed.insert_of_lookup sound.forest.sorted found]

/-! ## Kinds of steps -/

/-- Only the hub and the journal change, and no instance loses a forwarder. -/
theorem context (sound : w.Sound known) {c : Context}
    (leads : Leads (fun _ => False) w.context.hub c.hub) : Sound known { w with context := c } :=
  { sound with
    tidy := leads.tidy sound.tidy
    forest := sound.forest.leads leads sound.tidy
    held := fun entry mem => Nat.lt_of_lt_of_le (sound.held entry mem) leads.size }

theorem note (sound : w.Sound known) (entries : List JournalEntry) :
    Sound known { w with context := w.context.note entries } := sound.context (Leads.refl ..)

/-- An engine learns. -/
theorem setEngine (sound : w.Sound known) {index : Nat} {old engine : Engine}
    (there : w.engines[index]? = some old) (held : engine.Held known)
    (learns : Engine.Learns old engine) :
    (w.setEngine index engine).Sound known ∧ (w.setEngine index engine).catalogs = w.catalogs := by
  have catalogs : (w.setEngine index engine).catalogs = w.catalogs := by
    show (w.engines.set index engine).map Engine.catalog = w.engines.map Engine.catalog
    obtain ⟨lt, rfl⟩ := List.getElem?_eq_some_iff.1 there
    have lt' : index < (w.engines.map Engine.catalog).length := by rwa [List.length_map]
    have catalog : engine.catalog = (w.engines.map Engine.catalog)[index] := by
      rw [learns.catalog, List.getElem_map]
    rw [List.map_set, catalog, List.set_getElem_self]
  refine ⟨{ sound with
    engines := fun e mem => ?_
    places := fun i e found => ?_
    factories := catalogs ▸ sound.factories
    conforms := catalogs ▸ sound.conforms }, catalogs⟩
  · rcases List.mem_or_eq_of_mem_set mem with mem | rfl
    · exact sound.engines e mem
    · exact held
  · have found : (w.engines.set index engine)[i]? = some e := found
    rw [List.getElem?_set] at found
    split at found
    · next same =>
      split at found
      · cases found
        exact learns.serial.trans (same ▸ sound.places index old there)
      · cases found
    · exact sound.places i e found

theorem addEngine (sound : w.Sound known) (name : String) (catalog : Catalog) :
    (w.addEngine name catalog).Sound known := by
  have more : w.catalogs ⊆ (w.addEngine name catalog).catalogs := by
    unfold catalogs Workspace.addEngine
    dsimp only
    rw [List.map_append]
    exact List.subset_append_left ..
  refine { sound with
    engines := fun engine mem => ?_
    places := fun i engine found => ?_
    factories := fun entry mem => ?_
    conforms := fun entry mem => (sound.conforms entry mem).mono (fun _ hs => hs) more }
  · rcases List.mem_append.1 mem with mem | mem
    · exact sound.engines engine mem
    · rw [List.mem_singleton.1 mem]
      exact Engine.held_unused known _ catalog
  · have found : (w.engines ++ [Engine.unused w.engines.length catalog])[i]? = some engine := found
    rw [List.getElem?_append] at found
    split at found
    · exact sound.places i engine found
    · next past =>
      obtain ⟨lt, rfl⟩ := List.getElem?_eq_some_iff.1 found
      have lt : i - w.engines.length < 1 := lt
      rw [List.getElem_singleton]
      show w.engines.length = i
      omega
  · obtain ⟨s, hs, c, there, resolved⟩ := sound.factories entry mem
    exact ⟨s, hs, c, more there, resolved⟩

/-- The engine behind a handle. -/
theorem engine (sound : w.Sound known) {name : String} {index : Nat} {e : Engine}
    (hindex : w.handle name = .ok index) (he : w.engine name = .ok e) :
    w.engines[index]? = some e ∧ e.Held known ∧ e.catalog ∈ w.catalogs := by
  unfold Workspace.engine at he
  rw [hindex] at he
  simp only [bind, Except.bind] at he
  split at he
  · next found =>
    cases he
    have mem := List.mem_of_getElem? found
    exact ⟨found, sound.engines e mem, List.mem_map_of_mem mem⟩
  · cases he

/-- An engine is asked for a factory. -/
theorem ask (sound : w.Sound known) {α : Type} (request : Engine → Engine.Reply α) (name : String)
    {s : Schema} (hs : known s) {kind : Kind}
    (same : ∀ engine, (request engine).engine = (engine.factory s kind).engine) :
    (w.ask name request).subject.Sound known ∧
      (w.ask name request).subject.catalogs = w.catalogs ∧
      ∀ a, (w.ask name request).answer = .ok a → ∃ engine : Engine, engine.Held known ∧
        engine.catalog ∈ w.catalogs ∧ (request engine).answer = .ok a := by
  unfold Workspace.ask
  cases hindex : w.handle name with
  | error e => exact ⟨sound, rfl, fun a h => by cases h⟩
  | ok index =>
      cases he : w.engine name with
      | error e => exact ⟨sound, rfl, fun a h => by cases h⟩
      | ok engine =>
          obtain ⟨there, held, mem⟩ := sound.engine hindex he
          obtain ⟨held', learns⟩ := held.factory sound.registry.toIdentified hs kind
          rw [← same] at held' learns
          obtain ⟨set, catalogs⟩ := sound.setEngine there held' learns
          refine ⟨set.note _, catalogs, fun a h => ⟨engine, held, mem, ?_⟩⟩
          dsimp only at h
          cases answer : (request engine).answer with
          | error e =>
              rw [answer] at h
              cases h
          | ok b =>
              rw [answer] at h
              cases h
              rfl

/-- No known schema has the identity of the next one. -/
theorem ne_nextSchema (sound : w.Sound known) (s : Schema) (hs : known s) : s.id ≠ ⟨w.nextSchema⟩ :=
  fun same => Nat.ne_of_lt (sound.serials s hs) (congrArg SchemaId.serial same)

/-- A schema is known from now on. -/
theorem add (sound : w.Sound known) {id name : String} {base : Option Schema} {own : List Property}
    {schema : Schema} (built : Schema.build ⟨w.nextSchema⟩ name base own = .ok schema)
    (known_base : ∀ b ∈ base, known b)
    (known_nested : ∀ p ∈ own, ∀ nested, p.type = .dict nested → known nested) :
    Sound (fun s => known s ∨ s = schema) { w with
      schemas := Keyed.insert id schema w.schemas, nextSchema := w.nextSchema + 1 } := by
  have registry := sound.registry.build built sound.ne_nextSchema known_base known_nested
  have wider : ∀ s, known s → known s ∨ s = schema := fun s => Or.inl
  refine { sound with
    registry := registry
    serials := fun s hs => ?_
    schemas := fun entry mem => ?_
    engines := fun engine mem => (sound.engines engine mem).mono wider
    factories := fun entry mem => ?_
    conforms := fun entry mem => (sound.conforms entry mem).mono wider (List.Subset.refl _) }
  · rcases hs with hs | rfl
    · exact Nat.lt_succ_of_lt (sound.serials s hs)
    · obtain ⟨-, index, -, rfl⟩ := Schema.build_eq_ok_iff.1 built
      exact Nat.lt_succ_self _
  · rcases Keyed.mem_insert mem with rfl | mem
    · exact Or.inr rfl
    · exact Or.inl (sound.schemas entry mem)
  · obtain ⟨s, hs, made⟩ := sound.factories entry mem
    exact ⟨s, Or.inl hs, made⟩

theorem known_base (sound : w.Sound known) {name : Option String} {base : Option Schema}
    (h : name.mapM w.schema = .ok base) : ∀ b ∈ base, known b := by
  intro b mem
  obtain ⟨id, -, found⟩ := exists_of_option_mapM h mem
  exact sound.schema found

theorem known_own (sound : w.Sound known) {specs : List PropertySpec} {own : List Property}
    (h : specs.mapM w.property = .ok own) :
    ∀ p ∈ own, ∀ nested, p.type = .dict nested → known nested := by
  intro p mem nested type
  obtain ⟨spec, -, hp⟩ := exists_left_of_forall₂ (forall₂_mapM_except.1 h) mem
  unfold property at hp
  split at hp
  · cases hp
    cases type
  · next schema _ =>
    cases found : w.schema schema with
    | error e =>
        rw [found] at hp
        cases hp
    | ok s =>
        rw [found] at hp
        cases hp
        cases type
        exact sound.schema found

theorem build (sound : w.Sound known) (id name : String) (base : Option String)
    (specs : List PropertySpec) :
    ∃ later : Schema → Prop, (∀ s, known s → later s) ∧
      (w.build id name base specs).subject.Sound later := by
  have cases := build_cases w id name base specs
  generalize w.build id name base specs = attempt at cases
  cases cases with
  | refused => exact ⟨known, fun _ hs => hs, sound⟩
  | built hown hbase made =>
      exact ⟨_, fun _ => Or.inl, sound.add made (sound.known_base hbase) (sound.known_own hown)⟩

/-! ## Instances -/

/-- An instance changes under its name. -/
theorem put (sound : w.Sound known) {name : String} {x y : Settings} {ns : List Notice} {c : Context}
    (there : (name, x) ∈ w.instances) (evolves : Evolves x w.context.hub ns y c.hub) :
    Sound known { w.putInstance name y with context := c } := by
  have leads := (evolves.carries sound.tidy (sound.forest.rooted _ there).toWired).leads
  refine { sound with
    conforms := fun entry mem => ?_
    tidy := leads.tidy sound.tidy
    forest := sound.forest.replace sound.tidy there evolves
    held := fun entry mem => Nat.lt_of_lt_of_le (sound.held entry mem) leads.size }
  rcases Keyed.mem_insert mem with rfl | mem
  · exact evolves.conforms sound.registry (sound.conforms _ there)
  · exact sound.conforms entry mem

variable {α : Type} {place : Location}
  {f : Settings → Context → Except Obstacle α × Settings × Context}

/-- What is done to instances keeps the workspace sound. -/
theorem edit (sound : w.Sound known) (place : Location)
    (operates : Operates known w.catalogs f) :
    (w.edit place f).subject.Sound known ∧ (w.edit place f).subject.engines = w.engines ∧
      ∀ a, (w.edit place f).answer = .ok a → ∃ x c, Conforms known w.catalogs x ∧
        (f x c).1 = .ok a := by
  have cases := edit_cases w place f
  generalize w.edit place f = attempt at cases
  cases cases with
  | nowhere same =>
      refine ⟨sound.context ?_, rfl, fun a h => by cases h⟩
      rw [same]
      exact Leads.refl ..
  | @there root x c mem _ followed same =>
      have root_conforms : root.Conforms known w.catalogs := sound.conforms _ mem
      have conforms := root_conforms.part
        (mem_parts_of_follow sound.registry root_conforms followed)
      obtain ⟨ns, evolves, -⟩ :=
        operated_replaceAt sound.registry root_conforms followed (operates x c conforms)
      rw [same] at evolves
      exact ⟨sound.put mem evolves, rfl, fun a h => ⟨x, c, conforms, h⟩⟩

/-- What is done at the end of a path is done to every instance on the path. -/
theorem read_edit (sound : w.Sound known) (operates : Operates known w.catalogs f)
    {above below : Path} (path : place.path = above ++ below) {x : Settings}
    (read : w.read ⟨place.name, above⟩ = .ok x) :
    ∃ y, (w.edit place f).subject.read ⟨place.name, above⟩ = .ok y ∧
      x.Operated w.context.hub y (w.edit place f).subject.context.hub := by
  have cases := edit_cases w place f
  generalize w.edit place f = attempt at cases
  cases cases with
  | nowhere same =>
      refine ⟨x, read, ?_⟩
      rw [same]
      exact .refl x _
  | @there root z c mem found followed same =>
      obtain ⟨root', found', above_eq⟩ := read_eq_ok.1 read
      rw [found] at found'
      cases found'
      have root_conforms : root.Conforms known w.catalogs := sound.conforms _ mem
      have above_conforms := root_conforms.part
        (mem_parts_of_follow sound.registry root_conforms above_eq)
      have above_eq : follow above root = .ok x := above_eq
      have below_eq : follow below x = .ok z := by
        rw [path, follow_append, above_eq] at followed
        exact followed
      have conforms := above_conforms.part
        (mem_parts_of_follow sound.registry above_conforms below_eq)
      refine ⟨replaceAt below x (f z c).2.1, read_eq_ok.2 ⟨_, Keyed.lookup_insert_self .., ?_⟩, ?_⟩
      · rw [path]
        exact follow_replaceAt sound.registry root_conforms above_eq below _
      · rw [← same]
        exact operated_replaceAt sound.registry above_conforms below_eq (operates z c conforms)

theorem sorted_sources (sound : w.Sound known) {source : Option Location} {from? : Option Settings}
    (h : source.mapM w.read = .ok from?) : ∀ s ∈ from?, s.KeysSorted := by
  intro s mem
  obtain ⟨place, -, found⟩ := exists_of_option_mapM h mem
  obtain ⟨-, -, -, -, conforms⟩ := sound.read found
  exact conforms.keysSorted

/-- Where factories come from. -/
theorem factoryOf (sound : w.Sound known) (maker : Maker) :
    (w.factoryOf maker).subject.Sound known ∧
      (w.factoryOf maker).subject.catalogs = w.catalogs ∧
      ∀ factory, (w.factoryOf maker).answer = .ok factory → ∃ s, known s ∧
        factory.blueprint.MadeFor w.catalogs s := by
  unfold Workspace.factoryOf
  cases maker with
  | factory name =>
      refine ⟨sound, rfl, fun factory h => ?_⟩
      exact sound.factories _ (Keyed.mem_of_lookup (find_eq_ok.1 h))
  | schema name kind engine =>
      dsimp only
      cases found : w.schema name with
      | error e => exact ⟨sound, rfl, fun factory h => by cases h⟩
      | ok s =>
          have hs := sound.schema found
          obtain ⟨after, catalogs, answers⟩ :=
            sound.ask (fun e => e.factory s kind) engine hs fun _ => rfl
          refine ⟨after, catalogs, fun factory h => ⟨s, hs, ?_⟩⟩
          obtain ⟨e, held, mem, answer⟩ := answers factory h
          exact held.madeFor sound.registry.toIdentified hs answer mem

/-- A new instance comes under a name. -/
theorem create (sound : w.Sound known) (name : String) (maker : Maker) (source : Option Location) :
    (w.create name maker source).subject.Sound known := by
  unfold Workspace.create
  cases from_eq : source.mapM w.read with
  | error e => exact sound
  | ok from? =>
      have sorted : ∀ s ∈ from?, s.KeysSorted := sound.sorted_sources from_eq
      obtain ⟨after, catalogs, made⟩ := sound.factoryOf maker
      rw [← catalogs] at made
      generalize w.factoryOf maker = attempt at after made
      obtain ⟨answer, w'⟩ := attempt
      cases answer with
      | error e => exact after
      | ok factory =>
          obtain ⟨s, hs, made_for⟩ := made factory rfl
          have after : w'.Sound known := after
          obtain ⟨made, between, ns, y, hmake, evolves, only⟩ := Blueprint.create_spec after.registry
            made_for hs factory.engine factory.kind sorted w'.context
          have conforms :=
            (made_for.conforms_make hs factory.engine factory.kind w'.context.hub).1
          rw [hmake] at conforms
          obtain ⟨leads, forest⟩ := after.forest.insert after.tidy name hmake evolves
          dsimp only
          unfold Engine.Factory.create at *
          generalize factory.blueprint.create factory.engine factory.kind from? w'.context = created at *
          obtain ⟨answer, c⟩ := created
          cases answer with
          | error e => exact after.context leads
          | ok x =>
              cases only x rfl
              refine { after with
                conforms := fun entry mem => ?_
                tidy := leads.tidy after.tidy
                forest := forest
                held := fun entry mem => Nat.lt_of_lt_of_le (after.held entry mem) leads.size }
              rcases Keyed.mem_insert mem with rfl | mem
              · exact evolves.conforms after.registry conforms
              · exact after.conforms entry mem

end Sound

end Workspace

end SettingsForge
