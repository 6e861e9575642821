import SettingsForge.Proofs.Engine.Positions
import SettingsForge.Proofs.Settings.Positions
import SettingsForge.Proofs.Workspace.Expected

set_option autoImplicit false

/-! # Trees stay sound

Whatever a run has done, each instance in a workspace, at any depth, is built as its schema says: slot by
slot, with lists and dictionaries that are bound to its own notifier if its kind has one, and with
entries of just the nested schema and of its own kind (`Settings.WellBuilt`). So whatever is taken by
position is there and is what is found by name, and no step has an internal error
(`Workspace.trees_stay_sound`). -/

namespace SettingsForge

open Hub Settings

/-- Bound to the notifier of an observable instance, under the name, and to nobody in another one. -/
def Settings.Binds (x : Settings) (name : String) (binding : Option Binding) : Prop :=
  if x.kind.isObservable then ∃ n, x.notifier = some n ∧ binding = some ⟨name, n⟩ else binding = none

/-- A slot of an instance holds what the property declares, for this instance. -/
inductive ContentOf.Declared (x : Settings) (p : Property) : Content → Prop
  | scalar {type : ValueType} {value : Value} :
      p.type = .value type → type.isCollection = false → Declared x p (.scalar type value)
  | list {l : ListRef} {items : List Value} :
      p.type = .value (.list l.item) → l.schema = x.schema.name → l.property = p.name →
      x.Binds p.name l.binding → Declared x p (.list l items)
  /-- Entries are of the dictionary's own schema and of the instance's kind, and so are those that the
      dictionary makes. -/
  | dict {d : DictRef} {entries : List Entry} :
      p.type = .dict d.blueprint.schema → d.kind = x.kind → d.property = p.name →
      x.Binds p.name d.binding →
      (∀ e ∈ entries, e.settings.schema = d.blueprint.schema ∧ e.settings.kind = x.kind) →
      Declared x p (.dict d entries)

/-- The entry has a forwarder that is alive: it is the one forwarder at the entry's notifier, and it
    announces there a change of the property at the owner's. -/
def EntryOf.Forwards (e : Entry) (hub : Hub) (owner : Option NotifierId) (property : String) : Prop :=
  ∃ n m id, owner = some n ∧ e.settings.notifier = some m ∧ e.forwarder = some id ∧
    hub.forwarders m = [(id, n, property)]

namespace Settings

/-- An instance is built as its schema and its kind say, whatever its entries do inside. -/
structure WellBuilt (hub : Hub) (x : Settings) : Prop where
  /-- There is one slot for each property, in order. -/
  slots : List.Forall₂ (fun p slot => p.name = slot.name ∧ slot.content.Declared x p)
    x.schema.properties x.slots
  notifier : x.notifier.isSome = x.kind.isObservable
  /-- An item that comes to a list is announced at the instance's own notifier, under the name of the
      list. -/
  push : ∀ property list items, x.list property = .ok (list, items) → x.kind.isWritable = true →
    ∀ value, (list.item.coerce value).isSome = true → ∀ c,
      (x.editList property (.push value) c).context.hub = c.hub.announce x.notifier property
  /-- So is an entry that goes from a dictionary. -/
  delete : ∀ property dict entries, x.dict property = .ok (dict, entries) →
    x.kind.isWritable = true → ∀ key e, Entries.find? entries key = some e → ∀ c,
      (x.deleteEntry property key c).context.hub = (c.hub.unforward e).announce x.notifier property
  forwards : hub.Disciplined → ∀ slot ∈ x.slots, ∀ e ∈ slot.content.entries,
    (e.Forwards hub x.notifier slot.name ↔ x.kind.isObservable = true)

variable {known : Schema → Prop} {catalogs : List Catalog} {hub : Hub} {x : Settings}

theorem binds_of_wired (wired : WiredAt hub x) (name : String) : x.Binds name (x.owner.binding name) := by
  have own := wired.notifier
  unfold Binds
  split
  · next observable =>
    obtain ⟨n, hn⟩ := Option.isSome_iff_exists.1 (own.trans observable)
    exact ⟨n, hn, Owner.binding_eq_some_iff.2 ⟨hn, rfl⟩⟩
  · next plain =>
    rw [Bool.eq_false_iff.2 plain, Option.isSome_eq_false_iff, Option.isNone_iff_eq_none] at own
    exact congrArg _ own

/-- What conforms and is bound is declared. -/
theorem declared_of_conforms (wired : WiredAt hub x) {p : Property} {content : Content}
    (h : content.Conforms catalogs x.schema p) (bound : content.BoundTo x.owner p.name)
    (kinds : ∀ e ∈ content.entries, e.settings.kind = x.kind) : content.Declared x p := by
  have binds := binds_of_wired wired p.name
  cases h with
  | @scalar type _ declared plain =>
      refine .scalar declared ?_
      cases type with
      | list item => exact absurd rfl (plain item)
      | _ => rfl
  | list declared =>
      obtain ⟨schema, property, binding⟩ := bound
      exact .list declared schema property (binding ▸ binds)
  | dict declared made _ schemas =>
      obtain ⟨kind, property, binding⟩ := bound
      refine .dict (made.schema_eq ▸ declared) kind property (binding ▸ binds) fun e he => ?_
      exact ⟨(schemas e he).trans made.schema_eq.symm, kinds e he⟩

theorem forwards_iff (wired : WiredAt hub x) (disciplined : hub.Disciplined) {slot : Slot}
    (hs : slot ∈ x.slots) {e : Entry} (he : e ∈ slot.content.entries) :
    e.Forwards hub x.notifier slot.name ↔ x.kind.isObservable = true := by
  rw [← wired.notifier]
  constructor
  · rintro ⟨n, -, -, owner, -⟩
    rw [owner]
    rfl
  · intro observable
    obtain ⟨n, hn⟩ := Option.isSome_iff_exists.1 observable
    have heard := (wired.entries slot hs e he).2
    rw [hn] at heard
    obtain ⟨id, m, heard⟩ := heard
    exact ⟨n, m, id, hn, heard.notifier, heard.forwarder, heard.kept disciplined⟩

theorem hub_push {property : String} {list : ListRef} {items : List Value}
    (found : x.list property = .ok (list, items)) (bound : list.BoundTo x.owner property)
    (writable : x.kind.isWritable = true) {value : Value}
    (fits : (list.item.coerce value).isSome = true) (c : Context) :
    (x.editList property (.push value) c).context.hub = c.hub.announce x.notifier property := by
  obtain ⟨v, fits⟩ := Option.isSome_iff_exists.1 fits
  unfold editList
  rw [found]
  dsimp only
  rw [if_pos writable]
  simp only [Done.within, ListRef.revise, ListRef.edit, ListRef.conform, fits, Context.note_nil,
    if_true, bound.binding, Context.tell_binding, Context.hub_announce]
  rfl

theorem hub_deleteEntry {property : String} {dict : DictRef} {entries : List Entry}
    (found : x.dict property = .ok (dict, entries)) (bound : dict.BoundTo x.owner property)
    (writable : x.kind.isWritable = true) {key : String} {e : Entry}
    (there : Entries.find? entries key = some e) (c : Context) :
    (x.deleteEntry property key c).context.hub =
      (c.hub.unforward e).announce x.notifier property := by
  unfold deleteEntry
  rw [editDict_eq found writable]
  simp only [Done.within, DictRef.deleteEntry, there, bound.binding, Context.tell_binding,
    Context.hub_announce]
  rfl

/-- An instance that conforms and is wired is built well. -/
theorem wellBuilt (conforms : x.Conforms known catalogs) (wired : WiredAt hub x) :
    x.WellBuilt hub where
  slots := by
    refine List.forall₂_iff_get.2 ⟨conforms.self.slots.length_eq, fun i h h' => ?_⟩
    obtain ⟨name, fits⟩ := conforms.self.slots.get h h'
    have mem := List.get_mem x.slots ⟨i, h'⟩
    refine ⟨name, declared_of_conforms wired fits (name ▸ conforms.self.bound _ mem) fun e he => ?_⟩
    exact (wired.entries _ mem e he).1
  notifier := wired.notifier
  push _ _ _ found writable _ fits c :=
    hub_push found (conforms.boundTo (content_of_list found)) writable fits c
  delete _ _ _ found writable _ _ there c :=
    hub_deleteEntry found (conforms.boundTo (content_of_dict found)) writable there c
  forwards disciplined _ hs _ he := forwards_iff wired disciplined hs he

end Settings

namespace Workspace

variable {w : Workspace}

/-- Take a workspace that a run reaches. Every instance in it, at any depth, is built as its schema and
    its kind say, and its lists and dictionaries are bound to its own notifier. Reading, assigning and
    adding entries by the positions that its schema gives do what they do by name, without an internal
    error; and from what may be copied into it, walking side by side takes the properties of the same
    names. What its engines make is of the kind that was asked for, from plans that stand beside the
    properties of the schema; and an overload that is chosen is there. No step has an internal
    error. -/
theorem trees_stay_sound (reachable : w.Reachable) :
    (∀ entry ∈ w.instances, ∀ x ∈ entry.2.parts,
      x.WellBuilt w.context.hub ∧
      (∀ property, x.contentAt property = x.content property) ∧
      (∀ property value c, x.setAt property value c = x.set property value c) ∧
      (∀ property key c, x.addEntryAt property key c = x.addEntry property key c) ∧
      ∀ other ∈ w.instances, ∀ source ∈ other.2.parts, source.schema.isA x.schema.id = true →
        ∀ (i : Nat) (slot : Slot), x.slots[i]? = some slot → ∃ theirs : Slot, source.slots[i]? = some theirs ∧
          theirs.name = slot.name ∧ source.content slot.name = .ok theirs.content ∧
          theirs.content.shape = slot.content.shape) ∧
    (∀ engine ∈ w.engines, ∀ name s, w.schema name = .ok s → ∀ kind,
      (∀ source c, engine.createAs s kind source c = engine.create s kind source c) ∧
      ∀ factory, (engine.factory s kind).answer = .ok factory →
        List.Forall₂ (fun p plan => SlotPlanOf.For engine.catalog s.name p plan) s.properties
          factory.blueprint.slots) ∧
    (∀ overloads args i, selectOverload overloads args = .ok i → i < overloads.length) ∧
    ∀ action message, (w.perform action).answer ≠ .error (.failed (.internal message)) := by
  obtain ⟨known, sound⟩ := reachable.sound
  refine ⟨fun entry mem x part => ?_, fun engine mem name s found kind => ⟨?_, ?_⟩, ?_, ?_⟩
  · have whole := (sound.conforms entry mem).part part
    have conforms := whole.self
    have wired := (sound.forest.rooted entry mem).parts x part
    refine ⟨wellBuilt whole wired, conforms.contentAt_eq sound.registry,
      conforms.setAt_eq sound.registry, conforms.addEntryAt_eq sound.registry, ?_⟩
    intro other mem' source part' inherits i slot at_i
    exact ((sound.conforms other mem') source part').exists_source_at conforms sound.registry inherits
      at_i
  · exact engine.createAs_eq s kind
  · intro factory answer
    obtain ⟨catalog, only, resolved⟩ := (sound.engines engine mem).madeFor
      sound.registry.toIdentified (sound.schema found) answer (List.mem_singleton_self engine.catalog)
    rw [List.mem_singleton.1 only] at resolved
    exact (Blueprint.plans_of_resolve resolved).2
  · intro overloads args i chosen
    obtain ⟨_, _, there, -⟩ := getElem?_of_selectOverload chosen
    exact (List.getElem?_eq_some_iff.1 there).1
  · intro action message failed
    exact absurd (sound.fresh.stopsAs_act action _ failed) Bool.false_ne_true

/-- The shelf that announces its changes hears of its entry. -/
theorem shelf_hears_its_entry :
    shelves.Reachable ∧ ∃ x, shelves.read ⟨"first", []⟩ = .ok x ∧ x.WellBuilt shelves.context.hub ∧
      x.slots.map (fun slot => slot.content.entries.length) = [0, 1] ∧
      ∀ slot ∈ x.slots, ∀ e ∈ slot.content.entries,
        e.Forwards shelves.context.hub x.notifier slot.name := by
  obtain ⟨instances, -⟩ := trees_stay_sound reachable_shelves
  obtain ⟨x, read, kind, entries⟩ : ∃ x, shelves.read ⟨"first", []⟩ = .ok x ∧
      x.kind.isObservable = true ∧
      x.slots.map (fun slot => slot.content.entries.length) = [0, 1] := ⟨_, rfl, rfl, rfl⟩
  obtain ⟨known, sound⟩ := reachable_shelves.sound
  obtain ⟨root, mem, -, part, -⟩ := sound.read read
  obtain ⟨built, -⟩ := instances _ mem x part
  have disciplined : shelves.context.hub.Disciplined := by
    unfold Hub.Disciplined
    decide +kernel
  exact ⟨reachable_shelves, x, read, built, entries, fun slot hs e he =>
    (built.forwards disciplined slot hs e he).2 kind⟩

end Workspace

end SettingsForge
