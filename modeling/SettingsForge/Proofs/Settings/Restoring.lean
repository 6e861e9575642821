import SettingsForge.Proofs.Settings.Typed

set_option autoImplicit false

/-! # Saving and restoring

A copy into a new instance that announces nothing saves the source: copied back into the source, it
changes nothing (`Settings.restores_of_assign`). It need not hold the same values, for a list of the
new instance keeps items that are equal to the source's. What an observable source announces while it
is restored is that a value is unequal to itself (`Settings.Restless`), as a value with a not-a-number
in it is. -/

namespace SettingsForge

open Hub Settings

variable {known : Schema → Prop} {catalogs : List Catalog}

/-! ## Restless properties -/

/-- The properties, at the notifiers of an instance and of the entries inside it, of values with a
    not-a-number in them. -/
def Settings.Restless (x : Settings) (n : NotifierId) (property : String) : Prop :=
  ∃ y ∈ x.parts, y.notifier = some n ∧
    ∃ slot ∈ y.slots, slot.name = property ∧ slot.content.value.hasNan = true

/-- Those of one slot of an instance. -/
def SlotOf.Restless (slot : Slot) (notifier : Option NotifierId) (n : NotifierId)
    (property : String) : Prop :=
  (notifier = some n ∧ slot.name = property ∧ slot.content.value.hasNan = true) ∨
    ∃ e ∈ slot.content.entries, e.settings.Restless n property

theorem Settings.Restless.of_slot {x : Settings} {slot : Slot} (mem : slot ∈ x.slots)
    {n : NotifierId} {property : String} (h : slot.Restless x.notifier n property) :
    x.Restless n property := by
  rcases h with ⟨own, there⟩ | ⟨e, inside, y, part, there⟩
  · exact ⟨x, self_mem_parts x, own, slot, mem, there⟩
  · exact ⟨y, mem_parts_of_entry mem inside part, there⟩

/-! ## Snapshots with a not-a-number -/

theorem Settings.hasNan_snapshot {x : Settings} (nodup : x.names.Nodup) {slot : Slot}
    (mem : slot ∈ x.slots) (nan : slot.content.value.hasNan = true) : x.snapshot.hasNan = true := by
  rw [Value.hasNan_iff, Bool.eq_false_iff] at nan ⊢
  exact fun equal => nan (equals_of_snapshot equal nodup nodup mem mem rfl)

theorem ContentOf.hasNan_value {content : Content} {e : Entry} (mem : e ∈ content.entries)
    (nan : e.settings.snapshot.hasNan = true) : content.value.hasNan = true := by
  cases content with
  | dict d entries =>
      rw [Value.hasNan_iff, Bool.eq_false_iff] at nan ⊢
      rw [ContentOf.value, Value.equals, entryValues_eq_map]
      intro equal
      have each := List.forall₂_same.1 (Value.forall₂_of_equalEntries equal)
      exact nan (each _ (List.mem_map_of_mem mem)).2
  | _ => cases mem

/-- A snapshot shows the not-a-numbers inside. -/
theorem Settings.Conforms.hasNan_of_mem_parts (registry : Schema.Registry known) {x y : Settings}
    (conforms : x.Conforms known catalogs) (mem : y ∈ x.parts) (nan : y.snapshot.hasNan = true) :
    x.snapshot.hasNan = true := by
  induction x using tree_induction with
  | step x ih =>
      rcases mem_parts.1 mem with rfl | ⟨slot, hs, inside⟩
      · exact nan
      · obtain ⟨e, he, inside⟩ := ContentOf.mem_parts.1 inside
        exact hasNan_snapshot (conforms.self.nodup registry) hs
          (ContentOf.hasNan_value he (ih slot hs e he (conforms.entry hs he) inside))

theorem Settings.Restless.hasNan (registry : Schema.Registry known) {x : Settings}
    (conforms : x.Conforms known catalogs) {n : NotifierId} {property : String}
    (h : x.Restless n property) : x.snapshot.hasNan = true := by
  obtain ⟨y, part, -, slot, mem, -, nan⟩ := h
  exact conforms.hasNan_of_mem_parts registry part
    (hasNan_snapshot ((conforms y part).nodup registry) mem nan)

/-! ## Values -/

/-- Written back to its owner, the first content leaves the second one. -/
def ContentOf.Returns (stored content : Content) : Prop :=
  ∀ (owner : Owner) (property : String) (c : Context), content.BoundTo owner property → ∃ after,
    owner.write property content stored.value c = ⟨.ok (), content, after⟩ ∧
      Announced (SlotOf.Restless ⟨property, content⟩ owner.notifier) c.hub after.hub

/-- A change of a slot with a not-a-number in it is announced, if there is a notifier. -/
theorem announced_announce {property : String} {content : Content}
    (nan : content.value.hasNan = true) (notifier : Option NotifierId) (c : Context) :
    Announced (SlotOf.Restless ⟨property, content⟩ notifier) c.hub (c.announce notifier property).hub := by
  cases notifier with
  | none => exact .nothing _
  | some n => exact .one c.hub (Or.inl ⟨rfl, rfl, nan⟩)

theorem ContentOf.returns_scalar {type : ValueType} {value : Value}
    (exact : type.fit value = some .exact) :
    (ContentOf.scalar type value).Returns (.scalar type value) := by
  intro owner property c _
  unfold Owner.write
  dsimp only [ContentOf.value]
  rw [ValueType.coerce_of_exact type exact]
  dsimp only
  unfold Owner.store
  cases hn : owner.notifier with
  | none => exact ⟨c, rfl, .nothing _⟩
  | some n =>
      dsimp only
      split
      · exact ⟨c, rfl, .nothing _⟩
      · next unequal =>
        have nan : (ContentOf.scalar type value : Content).value.hasNan = true :=
          Value.hasNan_iff.2 (Bool.eq_false_iff.2 unequal)
        exact ⟨_, rfl, announced_announce nan (some n) c⟩

theorem ContentOf.returns_list {theirs l : ListRef} {old items : List Value} (same : theirs.item = l.item)
    (exact_old : ∀ v ∈ old, l.item.fit v = some .exact)
    (exact : ∀ v ∈ items, theirs.item.fit v = some .exact) :
    (ContentOf.list l (reconcile Value.equals old items).items).Returns (.list theirs items) := by
  intro owner property c bound
  have bound : theirs.BoundTo owner property := bound
  obtain ⟨back, unequal⟩ := reconcile_back old items
  -- an item that stayed is one of the old list
  have kept : ∀ v ∈ (reconcile Value.equals old items).items, theirs.item.fit v = some .exact := by
    intro v mem
    obtain ⟨t, there, kept | ⟨there', -⟩⟩ :=
      exists_right_of_forall₂ (forall₂_reconcile Value.equals old items) mem
    · exact kept ▸ exact t there
    · exact same ▸ exact_old v there'
  have conforms : (reconcile Value.equals old items).items.mapM theirs.conform = .ok _ :=
    ListRef.mapM_conform_of_exact kept
  unfold Owner.write ListRef.revise ListRef.edit
  dsimp only [ContentOf.value]
  rw [conforms]
  dsimp only [ListRef.reconciled]
  rw [back]
  refine ⟨_, rfl, ?_⟩
  split
  · next changed =>
    rw [bound.binding, Context.tell_binding]
    refine announced_announce ?_ owner.notifier (c.note _)
    rw [Value.hasNan_iff]
    exact unequal changed
  · exact .nothing _

/-- What is written to a slot without a notifier is written back from it. -/
theorem ContentOf.Beside.returns {content current : Content}
    (h : content.Beside known catalogs current) (typed : current.Typed)
    (plain : ∀ theirs source ours entries, content = .dict theirs source →
      current = .dict ours entries → False)
    {owner : Owner} (quiet : owner.notifier = none) (property : String) (c : Context) :
    (owner.write property current content.value c).subject.Returns content := by
  cases h with
  | @scalar type value old exact =>
      have stored : (owner.write property (.scalar type old) value c).subject = .scalar type value := by
        unfold Owner.write
        dsimp only
        rw [ValueType.coerce_of_exact type exact]
        dsimp only
        unfold Owner.store
        rw [quiet]
        rfl
      rw [ContentOf.value, stored]
      exact returns_scalar exact
  | @list theirs l items old same exact =>
      cases typed with
      | list exact_old =>
          have conforms : items.mapM l.conform = .ok items :=
            ListRef.mapM_conform_of_exact (same ▸ exact)
          have stored : (owner.write property (.list l old) (.list items) c).subject =
              .list l (reconcile Value.equals old items).items := by
            unfold Owner.write ListRef.revise ListRef.edit
            dsimp only
            rw [conforms]
            rfl
          rw [ContentOf.value, stored]
          exact returns_list same exact_old exact
  | dict => exact (plain _ _ _ _ rfl rfl).elim

/-! ## Instances -/

namespace Settings

/-- Copied into the second instance, the first one leaves it. -/
def Restores (y x : Settings) : Prop :=
  ∀ c, ∃ after, assign y x c = ⟨.ok (), x, after⟩ ∧ Announced x.Restless c.hub after.hub

/-- So do slots of an owner. -/
def SlotsRestore (others slots : List Slot) : Prop :=
  ∀ name owner c, (∀ slot ∈ slots, slot.content.BoundTo owner slot.name) →
    ∃ after, assignSlots name others owner slots c = ⟨.ok (), slots, after⟩ ∧
    Announced (fun n property => ∃ slot ∈ slots, slot.Restless owner.notifier n property)
      c.hub after.hub

/-- Entries that restore entries, one by one. -/
def EntriesRestore (others entries : List Entry) : Prop :=
  List.Forall₂ (fun a b => a.key = b.key ∧ a.settings.Restores b.settings) others entries

theorem slotsRestore_nil : SlotsRestore [] [] := fun _ _ c _ => ⟨c, by rw [assignSlots], .nothing _⟩

/-- The first slots, and then the others. -/
theorem SlotsRestore.announced {slot : Slot} {slots : List Slot} {notifier : Option NotifierId}
    {hub between after : Hub} (first : Announced (slot.Restless notifier) hub between)
    (others : Announced (fun n property => ∃ slot ∈ slots, slot.Restless notifier n property)
      between after) :
    Announced (fun n property => ∃ s ∈ slot :: slots, s.Restless notifier n property) hub after := by
  refine (first.mono fun n property own => ?_).trans (others.mono ?_)
  · exact ⟨slot, List.mem_cons_self .., own⟩
  · rintro n property ⟨s, mem, own⟩
    exact ⟨s, List.mem_cons_of_mem _ mem, own⟩

/-- A slot that is written back. -/
theorem SlotsRestore.write {others slots : List Slot} (rest : SlotsRestore others slots)
    {stored content : Content} (returns : stored.Returns content)
    (plain : ∀ d entries, content ≠ .dict d entries) (name property : String) :
    SlotsRestore (⟨name, stored⟩ :: others) (⟨property, content⟩ :: slots) := by
  intro source owner c bound
  obtain ⟨own, later⟩ := List.forall_mem_cons.1 bound
  obtain ⟨between, written, announced⟩ := returns owner property c own
  obtain ⟨after, assigned, announced'⟩ := rest source owner between later
  refine ⟨after, ?_, SlotsRestore.announced announced announced'⟩
  rw [assignSlots, written, assigned]
  · rfl
  · intro _ _ _ _ _ same
    exact plain _ _ same

/-- Entries are copied into those of the same keys, whatever comes before them. -/
theorem EntriesRestore.assignEntries {others entries before : List Entry}
    (h : EntriesRestore others entries) (sorted : Entries.Sorted (before ++ entries))
    (writable : ∀ e ∈ entries, e.settings.kind.isWritable = true) (dict : DictRef)
    (structural : Bool) (c : Context) :
    ∃ after, Settings.assignEntries others dict ⟨before ++ entries, structural⟩ c =
        ⟨.ok (), ⟨before ++ entries, structural⟩, after⟩ ∧
      Announced (fun n property => ∃ e ∈ entries, e.settings.Restless n property) c.hub after.hub := by
  induction h generalizing before c with
  | nil => exact ⟨c, by rw [Settings.assignEntries], .nothing _⟩
  | @cons a b others entries own _ ih =>
      obtain ⟨key, forwarder, source⟩ := a
      obtain ⟨same, restores⟩ := own
      have found : Entries.find? (before ++ b :: entries) key = some b := by
        have found := sorted.find?_of_mem (List.mem_append_right _ (List.mem_cons_self ..))
        rwa [← same] at found
      obtain ⟨between, assigned, announced⟩ := restores c
      have split : before ++ b :: entries = (before ++ [b]) ++ entries := by simp
      obtain ⟨after, rest, announced'⟩ := ih (split ▸ sorted)
        (fun e mem => writable e (List.mem_cons_of_mem _ mem)) between
      rw [← split] at rest
      refine ⟨after, ?_, (announced.mono fun n property own => ?_).trans (announced'.mono ?_)⟩
      · rw [Settings.assignEntries, found]
        dsimp only
        rw [if_pos (writable b (List.mem_cons_self ..)), assigned]
        dsimp only
        rw [Entries.insert_replace sorted rfl]
        exact rest
      · exact ⟨b, List.mem_cons_self .., own⟩
      · rintro n property ⟨e, mem, own⟩
        exact ⟨e, List.mem_cons_of_mem _ mem, own⟩

/-- With the same keys nothing is dropped. -/
theorem start_keys (entries : List Entry) (c : Context) :
    Merging.start (Entries.keys entries) entries c = (⟨entries, false⟩, c) := by
  have kept : entries.filter (fun e => (Entries.keys entries).contains e.key) = entries := by
    rw [List.filter_eq_self]
    intro e mem
    simpa [Entries.keys] using ⟨e, mem, rfl⟩
  have stale : entries.filter (fun e => !(Entries.keys entries).contains e.key) = [] := by
    rw [List.filter_eq_nil_iff]
    intro e mem
    simpa [Entries.keys] using ⟨e, mem, rfl⟩
  unfold Merging.start
  rw [kept, stale]
  rfl

/-- A dictionary that is assigned back. -/
theorem SlotsRestore.dict {others slots : List Slot} (rest : SlotsRestore others slots)
    {theirs own : DictRef} (inherits : theirs.blueprint.schema.isA own.blueprint.schema.id = true)
    {stored entries : List Entry} (restores : EntriesRestore stored entries)
    (sorted : Entries.Sorted entries)
    (writable : ∀ e ∈ entries, e.settings.kind.isWritable = true) (name property : String) :
    SlotsRestore (⟨name, .dict theirs stored⟩ :: others) (⟨property, .dict own entries⟩ :: slots) := by
  intro source owner c bound
  have keys : stored.map EntryOf.key = Entries.keys entries :=
    map_eq_of_forall₂ (restores.imp fun _ _ own => own.1)
  obtain ⟨between, merged, announced⟩ :=
    @EntriesRestore.assignEntries _ _ [] restores sorted writable own false c
  obtain ⟨after, assigned, announced'⟩ :=
    rest source owner between (List.forall_mem_cons.1 bound).2
  rw [List.nil_append] at merged
  refine ⟨after, ?_, SlotsRestore.announced (announced.mono fun n property => Or.inr) announced'⟩
  rw [assignSlots, if_pos inherits, keys, start_keys]
  dsimp only
  rw [merged]
  dsimp only [Done.finishMerge]
  rw [if_neg Bool.false_ne_true, assigned]
  rfl

/-! ## Saving -/

/-- An instance that announces nothing and has no entries. -/
structure Blank (x : Settings) : Prop where
  quiet : x.notifier = none
  kind : x.kind.isObservable = false
  empty : ∀ slot ∈ x.slots, slot.content.entries = []

theorem blank_make {blueprint : Blueprint} {engine : EngineId} {kind : Kind} {hub after : Hub}
    {made : Settings} (hmake : blueprint.make engine kind hub = (made, after))
    (plain : kind.isObservable = false) :
    made.Blank := by
  have notifier := blueprint.notifier_make engine kind hub
  have kind_eq := blueprint.kind_make engine kind hub
  have entries := @Blueprint.entries_make blueprint engine kind hub
  rw [hmake] at notifier kind_eq entries
  exact ⟨by rw [notifier, plain]; rfl, by rw [kind_eq]; exact plain, fun slot mem => entries mem⟩

/-- Slots of an instance, and those of a blank instance to save them in. -/
structure Savable (known : Schema → Prop) (catalogs : List Catalog) (source : List Slot)
    (owner : Owner) (slots : List Slot) : Prop where
  covers : Covers known catalogs source slots
  length : source.length = slots.length
  blank : ∀ slot ∈ slots, slot.content.Typed ∧ slot.content.entries = []
  writable : ∀ y ∈ slotParts source, y.kind.isWritable = true
  bound : ∀ slot ∈ slots, slot.content.BoundTo owner slot.name
  quiet : owner.notifier = none
  kind : owner.kind.isObservable = false

theorem Savable.exists_cons {source slots : List Slot} {owner : Owner} {slot : Slot}
    (h : Savable known catalogs source owner (slot :: slots)) :
    ∃ a others, source = a :: others ∧ a.content.Beside known catalogs slot.content ∧
      (∀ e ∈ a.content.entries, ∀ y ∈ e.settings.parts, y.kind.isWritable = true) ∧
      Savable known catalogs others owner slots := by
  obtain ⟨a, others, rfl, -, beside, covers⟩ := h.covers.exists_cons
  have writable := h.writable
  rw [slotParts_eq_flatMap, List.flatMap_cons, List.forall_mem_append] at writable
  refine ⟨a, others, rfl, beside, fun e he y hy => ?_, covers, Nat.succ.inj h.length, ?_, ?_,
    (List.forall_mem_cons.1 h.bound).2, h.quiet, h.kind⟩
  · exact writable.1 y (ContentOf.mem_parts.2 ⟨e, he, hy⟩)
  · exact fun s mem => h.blank s (List.mem_cons_of_mem _ mem)
  · rw [slotParts_eq_flatMap]
    exact writable.2

theorem Copyable.savable (registry : Schema.Registry known) {source target : Settings}
    (copyable : Copyable known catalogs source target) (same : target.schema = source.schema)
    (writable : ∀ y ∈ slotParts source.slots, y.kind.isWritable = true) (blank : target.Blank) :
    Savable known catalogs source.slots target.owner target.slots where
  covers := copyable.covers registry
  length := by
    rw [← copyable.conforms.self.slots.length_eq, ← copyable.conforms'.self.slots.length_eq, same]
  blank slot mem := ⟨copyable.conforms'.typed (same ▸ copyable.exact) (self_mem_parts _) slot mem,
    blank.empty slot mem⟩
  writable := writable
  bound := copyable.conforms'.self.bound
  quiet := blank.quiet
  kind := blank.kind

end Settings

/-- A new key that is the last one comes at the end. -/
theorem Entries.insert_last {entries : List Entry} {new : Entry}
    (last : ∀ e ∈ entries, e.key < new.key) : insert new entries = entries ++ [new] := by
  induction entries with
  | nil => rfl
  | cons e entries ih =>
      rw [List.forall_mem_cons] at last
      have above : ¬ new.key < e.key := fun lt =>
        String.lt_irrefl _ (String.lt_trans last.1 lt)
      rw [insert, if_neg above, if_neg (String.ne_of_lt last.1).symm, ih last.2]
      rfl

/-- Entries of a dictionary, and those that are there of another one, which come before them all. -/
structure Entries.Savable (known : Schema → Prop) (catalogs : List Catalog) (nested : Schema)
    (source : List Entry) (dict : DictRef) (entries : List Entry) : Prop where
  made : dict.blueprint.MadeFor catalogs nested
  given : Given known catalogs nested source
  writable : ∀ e ∈ source, ∀ y ∈ e.settings.parts, y.kind.isWritable = true
  kind : dict.kind.isObservable = false
  last : ∀ key ∈ keys source, ∀ e ∈ entries, e.key < key

theorem Entries.Savable.rest {nested : Schema} {e new : Entry} {source entries : List Entry}
    {dict : DictRef} (h : Savable known catalogs nested (e :: source) dict entries)
    (same : new.key = e.key) : Savable known catalogs nested source dict (entries ++ [new]) := by
  refine ⟨h.made, h.given.rest, (List.forall_mem_cons.1 h.writable).2, h.kind, fun key mem e' he => ?_⟩
  rcases List.mem_append.1 he with he | he
  · exact h.last key (List.mem_cons_of_mem _ mem) e' he
  · rw [List.mem_singleton.1 he, same]
    exact (List.pairwise_cons.1 h.given.sorted).1 key mem

namespace Settings

/-- A source is saved in a blank instance of its schema by a copy that succeeds. So are slots, and the
    entries of a dictionary. -/
theorem restores_of_assign_restores_of_assignEntries (registry : Schema.Registry known) :
    (∀ source target c, Copyable known catalogs source target → target.schema = source.schema →
      (∀ y ∈ slotParts source.slots, y.kind.isWritable = true) → target.Blank →
      (assign source target c).answer = .ok () → (assign source target c).subject.Restores source) ∧
    (∀ name source owner slots c, Savable known catalogs source owner slots →
      (assignSlots name source owner slots c).answer = .ok () →
      SlotsRestore (assignSlots name source owner slots c).subject source) ∧
    ∀ source dict m c, ∀ nested, Entries.Savable known catalogs nested source dict m.entries →
      (assignEntries source dict m c).answer = .ok () →
      ∃ others, (assignEntries source dict m c).subject.entries = m.entries ++ others ∧
        EntriesRestore others source := by
  -- the cases are those of the copy; it succeeds, and no key of the source is there before it comes
  refine assign.mutual_induct_unfolding
    (fun source target c d => Copyable known catalogs source target →
      target.schema = source.schema →
      (∀ y ∈ slotParts source.slots, y.kind.isWritable = true) → target.Blank →
      d.answer = .ok () → d.subject.Restores source)
    (fun name source owner slots c d => Savable known catalogs source owner slots →
      d.answer = .ok () → SlotsRestore d.subject source)
    (fun source dict m c d => ∀ nested,
      Entries.Savable known catalogs nested source dict m.entries →
      d.answer = .ok () →
      ∃ others, d.subject.entries = m.entries ++ others ∧ EntriesRestore others source)
    ?within ?mismatch ?nil ?short ?dictFails ?dict ?dictMismatch ?writeFails ?write ?done
    ?intoFails ?into ?unmade ?make
  case within =>
    intro sourceSchema sourceKind source sourceNotifier sourceProvider schema kind slots notifier
      provider c _ ih copyable same writable blank succeeded after
    have same : schema = sourceSchema := same
    have savable := copyable.savable registry same writable blank
    obtain ⟨later, assigned, announced⟩ := ih savable succeeded schema.name
      ⟨sourceSchema.name, sourceKind, sourceNotifier⟩ after copyable.conforms.self.bound
    refine ⟨later, ?_, announced.mono fun n property => ?_⟩
    · rw [Done.within, assign, if_pos (same ▸ Schema.isA_self schema), assigned]
      rfl
    · rintro ⟨slot, mem, own⟩
      exact Restless.of_slot mem own
  case mismatch =>
    intro _ _ _ _ _ _ _ _ _ _ _ _ _ _ _ _ failed
    cases failed
  case nil =>
    intro source _ _ _ savable _
    rw [List.eq_nil_of_length_eq_zero savable.length]
    exact slotsRestore_nil
  case short =>
    intro _ _ _ _ _ _ failed
    cases failed
  case dictFails =>
    intro _ _ _ _ _ _ _ _ _ _ _ _ _ _ _ _ _ _ _ _ _ failed
    cases failed
  case dict =>
    intro _ name theirs source others owner property dict entries slots c _ start dropped hstart d slot
      _ done ih ih' savable succeeded
    obtain ⟨_, _, same, beside, writable, later⟩ := savable.exists_cons
    cases same
    obtain ⟨-, empty⟩ := savable.blank _ (List.mem_cons_self ..)
    cases beside with
    | dict source_made made given _ =>
        have bound : dict.BoundTo owner property := savable.bound _ (List.mem_cons_self ..)
        cases empty
        cases hstart
        obtain ⟨stored, subject, restores⟩ :=
          ih _ ⟨made, given, writable, bound.kind ▸ savable.kind, fun _ _ _ mem => by cases mem⟩ done
        have inherits : dict.blueprint.schema.isA theirs.blueprint.schema.id = true := by
          rw [source_made.schema_eq, made.schema_eq]
          exact Schema.isA_self _
        have subject : d.subject = stored := subject
        have restored := (ih' later succeeded).dict inherits restores given.sorted
          (fun e he => writable e he _ (self_mem_parts _)) property name
        rw [← subject] at restored
        exact restored
  case dictMismatch =>
    intro _ _ _ _ _ _ _ _ _ _ _ _ _ failed
    cases failed
  case writeFails =>
    intro _ _ _ _ _ _ _ _ _ _ _ _ _ _ failed
    cases failed
  case write =>
    intro _ name content others owner property current slots c plain d _ _ ih savable succeeded
    obtain ⟨_, _, same, beside, -, later⟩ := savable.exists_cons
    cases same
    obtain ⟨typed, -⟩ := savable.blank _ (List.mem_cons_self ..)
    have returns := beside.returns typed plain savable.quiet property c
    refine (ih later succeeded).write returns (fun d entries dict => ?_) property name
    cases beside with
    | dict => exact plain _ _ _ _ dict rfl
    | _ => cases dict
  case done =>
    intro _ m _ _ _ _
    exact ⟨[], (List.append_nil _).symm, .nil⟩
  case intoFails =>
    intro _ _ _ _ _ _ _ _ _ _ _ _ _ _ _ _ failed
    cases failed
  case into =>
    -- no entry of the source has come before
    intro key _ source rest _ m _ ours found _ _ _ _ _ _ _ savable _
    obtain ⟨at_key, before, after, split⟩ := Entries.exists_of_find? found
    have lt := savable.last key (List.mem_cons_self ..) ours (by rw [split]; simp)
    exact absurd lt (at_key ▸ String.lt_irrefl _)
  case unmade =>
    intro _ _ _ _ _ _ _ _ _ _ _ _ _ _ _ _ _ failed
    cases failed
  case make =>
    intro key _ source rest dict m _ _ made hub hmake d _ done heard after hheard ih ih' nested savable
      succeeded
    obtain ⟨there, empty⟩ := savable.made.of_make savable.given.schema hmake
    obtain ⟨copyable, same⟩ := savable.given.first there (by simp [empty])
    have restores := ih copyable same
      (fun y hy => (List.forall_mem_cons.1 savable.writable).1 y (slotParts_subset hy))
      (blank_make hmake savable.kind) done
    -- the new entry comes last
    have inserted : Entries.insert ⟨key, heard, d.subject⟩ m.entries =
        m.entries ++ [⟨key, heard, d.subject⟩] :=
      Entries.insert_last fun e he => savable.last key (List.mem_cons_self ..) e he
    rw [inserted] at ih' succeeded ⊢
    obtain ⟨others, subject, later⟩ := ih' nested (savable.rest rfl) succeeded
    refine ⟨⟨key, heard, d.subject⟩ :: others, ?_, .cons ⟨rfl, restores⟩ later⟩
    rw [subject, List.append_assoc]
    rfl

theorem restores_of_assign (registry : Schema.Registry known) {source target : Settings} (c : Context)
    (copyable : Copyable known catalogs source target) (same : target.schema = source.schema)
    (writable : ∀ y ∈ slotParts source.slots, y.kind.isWritable = true) (blank : target.Blank) :
    (assign source target c).subject.Restores source :=
  (restores_of_assign_restores_of_assignEntries registry).1 source target c copyable same writable blank
    (assign_agrees registry c copyable).answer

end Settings

/-- A source is saved in a new instance that is made as a copy of it. -/
theorem Blueprint.MadeFor.exists_restores (registry : Schema.Registry known) {source : Settings}
    (conforms : source.Conforms known catalogs) (exact : source.schema.Exact catalogs)
    (writable : ∀ y ∈ slotParts source.slots, y.kind.isWritable = true) {blueprint : Blueprint}
    (made_for : blueprint.MadeFor catalogs source.schema) {kind : Kind}
    (plain : kind.isObservable = false) (engine : EngineId) (c : Context) :
    ∃ y after, blueprint.create engine kind (some source) c = (.ok y, after) ∧ y.Restores source := by
  unfold create
  cases hmake : blueprint.make engine kind c.hub with
  | mk made between =>
      obtain ⟨there, empty⟩ := made_for.of_make conforms.self.known hmake
      have copyable : Copyable known catalogs source made :=
        ⟨conforms, exact, there.1, by simp [empty], there.2 ▸ Schema.isA_self _⟩
      have agrees := assign_agrees registry { c with hub := between } copyable
      dsimp only
      refine ⟨_, _, by rw [agrees.answer]; rfl, ?_⟩
      exact restores_of_assign registry _ copyable there.2 writable (blank_make hmake plain)

end SettingsForge
