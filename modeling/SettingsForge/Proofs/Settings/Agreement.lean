import Mathlib.Data.List.Sort
import SettingsForge.Proofs.Initializer.Calls
import SettingsForge.Proofs.Settings.Alignment
import SettingsForge.Proofs.Value.Equality
import SettingsForge.Settings.Copy

set_option autoImplicit false

/-! # Copies agree with their sources

If the first values of a schema fit their types exactly (`Schema.Exact`), everything that its instances
hold does, and may be stored again. Then a copy from an instance of the target's schema, or of one that
inherits from it, cannot fail, and brings every property of the target to the source's value, at any
depth (`Settings.assign_agrees`). An observable target keeps a value that is equal to the source's, so
that the signs of zeros may still differ; `Value.unsigned` forgets them. -/

namespace SettingsForge

open Value Settings

/-! ## Values without signs -/

namespace Keyed

variable {β γ : Type}

theorem insert_map (f : β → γ) (key : String) (value : β) (entries : List (String × β)) :
    (insert key value entries).map (Prod.map id f) =
      insert key (f value) (entries.map (Prod.map id f)) := by
  induction entries with
  | nil => rfl
  | cons entry rest ih =>
      obtain ⟨k, v⟩ := entry
      rw [insert, List.map_cons, Prod.map_apply, id, insert]
      split
      · rfl
      · split
        · rfl
        · rw [List.map_cons, ih, Prod.map_apply, id]

theorem ofList_map (f : β → γ) (pairs : List (String × β)) :
    (ofList pairs).map (Prod.map id f) = ofList (pairs.map (Prod.map id f)) := by
  suffices all : ∀ entries : List (String × β),
      (pairs.foldl (fun entries pair => insert pair.1 pair.2 entries) entries).map (Prod.map id f) =
        (pairs.map (Prod.map id f)).foldl (fun entries pair => insert pair.1 pair.2 entries)
          (entries.map (Prod.map id f)) from all []
  induction pairs with
  | nil => exact fun _ => rfl
  | cons pair pairs ih =>
      intro entries
      rw [List.foldl_cons, ih, insert_map, List.map_cons, List.foldl_cons]
      rfl

end Keyed

namespace Settings

/-- What slots read as, without signs. -/
def slotViews (slots : List Slot) : List (String × Value) := unsignedEntries (slotValues slots)

@[simp] theorem slotViews_nil : slotViews [] = [] := rfl

@[simp] theorem slotViews_cons (slot : Slot) (slots : List Slot) :
    slotViews (slot :: slots) = (slot.name, slot.content.value.unsigned) :: slotViews slots := by
  simp [slotViews, slotValues_eq_map, unsignedEntries]

@[simp] theorem length_slotViews (slots : List Slot) : (slotViews slots).length = slots.length := by
  simp [slotViews, slotValues_eq_map, unsignedEntries_eq_map]

/-- What an entry reads as, without signs. -/
def entryView (e : Entry) : Value := e.settings.snapshot.unsigned

theorem unsigned_snapshot (x : Settings) :
    x.snapshot.unsigned = .object x.schema.name (Keyed.ofList (slotViews x.slots)) := by
  cases x with
  | mk schema kind slots notifier provider =>
      rw [snapshot, unsigned, unsignedEntries_eq_map]
      have each : (fun entry : String × Value => (entry.1, entry.2.unsigned)) =
          Prod.map id unsigned := rfl
      rw [each, Keyed.ofList_map, slotViews, unsignedEntries_eq_map, each]
      rfl

theorem unsigned_entryValues (entries : List Entry) :
    unsignedEntries (entryValues entries) = entries.map fun e => (e.key, entryView e) := by
  rw [unsignedEntries_eq_map, entryValues_eq_map, List.map_map]
  rfl

end Settings

/-- Dictionaries that hold the same under every key read the same. -/
theorem Entries.views_eq {entries others : List Entry} (sorted : Sorted entries)
    (sorted' : Sorted others)
    (same : ∀ key, (find? entries key).map entryView = (find? others key).map entryView) :
    entries.map (fun e => (e.key, entryView e)) = others.map fun e => (e.key, entryView e) := by
  have mem_iff : ∀ {list : List Entry}, Sorted list → ∀ key view,
      (key, view) ∈ list.map (fun e => (e.key, entryView e)) ↔
        (find? list key).map entryView = some view := by
    intro list sorted key view
    rw [List.mem_map, Option.map_eq_some_iff]
    constructor
    · rintro ⟨e, mem, heq⟩
      cases heq
      exact ⟨e, sorted.find?_of_mem mem, rfl⟩
    · rintro ⟨e, found, rfl⟩
      obtain ⟨rfl, before, after, rfl⟩ := exists_of_find? found
      exact ⟨e, by simp, rfl⟩
  have : Std.Irrefl fun a b : String × Value => a.1 < b.1 := ⟨fun a => String.lt_irrefl a.1⟩
  have : Std.Antisymm fun a b : String × Value => a.1 < b.1 :=
    ⟨fun a b lt lt' => absurd (String.lt_trans lt lt') (String.lt_irrefl a.1)⟩
  have pairwise : ∀ {list : List Entry}, Sorted list →
      (list.map fun e => (e.key, entryView e)).Pairwise fun a b => a.1 < b.1 := by
    intro list sorted
    rw [Sorted, keys, List.pairwise_map] at sorted
    exact List.pairwise_map.2 sorted
  refine (pairwise sorted).eq_of_mem_iff (pairwise sorted') ?_
  rintro ⟨key, view⟩
  rw [mem_iff sorted, mem_iff sorted', same key]

/-! ## Storing what fits exactly -/

/-- The first values that engines give to a schema's properties, and to those of all schemas nested in
    it, fit their types exactly. -/
def Schema.Exact (catalogs : List Catalog) (s : Schema) : Prop :=
  ∀ t, Reaches s t → ∀ p ∈ t.properties, ∀ type value, p.type = .value type →
    t.Gives catalogs p type value → type.fit value = some .exact

/-- Zeros fit exactly, so a schema without declared defaults is exact. -/
theorem Schema.exact_of_no_defaults {catalogs : List Catalog} {s : Schema}
    (h : ∀ t, Reaches s t → ∀ p ∈ t.properties, p.defaults = []) : s.Exact catalogs := by
  rintro t reaches p hp type value declared ⟨catalog, -, initializer, resolved, rfl⟩
  rw [Initializer.eq_zero_of_no_defaults (h t reaches p hp) resolved]
  exact type.fit_zero

namespace ListRef

variable {list : ListRef} {items : List Value}

theorem mapM_conform_of_exact (exact : ∀ v ∈ items, list.item.fit v = some .exact) :
    items.mapM list.conform = .ok items := by
  refine forall₂_mapM_except.2 (List.forall₂_same.2 fun v mem => ?_)
  exact conform_eq_ok.2 (ValueType.coerce_of_exact _ (exact v mem))

/-- A reconciled list reads as its target. -/
theorem unsigned_reconciled (list : ListRef) (items target : List Value) :
    (Value.list (list.reconciled items target).items).unsigned = (Value.list target).unsigned := by
  rw [unsigned, unsigned, unsignedItems_eq_map, unsignedItems_eq_map]
  refine congrArg Value.list (map_eq_of_forall₂ ((forall₂_reconcile equals items target).imp ?_))
  rintro item t (rfl | ⟨-, equal⟩)
  · rfl
  · exact unsigned_eq_of_equals equal

end ListRef

namespace Owner

variable (owner : Owner) (property : String) (c : Context)

theorem write_scalar {type : ValueType} {value : Value} (exact : type.fit value = some .exact)
    (old : Value) :
    (owner.write property (.scalar type old) value c).answer = .ok () ∧
      (owner.write property (.scalar type old) value c).subject.value.unsigned = value.unsigned := by
  unfold write
  dsimp only
  rw [ValueType.coerce_of_exact type exact]
  exact owner.unsigned_store property old value c

theorem write_list {list : ListRef} {items : List Value}
    (exact : ∀ v ∈ items, list.item.fit v = some .exact) (old : List Value) :
    (owner.write property (.list list old) (.list items) c).answer = .ok () ∧
      (owner.write property (.list list old) (.list items) c).subject.value.unsigned =
        (Value.list items).unsigned := by
  have conforms : items.mapM list.conform = .ok items := ListRef.mapM_conform_of_exact exact
  unfold write ListRef.revise ListRef.edit
  dsimp only
  rw [conforms]
  exact ⟨rfl, list.unsigned_reconciled old items⟩

end Owner

section

variable {known : Schema → Prop} {catalogs : List Catalog}

/-- What a slot holds fits its type exactly. -/
inductive ContentOf.Typed : Content → Prop
  | scalar {type : ValueType} {value : Value} :
      type.fit value = some .exact → Typed (.scalar type value)
  | list {l : ListRef} {items : List Value} :
      (∀ v ∈ items, l.item.fit v = some .exact) → Typed (.list l items)
  | dict {d : DictRef} {entries : List Entry} : Typed (.dict d entries)

/-- Where the first values fit exactly, all later ones do, for types make no others. -/
theorem ContentOf.Conforms.typed {s : Schema} {p : Property} {content : Content}
    (h : content.Conforms catalogs s p) (exact : s.Exact catalogs) (mem : p ∈ s.properties) :
    content.Typed := by
  cases h with
  | @scalar type value declared plain value_of =>
      refine .scalar (value_of.elim ValueType.Makes.exact fun given => ?_)
      exact exact s (.refl s) p mem type value declared given
  | @list list items declared items_of =>
      refine .list fun v hv => ?_
      -- an item is of the type, or one of the declared list, which fits as a whole
      rcases items_of v hv with makes | ⟨all, given, hv⟩
      · exact makes.exact
      · have all_exact := exact s (.refl s) p mem _ _ declared given
        rw [ValueType.fit_list, Fit.ofItems_eq_exact_iff] at all_exact
        exact all_exact _ (List.mem_map_of_mem hv)
  | dict => exact .dict

/-! ## Slots side by side -/

/-- A dictionary's schema, the blueprint of its entries, and entries to copy from. -/
structure Entries.Given (known : Schema → Prop) (catalogs : List Catalog) (nested : Schema)
    (source : List Entry) : Prop where
  schema : known nested
  exact : nested.Exact catalogs
  sorted : Sorted source
  inside : ∀ e ∈ source, e.settings.Of known catalogs nested

/-- What a source holds for a property, and what a target holds for the same one. -/
inductive ContentOf.Beside (known : Schema → Prop) (catalogs : List Catalog) :
    Content → Content → Prop
  | scalar {type : ValueType} {value old : Value} :
      type.fit value = some .exact → Beside known catalogs (.scalar type value) (.scalar type old)
  | list {theirs l : ListRef} {items old : List Value} :
      theirs.item = l.item → (∀ v ∈ items, theirs.item.fit v = some .exact) →
      Beside known catalogs (.list theirs items) (.list l old)
  | dict {nested : Schema} {theirs d : DictRef} {source entries : List Entry} :
      theirs.blueprint.MadeFor catalogs nested → d.blueprint.MadeFor catalogs nested →
      Entries.Given known catalogs nested source →
      Entries.Open known catalogs nested (Entries.keys entries) entries →
      Beside known catalogs (.dict theirs source) (.dict d entries)

theorem Schema.Exact.nested {s t : Schema} (exact : s.Exact catalogs) (h : t ∈ s.nested) :
    t.Exact catalogs := fun u reaches => exact u (.step h reaches)

/-- What lies side by side may be copied, if the source's schema is exact. -/
theorem ContentOf.Aligned.beside {content current : Content}
    (aligned : content.Aligned known catalogs current) {s : Schema} {p : Property}
    (conforms : content.Conforms catalogs s p) (exact : s.Exact catalogs) (mem : p ∈ s.properties) :
    content.Beside known catalogs current := by
  have typed := conforms.typed exact mem
  cases aligned with
  | scalar =>
      cases typed with
      | scalar fits => exact .scalar fits
  | list same =>
      cases typed with
      | list fits => exact .list same fits
  | dict made made' lent opened =>
      cases conforms with
      | dict declared own sorted schemas =>
          cases made.schema_eq.symm.trans own.schema_eq
          have there : _ ∈ s.nested := List.mem_filterMap.2 ⟨p, mem, by rw [declared]⟩
          refine .dict made made' ⟨lent.schema, exact.nested there, sorted, fun e he => ?_⟩ opened
          exact ⟨(lent.inside e he).1, schemas e he⟩

/-- A source's slots begin with those that a target has. -/
def Settings.Covers (known : Schema → Prop) (catalogs : List Catalog) (source slots : List Slot) :
    Prop :=
  ∃ first rest, source = first ++ rest ∧
    List.Forall₂ (fun a b => a.name = b.name ∧ a.content.Beside known catalogs b.content) first slots

theorem Settings.Covers.exists_cons {source slots : List Slot} {slot : Slot}
    (h : Covers known catalogs source (slot :: slots)) :
    ∃ a others, source = a :: others ∧ a.name = slot.name ∧
      a.content.Beside known catalogs slot.content ∧ Covers known catalogs others slots := by
  obtain ⟨first, rest, rfl, pairs⟩ := h
  obtain ⟨a, later, own, others, rfl⟩ := List.forall₂_cons_right_iff.1 pairs
  exact ⟨a, later ++ rest, rfl, own.1, own.2, later, rest, rfl, others⟩

/-- The source's schema is exact and is the target's or inherits from it, and all entries inside the
    target may be written. -/
structure Settings.Copyable (known : Schema → Prop) (catalogs : List Catalog)
    (source target : Settings) : Prop where
  conforms : source.Conforms known catalogs
  exact : source.schema.Exact catalogs
  conforms' : target.Conforms known catalogs
  writable : ∀ y ∈ slotParts target.slots, y.kind.isWritable = true
  inherits : source.schema.isA target.schema.id = true

theorem Settings.Copyable.covers (registry : Schema.Registry known) {source target : Settings}
    (h : Copyable known catalogs source target) :
    Covers known catalogs source.slots target.slots := by
  have alignable : Alignable known catalogs source target :=
    ⟨h.conforms, h.conforms', h.writable, h.inherits⟩
  obtain ⟨first, rest, slots_eq, pairs⟩ := alignable.begins registry
  refine ⟨first, rest, slots_eq, (forall₂_mem_left pairs).imp ?_⟩
  rintro a b ⟨ha, same, aligned⟩
  have ha : a ∈ source.slots := by
    rw [slots_eq]
    exact List.mem_append_left _ ha
  obtain ⟨p, hp, -, fits⟩ := exists_left_of_forall₂ h.conforms.self.slots ha
  exact ⟨same, aligned.beside fits h.exact hp⟩

/-- What is no dictionary is written. -/
theorem ContentOf.Beside.write {content current : Content}
    (h : content.Beside known catalogs current)
    (plain : ∀ theirs source dict entries, content = .dict theirs source →
      current = .dict dict entries → False)
    (owner : Owner) (property : String) (c : Context) :
    (owner.write property current content.value c).answer = .ok () ∧
      (owner.write property current content.value c).subject.value.unsigned =
        content.value.unsigned := by
  cases h with
  | scalar exact => exact owner.write_scalar property c exact _
  | list same exact => exact owner.write_list property c (same ▸ exact) _
  | dict => exact (plain _ _ _ _ rfl rfl).elim

/-! ## Copies -/

/-- A copy succeeded, and its target reads as the first slots of its source. -/
structure Done.Agrees (d : Done Settings Unit) (source target : Settings) : Prop where
  answer : d.answer = .ok ()
  schema : d.subject.schema = target.schema
  views : slotViews d.subject.slots = (slotViews source.slots).take target.slots.length

/-- A merge succeeded, and the entries are those of the source and the others that were there. -/
structure Done.Merges (d : Done Merging Unit) (source entries : List Entry) : Prop where
  answer : d.answer = .ok ()
  sorted : Entries.Sorted d.subject.entries
  views : ∀ key, (Entries.find? d.subject.entries key).map entryView =
    ((Entries.find? source key).or (Entries.find? entries key)).map entryView

/-- An instance of its source's schema reads as the source after a copy. -/
theorem Done.Agrees.snapshot_eq {d : Done Settings Unit} {source target : Settings}
    (agrees : d.Agrees source target) (copyable : Copyable known catalogs source target)
    (same : target.schema = source.schema) :
    d.subject.snapshot.unsigned = source.snapshot.unsigned := by
  have length : target.slots.length = (slotViews source.slots).length := by
    rw [length_slotViews, ← copyable.conforms.self.slots.length_eq,
      ← copyable.conforms'.self.slots.length_eq, same]
  rw [unsigned_snapshot, unsigned_snapshot, agrees.views, agrees.schema, same, length,
    List.take_length]

/-- An entry of the source's comes first. -/
theorem Done.Merges.cons {d : Done Merging Unit} {key : String} {forwarder : Option SubscriptionId}
    {source : Settings} {rest entries : List Entry} {e : Entry}
    (merges : d.Merges rest (Entries.insert e entries))
    (sorted : Entries.Sorted (⟨key, forwarder, source⟩ :: rest)) (at_key : e.key = key)
    (view : entryView e = source.snapshot.unsigned) :
    d.Merges (⟨key, forwarder, source⟩ :: rest) entries := by
  refine ⟨merges.answer, merges.sorted, fun other => (merges.views other).trans ?_⟩
  rw [Entries.find?_insert, at_key]
  have fresh : Entries.find? rest key = none :=
    Entries.find?_eq_none.2 (List.nodup_cons.1 sorted.nodup).1
  by_cases same : key = other
  · -- no later entry of the source's has the key
    subst same
    rw [fresh, if_pos rfl]
    simpa [Entries.find?, entryView] using view
  · rw [if_neg same]
    simp [Entries.find?, same]

/-- The first entry may be copied into an instance of the dictionary's schema. -/
theorem Entries.Given.first {nested : Schema} {e : Entry} {rest : List Entry}
    (given : Given known catalogs nested (e :: rest)) {target : Settings}
    (there : target.Of known catalogs nested)
    (writable : ∀ y ∈ slotParts target.slots, y.kind.isWritable = true) :
    Copyable known catalogs e.settings target ∧ target.schema = e.settings.schema := by
  obtain ⟨conforms, schema⟩ := given.inside e (List.mem_cons_self ..)
  have same : target.schema = e.settings.schema := there.2.trans schema.symm
  refine ⟨⟨conforms, schema ▸ given.exact, there.1, writable, ?_⟩, same⟩
  rw [same]
  exact Schema.isA_self _

theorem Entries.Given.rest {nested : Schema} {e : Entry} {rest : List Entry}
    (given : Given known catalogs nested (e :: rest)) : Given known catalogs nested rest :=
  ⟨given.schema, given.exact, (List.pairwise_cons.1 given.sorted).2,
    (List.forall_mem_cons.1 given.inside).2⟩

/-- A dictionary after a finished merge reads as the source's. -/
theorem Done.Merges.value_eq (theirs dict : DictRef) {d : Done Merging Unit} {source entries : List Entry}
    (merges : d.Merges source (entries.filter fun e => (source.map EntryOf.key).contains e.key))
    (sorted : Entries.Sorted source) :
    (ContentOf.dict dict (d.finishMerge dict.binding).subject).value.unsigned =
      (ContentOf.dict theirs source).value.unsigned := by
  have same : ∀ key, (Entries.find? d.subject.entries key).map entryView =
      (Entries.find? source key).map entryView := by
    intro key
    rw [merges.views key]
    cases found : Entries.find? source key with
    | some e => rfl
    | none =>
        -- what the source does not have was dropped
        have absent := Entries.find?_eq_none.1 found
        have dropped : Entries.find?
            (entries.filter fun e => (source.map EntryOf.key).contains e.key) key = none := by
          refine Entries.find?_eq_none.2 fun mem => absent ?_
          obtain ⟨e, he, rfl⟩ := List.mem_map.1 mem
          simpa [Entries.keys] using (List.mem_filter.1 he).2
        rw [dropped]
        rfl
  have views := Entries.views_eq merges.sorted sorted same
  unfold ContentOf.value
  rw [unsigned, unsigned, unsigned_entryValues, unsigned_entryValues]
  exact congrArg Value.map views

namespace Settings

/-- A property that is written as the source's reads as the source's. -/
theorem slotViews_within {name other : String} {content after : Content} {source slots : List Slot}
    {rest : Done (List Slot) Unit} (names : other = name)
    (own : after.value.unsigned = content.value.unsigned)
    (views : slotViews rest.subject = (slotViews source).take slots.length) (slot : Slot) :
    slotViews (rest.within (⟨name, after⟩ :: ·)).subject =
      (slotViews (⟨other, content⟩ :: source)).take (slot :: slots).length := by
  rw [Done.within, slotViews_cons, slotViews_cons, List.length_cons, List.take_succ_cons, views, names,
    own]

/-- A copy from an instance of the target's schema, or of one that inherits from it, succeeds and
    agrees. So does a merge of entries of one schema. -/
theorem assign_agrees_assignEntries_merges (registry : Schema.Registry known) :
    (∀ source target c, Copyable known catalogs source target →
      (assign source target c).Agrees source target) ∧
    (∀ name source owner slots c, Covers known catalogs source slots →
      (assignSlots name source owner slots c).answer = .ok () ∧
        slotViews (assignSlots name source owner slots c).subject =
          (slotViews source).take slots.length) ∧
    ∀ source dict m c, ∀ nested, dict.blueprint.MadeFor catalogs nested →
      Entries.Given known catalogs nested source →
      Entries.Open known catalogs nested (Entries.keys source) m.entries →
      (assignEntries source dict m c).Merges source m.entries := by
  -- the cases are those of the copy; the ones in which a part fails cannot occur
  refine assign.mutual_induct_unfolding
    (fun source target c d => Copyable known catalogs source target → d.Agrees source target)
    (fun name source owner slots c d => Covers known catalogs source slots →
      d.answer = .ok () ∧ slotViews d.subject = (slotViews source).take slots.length)
    (fun source dict m c d => ∀ nested, dict.blueprint.MadeFor catalogs nested →
      Entries.Given known catalogs nested source →
      Entries.Open known catalogs nested (Entries.keys source) m.entries → d.Merges source m.entries)
    ?within ?mismatch ?nil ?short ?dictFails ?dict ?dictMismatch ?writeFails ?write ?done
    ?intoFails ?into ?unmade ?make
  case within =>
    intro _ _ _ _ _ _ _ _ _ _ _ _ ih copyable
    obtain ⟨answer, views⟩ := ih (copyable.covers registry)
    exact ⟨answer, rfl, views⟩
  case mismatch =>
    intro _ _ _ _ _ _ _ _ _ _ _ apart copyable
    exact absurd copyable.inherits apart
  case nil =>
    intro source _ _ _ _
    exact ⟨rfl, by simp⟩
  case short =>
    -- the source has a slot for each of the target's
    intro _ _ slot slots _ covers
    obtain ⟨_, _, none, -⟩ := covers.exists_cons
    cases none
  case dictFails =>
    intro _ _ _ _ _ owner property _ _ _ _ _ _ _ hstart d slot e failed ih covers
    obtain ⟨_, _, same, _, beside, -⟩ := covers.exists_cons
    cases same
    cases beside with
    | dict _ made given opened =>
        obtain ⟨-, opened⟩ := opened.start hstart
        cases (ih _ made given opened).answer.symm.trans failed
  case dict =>
    intro _ _ theirs _ _ _ _ dict _ _ _ _ _ _ hstart d slot _ _ ih ih' covers
    obtain ⟨_, _, same, names, beside, others⟩ := covers.exists_cons
    cases same
    obtain ⟨answer, views⟩ := ih' others
    cases beside with
    | dict _ made given opened =>
        obtain ⟨start_eq, opened⟩ := opened.start hstart
        have merges := ih _ made given opened
        -- the merge began with those of the target's entries that the source has
        rw [start_eq] at merges
        have own := merges.value_eq theirs dict given.sorted
        exact ⟨answer, slotViews_within names own views _⟩
  case dictMismatch =>
    intro _ _ _ _ _ _ _ _ _ _ _ apart covers
    obtain ⟨_, _, same, _, beside, -⟩ := covers.exists_cons
    cases same
    cases beside with
    | dict source_made made =>
        refine absurd ?_ apart
        rw [source_made.schema_eq, made.schema_eq]
        exact Schema.isA_self _
  case writeFails =>
    intro _ _ _ _ owner property _ _ c _ d e failed covers
    obtain ⟨_, _, same, _, beside, -⟩ := covers.exists_cons
    cases same
    cases (beside.write ‹_› owner property c).1.symm.trans failed
  case write =>
    intro _ _ _ _ owner property _ _ c _ d _ _ ih covers
    obtain ⟨_, _, same, names, beside, others⟩ := covers.exists_cons
    cases same
    obtain ⟨answer, views⟩ := ih others
    obtain ⟨-, own⟩ := beside.write ‹_› owner property c
    exact ⟨answer, slotViews_within names own views _⟩
  case done =>
    intro _ m _ _ _ _ opened
    exact ⟨rfl, opened.sorted, fun key => rfl⟩
  case intoFails =>
    intro key _ source rest _ m _ ours found d _ e failed ih nested _ given opened
    obtain ⟨there, writable⟩ := opened.inside key (List.mem_cons_self ..) ours found
    obtain ⟨copyable, -⟩ := given.first there fun y hy => writable y (slotParts_subset hy)
    unfold d at failed
    rw [if_pos (writable _ (self_mem_parts _))] at failed
    cases (ih copyable).answer.symm.trans failed
  case into =>
    intro key _ source rest _ m _ ours found d _ _ _ ih ih' nested made given opened
    obtain ⟨there, writable⟩ := opened.inside key (List.mem_cons_self ..) ours found
    obtain ⟨copyable, same⟩ := given.first there fun y hy => writable y (slotParts_subset hy)
    have at_key : ours.key = key := (Entries.exists_of_find? found).1
    have view : d.subject.snapshot.unsigned = source.snapshot.unsigned := by
      -- the entry is writable, so it is copied into
      unfold d
      rw [if_pos (writable _ (self_mem_parts _))]
      exact (ih copyable).snapshot_eq copyable same
    have others := ih' nested made given.rest (opened.insert given.sorted at_key)
    exact others.cons given.sorted at_key view
  case unmade =>
    intro _ _ source rest _ _ _ _ made hub hmake d e failed ih nested made_for given _
    obtain ⟨there, empty⟩ := made_for.of_make given.schema hmake
    obtain ⟨copyable, -⟩ := given.first there (by simp [empty])
    cases (ih copyable).answer.symm.trans failed
  case make =>
    intro _ _ source rest _ _ _ _ made hub hmake d _ _ _ _ _ ih ih' nested made_for given opened
    obtain ⟨there, empty⟩ := made_for.of_make given.schema hmake
    obtain ⟨copyable, same⟩ := given.first there (by simp [empty])
    have others := ih' nested made_for given.rest (opened.insert given.sorted rfl)
    exact others.cons given.sorted rfl ((ih copyable).snapshot_eq copyable same)

theorem assign_agrees (registry : Schema.Registry known) {source target : Settings} (c : Context)
    (copyable : Copyable known catalogs source target) :
    (assign source target c).Agrees source target :=
  (assign_agrees_assignEntries_merges registry).1 source target c copyable

/-! ## Properties -/

/-- Every property of the first instance reads as in the second one, at any depth, up to the signs of
    zeros. -/
def Agrees (y source : Settings) : Prop :=
  ∀ p ∈ y.schema.properties, ∃ v w, y.get p.name = .ok v ∧ source.get p.name = .ok w ∧
    v.unsigned = w.unsigned

theorem exists_get_of_lookup {x : Settings} {property : String} {view : Value}
    (h : (slotViews x.slots).lookup property = some view) :
    ∃ v, x.get property = .ok v ∧ v.unsigned = view := by
  unfold get content
  generalize x.slots = slots at h ⊢
  induction slots with
  | nil => cases h
  | cons slot slots ih =>
      rw [slotViews_cons, List.lookup_cons] at h
      rw [List.find?_cons]
      by_cases same : slot.name = property
      · subst same
        rw [beq_self_eq_true] at h ⊢
        exact ⟨_, rfl, Option.some.inj h⟩
      · rw [beq_false_of_ne same]
        rw [beq_false_of_ne (Ne.symm same)] at h
        exact ih h

end Settings

/-- The target of a copy that succeeded agrees with the source. -/
theorem Done.Agrees.subject_agrees (registry : Schema.Registry known)
    {d : Done Settings Unit} {source target : Settings} (agrees : d.Agrees source target)
    (copyable : Copyable known catalogs source target) : d.subject.Agrees source := by
  intro p hp
  rw [agrees.schema] at hp
  have conforms := copyable.conforms.self
  have conforms' := copyable.conforms'.self
  obtain ⟨own, split⟩ := registry.properties_of_isA conforms.known conforms'.known copyable.inherits
  have keys : (slotViews d.subject.slots).map Prod.fst =
      target.schema.properties.map PropertyOf.name := by
    have names : (slotViews source.slots).map Prod.fst = source.names := by
      simp [slotViews, slotValues_eq_map, unsignedEntries_eq_map, Settings.names]
    rw [agrees.views, List.map_take, names, conforms.names_eq, split, List.map_append,
      ← conforms'.slots.length_eq, List.take_left' (List.length_map _)]
  -- the target has a slot of this name, and the source has the same in its first slots
  have there : ((slotViews d.subject.slots).lookup p.name).isSome = true := by
    have mem : p.name ∈ (slotViews d.subject.slots).map Prod.fst := keys ▸ List.mem_map_of_mem hp
    obtain ⟨entry, hentry, name⟩ := List.mem_map.1 mem
    exact List.lookup_isSome_iff.2 ⟨entry, hentry, beq_iff_eq.2 name.symm⟩
  obtain ⟨view, found⟩ := Option.isSome_iff_exists.1 there
  have found' : (slotViews source.slots).lookup p.name = some view := by
    rw [← List.take_append_drop target.slots.length (slotViews source.slots), List.lookup_append,
      ← agrees.views, found]
    rfl
  obtain ⟨v, get_v, view_v⟩ := exists_get_of_lookup found
  obtain ⟨w, get_w, view_w⟩ := exists_get_of_lookup found'
  exact ⟨v, w, get_v, get_w, view_v.trans view_w.symm⟩

/-! ## Whole copies -/

namespace Settings

theorem provider_assign (source target : Settings) (c : Context) :
    (assign source target c).subject.provider = target.provider := by
  cases source
  cases target
  rw [assign]
  split <;> rfl

end Settings

/-- A new instance is made as a copy if and only if the source's schema allows it. Nobody is told, and
    nobody but owners listens anywhere inside it. -/
theorem Blueprint.MadeFor.create_agrees (registry : Schema.Registry known) {t : Schema}
    {blueprint : Blueprint} (made_for : blueprint.MadeFor catalogs t) (ht : known t)
    (engine : EngineId) (kind : Kind) {source : Settings} (conforms : source.Conforms known catalogs)
    (exact : source.schema.Exact catalogs) (c : Context) (tidy : c.hub.Tidy) :
    (source.schema.isA t.id = true → ∃ y after,
      blueprint.create engine kind (some source) c = (.ok y, after) ∧
      y.Agrees source ∧ y.schema = t ∧ y.kind = kind ∧ y.provider = none ∧
      (∀ n ∈ y.notifiers, ∀ s ∈ after.hub.subscribers n, s.2.isClient = false) ∧
      after.hub.deliveries = c.hub.deliveries) ∧
    (source.schema.isA t.id = false → ∃ after, blueprint.create engine kind (some source) c =
        (.error (.schemaMismatch t.name source.schema.name), after) ∧
      after.hub.deliveries = c.hub.deliveries) := by
  have provider := blueprint.provider_make engine kind c.hub
  have kind_eq := blueprint.kind_make engine kind c.hub
  have deliveries := blueprint.deliveries_make engine kind c.hub
  unfold create
  cases hmake : blueprint.make engine kind c.hub with
  | mk made between =>
      obtain ⟨there, empty⟩ := made_for.of_make ht hmake
      have leads := blueprint.leads_of_make kind c.hub hmake fun _ => False
      have wired := blueprint.wired_of_make kind c.hub hmake
      rw [hmake] at provider kind_eq deliveries
      dsimp only at provider kind_eq deliveries ⊢
      rw [← there.2]
      constructor
      · intro inherits
        have copyable : Copyable known catalogs source made :=
          ⟨conforms, exact, there.1, by simp [empty], inherits⟩
        have agrees := assign_agrees registry { c with hub := between } copyable
        obtain ⟨ns, evolves, -⟩ := operated_assign registry source made { c with hub := between }
          conforms.keysSorted there.1
        have carried := evolves.carries (leads.tidy tidy) wired
        have unheard := evolves.unheard hmake
        have alike := evolves.alike
        refine ⟨_, _, by rw [agrees.answer]; rfl, ?_, alike.schema, alike.kind.trans kind_eq,
          (provider_assign ..).trans provider, fun n hn s hs => ?_, unheard.deliveries⟩
        · exact agrees.subject_agrees registry copyable
        · exact unheard.quiet n ((carried.of_make hmake evolves).2 n hn) s hs
      · intro differs
        rw [assign_of_not_isA _ differs]
        exact ⟨_, rfl, deliveries⟩

end

end SettingsForge
