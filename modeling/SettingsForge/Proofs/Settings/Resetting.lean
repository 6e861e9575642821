import SettingsForge.Proofs.Settings.Announcing
import SettingsForge.Proofs.Settings.Narrowing
import SettingsForge.Proofs.Settings.Operations
import SettingsForge.Proofs.Settings.Reading
import SettingsForge.Proofs.Settings.Restoring

set_option autoImplicit false

/-! # Bringing an instance to its defaults

The defaults that an engine makes hold values that fit their types, if the initializers of the schema's
own properties make such, and empty dictionaries. Such a source never stops a copy: every slot is brought
to its default (`ContentOf.Settled`), and what is announced is just where the instance departs from the
defaults, in order (`Settings.assign_defaults`). No entry is brought to anything, so nothing is asked of
the schemas that are nested, and whatever entries had to tell, their owner hears none of it
(`Hub.Signals`). A second time nothing is changed or announced, unless a default is unequal to itself. -/

namespace SettingsForge

open Hub Settings

/-! ## Signals -/

/-- Changes of these properties are announced at the notifier, in this order. Apart from that, owners may
    stop hearing of entries that have notifiers of their own. -/
inductive Hub.Signals (notifier : Option NotifierId) : List String → Hub → Hub → Prop
  | nothing (hub : Hub) : Signals notifier [] hub hub
  | one (hub : Hub) (property : String) :
      Signals notifier [property] hub (hub.announce notifier property)
  | cut (hub : Hub) {e : Entry} : (∀ n, notifier = some n → e.settings.notifier ≠ some n) →
      Signals notifier [] hub (hub.unforward e)
  | trans {first second : List String} {hub between after : Hub} : Signals notifier first hub between →
      Signals notifier second between after → Signals notifier (first ++ second) hub after

namespace Hub.Signals

variable {notifier : Option NotifierId} {n : NotifierId} {topics : List String} {hub after : Hub}

theorem cuts {entries : List Entry}
    (apart : ∀ e ∈ entries, ∀ n, notifier = some n → e.settings.notifier ≠ some n) (hub : Hub) :
    Signals notifier [] hub (entries.foldl (fun hub e => hub.unforward e) hub) := by
  induction entries generalizing hub with
  | nil => exact .nothing hub
  | cons e entries ih =>
      obtain ⟨own, others⟩ := List.forall_mem_cons.1 apart
      exact (Signals.cut hub own).trans (ih others _)

theorem leads (h : Signals (some n) topics hub after) : Leads (· ≠ n) hub after := by
  induction h with
  | nothing hub => exact Leads.refl ..
  | one hub property => exact leads_announce ..
  | cut hub apart =>
      exact (leads_unforward hub _).mono fun m _ there same => apart n rfl (same ▸ there)
  | trans _ _ ih ih' => exact ih.trans ih'

/-- A client that is subscribed all along takes one note of every change that is announced. -/
theorem heard (h : Signals (some n) topics hub after) (tidy : hub.Tidy) (lt : n < hub.size) :
    Heard hub after (topics.map (Notice.mk [])) id n := by
  induction h with
  | nothing hub => exact Heard.of_eq rfl
  | one hub property => exact Heard.announce tidy (.self n) property
  | cut hub apart => exact Heard.of_eq (deliveries_unforward hub _)
  | @trans first second hub between after former latter ih ih' =>
      have leads := former.leads
      rw [List.map_append]
      refine (ih tidy lt).trans (ih' (leads.tidy tidy) (Nat.lt_of_lt_of_le lt leads.size)) ?_
      intro s early late
      exact latter.leads.stays (Nat.lt_of_lt_of_le lt leads.size) late
        (Nat.lt_of_lt_of_le (tidy.below n s early) (leads.next n))

/-- Without an announcement nobody takes a note. -/
theorem deliveries_eq (h : Signals notifier topics hub after) (none : topics = []) :
    after.deliveries = hub.deliveries := by
  induction h with
  | nothing => rfl
  | one => cases none
  | cut hub => exact deliveries_unforward hub _
  | trans _ _ ih ih' =>
      obtain ⟨first, second⟩ := List.append_eq_nil_iff.1 none
      exact (ih' second).trans (ih first)

end Hub.Signals

/-! ## Where an instance departs from its defaults -/

/-- Whether a slot departs from a default: a scalar or a list that is unequal to it does, and so does a
    dictionary with an entry. -/
def ContentOf.departs (default : Value) : Content → Bool
  | .scalar _ value => !value.equals default
  | .list _ items => !(Value.list items).equals default
  | .dict _ entries => !entries.isEmpty

/-- The properties in which an instance departs from its defaults, in order. -/
def Settings.departures (x defaults : Settings) : List String :=
  (x.slots.filter fun slot =>
    match defaults.get slot.name with
    | .ok value => slot.content.departs value
    | .error _ => false).map SlotOf.name

/-! ## Slots -/

namespace ContentOf

variable {notifier : Option NotifierId} {default current after : Content}

/-- A slot that may be brought to a default: the default fits exactly, or it is an empty dictionary, and
    entries that are in the way have notifiers of their own. -/
inductive Resettable (notifier : Option NotifierId) : Content → Content → Prop
  | scalar {type : ValueType} {value old : Value} :
      type.fit value = some .exact → Resettable notifier (.scalar type value) (.scalar type old)
  | list {theirs l : ListRef} {items old : List Value} :
      (∀ v ∈ items, l.item.fit v = some .exact) →
      Resettable notifier (.list theirs items) (.list l old)
  | dict {theirs d : DictRef} {entries : List Entry} :
      theirs.blueprint.schema.isA d.blueprint.schema.id = true →
      (∀ e ∈ entries, ∀ n, notifier = some n → e.settings.notifier ≠ some n) →
      Resettable notifier (.dict theirs []) (.dict d entries)

/-- A slot that was brought to a default. Where changes are announced, a scalar may keep a value that is
    equal to the default, and every list may keep such items. -/
inductive Settled (notifier : Option NotifierId) : Content → Content → Prop
  | stored {type : ValueType} {value : Value} :
      Settled notifier (.scalar type value) (.scalar type value)
  | kept {type : ValueType} {value old : Value} : notifier.isSome = true →
      old.equals value = true → Settled notifier (.scalar type value) (.scalar type old)
  | list {theirs l : ListRef} {items target : List Value} :
      List.Forall₂ (fun v t => v = t ∨ v.equals t = true) items target →
      Settled notifier (.list theirs target) (.list l items)
  | dict {theirs d : DictRef} : Settled notifier (.dict theirs []) (.dict d [])

theorem Settled.unsigned_eq (h : default.Settled notifier after) :
    after.value.unsigned = default.value.unsigned := by
  cases h with
  | stored => rfl
  | kept _ equal => exact Value.unsigned_eq_of_equals equal
  | list items =>
      rw [value, value, Value.unsigned, Value.unsigned, Value.unsignedItems_eq_map,
        Value.unsignedItems_eq_map]
      refine congrArg Value.list (map_eq_of_forall₂ (items.imp ?_))
      rintro v t (rfl | equal)
      · rfl
      · exact Value.unsigned_eq_of_equals equal
  | dict => rfl

theorem Settled.entries_eq (h : default.Settled notifier after) : after.entries = [] := by
  cases h <;> rfl

/-- Items that are the target's or equal to them are equal to them, if these are equal to themselves. -/
theorem equalItems_of_settled {items target : List Value}
    (settled : List.Forall₂ (fun v t => v = t ∨ v.equals t = true) items target)
    (proper : Value.equalItems target target = true) : Value.equalItems items target = true := by
  induction settled with
  | nil => rfl
  | @cons v t items target same _ ih =>
      rw [Value.equalItems, Bool.and_eq_true] at proper ⊢
      refine ⟨?_, ih proper.2⟩
      rcases same with rfl | equal
      · exact proper.1
      · exact equal

/-- A settled slot departs no more, if the default is equal to itself. -/
theorem Settled.departs_eq (h : default.Settled notifier after)
    (proper : default.value.hasNan = false) : after.departs default.value = false := by
  have equal : default.value.equals default.value = true := by
    rw [Value.equals_self, proper]
    rfl
  cases h with
  | stored =>
      rw [value] at equal
      rw [departs, value, equal, Bool.not_true]
  | kept _ same => rw [departs, value, same, Bool.not_true]
  | list items =>
      rw [value, Value.equals] at equal
      rw [departs, value, Value.equals, equalItems_of_settled items equal, Bool.not_true]
  | dict => rfl

end ContentOf

open ContentOf

/-! ## Slot by slot -/

/-- A slot is left as this by bringing it to a default: it is settled, what is announced is that it
    departed, and it is as before if it was settled before and the default is equal to itself. -/
structure ContentOf.Brought (owner : Owner) (property : String) (default current : Content) (hub : Hub)
    (z : Content) (after : Hub) : Prop where
  settled : default.Settled owner.notifier z
  signals : Signals owner.notifier (if current.departs default.value then [property] else []) hub after
  again : default.Settled owner.notifier current → default.value.hasNan = false → z = current

namespace Owner

variable (owner : Owner) (property : String) (c : Context)

/-- A scalar is stored, unless it is observed and equal already. -/
theorem brought_scalar {type : ValueType} {value : Value} (exact : type.fit value = some .exact)
    (old : Value) :
    ∃ z after, owner.write property (.scalar type old) value c = ⟨.ok (), z, after⟩ ∧
      Brought owner property (.scalar type value) (.scalar type old) c.hub z after.hub := by
  have departs_eq : (ContentOf.scalar type old : Content).departs value = !old.equals value := rfl
  unfold write
  dsimp only
  rw [ValueType.coerce_of_exact type exact]
  dsimp only
  unfold store
  cases hn : owner.notifier with
  | none =>
      refine ⟨.scalar type value, c, rfl, .stored, ?_, fun settled _ => ?_⟩
      · rw [hn]
        split
        · exact .one c.hub property
        · exact .nothing c.hub
      · rw [hn] at settled
        cases settled with
        | stored => rfl
        | kept observed => cases observed
  | some n =>
      dsimp only
      cases equal : old.equals value with
      | true =>
          refine ⟨.scalar type old, c, rfl, .kept (by rw [hn]; rfl) equal, ?_, fun _ _ => rfl⟩
          rw [ContentOf.value, departs_eq, equal]
          exact .nothing c.hub
      | false =>
          refine ⟨.scalar type value, _, rfl, .stored, ?_, fun settled proper => ?_⟩
          · rw [ContentOf.value, departs_eq, equal, hn]
            exact .one c.hub property
          · have stays := settled.departs_eq proper
            rw [ContentOf.value, departs_eq, equal] at stays
            cases stays

/-- A list is reconciled. -/
theorem brought_list {theirs list : ListRef} (bound : list.BoundTo owner property) {items : List Value}
    (exact : ∀ v ∈ items, list.item.fit v = some .exact) (old : List Value) :
    ∃ z after, owner.write property (.list list old) (.list items) c = ⟨.ok (), z, after⟩ ∧
      Brought owner property (.list theirs items) (.list list old) c.hub z after.hub := by
  have conforms : items.mapM list.conform = .ok items := ListRef.mapM_conform_of_exact exact
  have kept : List.Forall₂ (fun v t => v = t ∨ v.equals t = true)
      (reconcile Value.equals old items).items items :=
    (forall₂_reconcile Value.equals old items).imp fun _ _ => Or.imp_right And.right
  have departs_eq : (ContentOf.list list old : Content).departs (.list items) =
      (reconcile Value.equals old items).outcome.changed := by
    rw [departs, Value.equals, Bool.eq_iff_iff, changed_reconcile_iff, Bool.not_eq_true']
  unfold write ListRef.revise ListRef.edit
  dsimp only
  rw [conforms]
  refine ⟨.list list (reconcile Value.equals old items).items, _, rfl, .list kept, ?_, ?_⟩
  · rw [ContentOf.value, departs_eq]
    dsimp only [ListRef.reconciled]
    cases (reconcile Value.equals old items).outcome.changed with
    | true =>
        simp only [if_true, bound.binding, Context.tell_binding, Context.hub_announce]
        exact .one c.hub property
    | false => exact .nothing c.hub
  · intro settled proper
    have stays := settled.departs_eq proper
    rw [ContentOf.value, departs_eq] at stays
    rw [items_reconcile_of_unchanged stays]

/-- The entries of a dictionary go, and the owner hears of them no more before it announces that. -/
theorem brought_dict {dict : DictRef} (bound : dict.BoundTo owner property) {entries : List Entry}
    (apart : ∀ e ∈ entries, ∀ n, owner.notifier = some n → e.settings.notifier ≠ some n)
    (theirs : DictRef) :
    ∃ start dropped after, Merging.start [] entries c = (start, dropped) ∧
      (⟨.ok (), start, dropped⟩ : Done Merging Unit).finishMerge dict.binding = ⟨.ok (), [], after⟩ ∧
      Brought owner property (.dict theirs []) (.dict dict entries) c.hub (.dict dict [])
        after.hub := by
  have cut := Signals.cuts apart c.hub
  have start_eq : Merging.start [] entries c = (⟨[], !entries.isEmpty⟩,
      { c with hub := entries.foldl (fun hub e => hub.unforward e) c.hub }) := by
    simp [Merging.start]
  refine ⟨_, _, _, start_eq, rfl, .dict, ?_, fun settled _ => ?_⟩
  · rw [ContentOf.value, departs]
    cases entries.isEmpty with
    | true => exact cut
    | false =>
        simp only [Bool.not_false, if_true, bound.binding, Context.tell_binding, Context.hub_announce]
        exact cut.trans (.one _ property)
  · cases settled
    rfl

end Owner

namespace Settings

/-- A slot is brought to its default, and then the slots after it. -/
theorem assignSlots_brought {owner : Owner} {property : String} {default current : Content}
    (h : default.Resettable owner.notifier current) (bound : current.BoundTo owner property)
    (source other : String) (defaults slots : List Slot) (c : Context) :
    ∃ z after,
      assignSlots source (⟨other, default⟩ :: defaults) owner (⟨property, current⟩ :: slots) c =
        (assignSlots source defaults owner slots after).within (⟨property, z⟩ :: ·) ∧
      Brought owner property default current c.hub z after.hub := by
  cases h with
  | scalar exact =>
      obtain ⟨z, after, written, brought⟩ := owner.brought_scalar property c exact _
      refine ⟨z, after, ?_, brought⟩
      simp only [assignSlots, ContentOf.value, written]
  | list exact =>
      obtain ⟨z, after, written, brought⟩ := owner.brought_list property c bound exact _
      refine ⟨z, after, ?_, brought⟩
      simp only [assignSlots, ContentOf.value, written]
  | @dict theirs d entries inherits apart =>
      have bound : d.BoundTo owner property := bound
      obtain ⟨start, dropped, after, started, finished, brought⟩ :=
        owner.brought_dict property c bound apart theirs
      refine ⟨_, after, ?_, brought⟩
      simp only [assignSlots, inherits, if_true, List.map_nil, started, assignEntries, finished]

/-- Where slots depart from defaults beside them. -/
def departed (defaults slots : List Slot) : List String :=
  ((defaults.zip slots).filter fun pair => pair.2.content.departs pair.1.content.value).map
    fun pair => pair.2.name

/-- Slots are brought to the defaults beside them. What is settled already stays, if the defaults are
    equal to themselves. -/
theorem assignSlots_defaults {owner : Owner} {defaults slots : List Slot}
    (h : List.Forall₂ (fun a b => a.name = b.name ∧ a.content.Resettable owner.notifier b.content)
      defaults slots) (bound : ∀ slot ∈ slots, slot.content.BoundTo owner slot.name)
    (source : String) (c : Context) :
    (assignSlots source defaults owner slots c).answer = .ok () ∧
      List.Forall₂ (fun a z => a.name = z.name ∧ a.content.Settled owner.notifier z.content) defaults
        (assignSlots source defaults owner slots c).subject ∧
      Signals owner.notifier (departed defaults slots) c.hub
        (assignSlots source defaults owner slots c).context.hub ∧
      (List.Forall₂ (fun a b => a.content.Settled owner.notifier b.content ∧
          a.content.value.hasNan = false) defaults slots →
        (assignSlots source defaults owner slots c).subject = slots ∧ departed defaults slots = []) := by
  induction h generalizing c with
  | nil => exact ⟨rfl, .nil, .nothing c.hub, fun _ => ⟨rfl, rfl⟩⟩
  | @cons a b defaults slots own _ ih =>
      obtain ⟨other, default⟩ := a
      obtain ⟨property, current⟩ := b
      obtain ⟨names, resettable⟩ := own
      obtain ⟨own_bound, later⟩ := List.forall_mem_cons.1 bound
      obtain ⟨z, after, assigned, brought⟩ :=
        assignSlots_brought resettable own_bound source other defaults slots c
      obtain ⟨answer, settled, signals, again⟩ := ih later after
      have topics : departed (⟨other, default⟩ :: defaults) (⟨property, current⟩ :: slots) =
          (if current.departs default.value then [property] else []) ++ departed defaults slots := by
        unfold departed
        rw [List.zip_cons_cons, List.filter_cons]
        dsimp only
        split <;> rfl
      rw [assigned, topics]
      refine ⟨answer, .cons ⟨names, brought.settled⟩ settled, brought.signals.trans signals,
        fun stay => ?_⟩
      obtain ⟨⟨kept, proper⟩, rest⟩ := List.forall₂_cons.1 stay
      obtain ⟨same, none⟩ := again rest
      dsimp only at kept proper
      rw [brought.again kept proper, kept.departs_eq proper, none]
      exact ⟨congrArg (_ :: ·) same, rfl⟩

/-! ## Whole instances -/

theorem get_of_mem {x : Settings} (nodup : x.names.Nodup) {slot : Slot} (mem : slot ∈ x.slots) :
    x.get slot.name = .ok slot.content.value := by
  unfold get
  rw [content_of_mem nodup mem]
  rfl

/-- Where an instance departs from its defaults is where the slots do. -/
theorem departed_eq_departures {x d : Settings} (nodup : d.names.Nodup)
    (names : List.Forall₂ (fun a b => a.name = b.name) d.slots x.slots) :
    departed d.slots x.slots = x.departures d := by
  suffices each : ∀ {defaults slots : List Slot},
      List.Forall₂ (fun a b => a.name = b.name) defaults slots →
      (∀ a ∈ defaults, d.get a.name = .ok a.content.value) →
      departed defaults slots = (slots.filter fun slot =>
        match d.get slot.name with
        | .ok value => slot.content.departs value
        | .error _ => false).map SlotOf.name from each names fun a => get_of_mem nodup
  intro defaults slots names
  induction names with
  | nil => exact fun _ => rfl
  | @cons a b defaults slots same _ ih =>
      intro reads
      obtain ⟨own, others⟩ := List.forall_mem_cons.1 reads
      unfold departed at ih ⊢
      rw [List.zip_cons_cons, List.filter_cons, List.filter_cons, ← same, own]
      dsimp only
      split
      · rw [List.map_cons, List.map_cons, ih others]
      · exact ih others

variable {known : Schema → Prop} {catalogs : List Catalog} {x d y : Settings} {hub : Hub}

/-- What stands beside a default of its property may be brought to it. -/
theorem resettable_of_conforms {s : Schema} {p : Property} {default current : Content}
    {notifier : Option NotifierId} (fits : default.Conforms catalogs s p)
    (fits' : current.Conforms catalogs s p) (storable : default.Storable)
    (apart : ∀ e ∈ current.entries, ∀ n, notifier = some n → e.settings.notifier ≠ some n) :
    default.Resettable notifier current := by
  cases storable with
  | scalar exact =>
      cases fits with
      | scalar declared plain =>
          cases fits' with
          | scalar declared' =>
              cases declared.symm.trans declared'
              exact .scalar exact
          | list declared' =>
              cases declared.symm.trans declared'
              exact absurd rfl (plain _)
          | dict declared' => cases declared.symm.trans declared'
  | list exact =>
      cases fits with
      | list declared =>
          cases fits' with
          | scalar declared' plain =>
              cases declared.symm.trans declared'
              exact absurd rfl (plain _)
          | list declared' =>
              have same := ValueType.list.inj (PropertyTypeOf.value.inj (declared.symm.trans declared'))
              exact .list (same ▸ exact)
          | dict declared' => cases declared.symm.trans declared'
  | empty =>
      cases fits with
      | dict declared made =>
          cases fits' with
          | scalar declared' => cases declared.symm.trans declared'
          | list declared' => cases declared.symm.trans declared'
          | dict declared' made' =>
              cases declared.symm.trans declared'
              refine .dict ?_ apart
              rw [made.schema_eq, made'.schema_eq]
              exact Schema.isA_self _

/-- The defaults of a schema whose initializers make values that fit. -/
structure Defaults (known : Schema → Prop) (catalogs : List Catalog) (s : Schema) (d : Settings) :
    Prop where
  of : d.Of known catalogs s
  storable : ∀ slot ∈ d.slots, slot.content.Storable

theorem Defaults.resettable (h : Defaults known catalogs x.schema d)
    (conforms : x.Conforms known catalogs) (wired : Wired hub x) :
    List.Forall₂ (fun a b => a.name = b.name ∧ a.content.Resettable x.notifier b.content)
      d.slots x.slots := by
  have slots := h.of.1.self.slots
  rw [h.of.2] at slots
  refine forall₂_join slots conforms.self.slots fun p a b _ ha hb own own' => ?_
  refine ⟨own.1.symm.trans own'.1, ?_⟩
  refine resettable_of_conforms own.2 own'.2 (h.storable a ha) fun e he n hn inside => ?_
  exact wired.not_mem_inner hn (Nat.le_refl n) (mem_inner.2 ⟨b, hb, e, he, mem_notifiers_self inside⟩)

/-- An instance was brought to its defaults. -/
structure Defaulted (d x y : Settings) (hub after : Hub) : Prop where
  alike : x.Alike y
  provider : y.provider = x.provider
  settled : List.Forall₂ (fun a z => a.name = z.name ∧ a.content.Settled x.notifier z.content)
    d.slots y.slots
  signals : Signals x.notifier (x.departures d) hub after

/-- A copy from the defaults succeeds. Nothing is changed or announced if the instance is settled already
    and the defaults are equal to themselves. -/
theorem assign_defaults (registry : Schema.Registry known) (h : Defaults known catalogs x.schema d)
    (conforms : x.Conforms known catalogs) (c : Context) (wired : Wired c.hub x) :
    (assign d x c).answer = .ok () ∧
      Defaulted d x (assign d x c).subject c.hub (assign d x c).context.hub ∧
      (List.Forall₂ (fun a b => a.content.Settled x.notifier b.content ∧
          a.content.value.hasNan = false) d.slots x.slots →
        (assign d x c).subject = x ∧ x.departures d = []) := by
  have pairs := h.resettable conforms wired
  have names : List.Forall₂ (fun a b => a.name = b.name) d.slots x.slots :=
    pairs.imp fun _ _ own => own.1
  obtain ⟨answer, settled, signals, again⟩ :=
    @assignSlots_defaults x.owner d.slots x.slots pairs conforms.self.bound d.schema.name c
  rw [departed_eq_departures (h.of.1.self.nodup registry) names] at signals again
  have inherits : d.schema.isA x.schema.id = true := by
    rw [h.of.2]
    exact Schema.isA_self _
  have kept : (assignSlots d.schema.name d.slots x.owner x.slots c).subject.map SlotOf.name =
      x.slots.map SlotOf.name :=
    (map_eq_of_forall₂ (settled.imp fun _ _ own => own.1)).symm.trans (map_eq_of_forall₂ names)
  rw [assign_of_isA inherits]
  obtain ⟨_, _, _, _, _⟩ := x
  refine ⟨answer, ⟨⟨rfl, rfl, rfl, kept⟩, rfl, settled, signals⟩, fun stay => ?_⟩
  obtain ⟨same, none⟩ := again stay
  exact ⟨congrArg (fun slots => Settings.mk _ _ slots _ _) same, none⟩

namespace Defaulted

variable {after : Hub}

/-- The dictionaries are empty. -/
theorem entries_eq (h : Defaulted d x y hub after) : ∀ slot ∈ y.slots, slot.content.entries = [] := by
  intro slot mem
  obtain ⟨a, -, -, settled⟩ := exists_left_of_forall₂ h.settled mem
  exact settled.entries_eq

/-- Every property reads as in any instance that holds the defaults, but for the signs of zeros. -/
theorem agrees (registry : Schema.Registry known) (defaults : Defaults known catalogs x.schema d)
    (h : Defaulted d x y hub after) {fresh : Settings} (reads : fresh.get = d.get) :
    y.Agrees fresh := by
  have names : y.names = d.names :=
    (map_eq_of_forall₂ (h.settled.imp fun _ _ own => own.1)).symm
  have nodup := defaults.of.1.self.nodup registry
  intro p hp
  rw [h.alike.schema, ← defaults.of.2] at hp
  obtain ⟨a, ha, name, -⟩ := exists_right_of_forall₂ defaults.of.1.self.slots hp
  obtain ⟨z, hz, same, settled⟩ := exists_right_of_forall₂ h.settled ha
  refine ⟨z.content.value, a.content.value, ?_, ?_, settled.unsigned_eq⟩
  · rw [name, same]
    exact get_of_mem (names ▸ nodup) hz
  · rw [reads, name]
    exact get_of_mem nodup ha

/-- A second time nothing is changed or announced, if the defaults are equal to themselves. -/
theorem again (registry : Schema.Registry known) (defaults : Defaults known catalogs x.schema d)
    (h : Defaulted d x y hub after) (proper : d.snapshot.hasNan = false)
    (conforms : y.Conforms known catalogs) (c : Context) (wired : Wired c.hub y) :
    (assign d y c).answer = .ok () ∧ (assign d y c).subject = y ∧
      (assign d y c).context.hub.deliveries = c.hub.deliveries := by
  obtain ⟨answer, twice, idle⟩ := assign_defaults registry (h.alike.schema ▸ defaults) conforms c wired
  have stay : List.Forall₂ (fun a b => a.content.Settled y.notifier b.content ∧
      a.content.value.hasNan = false) d.slots y.slots := by
    rw [h.alike.notifier]
    refine (forall₂_mem_left h.settled).imp fun a z own => ⟨own.2.2, ?_⟩
    refine Bool.eq_false_iff.2 fun nan => Bool.eq_false_iff.1 proper ?_
    exact hasNan_snapshot (defaults.of.1.self.nodup registry) own.1 nan
  obtain ⟨same, none⟩ := idle stay
  exact ⟨answer, same, twice.signals.deliveries_eq none⟩

end Defaulted

end Settings

/-- A blueprint whose initializers make values that fit makes defaults. -/
theorem Blueprint.MadeFor.defaults {known : Schema → Prop} {catalogs : List Catalog} {s : Schema}
    {blueprint : Blueprint} (made_for : blueprint.MadeFor catalogs s) (hs : known s)
    (exact : ∀ plan ∈ blueprint.slots, SlotPlan.Exact plan) (engine : EngineId) (kind : Kind)
    (hub : Hub) : Defaults known catalogs s (blueprint.make engine kind hub).1 where
  of := made_for.conforms_make hs engine kind hub
  storable slot mem := by
    rw [blueprint.slots_make] at mem
    obtain ⟨plan, there, rfl⟩ := List.mem_map.1 mem
    exact (exact plan there).storable engine _

namespace Engine

variable {engine : Engine} {x : Settings}

/-- A reset of an instance that may be written is a copy from the defaults. -/
theorem reset_of_available (writable : x.kind.isWritable = true) {factory : Factory}
    (available : (engine.factory x.schema .read).answer = .ok factory) (c : Context) :
    ∃ between after, between.hub = c.hub ∧
      after.hub = (assign (factory.blueprint.make factory.engine .read {}).1 x between).context.hub ∧
      (engine.reset x c).1 = ⟨(assign (factory.blueprint.make factory.engine .read {}).1 x between).answer,
        (assign (factory.blueprint.make factory.engine .read {}).1 x between).subject, after⟩ := by
  obtain ⟨hub_same, answers⟩ :=
    engine.create_read x.schema (c.note [.resetStarted x.schema.name x.kind])
  rw [available] at answers
  unfold Engine.reset
  dsimp only
  generalize engine.create x.schema .read none (c.note [.resetStarted x.schema.name x.kind]) = made
    at hub_same answers
  obtain ⟨answer, after, between⟩ := made
  have answers : answer = .ok (factory.blueprint.make factory.engine .read {}).1 := answers
  subst answers
  have copied : x.copy (some (factory.blueprint.make factory.engine .read {}).1) between =
      assign (factory.blueprint.make factory.engine .read {}).1 x between := by
    unfold Settings.copy
    rw [if_pos writable]
  dsimp only
  rw [copied]
  refine ⟨between, _, hub_same, ?_, rfl⟩
  rfl

/-- A reset brings the instance to the defaults, if the initializers make values that fit. Nothing is
    changed or announced if that was done before, and the defaults are equal to themselves. -/
theorem reset_defaults {known : Schema → Prop} {catalogs : List Catalog}
    (registry : Schema.Registry known) (conforms : x.Conforms known catalogs) {c : Context}
    (wired : Wired c.hub x) (writable : x.kind.isWritable = true) {factory : Factory}
    (available : (engine.factory x.schema .read).answer = .ok factory)
    (defaults : Defaults known catalogs x.schema (factory.blueprint.make factory.engine .read {}).1) :
    (engine.reset x c).1.answer = .ok () ∧
      Defaulted (factory.blueprint.make factory.engine .read {}).1 x (engine.reset x c).1.subject c.hub
        (engine.reset x c).1.context.hub ∧
      ∀ before hub after, Defaulted (factory.blueprint.make factory.engine .read {}).1 before x hub after →
        (factory.blueprint.make factory.engine .read {}).1.snapshot.hasNan = false →
        (engine.reset x c).1.subject = x ∧
          (engine.reset x c).1.context.hub.deliveries = c.hub.deliveries := by
  obtain ⟨between, after, same, same', reset⟩ := reset_of_available writable available c
  rw [← same] at wired
  obtain ⟨answer, defaulted, -⟩ := assign_defaults registry defaults conforms between wired
  rw [reset, same', ← same]
  refine ⟨answer, defaulted, fun before hub after earlier proper => ?_⟩
  rw [earlier.alike.schema] at defaults
  exact (earlier.again registry defaults proper conforms between wired).2

/-- Without defaults a reset fails as the request for them does. -/
theorem reset_of_unavailable {e : SettingsError}
    (failed : (engine.factory x.schema .read).answer = .error e) (c : Context) :
    (engine.reset x c).1.Refused x c e := by
  obtain ⟨hub_same, answers⟩ :=
    engine.create_read x.schema (c.note [.resetStarted x.schema.name x.kind])
  rw [failed] at answers
  unfold Engine.reset
  dsimp only
  generalize engine.create x.schema .read none (c.note [.resetStarted x.schema.name x.kind]) = made
    at hub_same answers
  obtain ⟨answer, after, context⟩ := made
  cases answers
  exact ⟨rfl, rfl, hub_same⟩

end Engine

end SettingsForge
