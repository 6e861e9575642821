import SettingsForge.Proofs.Settings.Alignment

set_option autoImplicit false

/-! # Where copies fail

First values may be of any shape, so an instance can hold a value that the type of its property does
not take: a misfit. A copy whose schemas match fails at nothing else: its error is the one of writing a
misfit that the source holds at some depth (`Settings.misfit_of_assign_misfit_of_assignEntries`). What
was written before the misfit stays. A copy that is refused for any other reason has not begun
(`Done.Ends`). -/

namespace SettingsForge

open Settings

/-! ## Misfits -/

/-- A slot holds a value that its type does not take, and this is the error of writing the value
    elsewhere. -/
inductive SlotOf.Misfit : Slot → SettingsError → Prop
  | scalar {name schema : String} {type : ValueType} {value : Value} :
      type.coerce value = none →
      Misfit ⟨name, .scalar type value⟩ (.typeMismatch schema name type.name value.describe)
  | item {name schema : String} {l : ListRef} {items : List Value} {value : Value} :
      value ∈ items → l.item.coerce value = none →
      Misfit ⟨name, .list l items⟩ (.typeMismatch schema name l.item.name value.describe)

namespace Settings

/-- An instance, or an entry inside it at any depth, has a slot with a misfit. -/
def Misfit (x : Settings) (e : SettingsError) : Prop := ∃ y ∈ x.parts, ∃ slot ∈ y.slots, slot.Misfit e

theorem Misfit.of_slot {x : Settings} {slot : Slot} {e : SettingsError} (mem : slot ∈ x.slots)
    (h : slot.Misfit e) : x.Misfit e := ⟨x, self_mem_parts x, slot, mem, h⟩

theorem Misfit.of_entry {x : Settings} {slot : Slot} {entry : Entry} {e : SettingsError}
    (mem : slot ∈ x.slots) (inside : entry ∈ slot.content.entries) (h : entry.settings.Misfit e) :
    x.Misfit e := by
  obtain ⟨y, part, own⟩ := h
  exact ⟨y, mem_parts_of_entry mem inside part, own⟩

end Settings

variable {known : Schema → Prop} {catalogs : List Catalog}

/-- Where a value is not written, it is a misfit, or an item of it is. -/
theorem ContentOf.Aligned.misfit {content current : Content}
    (h : content.Aligned known catalogs current)
    (plain : ∀ theirs source ours entries, content = .dict theirs source →
      current = .dict ours entries → False)
    {owner : Owner} {property : String} (bound : current.BoundTo owner property) {c : Context}
    {e : SettingsError}
    (failed : (owner.write property current content.value c).answer = .error e) :
    SlotOf.Misfit ⟨property, content⟩ e := by
  cases h with
  | @scalar type value old =>
      unfold Owner.write at failed
      dsimp only [ContentOf.value] at failed
      split at failed
      · -- a value that is taken is stored
        unfold Owner.store Done.within at failed
        dsimp only at failed
        split at failed
        · cases failed
        · split at failed <;> cases failed
      · next none =>
        cases failed
        exact .scalar none
  | @list theirs l items old same =>
      unfold Owner.write ListRef.revise ListRef.edit at failed
      dsimp only [ContentOf.value] at failed
      cases mapped : items.mapM l.conform with
      | ok conforming =>
          rw [mapped] at failed
          cases failed
      | error e' =>
          rw [mapped] at failed
          cases failed
          obtain ⟨value, mem, own⟩ := exists_of_mapM_eq_error mapped
          obtain ⟨none, rfl⟩ := ListRef.conform_eq_error.1 own
          have bound : l.BoundTo owner property := bound
          rw [bound.property, ← same]
          exact .item mem (same ▸ none)
  | dict => exact (plain _ _ _ _ rfl rfl).elim

namespace Settings

/-! ## Copies -/

/-- The error of a copy between instances whose schemas match is about a misfit of the source. So is
    that of a copy of slots and of a merge. -/
theorem misfit_of_assign_misfit_of_assignEntries (registry : Schema.Registry known) :
    (∀ source target c, Alignable known catalogs source target →
      ∀ e, (assign source target c).answer = .error e → source.Misfit e) ∧
    (∀ name source owner slots c, Begins known catalogs source slots →
      (∀ slot ∈ slots, slot.content.BoundTo owner slot.name) → ∀ e,
      (assignSlots name source owner slots c).answer = .error e →
        ∃ slot ∈ source, slot.Misfit e ∨ ∃ entry ∈ slot.content.entries, entry.settings.Misfit e) ∧
    ∀ source dict m c, ∀ nested, dict.blueprint.MadeFor catalogs nested →
      Entries.Lent known catalogs nested source →
      Entries.Open known catalogs nested (Entries.keys source) m.entries →
      ∀ e, (assignEntries source dict m c).answer = .error e →
        ∃ entry ∈ source, entry.settings.Misfit e := by
  -- the cases are those of the copy; only the writing of a value fails by itself
  refine assign.mutual_induct_unfolding
    (fun source target c d => Alignable known catalogs source target →
      ∀ e, d.answer = .error e → source.Misfit e)
    (fun name source owner slots c d => Begins known catalogs source slots →
      (∀ slot ∈ slots, slot.content.BoundTo owner slot.name) → ∀ e, d.answer = .error e →
        ∃ slot ∈ source, slot.Misfit e ∨ ∃ entry ∈ slot.content.entries, entry.settings.Misfit e)
    (fun source dict m c d => ∀ nested, dict.blueprint.MadeFor catalogs nested →
      Entries.Lent known catalogs nested source →
      Entries.Open known catalogs nested (Entries.keys source) m.entries →
      ∀ e, d.answer = .error e → ∃ entry ∈ source, entry.settings.Misfit e)
    ?within ?mismatch ?nil ?short ?dictFails ?dict ?dictMismatch ?writeFails ?write ?done
    ?intoFails ?into ?unmade ?make
  case within =>
    intro _ _ _ _ _ _ _ _ _ _ _ _ ih alignable e failed
    obtain ⟨slot, mem, own | ⟨entry, inside, own⟩⟩ :=
      ih (alignable.begins registry) alignable.conforms'.self.bound e failed
    · exact .of_slot mem own
    · exact .of_entry mem inside own
  case mismatch =>
    intro _ _ _ _ _ _ _ _ _ _ _ apart alignable
    exact absurd alignable.inherits apart
  case nil =>
    intro _ _ _ _ _ _ _ failed
    cases failed
  case short =>
    -- the source has a slot for each of the target's
    intro _ _ slot slots _ begins
    obtain ⟨_, _, none, -⟩ := begins.exists_cons
    cases none
  case dictFails =>
    intro _ _ _ _ _ _ _ _ _ _ _ _ _ _ hstart d slot e failed ih begins _ e' failed'
    obtain ⟨_, _, same, _, aligned, -⟩ := begins.exists_cons
    cases same
    cases failed'
    cases aligned with
    | dict _ made lent opened =>
        obtain ⟨-, opened⟩ := opened.start hstart
        exact ⟨_, List.mem_cons_self .., Or.inr (ih _ made lent opened e failed)⟩
  case dict =>
    intro _ _ _ _ _ _ _ _ _ _ _ _ _ _ _ _ _ _ _ _ ih' begins bound e failed
    obtain ⟨_, _, same, -, -, others⟩ := begins.exists_cons
    cases same
    obtain ⟨slot, mem, own⟩ := ih' others (List.forall_mem_cons.1 bound).2 e failed
    exact ⟨slot, List.mem_cons_of_mem _ mem, own⟩
  case dictMismatch =>
    intro _ _ _ _ _ _ _ _ _ _ _ apart begins
    obtain ⟨_, _, same, _, aligned, -⟩ := begins.exists_cons
    cases same
    cases aligned with
    | dict source_made made =>
        refine absurd ?_ apart
        rw [source_made.schema_eq, made.schema_eq]
        exact Schema.isA_self _
  case writeFails =>
    intro _ _ _ _ _ _ _ _ _ _ d e failed begins bound e' failed'
    obtain ⟨_, _, same, names, aligned, -⟩ := begins.exists_cons
    cases same
    cases names
    cases failed'
    exact ⟨_, List.mem_cons_self .., Or.inl (aligned.misfit ‹_› (List.forall_mem_cons.1 bound).1 failed)⟩
  case write =>
    intro _ _ _ _ _ _ _ _ _ _ _ _ _ ih begins bound e failed
    obtain ⟨_, _, same, -, -, others⟩ := begins.exists_cons
    cases same
    obtain ⟨slot, mem, own⟩ := ih others (List.forall_mem_cons.1 bound).2 e failed
    exact ⟨slot, List.mem_cons_of_mem _ mem, own⟩
  case done =>
    intro _ _ _ _ _ _ _ _ failed
    cases failed
  case intoFails =>
    intro key _ source rest _ m _ ours found d _ e failed ih nested _ lent opened e' failed'
    cases failed'
    obtain ⟨there, writable⟩ := opened.inside key (List.mem_cons_self ..) ours found
    have alignable := lent.first there fun y hy => writable y (slotParts_subset hy)
    unfold d at failed
    rw [if_pos (writable _ (self_mem_parts _))] at failed
    exact ⟨_, List.mem_cons_self .., ih alignable e failed⟩
  case into =>
    intro key _ source rest _ m _ ours found d _ _ _ _ ih' nested made lent opened e failed
    have at_key : ours.key = key := (Entries.exists_of_find? found).1
    obtain ⟨entry, mem, own⟩ := ih' nested made lent.rest (opened.insert lent.sorted at_key) e failed
    exact ⟨entry, List.mem_cons_of_mem _ mem, own⟩
  case unmade =>
    intro _ _ source rest _ _ _ _ made hub hmake d e failed ih nested made_for lent _ e' failed'
    cases failed'
    obtain ⟨there, empty⟩ := made_for.of_make lent.schema hmake
    have alignable := lent.first there (by simp [empty])
    exact ⟨_, List.mem_cons_self .., ih alignable e failed⟩
  case make =>
    intro _ _ source rest _ _ _ _ made hub hmake d _ _ _ _ _ _ ih' nested made_for lent opened e
      failed
    obtain ⟨entry, mem, own⟩ := ih' nested made_for lent.rest (opened.insert lent.sorted rfl) e failed
    exact ⟨entry, List.mem_cons_of_mem _ mem, own⟩

/-! ## Whole updates -/

/-- An instance that conforms, and that may be written inside if it may be written itself. -/
structure Target (known : Schema → Prop) (catalogs : List Catalog) (x : Settings) : Prop where
  conforms : x.Conforms known catalogs
  writable : x.kind.isWritable = true → ∀ y ∈ slotParts x.slots, y.kind.isWritable = true

end Settings

/-- How an update ends that takes its values from these instances: it is done, has not begun, or has
    stopped at a misfit of one of them. -/
inductive Done.Ends {α : Type} (takes : Settings → Prop) (x : Settings) (hub : Hub) :
    Done Settings α → Prop
  | done {a : α} {after : Settings} {c : Context} : Ends takes x hub ⟨.ok a, after, c⟩
  | stands {e : SettingsError} {c : Context} : c.hub = hub → Ends takes x hub ⟨.error e, x, c⟩
  | misfit {s after : Settings} {e : SettingsError} {c : Context} :
      takes s → s.Misfit e → Ends takes x hub ⟨.error e, after, c⟩

section

variable {α β : Type} {takes others : Settings → Prop} {x : Settings} {hub : Hub}
  {d : Done Settings α}

theorem Done.Ends.mono (h : d.Ends takes x hub) (wider : ∀ s, takes s → others s) :
    d.Ends others x hub := by
  cases h with
  | done => exact .done
  | stands same => exact .stands same
  | misfit taken own => exact .misfit (wider _ taken) own

theorem Done.Ends.map (h : d.Ends takes x hub) (f : α → β) :
    (⟨d.answer.map f, d.subject, d.context⟩ : Done Settings β).Ends takes x hub := by
  cases h with
  | done => exact .done
  | stands same => exact .stands same
  | misfit taken own => exact .misfit taken own

end

namespace Settings

variable {x : Settings}

theorem ends_refuse (takes : Settings → Prop) (x : Settings) (text : String) (c : Context) :
    (x.refuse text c : Done Settings Unit).Ends takes x c.hub := .stands rfl

theorem Target.ends_assign (registry : Schema.Registry known) (target : Target known catalogs x)
    (writable : x.kind.isWritable = true) {s : Settings} (conforms : s.Conforms known catalogs)
    (c : Context) : (assign s x c).Ends (· = s) x c.hub := by
  by_cases inherits : s.schema.isA x.schema.id = true
  · have fails := (misfit_of_assign_misfit_of_assignEntries registry).1 s x c
      ⟨conforms, target.conforms, target.writable writable, inherits⟩
    generalize assign s x c = d at fails
    obtain ⟨_ | _, after, c'⟩ := d
    · exact .misfit rfl (fails _ rfl)
    · exact .done
  · rw [assign_of_not_isA c (Bool.eq_false_iff.2 inherits)]
    exact .stands rfl

theorem Target.ends_copy (registry : Schema.Registry known) (target : Target known catalogs x)
    {source : Option Settings} (conforms : ∀ s ∈ source, s.Conforms known catalogs) (c : Context) :
    (x.copy source c).Ends (· ∈ source) x c.hub := by
  unfold copy
  split
  · next writable =>
    cases source with
    | none => exact .stands rfl
    | some s =>
        refine (target.ends_assign registry writable (conforms s rfl) c).mono ?_
        rintro _ rfl
        rfl
  · exact ends_refuse ..

theorem Target.ends_copyUntyped (registry : Schema.Registry known) (target : Target known catalogs x)
    {candidate : Candidate} (conforms : ∀ s, candidate = .settings s → s.Conforms known catalogs)
    (c : Context) : (x.copyUntyped candidate c).Ends (candidate = .settings ·) x c.hub := by
  unfold copyUntyped
  split
  · cases candidate with
    | absent => exact (target.ends_copy registry (by simp) c).mono (by simp)
    | alien => exact .stands rfl
    | settings s =>
        refine (target.ends_copy registry ?_ c).mono ?_
        · rintro _ ⟨⟩
          exact conforms s rfl
        · rintro _ ⟨⟩
          rfl
  · exact ends_refuse ..

/-- What a dictionary has to lend to one of a schema that its own is or inherits from. -/
theorem Conforms.lent (registry : Schema.Registry known) {source : Settings}
    (conforms : source.Conforms known catalogs) {property : String}
    {dict : DictRef × List Entry} (found : source.dict property = .ok dict) {nested : Schema}
    (hs : known nested) (inherits : dict.1.blueprint.schema.isA nested.id = true) :
    Entries.Lent known catalogs nested dict.2 := by
  obtain ⟨f, -, rfl, -⟩ := exists_frame (conforms.self.nodup registry) (content_of_dict found)
  obtain ⟨own, -, made, sorted, entries, -⟩ := Frame.conforms_dict registry conforms
  refine ⟨hs, sorted, fun e he => ⟨(entries e he).1, ?_⟩⟩
  rwa [(entries e he).2, ← made.schema_eq]

/-- A dictionary to copy into. -/
theorem Target.exists_open (registry : Schema.Registry known) {f : Frame} {dict : DictRef}
    {entries : List Entry} (target : Target known catalogs (f.fill (.dict dict entries)))
    (writable : f.kind.isWritable = true) :
    ∃ nested, known nested ∧ dict.blueprint.MadeFor catalogs nested ∧
      Entries.Open known catalogs nested (Entries.keys entries) entries := by
  obtain ⟨nested, hs, made, sorted, inside, -⟩ := Frame.conforms_dict registry target.conforms
  refine ⟨nested, hs, made, sorted, fun key _ e found => ?_⟩
  have he := List.mem_of_find?_eq_some found
  refine ⟨inside e he, fun y hy => target.writable writable y ?_⟩
  rw [slotParts_eq_flatMap]
  exact List.mem_flatMap.2 ⟨_, (f.mem_slots_fill _).2 (Or.inl rfl), ContentOf.mem_parts.2 ⟨e, he, hy⟩⟩

/-- A dictionary takes the entries of another one. -/
theorem Target.ends_assignDict (registry : Schema.Registry known) (target : Target known catalogs x)
    {source : Settings} (conforms : source.Conforms known catalogs) {other : String}
    {theirs : DictRef × List Entry} (found : source.dict other = .ok theirs) (property : String)
    (c : Context) :
    (x.editDict property (fun dict entries c => assignDict dict entries theirs c) c).Ends
      (fun s => ∃ e ∈ theirs.2, e.settings = s) x c.hub := by
  unfold editDict dictForEdit
  cases there : x.dict property with
  | error e => exact .stands rfl
  | ok own =>
      obtain ⟨dict, entries⟩ := own
      dsimp only
      by_cases writable : x.kind.isWritable = true
      · rw [if_pos writable]
        obtain ⟨f, rfl, rfl, refill⟩ :=
          exists_frame (target.conforms.self.nodup registry) (content_of_dict there)
        dsimp only
        unfold assignDict
        split
        · next inherits =>
          obtain ⟨nested, hs, made, opened⟩ := target.exists_open registry writable
          have lent := conforms.lent registry found hs (made.schema_eq ▸ inherits)
          cases hstart : Merging.start (Entries.keys theirs.2) entries c with
          | mk start dropped =>
              obtain ⟨-, opened⟩ := opened.start hstart
              have fails := (misfit_of_assign_misfit_of_assignEntries registry).2.2 theirs.2 dict
                start dropped nested made lent opened
              dsimp only
              generalize assignEntries theirs.2 dict start dropped = d at fails
              obtain ⟨_ | _, m, c'⟩ := d
              · obtain ⟨e, he, own⟩ := fails _ rfl
                exact .misfit ⟨e, he, rfl⟩ own
              · exact .done
        · -- the dictionary is put back as it was
          have same := refill (.dict dict entries)
          dsimp only [Done.within]
          rw [same]
          exact .stands rfl
      · rw [if_neg writable]
        exact ends_refuse ..

/-- A reset takes the defaults that the engine makes. -/
theorem Target.ends_reset (registry : Schema.Registry known) (target : Target known catalogs x)
    {engine : Engine}
    (conforms : ∀ s, (engine.create x.schema .read none {}).answer = .ok s → s.Conforms known catalogs)
    (c : Context) :
    (engine.reset x c).1.Ends (fun s => (engine.create x.schema .read none {}).answer = .ok s) x
      c.hub := by
  obtain ⟨-, answers⟩ := engine.create_read x.schema {}
  rw [answers] at conforms ⊢
  obtain ⟨hub_same, answers⟩ :=
    engine.create_read x.schema (c.note [.resetStarted x.schema.name x.kind])
  unfold Engine.reset
  dsimp only
  generalize engine.create x.schema .read none (c.note [.resetStarted x.schema.name x.kind]) = made
    at hub_same answers
  obtain ⟨answer, after, context⟩ := made
  have hub_same : context.hub = c.hub := hub_same
  have answers : answer = _ := answers
  rw [← answers] at conforms ⊢
  cases answer with
  | error e => exact .stands hub_same
  | ok defaults =>
      dsimp only
      have ends : (x.copy (some defaults) context).Ends (· ∈ some defaults) x context.hub := by
        refine target.ends_copy registry (fun s mem => ?_) context
        cases mem
        exact conforms defaults rfl
      -- what is written down at the end does not matter
      rw [hub_same] at ends
      generalize x.copy (some defaults) context = d at ends
      cases ends with
      | done => exact .done
      | stands same => exact .stands same
      | misfit taken own =>
          cases taken
          exact .misfit rfl own

end Settings

end SettingsForge
