import SettingsForge.Proofs.Settings.Reading
import SettingsForge.Proofs.Settings.Typed

set_option autoImplicit false

/-! # Assigning a value

A slot takes the values that its type converts, and holds the converted value afterwards, or one that is
equal to it (`Owner.holds_write`). No other property of the instance changes (`Settings.content_setContent_of_ne`),
and nothing off the path to the instance (`Settings.follow_replaceAt_of_off`). A list that is
assigned is reconciled (`Settings.set_list_eq`). -/

namespace SettingsForge

open Settings

/-- The type of the values that a slot takes. A dictionary takes none. -/
def ContentOf.valueType? {ι : Type} : ContentOf ι → Option ValueType
  | .scalar type _ => some type
  | .list l _ => some (.list l.item)
  | .dict .. => none

variable {known : Schema → Prop} {catalogs : List Catalog}

theorem ContentOf.shape_ne_of_valueType? {ι : Type} {content : ContentOf ι} {type : ValueType}
    (takes : content.valueType? = some type) : content.shape ≠ "dictionary" := by
  cases content with
  | scalar | list => simp [shape]
  | dict d entries => cases takes

/-- A slot takes the values of the type that its property declares. -/
theorem ContentOf.Conforms.valueType?_eq_some_iff {s : Schema} {p : Property} {content : Content}
    (h : content.Conforms catalogs s p) {type : ValueType} :
    content.valueType? = some type ↔ p.type = .value type := by
  cases h with
  | scalar declared | list declared | dict declared =>
      rw [declared]
      simp [valueType?]

/-! ## Types of lists -/

namespace ValueType

theorem coerce_list_eq_some_iff {item : ValueType} {value stored : Value} :
    coerce (.list item) value = some stored ↔
      ∃ target conforming, value = .list target ∧ target.mapM (fun v => item.coerce v) = some conforming ∧
        stored = .list conforming := by
  cases value with
  | list target =>
      rw [coerce_list, Option.map_eq_some_iff]
      simp [eq_comm]
  | _ => simp [coerce, fit]

/-- A list type converts just the lists of which each item is accepted as an item of the property. -/
theorem coerce_list_iff_conform (list : ListRef) (value : Value) :
    (∃ stored, coerce (.list list.item) value = some stored) ↔
      ∃ target, value = .list target ∧ ∀ v ∈ target, ∃ u, list.conform v = .ok u := by
  simp only [coerce_list_eq_some_iff, ListRef.conform_eq_ok]
  constructor
  · rintro ⟨stored, target, conforming, rfl, mapped, -⟩
    refine ⟨target, rfl, fun v mem => ?_⟩
    obtain ⟨u, -, coerced⟩ := exists_right_of_forall₂ (forall₂_mapM_option.1 mapped) mem
    exact ⟨u, coerced⟩
  · rintro ⟨target, rfl, accepted⟩
    have some_each : (target.mapM fun v => list.item.coerce v).isSome = true :=
      isSome_mapM_option.2 fun v mem => Option.isSome_iff_exists.2 (accepted v mem)
    obtain ⟨conforming, mapped⟩ := Option.isSome_iff_exists.1 some_each
    exact ⟨.list conforming, target, conforming, rfl, mapped, rfl⟩

end ValueType

/-! ## Slots -/

namespace Owner

variable (owner : Owner) (property : String) (c : Context) {content : Content} {value : Value}

/-- A list that is written is reconciled. -/
theorem write_list_eq (list : ListRef) (items target : List Value) :
    owner.write property (.list list items) (.list target) c =
      let d := list.revise items (.reconcile target) c
      ⟨d.answer.map fun _ => (), .list list d.subject, d.context⟩ := rfl

/-- A slot keeps its shape. -/
theorem shape_write (content : Content) (value : Value) :
    (owner.write property content value c).subject.shape = content.shape := by
  cases content with
  | scalar type current =>
      rw [write]
      cases type.coerce value <;> rfl
  | list l items => cases value <;> rfl
  | dict d entries => rfl

/-- What a slot holds after a value was written that its type converts. An observable owner keeps a value
    that is equal, and lists keep equal items. -/
structure Holds (after : Content) (type : ValueType) (stored : Value) : Prop where
  unsigned : after.value.unsigned = stored.unsigned
  plain : owner.notifier = none → (∀ item, type ≠ .list item) → after.value = stored

theorem holds_store {type : ValueType} (current stored : Value) :
    owner.Holds (.scalar type (owner.store property current stored c).subject) type stored := by
  refine ⟨(owner.unsigned_store property current stored c).2, fun plain _ => ?_⟩
  unfold store
  rw [plain]
  rfl

/-- A value that the slot's type converts is taken. -/
theorem holds_write {type : ValueType} {stored : Value} (takes : content.valueType? = some type)
    (coerced : type.coerce value = some stored) :
    (owner.write property content value c).answer = .ok () ∧
      owner.Holds (owner.write property content value c).subject type stored := by
  cases content with
  | scalar declared current =>
      cases takes
      rw [write, coerced]
      exact ⟨(owner.unsigned_store property current stored c).1,
        owner.holds_store property c current stored⟩
  | list list items =>
      cases takes
      obtain ⟨target, conforming, rfl, mapped, rfl⟩ := ValueType.coerce_list_eq_some_iff.1 coerced
      have conforms : target.mapM list.conform = .ok conforming := ListRef.mapM_conform.2 mapped
      have revised : list.edit items (.reconcile target) = .ok (list.reconciled items conforming) := by
        rw [ListRef.edit, conforms]
      rw [write_list_eq, ListRef.revise, revised]
      exact ⟨rfl, list.unsigned_reconciled items conforming, fun _ no_list => absurd rfl (no_list _)⟩
  | dict d entries => cases takes

/-- Other values are refused, and so is every value by a dictionary. -/
theorem refused_write
    (refuses : ∀ type, content.valueType? = some type → type.coerce value = none) :
    ∃ e, (owner.write property content value c).answer = .error e := by
  cases content with
  | scalar type current =>
      rw [write, refuses type rfl]
      exact ⟨_, rfl⟩
  | list list items =>
      cases value with
      | list target =>
          have refused := refuses (.list list.item) rfl
          rw [ValueType.coerce_list, Option.map_eq_none_iff] at refused
          cases mapped : target.mapM list.conform with
          | error e =>
              have failed : list.edit items (.reconcile target) = .error e := by
                rw [ListRef.edit, mapped]
              rw [write_list_eq, ListRef.revise, failed]
              exact ⟨e, rfl⟩
          | ok conforming =>
              rw [ListRef.mapM_conform] at mapped
              cases refused.symm.trans mapped
      | _ => exact ⟨_, rfl⟩
  | dict d entries => exact ⟨_, rfl⟩

end Owner

/-! ## Instances -/

namespace Settings

variable {x y : Settings} {property other : String}

/-- What is under a name once the content of a property was replaced. -/
theorem content_setContent (x : Settings) (property other : String) (after : Content) :
    (x.setContent property after).content other =
      (x.content other).map fun content => if other = property then after else content := by
  obtain ⟨schema, kind, slots, notifier, provider⟩ := x
  have keeps_names : ((fun slot : Slot => slot.name == other) ∘ fun slot =>
      if slot.name == property then { slot with content := after } else slot) =
        fun slot => slot.name == other := by
    funext slot
    dsimp only [Function.comp]
    split <;> rfl
  unfold Settings.content setContent withSlots Settings.slots
  dsimp only
  rw [List.find?_map, keeps_names]
  cases found : slots.find? fun slot => slot.name == other with
  | none => rfl
  | some slot =>
      have named : slot.name = other := by simpa using List.find?_some found
      show Except.ok (if slot.name == property then { slot with content := after } else slot).content =
        Except.ok (if other = property then after else slot.content)
      rw [named]
      by_cases same : other = property
      · rw [if_pos (beq_iff_eq.2 same), if_pos same]
      · rw [if_neg (by simpa using same), if_neg same]

theorem content_setContent_of_ne (differ : other ≠ property) (x : Settings) (after : Content) :
    (x.setContent property after).content other = x.content other := by
  rw [content_setContent]
  simp only [if_neg differ]
  cases x.content other <;> rfl

/-- A dictionary takes the place of another one. -/
theorem dict_setContent {old : DictRef × List Entry} (held : x.dict property = .ok old)
    (d : DictRef) (entries : List Entry) :
    (x.setContent property (.dict d entries)).dict property = .ok (d, entries) := by
  unfold Settings.dict
  rw [content_setContent, content_of_dict held, Except.map, if_pos rfl]

theorem schema_setContent (x : Settings) (property : String) (after : Content) :
    (x.setContent property after).schema = x.schema := by
  cases x
  rfl

/-- What an instance holds under the name of a property. -/
theorem Conforms.exists_content_of_property? (registry : Schema.Registry known)
    (h : x.Conforms known catalogs) {p : Property} (declared : x.schema.property? property = some p) :
    ∃ content, x.content property = .ok content ∧ content.Conforms catalogs x.schema p := by
  obtain ⟨hp, rfl⟩ := (Schema.property?_eq_some_iff (registry.index h.self.known)).1 declared
  exact h.exists_content registry hp

/-- What a property of a list type holds is a list. -/
theorem exists_list {s : Schema} {p : Property} {content : Content} (fits : content.Conforms catalogs s p)
    {item : ValueType} (takes : p.type = .value (.list item)) (found : x.content property = .ok content) :
    ∃ l items, x.list property = .ok (l, items) ∧ l.item = item := by
  cases fits with
  | scalar declared plain =>
      cases declared.symm.trans takes
      exact absurd rfl (plain item)
  | @list l items declared =>
      cases declared.symm.trans takes
      refine ⟨l, items, ?_, rfl⟩
      unfold Settings.list
      rw [found]
  | dict declared => cases declared.symm.trans takes

/-- An assignment to an instance that may be written is written into the slot. -/
theorem set_eq {content : Content} (found : x.content property = .ok content)
    (writable : x.kind.isWritable = true) (value : Value) (c : Context) :
    x.set property value c =
      (x.owner.write property content value c).within (x.setContent property) := by
  unfold Settings.set
  rw [found]
  dsimp only
  rw [if_pos writable]

/-- A list that is assigned is reconciled. -/
theorem set_list_eq {list : ListRef × List Value} (found : x.list property = .ok list)
    (target : List Value) (c : Context) :
    x.set property (.list target) c =
      let d := x.editList property (.reconcile target) c
      ⟨d.answer.map fun _ => (), d.subject, d.context⟩ := by
  unfold Settings.set Settings.editList
  rw [found, content_of_list found]
  dsimp only
  split
  · rw [Owner.write_list_eq]
    rfl
  · rfl

/-- Where something else is held there is no dictionary. -/
theorem dict_of_shape {content : Content} (found : x.content property = .ok content)
    (plain : content.shape ≠ "dictionary") :
    x.dict property = .error (x.shapeMismatch property "dictionary" content.shape) := by
  unfold Settings.dict
  rw [found]
  cases content with
  | dict d entries => exact absurd rfl plain
  | _ => rfl

/-- No path leads on through a property that is no dictionary, so replacing its content leaves all paths
    that lead on. -/
theorem follow_setContent {content after : Content} (found : x.content property = .ok content)
    (plain : content.shape ≠ "dictionary") (shape : after.shape = content.shape)
    (step : String × String) (rest : Path) :
    follow (step :: rest) (x.setContent property after) = follow (step :: rest) x := by
  obtain ⟨other, key⟩ := step
  have same : (x.setContent property after).dict other = x.dict other := by
    by_cases differ : other = property
    · subst differ
      have replaced : (x.setContent other after).content other = .ok after := by
        rw [content_setContent, found]
        simp [Except.map]
      rw [dict_of_shape replaced (shape ▸ plain), dict_of_shape found plain, shape]
      unfold shapeMismatch
      rw [schema_setContent]
    · unfold Settings.dict shapeMismatch
      rw [content_setContent_of_ne differ, schema_setContent]
  unfold follow
  rw [same]

/-- What is replaced at the end of a path is not seen from a place off the path, if all paths that lead on
    from there lead to the same. -/
theorem follow_replaceAt_of_off {path other : Path} {root : Settings}
    (followed : follow path root = .ok x) (off : ¬ other <+: path)
    (inside : ∀ step rest, follow (step :: rest) y = follow (step :: rest) x) :
    follow other (replaceAt path root y) = follow other root := by
  induction path generalizing root other with
  | nil =>
      cases followed
      cases other with
      | nil => exact absurd (List.prefix_refl []) off
      | cons step rest => exact inside step rest
  | cons step path ih =>
      obtain ⟨property, key⟩ := step
      cases other with
      | nil => exact absurd (List.nil_prefix) off
      | cons step other =>
          obtain ⟨property', key'⟩ := step
          rw [follow] at followed
          cases found : root.dict property with
          | error e =>
              rw [found] at followed
              cases followed
          | ok dict =>
              obtain ⟨blueprint, entries⟩ := dict
              rw [found] at followed
              dsimp only at followed
              cases there : Entries.find? entries key with
              | none =>
                  rw [there] at followed
                  cases followed
              | some e =>
                  rw [there] at followed
                  have at_key : e.key = key := (Entries.exists_of_find? there).1
                  have content := content_of_dict found
                  rw [replaceAt, found]
                  dsimp only
                  rw [there]
                  dsimp only
                  by_cases same : property' = property
                  · subst same
                    rw [follow, follow, found]
                    unfold Settings.dict
                    rw [content_setContent, content]
                    simp only [Except.map, if_true]
                    rw [Entries.find?_insert]
                    by_cases same : key = key'
                    · subst same
                      rw [if_pos at_key, there]
                      exact ih followed fun below => off ((List.prefix_cons_inj _).2 below)
                    · rw [if_neg (at_key ▸ same)]
                  · rw [follow, follow]
                    unfold Settings.dict shapeMismatch
                    rw [content_setContent_of_ne same, schema_setContent]

end Settings

end SettingsForge
