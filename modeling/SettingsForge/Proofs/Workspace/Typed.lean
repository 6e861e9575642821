import SettingsForge.Proofs.Settings.Typed
import SettingsForge.Proofs.Workspace.Steps

set_option autoImplicit false

/-! # Stored values are of their types

Whatever steps brought it about, an instance holds values of the declared types only, if the first
values of its schema are. So what is read from it can be written back
(`Workspace.stored_values_are_well_typed`). -/

namespace SettingsForge

open Settings

namespace Workspace

variable {known : Schema → Prop} {w : Workspace} {place : Location} {x : Settings}

/-- An instance that may be written takes a value that its slot takes. -/
theorem Sound.answer_set (sound : w.Sound known) (read : w.read place = .ok x)
    (writable : x.kind.isWritable = true) {property : String} {content : Content}
    (found : x.content property = .ok content) {value : Value}
    (takes : ∀ c, (x.owner.write property content value c).answer = .ok ()) :
    (w.act (.set place property value)).answer = .ok .nothing := by
  obtain ⟨root, at_name, followed⟩ := read_eq_ok.1 read
  have edited := sound.edit_writable at_name followed writable fun x c =>
    ofDone (x.set property value c)
  have unfolded : (w.act (.set place property value)).answer =
      (w.edit place fun x c => ofDone (x.set property value c)).answer.map fun _ => .nothing := rfl
  rw [unfolded, edited]
  dsimp only [ofDone]
  unfold Settings.set
  rw [found]
  dsimp only
  rw [if_pos writable]
  dsimp only [Done.within]
  rw [takes]
  rfl

/-- Take a workspace that a run reaches and any instance in it, at any depth, and assume that all first
    values of its schema and of those nested in it fit their types exactly. Then the instance holds for
    each property that is no dictionary a value that fits the property's type exactly, and each item of
    a list fits the list's item type exactly. If the instance may be written, setting such a property to
    the value that it reads as succeeds. -/
theorem stored_values_are_well_typed (reachable : w.Reachable) (read : w.read place = .ok x)
    (exact : x.schema.Exact w.catalogs) :
    ∀ p ∈ x.schema.properties, ∀ type, p.type = .value type →
      (∃ v, x.get p.name = .ok v ∧ type.fit v = some .exact ∧
        (x.kind.isWritable = true → (w.perform (.set place p.name v)).answer = .ok .nothing)) ∧
      ∀ item, type = .list item → ∃ list items, x.list p.name = .ok (list, items) ∧
        list.item = item ∧ ∀ v ∈ items, item.fit v = some .exact := by
  obtain ⟨known, sound⟩ := reachable.sound
  intro p hp type declared
  obtain ⟨-, -, -, -, conforms⟩ := sound.read read
  obtain ⟨content, found, fits⟩ := conforms.exists_content sound.registry hp
  have typed := fits.typed exact hp
  have get_eq : x.get p.name = .ok content.value := by
    unfold Settings.get
    rw [found]
    rfl
  have set_back (plain : ∀ dict entries, content ≠ .dict dict entries) :
      x.kind.isWritable = true → (w.perform (.set place p.name content.value)).answer = .ok .nothing :=
    fun writable => sound.fresh.answer_set read writable found fun c =>
      typed.write plain x.owner p.name c
  cases fits with
  | scalar declared' plain =>
      cases declared.symm.trans declared'
      cases typed with
      | scalar fits =>
          exact ⟨⟨_, get_eq, fits, set_back fun _ _ => nofun⟩, fun item same => absurd same (plain item)⟩
  | @list l items declared' =>
      cases declared.symm.trans declared'
      cases typed with
      | list fits =>
          have whole : ValueType.fit (.list l.item) (.list items) = some .exact := by
            rw [ValueType.fit_list, Fit.ofItems_eq_exact_iff]
            exact List.forall_mem_map.2 fits
          refine ⟨⟨_, get_eq, whole, set_back fun _ _ => nofun⟩, ?_⟩
          rintro _ ⟨⟩
          refine ⟨l, items, ?_, rfl, fits⟩
          unfold Settings.list
          rw [found]
  | dict declared' => cases declared.symm.trans declared'

/-- The count of the entry at the shelf can be set to itself. -/
theorem sets_the_count_back :
    ∃ x v, shelves.read ⟨"first", [("entries", "a")]⟩ = .ok x ∧ x.schema.Exact shelves.catalogs ∧
      x.get "count" = .ok v ∧ ValueType.fit .int v = some .exact ∧
      (shelves.perform (.set ⟨"first", [("entries", "a")]⟩ "count" v)).answer = .ok .nothing := by
  obtain ⟨x, read, schema, writable⟩ : ∃ x, shelves.read ⟨"first", [("entries", "a")]⟩ = .ok x ∧
      x.schema = .mk ⟨0⟩ "Entry" none [⟨"count", .value .int, []⟩] [("count", 0)] ∧
      x.kind.isWritable = true := ⟨_, rfl, rfl, rfl⟩
  have exact : x.schema.Exact shelves.catalogs := by
    refine Schema.exact_of_no_defaults fun t reaches p hp => ?_
    rw [schema] at reaches
    rcases Schema.reaches_iff.1 reaches with rfl | ⟨u, mem, -⟩
    · cases List.mem_singleton.1 hp
      rfl
    · cases mem
  have count : ⟨"count", .value .int, []⟩ ∈ x.schema.properties := by
    rw [schema]
    exact List.mem_singleton_self _
  obtain ⟨⟨v, get_eq, fits, sets⟩, -⟩ :=
    stored_values_are_well_typed reachable_shelves read exact _ count .int rfl
  exact ⟨x, v, read, exact, get_eq, fits, sets writable⟩

end Workspace

end SettingsForge
