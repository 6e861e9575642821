import SettingsForge.Proofs.Settings.Assigning
import SettingsForge.Proofs.Workspace.Steps
import SettingsForge.Proofs.Workspace.Copied

set_option autoImplicit false

/-! # Assigned values

An assignment to an instance that may be written converts the value to the declared type and stores it,
or fails, and changes one property only. To a list it does what reconciling does
(`Workspace.assigned_values_are_converted_and_stored`). -/

namespace SettingsForge

open Settings

namespace Workspace

variable {known : Schema → Prop} {w : Workspace} {place : Location} {x root : Settings}

/-- A place off the path to an instance does not see what the instance's own properties hold. -/
theorem read_put_of_off (found : w.instances.lookup place.name = some root)
    (followed : follow place.path root = .ok x) {y : Settings}
    (inside : ∀ step rest, follow (step :: rest) y = follow (step :: rest) x) {l : Location}
    (off : ¬ (l.name = place.name ∧ l.path <+: place.path)) (c : Context) :
    ({ w.putInstance place.name (replaceAt place.path root y) with context := c } : Workspace).read l =
      w.read l := by
  by_cases same : l.name = place.name
  · obtain ⟨name, path⟩ := l
    cases same
    unfold Workspace.read putInstance
    dsimp only
    rw [find_eq_ok.2 (Keyed.lookup_insert_self ..), find_eq_ok.2 found]
    show (follow path (replaceAt place.path root y)).mapError _ = (follow path root).mapError _
    rw [follow_replaceAt_of_off followed (fun below => off ⟨rfl, below⟩) inside]
  · exact read_putInstance same _ _

/-- What an assignment to an instance that may be written answers and leaves. -/
theorem Sound.set_eq (sound : w.Sound known) (found : w.instances.lookup place.name = some root)
    (followed : follow place.path root = .ok x) (writable : x.kind.isWritable = true)
    {property : String} {content : Content} (held : x.content property = .ok content) (value : Value) :
    w.act (.set place property value) =
      let d := x.owner.write property content value w.context
      ⟨(d.answer.mapError .failed).map fun _ => .nothing,
        { w.putInstance place.name (replaceAt place.path root (x.setContent property d.subject)) with
          context := d.context }⟩ := by
  have edited := sound.edit_writable found followed writable fun x c => ofDone (x.set property value c)
  have unfolded : w.act (.set place property value) =
      ⟨(w.edit place fun x c => ofDone (x.set property value c)).answer.map fun _ => .nothing,
        (w.edit place fun x c => ofDone (x.set property value c)).subject⟩ := rfl
  rw [unfolded, edited]
  dsimp only [ofDone]
  rw [Settings.set_eq held writable]
  rfl

/-- An assignment to an instance that may be written succeeds just when the property's type converts the
    value. -/
theorem Sound.answer_set_iff (sound : w.Sound known) (read : w.read place = .ok x)
    (writable : x.kind.isWritable = true) (property : String) (value : Value) :
    (w.act (.set place property value)).answer = .ok .nothing ↔
      ∃ p type stored, x.schema.property? property = some p ∧ p.type = .value type ∧
        type.coerce value = some stored := by
  obtain ⟨root, found, followed⟩ := read_eq_ok.1 read
  obtain ⟨-, -, -, -, conforms⟩ := sound.read read
  rcases conforms.content_cases sound.registry property with
    ⟨unknown, missing⟩ | ⟨p, -, declared, -, -⟩
  · have edited := sound.edit_writable found followed writable fun x c =>
      ofDone (x.set property value c)
    have unfolded : (w.act (.set place property value)).answer =
      (w.edit place fun x c => ofDone (x.set property value c)).answer.map fun _ => .nothing := rfl
    rw [unfolded, edited]
    dsimp only [ofDone]
    unfold Settings.set
    rw [missing, unknown]
    simp [Except.mapError, Except.map]
  · obtain ⟨content, held, fits⟩ := conforms.exists_content_of_property? sound.registry declared
    rw [sound.set_eq found followed writable held]
    constructor
    · intro answer
      by_contra refused
      have refuses : ∀ type, content.valueType? = some type → type.coerce value = none := by
        intro type takes
        rw [fits.valueType?_eq_some_iff] at takes
        cases coerced : type.coerce value with
        | none => rfl
        | some stored => exact absurd ⟨p, type, stored, declared, takes, coerced⟩ refused
      obtain ⟨e, failed⟩ := x.owner.refused_write property w.context refuses
      dsimp only at answer
      rw [failed] at answer
      cases answer
    · rintro ⟨p', type, stored, declared', takes, coerced⟩
      cases declared.symm.trans declared'
      dsimp only
      rw [(x.owner.holds_write property w.context (fits.valueType?_eq_some_iff.2 takes) coerced).1]
      rfl

/-- An assignment that succeeds stores the converted value in the property, and changes nothing else. -/
theorem Sound.read_set (sound : w.Sound known) (read : w.read place = .ok x)
    (writable : x.kind.isWritable = true) {property : String} {p : Property} {type : ValueType}
    {value stored : Value} (declared : x.schema.property? property = some p)
    (takes : p.type = .value type) (coerced : type.coerce value = some stored) :
    ∃ y held, (w.act (.set place property value)).subject.read place = .ok y ∧
      y.get property = .ok held ∧ held.unsigned = stored.unsigned ∧
      (x.kind = .copy → (∀ item, type ≠ .list item) → held = stored) ∧
      (∀ other, other ≠ property → y.content other = x.content other) ∧
      ∀ l : Location, ¬ (l.name = place.name ∧ l.path <+: place.path) →
        (w.act (.set place property value)).subject.read l = w.read l := by
  obtain ⟨root, found, followed⟩ := read_eq_ok.1 read
  have there := Keyed.mem_of_lookup found
  have root_conforms : root.Conforms known w.catalogs := sound.conforms _ there
  have part := mem_parts_of_follow sound.registry root_conforms followed
  have conforms := root_conforms.part part
  have wired := (sound.forest.rooted _ there).toWired.part part
  obtain ⟨content, held, fits⟩ := conforms.exists_content_of_property? sound.registry declared
  have takes := fits.valueType?_eq_some_iff.2 takes
  obtain ⟨-, holds⟩ := x.owner.holds_write property w.context takes coerced
  have shape := x.owner.shape_write property w.context content value
  rw [sound.set_eq found followed writable held]
  dsimp only
  generalize (x.owner.write property content value w.context).subject = after at holds shape
  have content_after : (x.setContent property after).content property = .ok after := by
    rw [content_setContent, held]
    simp [Except.map]
  refine ⟨x.setContent property after, after.value, ?_, ?_, holds.unsigned, fun copy => ?_, ?_, ?_⟩
  · refine read_eq_ok.2 ⟨_, Keyed.lookup_insert_self .., ?_⟩
    have replaced :=
      follow_replaceAt sound.registry root_conforms followed [] (x.setContent property after)
    rwa [List.append_nil] at replaced
  · unfold Settings.get
    rw [content_after]
    rfl
  · have silent : x.notifier = none := by
      have observable := wired.self.notifier
      rw [copy] at observable
      exact Option.isNone_iff_eq_none.1 (Option.isSome_eq_false_iff.1 observable)
    exact holds.plain silent
  · exact fun other differ => content_setContent_of_ne differ x after
  · intro l off
    exact read_put_of_off found followed
      (follow_setContent held (ContentOf.shape_ne_of_valueType? takes) shape) off _

/-- Setting a list property to a list does what reconciling it does. -/
theorem Sound.set_list_eq (sound : w.Sound known) (read : w.read place = .ok x)
    (writable : x.kind.isWritable = true) {property : String} {list : ListRef × List Value}
    (held : x.list property = .ok list) (target : List Value) :
    (w.act (.set place property (.list target))).subject =
        (w.act (.editList place property (.reconcile target))).subject ∧
      ∀ o, (w.act (.set place property (.list target))).answer = .error o ↔
        (w.act (.editList place property (.reconcile target))).answer = .error o := by
  obtain ⟨root, found, followed⟩ := read_eq_ok.1 read
  have setting : w.act (.set place property (.list target)) =
      w.editReport place (fun _ => .nothing) fun x c => x.set property (.list target) c := rfl
  have reconciling : w.act (.editList place property (.reconcile target)) =
      w.editList place property (.reconcile target) := rfl
  rw [setting, reconciling]
  unfold Workspace.editList editReport
  dsimp only
  rw [sound.edit_writable found followed writable, sound.edit_writable found followed writable]
  dsimp only [ofDone]
  rw [Settings.set_list_eq held]
  dsimp only
  refine ⟨rfl, fun o => ?_⟩
  cases (x.editList property (.reconcile target) w.context).answer <;> simp [Except.map, Except.mapError]

/-- Take a workspace that a run reaches and any instance in it that may be written, at any depth. Setting
    a property succeeds if and only if the property is no dictionary and its type converts the value; a
    list type converts just the lists of which each item is accepted as an item of the property. Afterwards
    the property reads as the converted value, up to the signs of zeros, and as that very value if it is no
    list and the instance is a plain one. Each other property of the instance holds what it held, and so
    does every instance that is not on the path to this one. Setting a list property to a list leaves the
    workspace as reconciling the list does, with the same notes, and fails with the same errors. -/
theorem assigned_values_are_converted_and_stored (reachable : w.Reachable)
    (read : w.read place = .ok x) (writable : x.kind.isWritable = true) (property : String) :
    (∀ value, (w.perform (.set place property value)).answer = .ok .nothing ↔
      ∃ p type stored, x.schema.property? property = some p ∧ p.type = .value type ∧
        type.coerce value = some stored) ∧
    (∀ p type value stored, x.schema.property? property = some p → p.type = .value type →
      type.coerce value = some stored →
      ∃ y held, (w.perform (.set place property value)).subject.read place = .ok y ∧
        y.get property = .ok held ∧ held.unsigned = stored.unsigned ∧
        (x.kind = .copy → (∀ item, type ≠ .list item) → held = stored) ∧
        (∀ other, other ≠ property → y.content other = x.content other) ∧
        ∀ l : Location, ¬ (l.name = place.name ∧ l.path <+: place.path) →
          (w.perform (.set place property value)).subject.read l = w.read l) ∧
    ∀ p item, x.schema.property? property = some p → p.type = .value (.list item) →
      (∃ list items, x.list property = .ok (list, items) ∧ list.schema = x.schema.name ∧
        list.property = property ∧ list.item = item ∧
        ∀ value, (∃ stored, ValueType.coerce (.list item) value = some stored) ↔
          ∃ target, value = .list target ∧ ∀ v ∈ target, ∃ u, list.conform v = .ok u) ∧
      ∀ target,
        (w.perform (.set place property (.list target))).subject =
          (w.perform (.editList place property (.reconcile target))).subject ∧
        ∀ o, (w.perform (.set place property (.list target))).answer = .error o ↔
          (w.perform (.editList place property (.reconcile target))).answer = .error o := by
  obtain ⟨known, sound⟩ := reachable.sound
  have sound := sound.fresh
  refine ⟨sound.answer_set_iff read writable property,
    fun p type value stored declared takes coerced => sound.read_set read writable declared takes coerced,
    fun p item declared takes => ?_⟩
  obtain ⟨-, -, -, -, conforms⟩ := sound.read read
  obtain ⟨content, held, fits⟩ := conforms.exists_content_of_property? sound.registry declared
  obtain ⟨list, items, held, rfl⟩ := exists_list fits takes held
  have bound : list.BoundTo x.owner property := conforms.boundTo (content_of_list held)
  exact ⟨⟨list, items, held, bound.schema, bound.property, rfl, ValueType.coerce_list_iff_conform list⟩,
    fun target => sound.set_list_eq read writable held target⟩

/-- A rack of scales, with a scale in it that has a weight. A client listens at the rack. -/
def rack : Workspace :=
  (start "engine" .empty).run [
    .build "scale" "Scale" none [⟨"label", .value .str, []⟩, ⟨"weights", .value (.list .float), []⟩],
    .build "rack" "Rack" none [⟨"scales", .dict "scale", []⟩],
    .create "rack" (.schema "rack" .inpc "engine") none,
    .subscribe ⟨"rack", []⟩ "view" {},
    .addEntry ⟨"rack", []⟩ "scales" "a",
    .editList ⟨"rack", [("scales", "a")]⟩ "weights" (.push (.int 3))]

theorem reachable_rack : rack.Reachable := ⟨"engine", .empty, _, rfl⟩

/-- Whole numbers are weights as well, texts are not; and setting the weights is reconciling them. -/
theorem weighs_with_whole_numbers :
    ∃ x y held, rack.read ⟨"rack", [("scales", "a")]⟩ = .ok x ∧
      (rack.perform (.set ⟨"rack", [("scales", "a")]⟩ "weights" (.list [.int 1, .int 2]))).subject.read
        ⟨"rack", [("scales", "a")]⟩ = .ok y ∧
      y.get "weights" = .ok held ∧
      held.unsigned = (Value.list [.float (Binary64.ofInt 1), .float (Binary64.ofInt 2)]).unsigned ∧
      y.content "label" = x.content "label" ∧
      (rack.perform (.set ⟨"rack", [("scales", "a")]⟩ "weights" (.list [.str "1"]))).answer ≠ .ok .nothing ∧
      (rack.perform (.set ⟨"rack", [("scales", "a")]⟩ "weights" (.list [.int 1, .int 2]))).subject =
        (rack.perform (.editList ⟨"rack", [("scales", "a")]⟩ "weights"
          (.reconcile [.int 1, .int 2]))).subject := by
  obtain ⟨x, read, schema, writable⟩ : ∃ x, rack.read ⟨"rack", [("scales", "a")]⟩ = .ok x ∧
      x.schema.property? "weights" = some ⟨"weights", .value (.list .float), []⟩ ∧
      x.kind.isWritable = true := ⟨_, rfl, rfl, rfl⟩
  obtain ⟨succeeds, stores, lists⟩ :=
    assigned_values_are_converted_and_stored reachable_rack read writable "weights"
  obtain ⟨y, held, read', get, same, -, others, -⟩ :=
    stores _ (.list .float) (.list [.int 1, .int 2])
      (.list [.float (Binary64.ofInt 1), .float (Binary64.ofInt 2)]) schema rfl rfl
  refine ⟨x, y, held, read, read', get, same, others "label" (by decide), fun answer => ?_,
    ((lists _ .float schema rfl).2 _).1⟩
  obtain ⟨p, type, stored, declared, takes, coerced⟩ := (succeeds _).1 answer
  cases schema.symm.trans declared
  cases takes
  cases coerced

end Workspace

end SettingsForge
