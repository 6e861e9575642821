import Mathlib.Data.List.Forall2
import Mathlib.Data.List.Pairwise
import SettingsForge.ValueType.Overload

set_option autoImplicit false

/-! # The overload that is chosen

Parameters accept arguments if there are as many of them and every argument fits (`Accepts`). The
overload that is chosen is the only one of those that accept the arguments with the fewest conversions.
If there is none, no overload accepts them, or several need equally few (`selectOverload_spec`). -/

namespace SettingsForge

variable {overloads : List (List ValueType)} {params : List ValueType} {args : List Value} {i n : Nat}

/-- As many arguments as parameters, and each fits its parameter. -/
def Accepts (params : List ValueType) (args : List Value) : Prop :=
  List.Forall₂ (fun p a => (p.fit a).isSome = true) params args

/-- How many arguments fit their parameters only by conversion. -/
def conversions (params : List ValueType) (args : List Value) : Nat :=
  (params.zip args).countP fun pair => pair.1.fit pair.2 = some .converted

/-- The overload at a position accepts the arguments, and none that does needs fewer conversions. -/
def Fewest (overloads : List (List ValueType)) (args : List Value) (i : Nat) : Prop :=
  ∃ params, overloads[i]? = some params ∧ Accepts params args ∧
    ∀ other ∈ overloads, Accepts other args → conversions params args ≤ conversions other args

/-- No other overload needs as few conversions as the one at a position. -/
structure Best (overloads : List (List ValueType)) (args : List Value) (i : Nat) : Prop where
  fewest : Fewest overloads args i
  unique : ∀ j, Fewest overloads args j → j = i

theorem exists_best_iff : (∃ i, Best overloads args i) ↔ ∃! i, Fewest overloads args i :=
  ⟨fun ⟨i, h⟩ => ⟨i, h.fewest, h.unique⟩, fun ⟨i, fewest, unique⟩ => ⟨i, fewest, unique⟩⟩

/-- There is an item at the position of the best one, and it accepts the arguments. -/
theorem exists_of_best {β : Type} {parameters : β → List ValueType} {items : List β}
    (best : Best (items.map parameters) args i) :
    ∃ item, items[i]? = some item ∧ Accepts (parameters item) args := by
  obtain ⟨_, there, accepts, -⟩ := best.fewest
  rw [List.getElem?_map, Option.map_eq_some_iff] at there
  obtain ⟨item, there, rfl⟩ := there
  exact ⟨item, there, accepts⟩

/-! ## Overloads that accept -/

theorem accepts_cons {p : ValueType} {a : Value} :
    Accepts (p :: params) (a :: args) ↔ (p.fit a).isSome = true ∧ Accepts params args :=
  List.forall₂_cons

theorem conversions_cons (p : ValueType) (params : List ValueType) (a : Value) (args : List Value) :
    conversions (p :: params) (a :: args) =
      conversions params args + if p.fit a = some .converted then 1 else 0 := by
  rw [conversions, List.zip_cons_cons, List.countP_cons]
  simp only [decide_eq_true_eq]
  rfl

theorem conversions?_eq_some_iff :
    conversions? params args = some n ↔ Accepts params args ∧ conversions params args = n := by
  induction params generalizing args n with
  | nil => cases args <;> simp [conversions?, Accepts, conversions]
  | cons p params ih =>
      cases args with
      | nil => simp [conversions?, Accepts]
      | cons a args =>
          rw [conversions?, accepts_cons, conversions_cons]
          cases p.fit a with
          | none => simp
          | some fit =>
              cases fit with
              | exact => simpa using ih
              | converted => simp [ih, and_assoc]

/-- What is listed accepts the arguments at its position. -/
theorem mem_acceptingOverloads : (i, n) ∈ acceptingOverloads overloads args ↔
    ∃ params, overloads[i]? = some params ∧ Accepts params args ∧ conversions params args = n := by
  unfold acceptingOverloads
  simp only [List.mem_filterMap, Option.map_eq_some_iff, Prod.mk.injEq, conversions?_eq_some_iff]
  constructor
  · rintro ⟨⟨params, j⟩, mem, m, accepts, rfl, rfl⟩
    exact ⟨params, List.mem_zipIdx_iff_getElem?.1 mem, accepts⟩
  · rintro ⟨params, there, accepts⟩
    exact ⟨(params, i), List.mem_zipIdx_iff_getElem?.2 there, n, accepts, rfl, rfl⟩

/-- An overload is listed once. -/
theorem pairwise_acceptingOverloads (overloads : List (List ValueType)) (args : List Value) :
    (acceptingOverloads overloads args).Pairwise fun a b => a.1 ≠ b.1 := by
  have positions : overloads.zipIdx.Pairwise fun a b => a.2 ≠ b.2 := by
    rw [← List.pairwise_map (f := Prod.snd), List.zipIdx_map_snd]
    exact List.nodup_range'
  refine positions.filterMap _ ?_
  intro a b differ x hx y hy
  obtain ⟨_, -, rfl⟩ := Option.map_eq_some_iff.1 hx
  obtain ⟨_, -, rfl⟩ := Option.map_eq_some_iff.1 hy
  exact differ

/-- The overloads with the fewest conversions are listed with the least number of them. -/
theorem fewest_iff_mem {best : Nat}
    (least : ((acceptingOverloads overloads args).map Prod.snd).min? = some best) :
    Fewest overloads args i ↔ (i, best) ∈ acceptingOverloads overloads args := by
  obtain ⟨mem, le⟩ := List.min?_eq_some_iff.1 least
  simp only [List.forall_mem_map, Prod.forall, mem_acceptingOverloads] at le
  rw [mem_acceptingOverloads]
  constructor
  · rintro ⟨params, there, accepts, fewest⟩
    obtain ⟨⟨j, _⟩, listed, rfl⟩ := List.mem_map.1 mem
    obtain ⟨other, there', accepts', rfl⟩ := mem_acceptingOverloads.1 listed
    exact ⟨params, there, accepts, Nat.le_antisymm
      (fewest other (List.mem_of_getElem? there') accepts') (le i _ ⟨params, there, accepts, rfl⟩)⟩
  · rintro ⟨params, there, accepts, rfl⟩
    refine ⟨params, there, accepts, fun other mem accepts' => ?_⟩
    obtain ⟨j, there'⟩ := List.mem_iff_getElem?.1 mem
    exact le j _ ⟨other, there', accepts', rfl⟩

theorem mem_filter_iff_fewest {best : Nat}
    (least : ((acceptingOverloads overloads args).map Prod.snd).min? = some best) :
    (i, n) ∈ (acceptingOverloads overloads args).filter (·.2 == best) ↔
      Fewest overloads args i ∧ n = best := by
  rw [List.mem_filter, beq_iff_eq, fewest_iff_mem least]
  constructor
  · rintro ⟨mem, rfl⟩
    exact ⟨mem, rfl⟩
  · rintro ⟨mem, rfl⟩
    exact ⟨mem, rfl⟩

/-! ## The choice -/

/-- What the answer of a choice says. -/
theorem selectOverload_spec (overloads : List (List ValueType)) (args : List Value) :
    match selectOverload overloads args with
    | .ok i => Best overloads args i
    | .error .noMatch => ∀ params ∈ overloads, ¬ Accepts params args
    | .error .ambiguous => ∃ i j, i ≠ j ∧ Fewest overloads args i ∧ Fewest overloads args j := by
  unfold selectOverload
  dsimp only
  cases least : ((acceptingOverloads overloads args).map Prod.snd).min? with
  | none =>
      intro params mem accepts
      obtain ⟨i, there⟩ := List.mem_iff_getElem?.1 mem
      have listed := mem_acceptingOverloads.2 ⟨params, there, accepts, rfl⟩
      rw [List.min?_eq_none_iff, List.map_eq_nil_iff] at least
      rw [least] at listed
      cases listed
  | some best =>
      dsimp only
      have listed := fun i m => mem_filter_iff_fewest (i := i) (n := m) least
      have apart := (pairwise_acceptingOverloads overloads args).filter (·.2 == best)
      generalize (acceptingOverloads overloads args).filter (·.2 == best) = winners at listed apart
      match winners with
      | [] =>
          -- the least number is that of some overload
          obtain ⟨reached, -⟩ := List.min?_eq_some_iff.1 least
          obtain ⟨⟨i, m⟩, mem, rfl⟩ := List.mem_map.1 reached
          cases (listed ..).2 ⟨(fewest_iff_mem least).2 mem, rfl⟩
      | [(i, m)] =>
          refine ⟨((listed ..).1 (List.mem_singleton_self _)).1, fun j fewest => ?_⟩
          cases List.mem_singleton.1 ((listed ..).2 ⟨fewest, rfl⟩)
          rfl
      | (i, m) :: (j, m') :: rest =>
          refine ⟨i, j, ?_, ((listed ..).1 (List.mem_cons_self ..)).1,
            ((listed ..).1 (List.mem_cons_of_mem _ (List.mem_cons_self ..))).1⟩
          exact List.rel_of_pairwise_cons apart (List.mem_cons_self ..)

theorem selectOverload_eq_ok_iff :
    selectOverload overloads args = .ok i ↔ Best overloads args i := by
  have spec := selectOverload_spec overloads args
  constructor
  · intro chosen
    rwa [chosen] at spec
  · intro best
    match chosen : selectOverload overloads args with
    | .ok j =>
        rw [chosen] at spec
        rw [best.unique j spec.fewest]
    | .error .noMatch =>
        rw [chosen] at spec
        obtain ⟨params, there, accepts, -⟩ := best.fewest
        exact absurd accepts (spec params (List.mem_of_getElem? there))
    | .error .ambiguous =>
        rw [chosen] at spec
        obtain ⟨j, k, differ, first, second⟩ := spec
        exact absurd ((best.unique j first).trans (best.unique k second).symm) differ

theorem selectOverload_eq_noMatch_iff :
    selectOverload overloads args = .error .noMatch ↔ ∀ params ∈ overloads, ¬ Accepts params args := by
  have spec := selectOverload_spec overloads args
  constructor
  · intro chosen
    rwa [chosen] at spec
  · intro refused
    have none_fewest : ∀ j, ¬ Fewest overloads args j := by
      rintro j ⟨params, there, accepts, -⟩
      exact refused params (List.mem_of_getElem? there) accepts
    match chosen : selectOverload overloads args with
    | .ok j =>
        rw [chosen] at spec
        exact absurd spec.fewest (none_fewest j)
    | .error .noMatch => rfl
    | .error .ambiguous =>
        rw [chosen] at spec
        obtain ⟨j, _, -, first, -⟩ := spec
        exact absurd first (none_fewest j)

theorem selectOverload_eq_ambiguous_iff :
    selectOverload overloads args = .error .ambiguous ↔
      ∃ i j, i ≠ j ∧ Fewest overloads args i ∧ Fewest overloads args j := by
  have spec := selectOverload_spec overloads args
  constructor
  · intro chosen
    rwa [chosen] at spec
  · rintro ⟨i, j, differ, first, second⟩
    match chosen : selectOverload overloads args with
    | .ok k =>
        rw [chosen] at spec
        exact absurd ((spec.unique i first).trans (spec.unique j second).symm) differ
    | .error .noMatch =>
        rw [chosen] at spec
        obtain ⟨params, there, accepts, -⟩ := first
        exact absurd accepts (spec params (List.mem_of_getElem? there))
    | .error .ambiguous => rfl

/-- The best overload needs strictly fewer conversions than every other one that accepts. -/
theorem best_iff_lt : Best overloads args i ↔
    ∃ params, overloads[i]? = some params ∧ Accepts params args ∧
      ∀ j other, overloads[j]? = some other → j ≠ i → Accepts other args →
        conversions params args < conversions other args := by
  constructor
  · rintro ⟨⟨params, there, accepts, fewest⟩, unique⟩
    refine ⟨params, there, accepts, fun j other there' differ accepts' => ?_⟩
    refine Nat.lt_of_le_of_ne (fewest other (List.mem_of_getElem? there') accepts') fun equal => ?_
    exact differ (unique j ⟨other, there', accepts', equal ▸ fewest⟩)
  · rintro ⟨params, there, accepts, less⟩
    refine ⟨⟨params, there, accepts, fun other mem accepts' => ?_⟩, ?_⟩
    · obtain ⟨j, there'⟩ := List.mem_iff_getElem?.1 mem
      by_cases same : j = i
      · obtain rfl : params = other := by simpa [same, there] using there'
        exact Nat.le_refl _
      · exact Nat.le_of_lt (less j other there' same accepts')
    · rintro j ⟨other, there', accepts', fewest⟩
      by_contra differ
      exact absurd (fewest params (List.mem_of_getElem? there) accepts)
        (Nat.not_le_of_lt (less j other there' differ accepts'))

end SettingsForge
