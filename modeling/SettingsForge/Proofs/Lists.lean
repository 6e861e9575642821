import Mathlib.Data.List.Forall2
import Mathlib.Data.List.Nodup
import Mathlib.Data.List.Pairwise

set_option autoImplicit false

/-! # Lists side by side

Schemas and instances, plans and slots, items and their conversions are lists that correspond place by
place. -/

namespace SettingsForge

variable {α β ε : Type} {R : α → β → Prop}

/-- What corresponds to two lists in a row is two lists in a row. -/
theorem forall₂_append_right {as : List α} {before after : List β} :
    List.Forall₂ R as (before ++ after) ↔
      ∃ first rest, as = first ++ rest ∧ List.Forall₂ R first before ∧ List.Forall₂ R rest after := by
  constructor
  · intro h
    exact ⟨as.take before.length, as.drop before.length, (List.take_append_drop ..).symm,
      List.forall₂_take_append _ _ _ h, List.forall₂_drop_append _ _ _ h⟩
  · rintro ⟨first, rest, rfl, hf, hr⟩
    exact List.rel_append hf hr

/-- What corresponds to a list with one member marked. -/
theorem forall₂_middle_right {as : List α} {before after : List β} {b : β} :
    List.Forall₂ R as (before ++ b :: after) ↔
      ∃ first a rest, as = first ++ a :: rest ∧ List.Forall₂ R first before ∧ R a b ∧
        List.Forall₂ R rest after := by
  rw [forall₂_append_right]
  constructor
  · rintro ⟨first, rest, rfl, hf, hr⟩
    obtain ⟨a, later, hab, hl, rfl⟩ := List.forall₂_cons_right_iff.1 hr
    exact ⟨first, a, later, rfl, hf, hab, hl⟩
  · rintro ⟨first, a, rest, rfl, hf, hab, hr⟩
    exact ⟨first, a :: rest, rfl, hf, .cons hab hr⟩

/-- Members in the same place correspond. -/
theorem forall₂_middle {R : α → α → Prop} {before after after' : List α} {a b : α}
    (h : List.Forall₂ R (before ++ a :: after) (before ++ b :: after')) :
    R a b ∧ List.Forall₂ R after after' := by
  induction before with
  | nil =>
      cases h with
      | cons first rest => exact ⟨first, rest⟩
  | cons c before ih =>
      cases h with
      | cons _ rest => exact ih rest

theorem exists_left_of_forall₂ {as : List α} {bs : List β} (h : List.Forall₂ R as bs) {b : β}
    (mem : b ∈ bs) : ∃ a ∈ as, R a b := by
  induction h with
  | nil => cases mem
  | cons first _ ih =>
      rcases List.mem_cons.1 mem with rfl | mem
      · exact ⟨_, List.mem_cons_self .., first⟩
      · obtain ⟨a, ha, hr⟩ := ih mem
        exact ⟨a, List.mem_cons_of_mem _ ha, hr⟩

theorem exists_right_of_forall₂ {as : List α} {bs : List β} (h : List.Forall₂ R as bs) {a : α}
    (mem : a ∈ as) : ∃ b ∈ bs, R a b := exists_left_of_forall₂ h.flip mem

/-- What corresponds to the same list corresponds to each other. -/
theorem forall₂_join {γ : Type} {S : α → γ → Prop} {T : β → γ → Prop} {as : List α} {bs : List β}
    {cs : List γ} (h : List.Forall₂ R as bs) (h' : List.Forall₂ S as cs)
    (join : ∀ a b c, a ∈ as → b ∈ bs → c ∈ cs → R a b → S a c → T b c) : List.Forall₂ T bs cs := by
  induction h generalizing cs with
  | nil =>
      cases h'
      exact .nil
  | cons first _ ih =>
      cases h' with
      | cons first' rest' =>
          refine .cons ?_ (ih rest' fun a b c ha hb hc => ?_)
          · exact join _ _ _ (List.mem_cons_self ..) (List.mem_cons_self ..) (List.mem_cons_self ..)
              first first'
          · exact join a b c (List.mem_cons_of_mem _ ha) (List.mem_cons_of_mem _ hb)
              (List.mem_cons_of_mem _ hc)

/-- The members of the left list are members. -/
theorem forall₂_mem_left {as : List α} {bs : List β} (h : List.Forall₂ R as bs) :
    List.Forall₂ (fun a b => a ∈ as ∧ R a b) as bs := by
  induction h with
  | nil => exact .nil
  | cons own _ ih =>
      exact .cons ⟨List.mem_cons_self .., own⟩
        (ih.imp fun _ _ pair => ⟨List.mem_cons_of_mem _ pair.1, pair.2⟩)

theorem map_eq_of_forall₂ {γ : Type} {as : List α} {bs : List β} {f : α → γ} {g : β → γ}
    (h : List.Forall₂ (fun a b => f a = g b) as bs) : as.map f = bs.map g := by
  induction h with
  | nil => rfl
  | cons first _ ih => rw [List.map_cons, List.map_cons, first, ih]

/-- Mapping with a function that may fail takes every member to its image. -/
theorem forall₂_mapM_option {f : α → Option β} {items : List α} {images : List β} :
    items.mapM f = some images ↔ List.Forall₂ (fun a b => f a = some b) items images := by
  induction items generalizing images with
  | nil => cases images <;> simp
  | cons a items ih =>
      rw [List.mapM_cons, List.forall₂_cons_left_iff]
      constructor
      · intro h
        cases ha : f a with
        | none => simp [ha] at h
        | some b =>
            cases hm : items.mapM f with
            | none => simp [ha, hm] at h
            | some rest =>
                simp only [ha, hm, Option.pure_def, Option.bind_eq_bind, Option.bind_some,
                  Option.some.injEq] at h
                exact ⟨b, rest, ha ▸ rfl, ih.1 hm, h.symm⟩
      · rintro ⟨b, rest, hb, hrest, rfl⟩
        simp [hb, ih.2 hrest]

/-- Mapping with a function that may fail works if it works on every member. -/
theorem isSome_mapM_option {f : α → Option β} {items : List α} :
    (items.mapM f).isSome = true ↔ ∀ a ∈ items, (f a).isSome = true := by
  induction items with
  | nil => simp
  | cons a items ih =>
      rw [List.forall_mem_cons, ← ih, List.mapM_cons]
      cases f a with
      | none => simp
      | some b => cases items.mapM f <;> simp

theorem forall₂_mapM_except {f : α → Except ε β} {items : List α} {images : List β} :
    items.mapM f = .ok images ↔ List.Forall₂ (fun a b => f a = .ok b) items images := by
  induction items generalizing images with
  | nil => cases images <;> simp [pure, Except.pure]
  | cons a items ih =>
      rw [List.mapM_cons, List.forall₂_cons_left_iff]
      constructor
      · intro h
        cases ha : f a with
        | error => simp [ha, bind, Except.bind] at h
        | ok b =>
            cases hm : items.mapM f with
            | error => simp [ha, hm, bind, Except.bind] at h
            | ok rest =>
                simp only [ha, hm, bind, Except.bind, pure, Except.pure, Except.ok.injEq] at h
                exact ⟨b, rest, ha ▸ rfl, ih.1 hm, h.symm⟩
      · rintro ⟨b, rest, hb, hrest, rfl⟩
        simp [hb, ih.2 hrest, bind, Except.bind, pure, Except.pure]

/-- Where mapping fails, it fails at a member. -/
theorem exists_of_mapM_eq_error {f : α → Except ε β} {items : List α} {e : ε}
    (h : items.mapM f = .error e) : ∃ a ∈ items, f a = .error e := by
  induction items with
  | nil => cases h
  | cons a items ih =>
      rw [List.mapM_cons] at h
      cases first : f a with
      | error =>
          rw [first] at h
          cases h
          exact ⟨a, List.mem_cons_self .., first⟩
      | ok b =>
          rw [first] at h
          cases others : items.mapM f with
          | error =>
              simp only [others, bind, Except.bind] at h
              obtain ⟨a', mem, own⟩ := ih (others.trans h)
              exact ⟨a', List.mem_cons_of_mem _ mem, own⟩
          | ok bs =>
              rw [others] at h
              cases h

theorem exists_of_map_eq_ok {answer : Except ε α} {f : α → β} {b : β} (h : answer.map f = .ok b) :
    ∃ a, answer = .ok a ∧ f a = b := by
  cases answer with
  | error e => cases h
  | ok a =>
      cases h
      exact ⟨a, rfl, rfl⟩

/-- Answers that a map makes equal are the same error, or results that the map makes equal. -/
theorem error_or_ok_of_map_eq {f : α → β} {answer other : Except ε α}
    (h : answer.map f = other.map f) :
    (∃ e, answer = .error e ∧ other = .error e) ∨
      ∃ a b, answer = .ok a ∧ other = .ok b ∧ f a = f b := by
  cases answer with
  | error e =>
      cases other with
      | error =>
          cases h
          exact Or.inl ⟨e, rfl, rfl⟩
      | ok => cases h
  | ok a =>
      cases other with
      | error => cases h
      | ok b => exact Or.inr ⟨a, b, rfl, rfl, Except.ok.inj h⟩

theorem mapM_some_of_eq_ok {f : α → Except ε β} {a : α} {b : β} (h : f a = .ok b) :
    (some a).mapM f = .ok (some b) := by
  rw [Option.mapM_some, h]
  rfl

theorem exists_of_option_mapM {f : α → Except ε β} {a? : Option α} {b? : Option β}
    (h : a?.mapM f = .ok b?) {b : β} (mem : b ∈ b?) : ∃ a ∈ a?, f a = .ok b := by
  cases a? with
  | none =>
      cases h
      cases mem
  | some a =>
      rw [Option.mapM_some] at h
      cases ha : f a with
      | error e =>
          rw [ha] at h
          cases h
      | ok b' =>
          rw [ha] at h
          cases h
          cases mem
          exact ⟨a, rfl, ha⟩

/-- A member of one image only. -/
theorem eq_of_nodup_flatMap {items : List α} {f : α → List β} (nodup : (items.flatMap f).Nodup)
    {a a' : α} (ha : a ∈ items) (ha' : a' ∈ items) {b : β} (mem : b ∈ f a) (mem' : b ∈ f a') :
    a = a' := by
  by_contra differ
  have apart := (List.nodup_flatMap.1 nodup).2
  have : Std.Symm (Function.onFun List.Disjoint f) := ⟨fun _ _ disjoint => List.disjoint_symm disjoint⟩
  exact apart.forall ha ha' differ mem mem'

end SettingsForge
