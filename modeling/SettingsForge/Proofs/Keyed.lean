import Mathlib.Data.List.Induction
import SettingsForge.Keyed

set_option autoImplicit false

/-! # Laws of keyed lists

With ascending keys a value comes into one place and takes away at most one (`Keyed.exists_insert`), and
keys still ascend after that. The list of all pairs of a list is in order whatever the order of the pairs
(`Keyed.sorted_ofList`), and a list in order is its own (`Keyed.ofList_of_sorted`). -/

namespace SettingsForge.Keyed

variable {β : Type}

/-! ## Putting in -/

/-- With ascending keys, a value comes into one place, and at most one value goes. -/
theorem exists_insert {entries : List (String × β)} (sorted : Sorted entries) (key : String)
    (value : β) :
    ∃ before removed after, entries = before ++ (removed ++ after) ∧
      insert key value entries = before ++ (key, value) :: after ∧
      (∀ entry ∈ before ++ after, entry.1 ≠ key) ∧ ∀ entry ∈ removed, entry.1 = key := by
  induction entries with
  | nil => exact ⟨[], [], [], rfl, rfl, by simp, by simp⟩
  | cons entry rest ih =>
      obtain ⟨k, v⟩ := entry
      have first : ∀ other ∈ rest, k < other.1 := fun other mem =>
        (List.pairwise_cons.1 sorted).1 _ (List.mem_map_of_mem mem)
      rw [insert]
      split
      · next lt =>
        refine ⟨[], [], (k, v) :: rest, rfl, rfl, fun other mem => ?_, by simp⟩
        rcases List.mem_cons.1 mem with rfl | mem
        · exact (String.ne_of_lt lt).symm
        · exact (String.ne_of_lt (String.lt_trans lt (first other mem))).symm
      · split
        · next same =>
          refine ⟨[], [(k, v)], rest, rfl, by rw [same]; rfl, fun other mem => ?_, by simp [same]⟩
          exact same ▸ (String.ne_of_lt (first other mem)).symm
        · next differs =>
          obtain ⟨before, removed, after, rfl, inserted, others, gone⟩ :=
            ih (List.pairwise_cons.1 sorted).2
          refine ⟨(k, v) :: before, removed, after, rfl, by rw [inserted]; rfl, fun other mem => ?_, gone⟩
          rcases List.mem_cons.1 mem with rfl | mem
          · exact fun same => differs same.symm
          · exact others other mem

theorem sorted_insert {entries : List (String × β)} (sorted : Sorted entries) (key : String)
    (value : β) : Sorted (insert key value entries) := by
  induction entries with
  | nil => exact List.pairwise_singleton ..
  | cons entry rest ih =>
      obtain ⟨k, v⟩ := entry
      have first := (List.pairwise_cons.1 sorted).1
      rw [insert]
      split
      · next lt =>
        refine List.pairwise_cons.2 ⟨fun other mem => ?_, sorted⟩
        rcases List.mem_cons.1 mem with rfl | mem
        · exact lt
        · exact String.lt_trans lt (first other mem)
      · split
        · next same =>
          rw [same]
          exact sorted
        · next not_lt differs =>
          refine List.pairwise_cons.2 ⟨fun other mem => ?_, ih (List.pairwise_cons.1 sorted).2⟩
          rcases mem_keys_insert mem with rfl | mem
          · exact String.not_le.1 fun le => differs (String.le_antisymm le not_lt)
          · exact first other mem

theorem mem_insert {key : String} {value : β} {entries : List (String × β)} {entry : String × β}
    (h : entry ∈ insert key value entries) : entry = (key, value) ∨ entry ∈ entries := by
  induction entries with
  | nil => simpa [insert] using h
  | cons first rest ih =>
      obtain ⟨k, v⟩ := first
      rw [insert] at h
      split at h
      · simpa using h
      · split at h
        · exact (List.mem_cons.1 h).imp_right (List.mem_cons_of_mem _)
        · rcases List.mem_cons.1 h with rfl | h
          · exact Or.inr (List.mem_cons_self ..)
          · exact (ih h).imp_right (List.mem_cons_of_mem _)

theorem mem_of_lookup {key : String} {value : β} {entries : List (String × β)}
    (h : entries.lookup key = some value) : (key, value) ∈ entries := by
  induction entries with
  | nil => cases h
  | cons entry rest ih =>
      obtain ⟨k, v⟩ := entry
      rw [List.lookup_cons] at h
      split at h
      · next same =>
        rw [beq_iff_eq] at same
        cases h
        exact same ▸ List.mem_cons_self ..
      · exact List.mem_cons_of_mem _ (ih h)

/-- Putting back what is there changes nothing. -/
theorem insert_of_lookup {entries : List (String × β)} (sorted : Sorted entries) {key : String}
    {value : β} (h : entries.lookup key = some value) : insert key value entries = entries := by
  induction entries with
  | nil => cases h
  | cons entry rest ih =>
      obtain ⟨k, v⟩ := entry
      rw [List.lookup_cons] at h
      by_cases same : key = k
      · subst same
        rw [beq_self_eq_true] at h
        cases h
        rw [insert, if_neg (String.lt_irrefl key), if_pos rfl]
      · rw [beq_false_of_ne same] at h
        have lt : k < key :=
          (List.pairwise_cons.1 sorted).1 _ (List.mem_map_of_mem (mem_of_lookup h))
        have above : ¬ key < k := fun lt' => String.lt_irrefl k (String.lt_trans lt lt')
        rw [insert, if_neg above, if_neg same, ih (List.pairwise_cons.1 sorted).2 h]

/-! ## All pairs of a list -/

theorem ofList_append_singleton (pairs : List (String × β)) (pair : String × β) :
    ofList (pairs ++ [pair]) = insert pair.1 pair.2 (ofList pairs) := by
  unfold ofList
  rw [List.foldl_append]
  rfl

theorem lookup_ofList {pairs : List (String × β)}
    (nodup : (pairs.map Prod.fst).Nodup) {key : String} {value : β} (mem : (key, value) ∈ pairs) :
    (ofList pairs).lookup key = some value := by
  unfold ofList
  -- the last pair is put in place last
  induction pairs using List.reverseRecOn with
  | nil => cases mem
  | append_singleton pairs pair ih =>
      rw [List.map_append, List.nodup_append] at nodup
      rw [List.foldl_append]
      rcases List.mem_append.1 mem with mem | mem
      · have apart : key ≠ pair.1 := by
          rintro rfl
          exact nodup.2.2 _ (List.mem_map_of_mem mem) _ (List.mem_singleton_self _) rfl
        exact (lookup_insert_of_ne apart ..).trans (ih nodup.1 mem)
      · cases List.mem_singleton.1 mem
        exact lookup_insert_self ..

theorem sorted_ofList (pairs : List (String × β)) : Sorted (ofList pairs) := by
  induction pairs using List.reverseRecOn with
  | nil => exact List.Pairwise.nil
  | append_singleton pairs pair ih =>
      rw [ofList_append_singleton]
      exact sorted_insert ih pair.1 pair.2

theorem mem_of_mem_ofList {pairs : List (String × β)} {entry : String × β}
    (h : entry ∈ ofList pairs) : entry ∈ pairs := by
  induction pairs using List.reverseRecOn with
  | nil => exact h
  | append_singleton pairs pair ih =>
      rw [ofList_append_singleton] at h
      rcases mem_insert h with rfl | h
      · exact List.mem_append_right _ (List.mem_singleton_self _)
      · exact List.mem_append_left _ (ih h)

/-- A key above all others comes last. -/
theorem insert_last {entries : List (String × β)} {key : String} (value : β)
    (above : ∀ entry ∈ entries, entry.1 < key) :
    insert key value entries = entries ++ [(key, value)] := by
  induction entries with
  | nil => rfl
  | cons entry rest ih =>
      have lt := above entry (List.mem_cons_self ..)
      rw [insert, if_neg (fun lt' => String.lt_irrefl key (String.lt_trans lt' lt)),
        if_neg (String.ne_of_lt lt).symm, ih fun other mem => above other (List.mem_cons_of_mem _ mem)]
      rfl

theorem ofList_of_sorted {entries : List (String × β)} (sorted : Sorted entries) :
    ofList entries = entries := by
  induction entries using List.reverseRecOn with
  | nil => rfl
  | append_singleton entries entry ih =>
      rw [Sorted, List.map_append] at sorted
      obtain ⟨start, -, above⟩ := List.pairwise_append.1 sorted
      rw [ofList_append_singleton, ih start]
      exact insert_last entry.2 fun other mem =>
        above other.1 (List.mem_map_of_mem mem) entry.1 (List.mem_singleton_self _)

end SettingsForge.Keyed
