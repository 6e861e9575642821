set_option autoImplicit false

/-! # Keyed lists

A keyed list holds pairs in ascending order of their keys, compared by code points, each key once
(`Keyed.Sorted`). `Keyed.insert` and `Keyed.erase` keep that order, and `List.lookup` reads it. -/

namespace SettingsForge.Keyed

variable {β : Type}

/-- Put a value under a key, in place of the one that is there. -/
def insert (key : String) (value : β) : List (String × β) → List (String × β)
  | [] => [(key, value)]
  | (k, v) :: rest =>
    if key < k then (key, value) :: (k, v) :: rest
    else if key = k then (key, value) :: rest
    else (k, v) :: insert key value rest

/-- Drop the value under a key. -/
def erase (key : String) (entries : List (String × β)) : List (String × β) :=
  entries.filter fun entry => entry.1 != key

/-- The keyed list with all pairs of a list; of two under one key the later stays. -/
def ofList (pairs : List (String × β)) : List (String × β) :=
  pairs.foldl (fun entries pair => insert pair.1 pair.2 entries) []

/-- Keys ascend strictly. -/
def Sorted (entries : List (String × β)) : Prop := (entries.map Prod.fst).Pairwise (· < ·)

/-! ## Look-ups -/

@[simp] theorem lookup_insert_self (key : String) (value : β) (entries : List (String × β)) :
    (insert key value entries).lookup key = some value := by
  induction entries with
  | nil => simp [insert]
  | cons entry rest ih =>
    obtain ⟨k, v⟩ := entry
    rw [insert]
    split
    · simp
    · split
      · simp
      · next h => simp [List.lookup_cons, beq_eq_false_iff_ne.2 h, ih]

theorem lookup_insert_of_ne {key other : String} (h : other ≠ key) (value : β)
    (entries : List (String × β)) :
    (insert key value entries).lookup other = entries.lookup other := by
  induction entries with
  | nil => simp [insert, List.lookup_cons, beq_eq_false_iff_ne.2 h]
  | cons entry rest ih =>
    obtain ⟨k, v⟩ := entry
    rw [insert]
    split
    · simp [List.lookup_cons, beq_eq_false_iff_ne.2 h]
    · split
      · next hk => subst hk; simp [List.lookup_cons, beq_eq_false_iff_ne.2 h]
      · simp [List.lookup_cons, ih]

/-! ## Order -/

theorem mem_keys_insert {key k : String} {value : β} {entries : List (String × β)}
    (h : k ∈ (insert key value entries).map Prod.fst) : k = key ∨ k ∈ entries.map Prod.fst := by
  induction entries with
  | nil => simpa [insert] using h
  | cons entry rest ih =>
    obtain ⟨k', v⟩ := entry
    rw [insert] at h
    split at h
    · simpa using h
    · split at h
      · next hk =>
        subst hk
        exact Or.inr h
      · simp only [List.map_cons, List.mem_cons] at h ⊢
        rcases h with h | h
        · exact Or.inr (Or.inl h)
        · rcases ih h with h | h
          · exact Or.inl h
          · exact Or.inr (Or.inr h)

end SettingsForge.Keyed
