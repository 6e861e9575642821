import SettingsForge.Proofs.Settings.Operations

set_option autoImplicit false

/-! # Operations at the end of a path

What is done to an entry at the end of a path is done to every instance on the path: each of them
evolves, and its notices tell what changed in it (`Settings.operated_replaceAt`). -/

namespace SettingsForge

open Settings

/-- What a frame holds. -/
theorem Frame.content_fill {f : Frame} {content : Content} (nodup : (f.fill content).names.Nodup) :
    (f.fill content).content f.property = .ok content :=
  content_of_mem nodup ((f.mem_slots_fill content).2 (Or.inl rfl))

theorem Frame.dict_fill {f : Frame} {dict : DictRef} {entries : List Entry}
    (nodup : (f.fill (.dict dict entries)).names.Nodup) :
    (f.fill (.dict dict entries)).dict f.property = .ok (dict, entries) := by
  unfold Settings.dict
  rw [Frame.content_fill nodup]

/-! ## Steps -/

section

variable {known : Schema → Prop} {catalogs : List Catalog}

/-- An entry under a key of a dictionary property, in its place. -/
structure Settings.Step (x : Settings) (property key : String) (f : Frame) (dict : DictRef)
    (before : List Entry) (e : Entry) (after : List Entry) : Prop where
  at_property : f.property = property
  at_key : e.key = key
  fills : x = f.fill (.dict dict (before ++ e :: after))
  follow_eq : ∀ path, Settings.follow ((property, key) :: path) x = Settings.follow path e.settings
  replaceAt_eq : ∀ path y, Settings.replaceAt ((property, key) :: path) x y =
    f.fill (.dict dict (before ++ { e with settings := Settings.replaceAt path e.settings y } :: after))

namespace Settings

variable {x : Settings} {property key : String}

/-- A path that leads on goes through an entry. -/
theorem Conforms.exists_step (registry : Schema.Registry known) (conforms : x.Conforms known catalogs)
    {path : Path} {y : Settings} (h : follow ((property, key) :: path) x = .ok y) :
    ∃ f dict before e after, x.Step property key f dict before e after := by
  rw [follow] at h
  cases found : x.dict property with
  | error e =>
      rw [found] at h
      cases h
  | ok dict =>
      obtain ⟨dict, entries⟩ := dict
      rw [found] at h
      dsimp only at h
      cases there : Entries.find? entries key with
      | none =>
          rw [there] at h
          cases h
      | some e =>
          obtain ⟨same_key, before, after, rfl⟩ := Entries.exists_of_find? there
          obtain ⟨f, same, fill, setContent⟩ :=
            exists_frame (conforms.self.nodup registry) (content_of_dict found)
          have sorted : Entries.Sorted (before ++ e :: after) := by
            subst fill
            exact conforms.self.sorted ((f.mem_slots_fill _).2 (Or.inl rfl))
          have replaced : ∀ y, Entries.insert { e with settings := y } (before ++ e :: after) =
              before ++ { e with settings := y } :: after := fun y => Entries.insert_replace sorted rfl
          refine ⟨f, dict, before, e, after, same, same_key, fill, fun path => ?_, fun path y => ?_⟩
          · rw [follow, found]
            dsimp only
            rw [there]
          · rw [replaceAt, found]
            dsimp only
            rw [there]
            dsimp only
            rw [replaced, setContent]

variable {f : Frame} {dict : DictRef} {before after : List Entry} {e : Entry}

theorem Step.mem_slots (step : x.Step property key f dict before e after) :
    ⟨property, .dict dict (before ++ e :: after)⟩ ∈ x.slots := by
  obtain ⟨rfl, -, rfl, -, -⟩ := step
  exact (f.mem_slots_fill _).2 (Or.inl rfl)

theorem Step.mem_entries (_ : x.Step property key f dict before e after) :
    e ∈ (ContentOf.dict dict (before ++ e :: after)).entries :=
  List.mem_append_right _ (List.mem_cons_self ..)

/-- The same path after the entry was replaced. -/
theorem Step.follow_fill (registry : Schema.Registry known)
    (conforms : x.Conforms known catalogs)
    (step : x.Step property key f dict before e after) (y : Settings) (path : Path) :
    Settings.follow ((property, key) :: path)
        (f.fill (.dict dict (before ++ { e with settings := y } :: after))) =
      Settings.follow path y := by
  have sorted := conforms.self.sorted step.mem_slots
  have nodup := conforms.self.nodup registry
  obtain ⟨rfl, rfl, rfl, -, -⟩ := step
  have sorted : Entries.Sorted (before ++ { e with settings := y } :: after) := by
    have same : Entries.keys (before ++ { e with settings := y } :: after) =
        Entries.keys (before ++ e :: after) := by simp [Entries.keys]
    unfold Entries.Sorted
    rw [same]
    exact sorted
  rw [f.names_fill _ (.dict dict (before ++ { e with settings := y } :: after))] at nodup
  have found := sorted.find?_of_mem (List.mem_append_right before (List.mem_cons_self ..))
  rw [Settings.follow, Frame.dict_fill nodup]
  dsimp only at found ⊢
  rw [found]

/-! ## Paths -/

theorem mem_parts_of_follow (registry : Schema.Registry known) {path : Path} {root : Settings}
    (conforms : root.Conforms known catalogs) (h : follow path root = .ok x) : x ∈ root.parts := by
  induction path generalizing root with
  | nil =>
      cases h
      exact self_mem_parts _
  | cons step path ih =>
      obtain ⟨property, key⟩ := step
      obtain ⟨f, dict, before, e, after, step⟩ := conforms.exists_step registry h
      rw [step.follow_eq] at h
      exact mem_parts_of_entry step.mem_slots step.mem_entries
        (ih (conforms.entry step.mem_slots step.mem_entries) h)

/-- Everything inside an instance is at the end of a path. -/
theorem Conforms.exists_follow (registry : Schema.Registry known) {root y : Settings}
    (conforms : root.Conforms known catalogs) (mem : y ∈ root.parts) :
    ∃ path, follow path root = .ok y := by
  induction root using tree_induction with
  | step x ih =>
      rcases mem_parts.1 mem with rfl | ⟨slot, hs, inside⟩
      · exact ⟨[], rfl⟩
      · obtain ⟨e, he, inside⟩ := ContentOf.mem_parts.1 inside
        obtain ⟨path, followed⟩ := ih slot hs e he (conforms.entry hs he) inside
        have there := content_of_mem (conforms.self.nodup registry) hs
        obtain ⟨property, content⟩ := slot
        cases content with
        | dict dict entries =>
            have found : Entries.find? entries e.key = some e :=
              (conforms.self.sorted hs).find?_of_mem he
            have dict_eq : x.dict property = .ok (dict, entries) := by
              unfold Settings.dict
              rw [there]
            refine ⟨(property, e.key) :: path, ?_⟩
            rw [follow, dict_eq]
            dsimp only
            rw [found]
            exact followed
        | _ => cases he

/-- Where a path led before, it leads after what is below was replaced. -/
theorem follow_replaceAt (registry : Schema.Registry known) {above : Path} {root : Settings}
    (conforms : root.Conforms known catalogs) (h : follow above root = .ok x) (below : Path)
    (y : Settings) :
    follow above (replaceAt (above ++ below) root y) = .ok (replaceAt below x y) := by
  induction above generalizing root with
  | nil =>
      cases h
      rfl
  | cons step above ih =>
      obtain ⟨property, key⟩ := step
      obtain ⟨f, dict, before, e, after, step⟩ := conforms.exists_step registry h
      rw [step.follow_eq] at h
      rw [List.cons_append, step.replaceAt_eq, step.follow_fill registry conforms]
      exact ih (conforms.entry step.mem_slots step.mem_entries) h

/-- Putting back what is there changes nothing. -/
theorem replaceAt_self (registry : Schema.Registry known) {path : Path} {root : Settings}
    (conforms : root.Conforms known catalogs) (h : follow path root = .ok x) :
    replaceAt path root x = root := by
  induction path generalizing root with
  | nil =>
      cases h
      rfl
  | cons step path ih =>
      obtain ⟨property, key⟩ := step
      obtain ⟨f, dict, before, e, after, step⟩ := conforms.exists_step registry h
      rw [step.follow_eq] at h
      rw [step.replaceAt_eq, ih (conforms.entry step.mem_slots step.mem_entries) h]
      exact step.fills.symm

/-- What is done to an entry is done to its owner. -/
theorem Step.operated (registry : Schema.Registry known) (conforms : x.Conforms known catalogs)
    (step : x.Step property key f dict before e after) {y : Settings} {hub later : Hub}
    (operated : e.settings.Operated hub y later) :
    x.Operated hub (f.fill (.dict dict (before ++ { e with settings := y } :: after))) later := by
  have nodup := conforms.self.nodup registry
  obtain ⟨rfl, rfl, rfl, -, -⟩ := step
  obtain ⟨ns, evolves, tells⟩ := operated
  refine ⟨_, .inside f dict before e after evolves, fun tidy wired observable => ?_⟩
  have told : List.Forall₂ (EntryOf.Told (ns.map (Notice.within f.property e.key) ++ []))
      (before ++ e :: after) (before ++ { e with settings := y } :: after) :=
    Frame.told_inside registry conforms evolves tells tidy wired observable (by simp)
      (Entries.told_refl _)
  rw [List.append_nil] at told
  refine tells_fill nodup (fun t mem => ?_) (fun some_notice => ?_) fun none => ?_
  · obtain ⟨t, -, rfl⟩ := List.mem_map.1 mem
    rfl
  · obtain ⟨t, mem⟩ := List.exists_mem_of_ne_nil _ some_notice
    have at_key : t.key? = some e.key := by
      obtain ⟨t, -, rfl⟩ := List.mem_map.1 mem
      rfl
    exact Entries.values_changed told mem at_key (by simp [Entries.keys])
  · rw [none] at told
    exact congrArg Value.map (Entries.values_same told)

/-- What is done at the end of a path is done to the instance that it starts from. -/
theorem operated_replaceAt (registry : Schema.Registry known) {path : Path} {root : Settings}
    (conforms : root.Conforms known catalogs) (h : follow path root = .ok x) {y : Settings}
    {hub later : Hub} (operated : x.Operated hub y later) :
    root.Operated hub (replaceAt path root y) later := by
  induction path generalizing root with
  | nil =>
      cases h
      exact operated
  | cons step path ih =>
      obtain ⟨property, key⟩ := step
      obtain ⟨f, dict, before, e, after, step⟩ := conforms.exists_step registry h
      rw [step.follow_eq] at h
      rw [step.replaceAt_eq]
      exact step.operated registry conforms (ih (conforms.entry step.mem_slots step.mem_entries) h)

/-! ## Paths that are open to edits -/

/-- Asking for a dictionary to edit changes nothing but the journal. -/
theorem dictForEdit_spec (x : Settings) (property : String) (c : Context) :
    (x.dictForEdit property c).subject = x ∧ (x.dictForEdit property c).context.hub = c.hub := by
  unfold dictForEdit
  split
  · exact ⟨rfl, rfl⟩
  · split <;> exact ⟨rfl, rfl⟩

/-- Following a path for an edit leaves the hub, and leads where the path leads. -/
theorem followForEdit_spec (path : Path) (x : Settings) (c : Context) :
    (followForEdit path x c).2.hub = c.hub ∧
      ∀ y, (followForEdit path x c).1 = .ok y → follow path x = .ok y := by
  induction path generalizing x c with
  | nil => exact ⟨rfl, fun y same => same⟩
  | cons step path ih =>
      obtain ⟨property, key⟩ := step
      rw [followForEdit, follow]
      unfold dictForEdit
      cases found : x.dict property with
      | error e => exact ⟨rfl, fun y same => by cases same⟩
      | ok dict =>
          dsimp only
          by_cases writable : x.kind.isWritable = true
          · rw [if_pos writable]
            dsimp only
            cases Entries.find? dict.2 key with
            | none => exact ⟨rfl, fun y same => by cases same⟩
            | some e => exact ih e.settings c
          · rw [if_neg writable]
            exact ⟨rfl, fun y same => by cases same⟩

/-- A path is open to edits where everything may be written. -/
theorem followForEdit_eq {path : Path} {x y : Settings} (h : follow path x = .ok y)
    (writable : ∀ z ∈ x.parts, z.kind.isWritable = true) (c : Context) :
    followForEdit path x c = (.ok y, c) := by
  induction path generalizing x with
  | nil =>
      cases h
      rfl
  | cons step path ih =>
      obtain ⟨property, key⟩ := step
      rw [follow] at h
      rw [followForEdit]
      unfold dictForEdit
      have own := writable x (self_mem_parts x)
      cases found : x.dict property with
      | error e =>
          rw [found] at h
          cases h
      | ok dict =>
          rw [found] at h
          dsimp only at h ⊢
          rw [if_pos own]
          dsimp only
          cases there : Entries.find? dict.2 key with
          | none =>
              rw [there] at h
              cases h
          | some e =>
              rw [there] at h
              obtain ⟨slot, hs, content⟩ := exists_slot (content_of_dict found)
              refine ih h fun z hz => writable z (mem_parts_of_entry hs ?_ hz)
              rw [content]
              exact List.mem_of_find?_eq_some there

end Settings

end

end SettingsForge
