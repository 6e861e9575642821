import SettingsForge.Json.Reader
import SettingsForge.Proofs.Json.Scanning
import SettingsForge.Proofs.Lists

set_option autoImplicit false

/-! # Reading

The reader takes the tokens of a tree back to the tree. So it reads every text that spells a tree as this
tree, as long as no more containers are inside each other than can be read (`Json.parse?_of_spells`), and
whatever it reads is no deeper (`Json.depth_of_parse?`). -/

namespace SettingsForge.Json

/-! ## Depth -/

mutual

/-- How many containers are inside each other. -/
def depth : Json → Nat
  | .arr items => itemsDepth items + 1
  | .obj members => membersDepth members + 1
  | _ => 0

def itemsDepth : List Json → Nat
  | [] => 0
  | j :: items => max (depth j) (itemsDepth items)

def membersDepth : List (String × Json) → Nat
  | [] => 0
  | (_, j) :: members => max (depth j) (membersDepth members)

end

theorem itemsDepth_le {items : List Json} {n : Nat} :
    itemsDepth items ≤ n ↔ ∀ j ∈ items, depth j ≤ n := by
  induction items with
  | nil => simp [itemsDepth]
  | cons j items ih => rw [itemsDepth, Nat.max_le, ih, List.forall_mem_cons]

theorem membersDepth_le {members : List (String × Json)} {n : Nat} :
    membersDepth members ≤ n ↔ ∀ member ∈ members, depth member.2 ≤ n := by
  induction members with
  | nil => simp [membersDepth]
  | cons member members ih => rw [membersDepth, Nat.max_le, ih, List.forall_mem_cons]

/-! ## Trees -/

namespace ReadState

variable {frames : List Frame} {phase : Phase}

/-- Where a value may begin, also as the first item of a list, a token goes the way of a value unless it
    closes the list. -/
theorem run_value (opens : phase = .value ∨ phase = .firstItem) (token : Token)
    (h : token ≠ .closeList) (rest : List Token) :
    run ⟨frames, phase⟩ (token :: rest) = (value frames token).bind fun next => next.run rest := by
  have stepped : step ⟨frames, phase⟩ token = value frames token := by
    rcases opens with rfl | rfl
    · rfl
    · cases token with
      | closeList => exact absurd rfl h
      | _ => rfl
  rw [run, stepped]

/-- A container that is not too deep stands for itself. -/
theorem close_of_le {j : Json} (h : j.depth + frames.length ≤ maxDepth) (container : 0 < j.depth) :
    close j frames = complete j frames := by
  unfold close
  rw [if_pos (by omega)]

end ReadState

theorem ofMembers_some (members : List (String × Json)) :
    ofMembers (members.map fun member => (some member.1, member.2)) = .obj members := by
  have all : (members.map fun member => (some member.1, member.2)).mapM
      (fun member : Option String × Json => member.1.map fun key => (key, member.2)) =
      some members := by
    induction members with
    | nil => rfl
    | cons member members ih => simp [List.mapM_cons, ih]
  rw [ofMembers, all]

mutual

/-- Over the tokens of a tree the reader completes it. -/
theorem run_tokens : (j : Json) → {frames : List Frame} → j.depth + frames.length ≤ maxDepth →
    {phase : Phase} → phase = .value ∨ phase = .firstItem → (rest : List Token) →
    ReadState.run ⟨frames, phase⟩ (tokens j ++ rest) = (ReadState.complete j frames).run rest
  | .null, frames, _, phase, opens, rest =>
    ReadState.run_value opens (.word .null) nofun rest
  | .bool b, frames, _, phase, opens, rest =>
    ReadState.run_value opens (.word (.bool b)) nofun rest
  | .number literal, frames, _, phase, opens, rest =>
    ReadState.run_value opens (.word (.number literal)) nofun rest
  | .unreadable, frames, _, phase, opens, rest =>
    ReadState.run_value opens (.word .unreadable) nofun rest
  | .str s, frames, _, phase, opens, rest =>
    ReadState.run_value opens (.text (some s)) nofun rest
  | .arr items, frames, fits, phase, opens, rest => by
    rw [← ReadState.close_of_le fits (by simp [depth]), tokens, List.cons_append, List.append_assoc]
    refine (ReadState.run_value opens Token.openList nofun _).trans ?_
    rw [depth] at fits
    by_cases empty : items = []
    · subst empty
      rfl
    · exact @run_itemTokens items empty frames (by omega) .firstItem (Or.inr rfl) [] rest
  | .obj members, frames, fits, phase, opens, rest => by
    rw [← ReadState.close_of_le fits (by simp [depth]), tokens, List.cons_append, List.append_assoc]
    refine (ReadState.run_value opens Token.openMap nofun _).trans ?_
    rw [depth] at fits
    by_cases empty : members = []
    · subst empty
      rfl
    · have inner := @run_memberTokens members empty frames (by omega) .firstKey (Or.inl rfl) [] none rest
      rw [List.reverse_nil, List.nil_append, ofMembers_some] at inner
      exact inner

theorem run_itemTokens : (items : List Json) → items ≠ [] → {frames : List Frame} →
    itemsDepth items + (frames.length + 1) ≤ maxDepth →
    {phase : Phase} → phase = .value ∨ phase = .firstItem → (held : List Json) →
    (rest : List Token) →
    ReadState.run ⟨.items held :: frames, phase⟩ (itemTokens items ++ ([.closeList] ++ rest)) =
      (ReadState.close (.arr (held.reverse ++ items)) frames).run rest
  | [], nonempty, _, _, _, _, _, _ => absurd rfl nonempty
  | j :: items, _, frames, fits, phase, opens, held, rest => by
    rw [itemsDepth] at fits
    rw [itemTokens, List.append_assoc, List.append_assoc,
      run_tokens j (by rw [List.length_cons]; omega) opens]
    by_cases empty : items = []
    · subst empty
      show (ReadState.close (.arr (j :: held).reverse) frames).run rest = _
      rw [List.reverse_cons]
    · have later := @run_itemTokens items empty frames (by omega) .value (Or.inl rfl) (j :: held) rest
      rw [List.reverse_cons, List.append_assoc] at later
      refine Eq.trans ?_ later
      cases items with
      | nil => exact absurd rfl empty
      | cons => rfl

theorem run_memberTokens : (members : List (String × Json)) → members ≠ [] →
    {frames : List Frame} → membersDepth members + (frames.length + 1) ≤ maxDepth →
    {phase : Phase} → phase = .firstKey ∨ phase = .key → (held : List (Option String × Json)) →
    (last : Option String) → (rest : List Token) →
    ReadState.run ⟨.members held last :: frames, phase⟩
        (memberTokens members ++ ([.closeMap] ++ rest)) =
      (ReadState.close (ofMembers (held.reverse ++
        members.map fun member => (some member.1, member.2))) frames).run rest
  | [], nonempty, _, _, _, _, _, _, _ => absurd rfl nonempty
  | (key, j) :: members, _, frames, fits, phase, opens, held, last, rest => by
    rw [membersDepth] at fits
    have started : ReadState.run ⟨.members held last :: frames, phase⟩
        (memberTokens ((key, j) :: members) ++ ([.closeMap] ++ rest)) =
        ReadState.run ⟨.members held (some key) :: frames, .value⟩
          (tokens j ++ (commaToken members ++ memberTokens members ++ ([.closeMap] ++ rest))) := by
      rw [memberTokens, List.append_assoc (tokens j)]
      rcases opens with rfl | rfl <;> simp [ReadState.run, ReadState.step]
    rw [started, run_tokens j (by rw [List.length_cons]; omega) (Or.inl rfl)]
    by_cases empty : members = []
    · subst empty
      show (ReadState.close (ofMembers ((some key, j) :: held).reverse) frames).run rest = _
      rw [List.reverse_cons]
      rfl
    · have later := @run_memberTokens members empty frames (by omega) .key (Or.inr rfl)
        ((some key, j) :: held) (some key) rest
      rw [List.reverse_cons, List.append_assoc] at later
      refine Eq.trans ?_ later
      cases members with
      | nil => exact absurd rfl empty
      | cons => rfl

end

/-- What spells a tree is read as the tree. -/
theorem parse?_of_spells {text : String} {j : Json} (spells : Spells text.toList j)
    (fits : j.depth ≤ maxDepth) : parse? text = some j := by
  have run := @run_tokens j [] fits .value (Or.inl rfl) []
  rw [List.append_nil] at run
  unfold parse?
  rw [tokens?_of_spells spells]
  simp only [bind, Option.bind, run]
  rfl

/-! ## Any text -/

/-- Words are no containers. -/
def Token.Flat (token : Token) : Prop := ∀ j, token = .word j → depth j = 0

theorem flat_wordToken? {cs : List Char} {token : Token} (h : wordToken? cs = some token) :
    token.Flat := by
  unfold wordToken? at h
  rintro j rfl
  split at h
  · cases h
    rfl
  split at h
  · cases h
    rfl
  split at h
  · cases h
    rfl
  · obtain ⟨literal, -, same⟩ := Option.map_eq_some_iff.1 h
    cases same
    rfl

theorem flat_begin? {c : Char} {token : Token} (h : (begin? c).1 = some token) : token.Flat := by
  rintro j rfl
  unfold begin? at h
  split at h
  · next mark _ =>
    cases h
    unfold punctuation? at *
    split at * <;> simp_all
  · split at h
    · cases h
    · split at h <;> cases h

/-- Whatever is scanned, no word is a container. -/
theorem flat_scan (state : Scan) (cs : List Char) {found : List Token}
    (h : scan state cs = some found) : ∀ token ∈ found, token.Flat := by
  have flat_mark : ∀ {c : Char} {mark : Option Token} {next : Scan}, begin? c = (mark, next) →
      ∀ token ∈ mark.toList, token.Flat := by
    intro c mark next begins token mem
    refine flat_begin? (c := c) ?_
    rw [begins]
    exact Option.mem_toList.1 mem
  fun_induction scan state cs generalizing found
  case case1 =>
    cases h
    exact fun _ mem => nomatch mem
  case case2 =>
    obtain ⟨token, word, rfl⟩ := Option.map_eq_some_iff.1 h
    exact List.forall_mem_singleton.2 (flat_wordToken? word)
  case case6 begins ih =>
    obtain ⟨tokens, rest, rfl⟩ := Option.map_eq_some_iff.1 h
    exact List.forall_mem_append.2 ⟨flat_mark begins, ih rest⟩
  case case7 read c cs _ ih =>
    obtain ⟨token, word, h⟩ := Option.bind_eq_some_iff.1 h
    obtain ⟨tokens, rest, rfl⟩ := Option.map_eq_some_iff.1 h
    exact List.forall_mem_cons.2
      ⟨flat_wordToken? word, List.forall_mem_append.2 ⟨flat_mark rfl, ih _ rest⟩⟩
  case case9 ih =>
    obtain ⟨tokens, rest, rfl⟩ := Option.map_eq_some_iff.1 h
    exact List.forall_mem_cons.2 ⟨nofun, ih rest⟩
  case case8 ih | case10 ih | case12 ih | case13 ih | case14 ih | case17 ih | case18 ih => exact ih h
  case case3 | case4 | case5 | case11 | case15 | case16 => cases h

/-- A container that is still open holds nothing that is too deep for it. -/
def Frame.Shallow (level : Nat) : Frame → Prop
  | .items held => ∀ j ∈ held, depth j ≤ maxDepth - (level + 1)
  | .members held _ => ∀ member ∈ held, depth member.2 ≤ maxDepth - (level + 1)

def Shallow : List Frame → Prop
  | [] => True
  | frame :: frames => frame.Shallow frames.length ∧ Shallow frames

namespace ReadState

structure Shallow (state : ReadState) : Prop where
  frames : Json.Shallow state.frames
  finished : ∀ j, state.phase = .finished j → depth j ≤ maxDepth

variable {frames : List Frame}

theorem shallow_complete {j : Json} (shallow : Json.Shallow frames)
    (fits : depth j ≤ maxDepth - frames.length) : (complete j frames).Shallow := by
  cases frames with
  | nil => exact ⟨shallow, fun k same => by cases same; exact fits⟩
  | cons frame frames =>
      obtain ⟨own, below⟩ := shallow
      cases frame with
      | items held => exact ⟨⟨List.forall_mem_cons.2 ⟨fits, own⟩, below⟩, nofun⟩
      | members held key => exact ⟨⟨List.forall_mem_cons.2 ⟨fits, own⟩, below⟩, nofun⟩

/-- A container closes with what is not too deep in it. -/
theorem shallow_close {j : Json} (shallow : Json.Shallow frames)
    (fits : depth j ≤ maxDepth - (frames.length + 1) + 1) : (close j frames).Shallow := by
  unfold close
  refine shallow_complete shallow ?_
  split
  · omega
  · exact Nat.zero_le _

theorem depth_ofMembers {members : List (Option String × Json)} {n : Nat}
    (fits : ∀ member ∈ members, depth member.2 ≤ n) : depth (ofMembers members) ≤ n + 1 := by
  unfold ofMembers
  split
  · next readable found =>
    rw [depth]
    refine Nat.succ_le_succ (membersDepth_le.2 fun member mem => ?_)
    obtain ⟨named, hn, same⟩ := exists_left_of_forall₂ (forall₂_mapM_option.1 found) mem
    obtain ⟨key, -, rfl⟩ := Option.map_eq_some_iff.1 same
    exact fits named hn
  · exact Nat.zero_le _

/-- A token keeps what is read shallow. -/
theorem shallow_step {phase : Phase} {next : ReadState} {token : Token} (shallow : Json.Shallow frames)
    (flat : token.Flat) (h : step ⟨frames, phase⟩ token = some next) : next.Shallow := by
  have of_value : value frames token = some next → next.Shallow := by
    intro h
    unfold value at h
    split at h <;> cases h
    · exact ⟨⟨fun _ mem => (nomatch mem), shallow⟩, nofun⟩
    · exact ⟨⟨fun _ mem => (nomatch mem), shallow⟩, nofun⟩
    · exact shallow_complete shallow (Nat.zero_le _)
    · exact shallow_complete shallow (Nat.zero_le _)
    · exact shallow_complete shallow (by rw [flat _ rfl]; exact Nat.zero_le _)
  unfold step at h
  dsimp only at h
  split at h
  case h_1 | h_3 => exact of_value h
  case h_2 =>
    cases h
    exact shallow_close shallow.2 (by simp [depth, itemsDepth])
  case h_4 =>
    cases h
    exact shallow_close shallow.2 (by simp [depth, membersDepth])
  case h_5 | h_6 | h_7 | h_8 | h_9 =>
    cases h
    exact ⟨shallow, nofun⟩
  case h_10 =>
    cases h
    refine shallow_close shallow.2 (Nat.succ_le_succ (itemsDepth_le.2 fun j mem => ?_))
    exact shallow.1 j (List.mem_reverse.1 mem)
  case h_11 =>
    cases h
    exact shallow_close shallow.2
      (depth_ofMembers fun member mem => shallow.1 member (List.mem_reverse.1 mem))
  case h_12 => cases h

theorem Shallow.run {state last : ReadState} (shallow : state.Shallow) {tokens : List Token}
    (flat : ∀ token ∈ tokens, token.Flat) (h : state.run tokens = some last) : last.Shallow := by
  induction tokens generalizing state with
  | nil =>
      cases h
      exact shallow
  | cons token tokens ih =>
      obtain ⟨own, rest⟩ := List.forall_mem_cons.1 flat
      obtain ⟨next, stepped, h⟩ := Option.bind_eq_some_iff.1 h
      exact ih (shallow_step shallow.frames own stepped) rest h

end ReadState

/-- Nothing is read that is deeper than what can be read. -/
theorem depth_of_parse? {text : String} {j : Json} (h : parse? text = some j) : j.depth ≤ maxDepth := by
  obtain ⟨tokens, scanned, h⟩ := Option.bind_eq_some_iff.1 h
  obtain ⟨state, run, h⟩ := Option.bind_eq_some_iff.1 h
  have start : ReadState.Shallow ⟨[], .value⟩ := ⟨trivial, nofun⟩
  have shallow := start.run (flat_scan _ _ scanned) run
  split at h
  · next finished =>
    cases h
    exact shallow.finished _ finished
  · cases h

end SettingsForge.Json
