import NodeQuery.Proofs.Match.Wildcard
import NodeQuery.Regex.Matching
/-!
Wildcard patterns as regular expressions. `toRegex` writes a chunk between two stars as an atomic
part that takes as little as possible before it, and what stands behind the last star after as much
as possible. Matching it by backtracking from the start of a text takes each chunk where it first
stands, as `fits` does (`matchesAt_toRegex`).
-/
namespace NodeQuery

namespace Regex

/-- A state some places further on. -/
def State.moved (s : State) (n : Nat) : State :=
  { s with position := s.position + n }

/-- The text from the place of a state. -/
def State.left (text : Array Nat) (s : State) : List Nat :=
  text.toList.drop s.position

variable {text : Array Nat} {s : State} {k : State → Option State} {fuel : Nat} {last : Option Nat}

@[simp] theorem State.moved_position (s : State) (n : Nat) :
    (s.moved n).position = s.position + n := rfl

theorem State.moved_moved (s : State) (m n : Nat) : (s.moved m).moved n = s.moved (m + n) := by
  simp [moved, Nat.add_assoc]

theorem State.moved_one_moved (s : State) (n : Nat) : (s.moved 1).moved n = s.moved (n + 1) := by
  rw [moved_moved, Nat.add_comm]

theorem State.left_moved (text : Array Nat) (s : State) (n : Nat) :
    (s.moved n).left text = (s.left text).drop n := by
  rw [left, left, List.drop_drop]
  rfl

theorem State.length_left (text : Array Nat) (s : State) :
    (s.left text).length = text.size - s.position := by
  simp [left]

/-! ## Steps -/

theorem step_sequence_append (rs rs' : List Regex) (s : State) (k : State → Option State) :
    step text (sequence (rs ++ rs')) s k =
      step text (sequence rs) s fun t => step text (sequence rs') t k := by
  induction rs generalizing s with
  | nil => rfl
  | cons r rs ih =>
    show step text r s _ = step text r s _
    congr 1
    funext t
    exact ih t

theorem head?_left (text : Array Nat) (s : State) : (s.left text).head? = text[s.position]? := by
  rw [State.left, List.head?_drop, Array.getElem?_toList]

theorem step_unit (set : Text.CharSet) (s : State) (k : State → Option State) :
    step text (.unit set) s k =
      (s.left text).head?.bind fun code => if set.has code then k (s.moved 1) else none := by
  rw [head?_left]
  cases h : text[s.position]? with
  | none => simp only [step, h, Option.bind_none]
  | some code => simp only [step, h, Option.bind_some, State.moved]

theorem step_any (h : s.position < text.size) : step text (.unit .all) s k = k (s.moved 1) := by
  rw [step_unit, head?_left, Array.getElem?_eq_getElem h]
  rfl

theorem step_any_end (h : s.position = text.size) : step text (.unit .all) s k = none := by
  rw [step_unit, head?_left, Array.getElem?_eq_none (Nat.le_of_eq h.symm)]
  rfl

theorem mayRepeat_none (h : last ≠ some s.position) : mayRepeat none last s = true := by
  simp [mayRepeat, h]

theorem lazyRounds_succ (hlast : last ≠ some s.position) :
    lazyRounds (step text (.unit .all)) (fuel + 1) none last s k =
      (k s).or (step text (.unit .all) s fun t =>
        lazyRounds (step text (.unit .all)) fuel none (some s.position) t k) := by
  cases h : k s with
  | none => simp only [lazyRounds, h, mayRepeat_none hlast, if_true, Option.map_none, Option.none_or]
  | some t => simp only [lazyRounds, h, Option.some_or]

theorem greedyRounds_succ (hlast : last ≠ some s.position) :
    greedyRounds (step text (.unit .all)) (fuel + 1) none last s k =
      (step text (.unit .all) s fun t =>
        greedyRounds (step text (.unit .all)) fuel none (some s.position) t k).or (k s) := by
  simp only [greedyRounds, mayRepeat_none hlast, if_true, Option.map_none]
  cases step text (.unit .all) s fun t =>
    greedyRounds (step text (.unit .all)) fuel none (some s.position) t k with
  | none => rfl
  | some t => rfl

/-- The fewest rounds that succeed are taken. -/
theorem lazyRounds_of_first {n : Nat} (hfuel : n < fuel) (hlast : last ≠ some s.position)
    (hn : s.position + n ≤ text.size) (hk : k (s.moved n) ≠ none)
    (hfirst : ∀ m < n, k (s.moved m) = none) :
    lazyRounds (step text (.unit .all)) fuel none last s k = k (s.moved n) := by
  induction n generalizing fuel last s with
  | zero =>
    obtain ⟨fuel, rfl⟩ := Nat.exists_eq_add_of_lt hfuel
    obtain ⟨t, ht⟩ := Option.ne_none_iff_exists'.1 hk
    have hs : k s = some t := ht
    rw [Nat.zero_add, lazyRounds_succ hlast, ht, hs, Option.some_or]
  | succ n ih =>
    obtain ⟨fuel, rfl⟩ := Nat.exists_eq_succ_of_ne_zero (Nat.ne_zero_of_lt hfuel)
    have hs : k s = none := hfirst 0 (Nat.succ_pos n)
    rw [lazyRounds_succ hlast, hs, Option.none_or, step_any (by omega)]
    have hlater := @ih (s.moved 1) fuel (some s.position) (Nat.lt_of_succ_lt_succ hfuel) (by simp)
      (by simp; omega) (by rwa [State.moved_one_moved]) (by
        intro m hm
        rw [State.moved_one_moved]
        exact hfirst (m + 1) (by omega))
    rw [State.moved_one_moved] at hlater
    exact hlater

theorem lazyRounds_eq_none (hlast : last ≠ some s.position) (hs : s.position ≤ text.size)
    (hk : ∀ n, s.position + n ≤ text.size → k (s.moved n) = none) :
    lazyRounds (step text (.unit .all)) fuel none last s k = none := by
  induction fuel generalizing last s with
  | zero => exact hk 0 hs
  | succ fuel ih =>
    have hnone : k s = none := hk 0 hs
    rw [lazyRounds_succ hlast, hnone, Option.none_or]
    by_cases hlt : s.position < text.size
    · rw [step_any hlt]
      refine ih (by simp) hlt ?_
      intro n hn
      rw [State.moved_one_moved]
      exact hk (n + 1) (by simp at hn; omega)
    · rw [step_any_end (by omega)]

/-- A later place is this one or behind the next character. -/
theorem exists_moved_iff (hlt : s.position < text.size) (p : State → Prop) :
    (∃ n, s.position + n ≤ text.size ∧ p (s.moved n)) ↔
      (∃ n, (s.moved 1).position + n ≤ text.size ∧ p ((s.moved 1).moved n)) ∨ p s := by
  simp only [State.moved_one_moved, State.moved_position]
  constructor
  · intro h
    obtain ⟨n, hn, hp⟩ := h
    cases n with
    | zero => exact Or.inr hp
    | succ n => exact Or.inl ⟨n, by omega, hp⟩
  · intro h
    rcases h with ⟨n, hn, hp⟩ | hp
    · exact ⟨n + 1, by omega, hp⟩
    · exact ⟨0, Nat.le_of_lt hlt, hp⟩

/-- As many rounds as possible succeed if any number of them does. -/
theorem isSome_greedyRounds_iff (hfuel : text.size < s.position + fuel)
    (hlast : last ≠ some s.position) (hs : s.position ≤ text.size) :
    (greedyRounds (step text (.unit .all)) fuel none last s k).isSome = true ↔
      ∃ n, s.position + n ≤ text.size ∧ (k (s.moved n)).isSome = true := by
  induction fuel generalizing last s with
  | zero => omega
  | succ fuel ih =>
    rw [greedyRounds_succ hlast]
    by_cases hlt : s.position < text.size
    · rw [step_any hlt]
      have hmore := @ih (s.moved 1) (some s.position) (by simp; omega) (by simp) hlt
      rw [exists_moved_iff hlt fun t => (k t).isSome = true, ← hmore]
      cases greedyRounds (step text (.unit .all)) fuel none (some s.position) (s.moved 1) k with
      | none => simp
      | some result => simp
    · rw [step_any_end (by omega)]
      constructor
      · intro h
        exact ⟨0, hs, h⟩
      · intro h
        obtain ⟨n, hn, hk⟩ := h
        obtain rfl : n = 0 := by omega
        exact hk

end Regex

namespace Wildcard
open Regex

/-- Any text, in the order of the tries. -/
def anything (greed : Greed) : Regex :=
  .repeated greed 0 none (.unit .all)

/-- A star and a chunk behind it, at the first place of the chunk. -/
def firstPlace (chunk : List Text.CharSet) : Regex :=
  .atomic (sequence (anything .lazy :: chunk.map .unit))

/-- The regular expressions for stars with the given chunks behind them. -/
def regexesBehind : List (List Text.CharSet) → List Regex
  | [] => []
  | [last] => anything .greedy :: last.map .unit
  | chunk :: rest => firstPlace chunk :: regexesBehind rest

/-- The regular expression for the texts that fit a pattern. -/
def toRegex (items : List Item) : Regex :=
  sequence ((chunksOf items).1.map .unit ++
    (regexesBehind (chunksOf items).2 ++ [.anchor .textEnd]))

variable {text : Array Nat} {s : State} {chunk : List Text.CharSet}

theorem step_chunk (chunk : List Text.CharSet) (s : State) (k : State → Option State) :
    step text (sequence (chunk.map .unit)) s k =
      if begins chunk (s.left text) then k (s.moved chunk.length) else none := by
  induction chunk generalizing s with
  | nil => rfl
  | cons set chunk ih =>
    show step text (.unit set) s (fun t => step text (sequence (chunk.map .unit)) t k) = _
    rw [step_unit]
    have hleft := State.left_moved text s 1
    cases hs : s.left text with
    | nil => rfl
    | cons code left =>
      rw [hs, List.drop_succ_cons, List.drop_zero] at hleft
      rw [List.head?_cons, Option.bind_some, begins, ih, hleft, State.moved_one_moved,
        List.length_cons]
      by_cases hcode : set.has code = true
      · simp [hcode]
      · simp [hcode]

theorem step_textEnd (hs : s.position ≤ text.size) :
    (step text (.anchor .textEnd) s some).isSome = (s.left text).isEmpty := by
  show (if (s.position == text.size) then some s else none).isSome = _
  rw [Bool.eq_iff_iff, List.isEmpty_iff_length_eq_zero, State.length_left]
  by_cases h : s.position = text.size
  · simp [h]
  · have hlt : text.size - s.position ≠ 0 := by omega
    simp [h, hlt]

theorem step_chunk_moved (n : Nat) : step text (sequence (chunk.map .unit)) (s.moved n) some =
    if begins chunk ((s.left text).drop n) then some (s.moved (n + chunk.length)) else none := by
  rw [step_chunk, State.left_moved, State.moved_moved]

/-- A chunk behind a star is taken where it first stands. -/
theorem step_firstPlace {left : List Nat} (hs : s.position ≤ text.size)
    (h : behindFirst? chunk (s.left text) = some left) :
    ∃ n, s.position + n ≤ text.size ∧ left = (s.left text).drop n ∧
      ∀ k, step text (firstPlace chunk) s k = k (s.moved n) := by
  obtain ⟨n, hbegins, rfl, hfirst⟩ := exists_first_of_behindFirst? h
  have hlength := State.length_left text s
  have hn : n ≤ (s.left text).length := by
    by_contra hlt
    rw [List.drop_eq_nil_of_le (by omega), ← List.drop_length] at hbegins
    exact hlt (hfirst _ hbegins)
  have hroom := length_le_of_begins hbegins
  rw [List.length_drop] at hroom
  have hfound : step text (sequence (chunk.map .unit)) (s.moved n) some =
      some (s.moved (n + chunk.length)) := by
    rw [step_chunk_moved, if_pos hbegins]
  have hlazy : lazyRounds (step text (.unit .all)) (text.size + 2) none none s (fun t =>
      step text (sequence (chunk.map .unit)) t some) = some (s.moved (n + chunk.length)) := by
    rw [← hfound]
    apply lazyRounds_of_first
    · omega
    · exact Option.some_ne_none _ |>.symm
    · omega
    · rw [hfound]
      exact Option.some_ne_none _
    · intro m hm
      rw [step_chunk_moved, if_neg]
      intro hbegins
      have hle := hfirst m hbegins
      omega
  refine ⟨n + chunk.length, by omega, rfl, ?_⟩
  intro k
  show (lazyRounds (step text (.unit .all)) (text.size + 2) none none s fun t =>
    step text (sequence (chunk.map .unit)) t some).bind k = _
  rw [hlazy]
  rfl

theorem step_firstPlace_eq_none (hs : s.position ≤ text.size)
    (h : behindFirst? chunk (s.left text) = none) (k : State → Option State) :
    step text (firstPlace chunk) s k = none := by
  show (lazyRounds (step text (.unit .all)) (text.size + 2) none none s fun t =>
    step text (sequence (chunk.map .unit)) t some).bind k = _
  rw [lazyRounds_eq_none (Option.some_ne_none _).symm hs]
  · rfl
  · intro n hn
    rw [step_chunk_moved, if_neg (not_begins_of_behindFirst? h n)]

theorem isSome_step_end_iff {n : Nat} (hn : s.position + n ≤ text.size) :
    (step text (sequence (chunk.map .unit ++ [.anchor .textEnd])) (s.moved n) some).isSome = true ↔
      begins chunk ((s.left text).drop n) = true ∧ (s.left text).length ≤ n + chunk.length := by
  rw [step_sequence_append, step_chunk, State.left_moved, State.moved_moved]
  by_cases hbegins : begins chunk ((s.left text).drop n) = true
  · have hroom := length_le_of_begins hbegins
    rw [List.length_drop, State.length_left] at hroom
    have hend : (s.moved (n + chunk.length)).position ≤ text.size := by
      rw [State.moved_position]
      omega
    rw [if_pos hbegins, and_iff_right hbegins]
    show (step text (.anchor .textEnd) (s.moved (n + chunk.length)) some).isSome = true ↔ _
    rw [step_textEnd hend, State.left_moved, List.isEmpty_iff, List.drop_eq_nil_iff]
  · rw [if_neg hbegins]
    simp [hbegins]

/-- The last chunk is sought at the end. -/
theorem isSome_step_last (last : List Text.CharSet) (hs : s.position ≤ text.size) :
    (step text (sequence (anything .greedy :: last.map .unit ++ [.anchor .textEnd])) s
      some).isSome = fitsBehind [last] (s.left text) := by
  have hlength := State.length_left text s
  show (greedyRounds (step text (.unit .all)) (text.size + 2) none none s fun t =>
    step text (sequence (last.map .unit ++ [.anchor .textEnd])) t some).isSome = _
  rw [Bool.eq_iff_iff, isSome_greedyRounds_iff (by omega) (Option.some_ne_none _).symm hs,
    fitsBehind, Bool.and_eq_true, decide_eq_true_eq]
  constructor
  · intro h
    obtain ⟨n, hn, h⟩ := h
    obtain ⟨hbegins, hend⟩ := (isSome_step_end_iff hn).1 h
    have hroom := length_le_of_begins hbegins
    rw [List.length_drop] at hroom
    have hplace : (s.left text).length - last.length = n := by omega
    rw [hplace]
    exact ⟨by omega, hbegins⟩
  · intro h
    obtain ⟨hroom, hbegins⟩ := h
    have hn : s.position + ((s.left text).length - last.length) ≤ text.size := by omega
    exact ⟨_, hn, (isSome_step_end_iff hn).2 ⟨hbegins, by omega⟩⟩

theorem isSome_step_behind (chunks : List (List Text.CharSet)) (hs : s.position ≤ text.size) :
    (step text (sequence (regexesBehind chunks ++ [.anchor .textEnd])) s some).isSome =
      fitsBehind chunks (s.left text) := by
  induction chunks generalizing s with
  | nil => exact step_textEnd hs
  | cons chunk chunks ih =>
    cases chunks with
    | nil => exact isSome_step_last chunk hs
    | cons next chunks =>
      show (step text (firstPlace chunk) s fun t =>
        step text (sequence (regexesBehind (next :: chunks) ++ [.anchor .textEnd])) t
          some).isSome = _
      unfold fitsBehind
      cases hplace : behindFirst? chunk (s.left text) with
      | none =>
        rw [step_firstPlace_eq_none hs hplace]
        rfl
      | some left =>
        obtain ⟨n, hn, rfl, hstep⟩ := step_firstPlace hs hplace
        rw [hstep, ih hn, State.left_moved]

/-- Matched from the start of a text, the regular expression of a pattern tells whether the text
fits. -/
theorem matchesAt_toRegex (items : List Item) (text : List Nat) :
    (toRegex items).matchesAt text.toArray 0 = fits items text := by
  have hstart : State.left text.toArray ⟨0, [], []⟩ = text := by
    rw [State.left, List.drop_zero]
  rw [matchesAt, toRegex, step_sequence_append, step_chunk, hstart]
  by_cases hbegins : begins (chunksOf items).1 text = true
  · have hroom := length_le_of_begins hbegins
    have hplace : (State.moved ⟨0, [], []⟩ (chunksOf items).1.length).position ≤
        text.toArray.size := by
      show 0 + (chunksOf items).1.length ≤ text.length
      omega
    rw [if_pos hbegins, isSome_step_behind _ hplace, State.left_moved, hstart, fits, hbegins]
    rfl
  · rw [if_neg hbegins, fits, eq_false_of_ne_true hbegins]
    rfl

end Wildcard
end NodeQuery
