import Mathlib.Data.List.Basic
import NodeQuery.Match.Wildcard
/-!
Texts that fit a wildcard pattern. A pattern splits a text (`Splits`) if some choice of what each
star stands for makes up the whole text. `fits` makes one choice: it takes each chunk between two
stars where it first stands. Whatever choice is made, what is left behind a chunk is a suffix of what
is left behind its first place, and the star that follows can stand for the difference
(`Splits.of_drop`); so the one choice is enough (`fits_iff_splits`).
-/
namespace NodeQuery.Wildcard

/-- A pattern splits a text: each star stands for a part of it, and each set holds one code
point. -/
inductive Splits : List Item → List Nat → Prop where
  | nil : Splits [] []
  | star (any : List Nat) {items : List Item} {text : List Nat} (h : Splits items text) :
      Splits (.star :: items) (any ++ text)
  | one {set : Text.CharSet} {code : Nat} {items : List Item} {text : List Nat}
      (hcode : set.has code = true) (h : Splits items text) :
      Splits (.one set :: items) (code :: text)

variable {items : List Item} {text rest : List Nat} {chunk : List Text.CharSet}

theorem splits_nil_iff : Splits [] text ↔ text = [] := by
  constructor
  · intro h
    cases h
    rfl
  · intro h
    rw [h]
    exact .nil

theorem splits_star_iff : Splits (.star :: items) text ↔ ∃ n, Splits items (text.drop n) := by
  constructor
  · intro h
    cases h with
    | star any h => exact ⟨any.length, by rwa [List.drop_left]⟩
  · intro h
    obtain ⟨n, h⟩ := h
    rw [← List.take_append_drop n text]
    exact .star _ h

theorem splits_one_iff {set : Text.CharSet} : Splits (.one set :: items) text ↔
    ∃ code rest, text = code :: rest ∧ set.has code = true ∧ Splits items rest := by
  constructor
  · intro h
    cases h with
    | one hcode h => exact ⟨_, _, rfl, hcode, h⟩
  · intro h
    obtain ⟨code, rest, rfl, hcode, h⟩ := h
    exact .one hcode h

/-- A star also stands for what was dropped. -/
theorem Splits.of_drop {n : Nat} (h : Splits (.star :: items) (text.drop n)) :
    Splits (.star :: items) text := by
  obtain ⟨m, h⟩ := splits_star_iff.1 h
  rw [List.drop_drop] at h
  exact splits_star_iff.2 ⟨_, h⟩

/-! ## Chunks -/

theorem length_le_of_begins (h : begins chunk text = true) : chunk.length ≤ text.length := by
  induction chunk generalizing text with
  | nil => exact Nat.zero_le _
  | cons set chunk ih =>
    cases text with
    | nil => cases h
    | cons code text =>
      rw [begins, Bool.and_eq_true] at h
      exact Nat.succ_le_succ (ih h.2)

theorem splits_chunk_iff : Splits (chunk.map .one ++ items) text ↔
    begins chunk text = true ∧ Splits items (text.drop chunk.length) := by
  induction chunk generalizing text with
  | nil => simp [begins]
  | cons set chunk ih =>
    rw [List.map_cons, List.cons_append, splits_one_iff]
    cases text with
    | nil => simp [begins]
    | cons code text =>
      rw [begins, Bool.and_eq_true, and_assoc, List.length_cons, List.drop_succ_cons, ← ih]
      constructor
      · intro h
        obtain ⟨code, rest, htext, h⟩ := h
        obtain ⟨rfl, rfl⟩ := List.cons.inj htext
        exact h
      · intro h
        exact ⟨code, text, rfl, h⟩

/-- The place that is taken is the first one. -/
theorem exists_first_of_behindFirst? (h : behindFirst? chunk text = some rest) :
    ∃ n, begins chunk (text.drop n) = true ∧ rest = text.drop (n + chunk.length) ∧
      ∀ m, begins chunk (text.drop m) = true → n ≤ m := by
  induction text with
  | nil =>
    rw [behindFirst?, Option.ite_none_right_eq_some, Option.some.injEq] at h
    obtain ⟨hbegins, rfl⟩ := h
    exact ⟨0, hbegins, List.drop_nil.symm, fun m _ => Nat.zero_le m⟩
  | cons code text ih =>
    unfold behindFirst? at h
    split at h
    · next hbegins =>
      exact ⟨0, hbegins, by rw [Nat.zero_add]; exact (Option.some.inj h).symm,
        fun m _ => Nat.zero_le m⟩
    · next hbegins =>
      obtain ⟨n, hn, hrest, hfirst⟩ := ih h
      refine ⟨n + 1, hn, by rw [hrest, Nat.add_right_comm]; rfl, ?_⟩
      intro m hm
      cases m with
      | zero => exact absurd hm hbegins
      | succ m => exact Nat.succ_le_succ (hfirst m hm)

theorem not_begins_of_behindFirst? (h : behindFirst? chunk text = none) (n : Nat) :
    begins chunk (text.drop n) ≠ true := by
  induction text generalizing n with
  | nil =>
    rw [behindFirst?, ite_eq_right_iff] at h
    intro hbegins
    rw [List.drop_nil] at hbegins
    cases h hbegins
  | cons code text ih =>
    unfold behindFirst? at h
    split at h
    · cases h
    · next hbegins =>
      cases n with
      | zero => exact hbegins
      | succ n => exact ih h n

/-- Stars with chunks behind them. -/
def itemsBehind (chunks : List (List Text.CharSet)) : List Item :=
  chunks.flatMap fun chunk => .star :: chunk.map .one

theorem itemsBehind_cons (chunk : List Text.CharSet) (chunks : List (List Text.CharSet)) :
    itemsBehind (chunk :: chunks) = .star :: (chunk.map .one ++ itemsBehind chunks) :=
  List.flatMap_cons

theorem items_eq_chunks (items : List Item) :
    items = (chunksOf items).1.map .one ++ itemsBehind (chunksOf items).2 := by
  induction items with
  | nil => rfl
  | cons item items ih =>
    cases item with
    | star =>
      rw [chunksOf, List.map_nil, List.nil_append, itemsBehind_cons, ← ih]
    | one set =>
      rw [chunksOf, List.map_cons, List.cons_append, ← ih]

theorem splits_star_chunk_iff : Splits (.star :: (chunk.map .one ++ items)) text ↔
    ∃ n, begins chunk (text.drop n) = true ∧ Splits items (text.drop (n + chunk.length)) := by
  rw [splits_star_iff]
  refine exists_congr fun n => ?_
  rw [splits_chunk_iff, List.drop_drop]

/-- A chunk that nothing follows has to stand at the end. -/
theorem splits_last_iff : Splits (.star :: chunk.map .one) text ↔
    chunk.length ≤ text.length ∧ begins chunk (text.drop (text.length - chunk.length)) = true := by
  rw [← List.append_nil (chunk.map _), splits_star_chunk_iff]
  constructor
  · intro h
    obtain ⟨n, hbegins, hend⟩ := h
    have hroom := length_le_of_begins hbegins
    rw [splits_nil_iff, List.drop_eq_nil_iff] at hend
    rw [List.length_drop] at hroom
    refine ⟨by omega, ?_⟩
    by_cases hchunk : chunk.length = 0
    · rw [List.length_eq_zero_iff.1 hchunk]
      rfl
    · have hn : text.length - chunk.length = n := by omega
      rwa [hn]
  · intro h
    obtain ⟨hroom, hbegins⟩ := h
    refine ⟨_, hbegins, ?_⟩
    rw [splits_nil_iff, List.drop_eq_nil_iff]
    omega

/-- Behind a chunk that a star follows, the first place is as good as any other. -/
theorem splits_first_iff {n : Nat} (hbegins : begins chunk (text.drop n) = true)
    (hfirst : ∀ m, begins chunk (text.drop m) = true → n ≤ m) :
    Splits (.star :: (chunk.map .one ++ .star :: items)) text ↔
      Splits (.star :: items) (text.drop (n + chunk.length)) := by
  rw [splits_star_chunk_iff]
  constructor
  · intro h
    obtain ⟨m, hm, h⟩ := h
    have hle := hfirst m hm
    apply Splits.of_drop (n := m - n)
    rw [List.drop_drop]
    have hsum : n + chunk.length + (m - n) = m + chunk.length := by omega
    rwa [hsum]
  · intro h
    exact ⟨n, hbegins, h⟩

theorem fitsBehind_iff (chunks : List (List Text.CharSet)) (text : List Nat) :
    fitsBehind chunks text = true ↔ Splits (itemsBehind chunks) text := by
  induction chunks generalizing text with
  | nil =>
    rw [fitsBehind, List.isEmpty_iff]
    exact splits_nil_iff.symm
  | cons chunk chunks ih =>
    cases chunks with
    | nil =>
      rw [fitsBehind, Bool.and_eq_true, decide_eq_true_eq, ← splits_last_iff, itemsBehind_cons]
      simp [itemsBehind]
    | cons next chunks =>
      rw [itemsBehind_cons, itemsBehind_cons next]
      unfold fitsBehind
      split
      · next rest hrest =>
        obtain ⟨n, hbegins, rfl, hfirst⟩ := exists_first_of_behindFirst? hrest
        rw [ih, itemsBehind_cons, splits_first_iff hbegins hfirst]
      · next hnone =>
        rw [splits_star_chunk_iff]
        simp [not_begins_of_behindFirst? hnone]

/-- A text fits a pattern if the pattern splits it in any way. -/
theorem fits_iff_splits : fits items text = true ↔ Splits items text := by
  rw [fits, Bool.and_eq_true, fitsBehind_iff, ← splits_chunk_iff, ← items_eq_chunks]

end NodeQuery.Wildcard
