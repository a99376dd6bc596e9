import NodeQuery.Proofs.Match.Fraction
/-!
Patterns that are found in full. The alignment takes the longest block first and never gives it up,
so a pattern may be a subsequence of a text and still lose characters: the longest block can stand
where it leaves no room for the others. A pattern is aligned in full if it is found `Blockwise`
(`blockwise_iff`). A subsequence is if it is a part, if it shares no two characters in a row with
the text, or if the text has each of its characters only once (`score_blockwise`).
-/
namespace NodeQuery.Alignment
open List

variable {a b w x y x' y' : List Char} {c : Char}

/-- A sequence is found in another one block by block: the common block that is preferred to all
others stands in both, and the same holds of what lies before it and behind it. -/
inductive Blockwise : List Char → List Char → Prop where
  | nil (b : List Char) : Blockwise [] b
  | block {x w y x' y' : List Char} (hw : w ≠ [])
      (hpreferred : ∀ other : Block, other.CommonTo 0 0 (x ++ w ++ y) (x' ++ w ++ y') →
        Block.PreferredTo ⟨x.length, x'.length, w.length⟩ other)
      (hbefore : Blockwise x x') (hbehind : Blockwise y y') :
      Blockwise (x ++ w ++ y) (x' ++ w ++ y')

theorem commonTo_middle (x w y x' y' : List Char) :
    Block.CommonTo 0 0 (x ++ w ++ y) (x' ++ w ++ y') ⟨x.length, x'.length, w.length⟩ :=
  ⟨x, w, y, x', y', rfl, rfl, by rw [Nat.zero_add, Nat.zero_add]⟩

theorem aligned_block (hw : w ≠ []) (h : longest (x ++ w ++ y) (x' ++ w ++ y') =
    ⟨x.length, x'.length, w.length⟩) :
    aligned (x ++ w ++ y) (x' ++ w ++ y') = w.length + aligned x x' + aligned y y' := by
  have hsize : (longest (x ++ w ++ y) (x' ++ w ++ y')).size ≠ 0 := by
    rw [h]
    exact mt length_eq_zero_iff.1 hw
  rw [aligned_eq hsize, h]
  simp only [append_assoc, take_left, ← drop_drop, drop_left]

theorem aligned_eq_zero (h : (longest a b).size = 0) : aligned a b = 0 := by
  cases a with
  | nil => exact aligned_nil_left b
  | cons c a =>
    show alignedWithin (a.length + 1) (c :: a) b = 0
    rw [alignedWithin, if_pos h]

/-- What is found block by block is aligned in full, and nothing else is. -/
theorem blockwise_iff : Blockwise a b ↔ aligned a b = a.length := by
  constructor
  · intro h
    induction h with
    | nil b => exact aligned_nil_left b
    | block hw hpreferred _ _ ihbefore ihbehind =>
      rw [aligned_block hw (longest_eq_iff.2 ⟨commonTo_middle .., hpreferred⟩), ihbefore, ihbehind]
      simp only [length_append]
      omega
  · intro h
    induction hn : a.length using Nat.strong_induction_on generalizing a b with
    | h n ih =>
      obtain ⟨x, w, y, x', y', rfl, rfl, hblock⟩ := longest_commonTo a b
      rw [Nat.zero_add, Nat.zero_add] at hblock
      by_cases hw : w = []
      · rw [aligned_eq_zero (by rw [hblock, hw]; rfl), eq_comm, length_eq_zero_iff] at h
        rw [h]
        exact .nil _
      · have hpos := length_pos_iff.2 hw
        have hx := aligned_le_length x x'
        have hy := aligned_le_length y y'
        rw [aligned_block hw hblock] at h
        simp only [length_append] at h hn
        refine .block hw (longest_eq_iff.1 hblock).2 ?_ ?_
        · exact ih x.length (by omega) (by omega) rfl
        · exact ih y.length (by omega) (by omega) rfl

/-! ## Subsequences that are found block by block -/

theorem blockwise_of_infix (h : a <:+: b) : Blockwise a b :=
  blockwise_iff.2 ((aligned_le_length a b).antisymm (length_le_aligned (infix_refl a) h))

/-- The first place of a character is in front of all its places. -/
theorem length_le_of_not_mem {s t : List Char} (hc : c ∉ x) (h : x ++ s = y ++ c :: t) :
    x.length ≤ y.length := by
  by_contra hlt
  have hget : (x ++ s)[y.length]? = some c := by
    rw [h, getElem?_append_right le_rfl, Nat.sub_self]
    rfl
  rw [getElem?_append_left (not_le.1 hlt)] at hget
  exact hc (mem_of_getElem? hget)

/-- If no common block is longer than one character, the first character at its first place is
preferred to all others. -/
theorem preferredTo_first {other : Block} (hfirst : c ∉ x')
    (hscattered : ∀ w, w <:+: c :: y → w <:+: x' ++ [c] ++ y' → w.length ≤ 1)
    (h : other.CommonTo 0 0 ([] ++ [c] ++ y) (x' ++ [c] ++ y')) :
    Block.PreferredTo ⟨0, x'.length, 1⟩ other := by
  obtain ⟨u, w, s, u', s', ha, hb, rfl⟩ := h
  have hsize := hscattered w ⟨u, s, ha.symm⟩ ⟨u', s', hb.symm⟩
  have hplace : u.length = 0 → w.length = 1 → x'.length ≤ u'.length := by
    intro hu hw
    obtain rfl := length_eq_zero_iff.1 hu
    obtain ⟨d, rfl⟩ := length_eq_one_iff.1 hw
    obtain ⟨rfl, -⟩ := cons.inj ha
    rw [append_assoc, append_assoc] at hb
    exact length_le_of_not_mem hfirst hb
  unfold Block.PreferredTo
  dsimp only
  omega

/-- Without two characters in a row in common, each character is found where it first stands behind
the ones before. -/
theorem blockwise_of_scattered (hsub : a <+ b)
    (hscattered : ∀ w, w <:+: a → w <:+: b → w.length ≤ 1) : Blockwise a b := by
  induction a generalizing b with
  | nil => exact .nil b
  | cons c a ih =>
    obtain ⟨before, behind, rfl, hmem, hrest⟩ := cons_sublist_iff.1 hsub
    obtain ⟨x', t, rfl, hfirst⟩ := eq_append_cons_of_mem hmem
    have hb : (x' ++ c :: t) ++ behind = x' ++ [c] ++ (t ++ behind) := by simp
    rw [hb] at hscattered ⊢
    have hbehind : Blockwise a (t ++ behind) := by
      apply ih
      · exact hrest.trans (sublist_append_right t behind)
      · intro w hw hw'
        exact hscattered w (infix_cons hw) (hw'.trans (suffix_append _ _).isInfix)
    exact @Blockwise.block [] [c] a x' (t ++ behind) (cons_ne_nil c [])
      (fun other => preferredTo_first hfirst hscattered) (.nil x') hbehind

/-- What stands behind a character is found behind its first place. -/
theorem sublist_of_cons_first (hc : c ∉ x) (h : c :: y <+ x ++ c :: y') : y <+ y' := by
  induction x with
  | nil => exact cons_sublist_cons.1 h
  | cons d x ih =>
    have hd : c ≠ d := ne_of_not_mem_cons hc
    exact ih (not_mem_of_not_mem_cons hc) (h.of_cons_of_ne hd)

/-- What stands before a character is found before its last place. -/
theorem sublist_of_append_last (hc : c ∉ y') (h : x ++ [c] <+ x' ++ c :: y') : x <+ x' := by
  rw [← reverse_sublist] at h ⊢
  apply sublist_of_cons_first (mt mem_reverse.1 hc)
  simpa using h

/-- If each character has one place only, the longest block stands where the subsequence has it. -/
theorem sublist_around_of_count_le_one (hw : w ≠ []) (hsub : x ++ w ++ y <+ x' ++ w ++ y')
    (hcount : ∀ c ∈ w, (x' ++ w ++ y').count c ≤ 1) : x <+ x' ∧ y <+ y' := by
  constructor
  · obtain ⟨c, w, rfl⟩ := exists_cons_of_ne_nil hw
    have hone := hcount c mem_cons_self
    have hlast : c ∉ w ++ y' := by
      rw [← count_eq_zero]
      simp only [count_append, count_cons_self] at hone ⊢
      omega
    have hprefix : x ++ [c] <+: x ++ c :: w ++ y := ⟨w ++ y, by simp⟩
    apply sublist_of_append_last hlast
    simpa using hprefix.sublist.trans hsub
  · obtain ⟨w, c, rfl⟩ := (eq_nil_or_concat' w).resolve_left hw
    have hone := hcount c (by simp)
    have hfirst : c ∉ x' ++ w := by
      rw [← count_eq_zero]
      simp only [count_append, count_singleton_self] at hone ⊢
      omega
    have hsuffix : c :: y <:+ x ++ (w ++ [c]) ++ y := ⟨x ++ w, by simp⟩
    apply sublist_of_cons_first hfirst
    simpa using hsuffix.sublist.trans hsub

theorem longest_pos (ha : a ≠ []) (hsub : a <+ b) : 0 < (longest a b).size := by
  obtain ⟨c, a, rfl⟩ := exists_cons_of_ne_nil ha
  obtain ⟨s, t, rfl⟩ := append_of_mem (hsub.subset mem_cons_self)
  have hfirst : [c] <:+: c :: a := ⟨[], a, rfl⟩
  exact length_le_longest hfirst ⟨s, t, by simp⟩

theorem blockwise_of_count_le_one (hsub : a <+ b) (hcount : ∀ c ∈ a, b.count c ≤ 1) :
    Blockwise a b := by
  induction hn : a.length using Nat.strong_induction_on generalizing a b with
  | h n ih =>
    obtain ⟨x, w, y, x', y', rfl, rfl, hblock⟩ := longest_commonTo a b
    rw [Nat.zero_add, Nat.zero_add] at hblock
    by_cases hempty : x ++ w ++ y = []
    · rw [hempty]
      exact .nil _
    · have hpos : 0 < w.length := by
        have hsize := longest_pos hempty hsub
        rwa [hblock] at hsize
      have hw : w ≠ [] := length_pos_iff.1 hpos
      obtain ⟨hx, hy⟩ := sublist_around_of_count_le_one hw hsub fun c hc => hcount c (by simp [hc])
      simp only [length_append] at hn
      simp only [count_append] at hcount
      refine .block hw (longest_eq_iff.1 hblock).2 ?_ ?_
      · refine ih x.length (by omega) hx ?_ rfl
        intro c hc
        have hone := hcount c (by simp [hc])
        omega
      · refine ih y.length (by omega) hy ?_ rfl
        intro c hc
        have hone := hcount c (by simp [hc])
        omega

end NodeQuery.Alignment

namespace NodeQuery.Matcher
open List NodeQuery.Alignment

variable {pattern value : String}

theorem one_le_exactScore_iff (hpattern : pattern ≠ "") : 1 ≤ exactScore pattern value ↔
    pattern.length ≤ aligned (Text.lower pattern.toList) (Text.lower value.toList) := by
  have hpos : (0 : ℚ) < pattern.length := Nat.cast_pos.2 (pattern_length_pos hpattern)
  rw [exactScore, le_div_iff₀ hpos, one_mul, Nat.cast_le]

theorem pattern_length_le_of_blockwise
    (h : Blockwise (Text.lower pattern.toList) (Text.lower value.toList)) :
    pattern.length ≤ aligned (Text.lower pattern.toList) (Text.lower value.toList) := by
  rw [blockwise_iff.1 h, Text.length_lower, String.length_toList]
  exact Nat.le_add_right _ _

/-- A pattern that is found block by block in a text scores one at least, and the text is accepted
under all settings. Unless it contains an `İ`, no other pattern does. Three kinds of subsequences
are found block by block: those that are a part of the text, those that have no two characters in a
row in common with it, and those of whose characters the text has one each. -/
theorem score_blockwise [Host] (pattern value : String) (hpattern : pattern ≠ "") :
    let p := Text.lower pattern.toList
    let v := Text.lower value.toList
    (Blockwise p v → p <+ v ∧ 1 ≤ exactScore pattern value ∧
      ∀ settings : Settings, settings.check = .ok settings →
        ∃ matcher, compile settings .fuzzy pattern = .ok matcher ∧ matcher.accepts value = true) ∧
    ('İ' ∉ pattern.toList → (1 ≤ exactScore pattern value ↔ Blockwise p v)) ∧
    (p <+ v → (p <:+: v ∨ (∀ w, w <:+: p → w <:+: v → w.length ≤ 1) ∨ ∀ c ∈ p, v.count c ≤ 1) →
      Blockwise p v) := by
  intro p v
  refine ⟨?_, ?_, ?_⟩
  · intro h
    have hall := pattern_length_le_of_blockwise h
    refine ⟨sublist_of_aligned_eq (blockwise_iff.1 h), (one_le_exactScore_iff hpattern).2 hall, ?_⟩
    intro settings hs
    exact ⟨_, rfl, accepts_of_length_le hs hpattern hall⟩
  · intro hdot
    rw [one_le_exactScore_iff hpattern, blockwise_iff, ← length_lower_pattern hdot]
    constructor
    · intro h
      exact (aligned_le_length p v).antisymm h
    · intro h
      exact h.ge
  · intro hsub h
    rcases h with hinfix | hscattered | hcount
    · exact blockwise_of_infix hinfix
    · exact blockwise_of_scattered hsub hscattered
    · exact blockwise_of_count_le_one hsub hcount

theorem score_blockwise_report :
    let p := Text.lower "eot".toList
    let v := Text.lower "Report".toList
    "eot" ≠ "" ∧ 'İ' ∉ "eot".toList ∧ p <+ v ∧ (∀ c ∈ p, v.count c ≤ 1) ∧ Blockwise p v ∧
    1 ≤ exactScore "eot" "Report" ∧
    ∃ matcher, compile Settings.standard .fuzzy "eot" = .ok matcher ∧
      matcher.accepts "Report" = true := by
  intro p v
  have hpattern : "eot" ≠ "" := by decide
  have hdot : 'İ' ∉ "eot".toList := by decide
  have hsub : p <+ v := by decide
  have hp : p = ['e', 'o', 't'] := by decide
  have hv : v = ['r', 'e', 'p', 'o', 'r', 't'] := by decide
  have hcount : ∀ c ∈ p, v.count c ≤ 1 := by
    rw [hp, hv]
    simp
  obtain ⟨hall, hscore, hkinds⟩ := score_blockwise "eot" "Report" hpattern
  have hblockwise := hkinds hsub (Or.inr (Or.inr hcount))
  exact ⟨hpattern, hdot, hsub, hcount, hblockwise, (hscore hdot).2 hblockwise,
    (hall hblockwise).2.2 Settings.standard Settings.check_standard⟩

/-- The longest block starts the text, where no room is left for the first character of the
pattern. -/
theorem not_blockwise :
    Text.lower "abc".toList <+ Text.lower "bcaxbxc".toList ∧ exactScore "abc" "bcaxbxc" = 2 / 3 ∧
    ∃ matcher, compile Settings.standard .fuzzy "abc" = .ok matcher ∧
      matcher.accepts "bcaxbxc" = false := by
  refine ⟨by decide, ?_, _, rfl, by decide +kernel⟩
  have hfound : aligned (Text.lower "abc".toList) (Text.lower "bcaxbxc".toList) = 2 := by
    decide +kernel
  have hlength : "abc".length = 3 := by decide
  rw [exactScore, hfound, hlength]
  norm_num

end NodeQuery.Matcher
