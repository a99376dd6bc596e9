import Mathlib.Data.List.Infix
import NodeQuery.Match.Matcher
import NodeQuery.Proofs.Number.Rounding
/-!
The alignment of two sequences. The block that `longest` finds is the longest one that is common to
both, of several the one that starts first in the first sequence, and then in the second
(`longest_eq_iff`). The characters that are aligned are as many as in any common part
(`length_le_aligned`), and they are a common subsequence (`exists_sublist_alignedWithin`).
-/
namespace NodeQuery.Alignment
open List

/-! ## Common beginnings -/

/-- The length of the longest common beginning of two sequences. -/
def commonLength : List Char → List Char → Nat
  | c :: a, d :: b => if c = d then commonLength a b + 1 else 0
  | _, _ => 0

theorem commonLength_nil_right (a : List Char) : commonLength a [] = 0 := by
  cases a <;> rfl

theorem exists_prefix_commonLength (a b : List Char) :
    ∃ w, w <+: a ∧ w <+: b ∧ w.length = commonLength a b := by
  induction a generalizing b with
  | nil => exact ⟨[], nil_prefix, nil_prefix, rfl⟩
  | cons c a ih =>
    cases b with
    | nil => exact ⟨[], nil_prefix, nil_prefix, rfl⟩
    | cons d b =>
      by_cases hcd : c = d
      · obtain ⟨w, ha, hb, hw⟩ := ih b
        refine ⟨c :: w, ?_, ?_, ?_⟩
        · exact (prefix_cons_inj c).2 ha
        · exact hcd ▸ (prefix_cons_inj c).2 hb
        · rw [commonLength, if_pos hcd, length_cons, hw]
      · exact ⟨[], nil_prefix, nil_prefix, by rw [commonLength, if_neg hcd]; rfl⟩

theorem length_le_commonLength {w a b : List Char} (ha : w <+: a) (hb : w <+: b) :
    w.length ≤ commonLength a b := by
  induction w generalizing a b with
  | nil => exact Nat.zero_le _
  | cons c w ih =>
    obtain ⟨a', rfl⟩ := ha
    obtain ⟨b', rfl⟩ := hb
    rw [cons_append, cons_append, commonLength, if_pos rfl, length_cons]
    exact Nat.succ_le_succ (ih (prefix_append w a') (prefix_append w b'))

/-- The lengths of the common beginnings of a sequence with every suffix of another one but the
empty suffix, the longest first. -/
def startsOf (a : List Char) : List Char → List Nat
  | [] => []
  | d :: b => commonLength a (d :: b) :: startsOf a b

/-- What one more character in front does to the lengths. -/
theorem extendStarts_startsOf (c : Char) (a b : List Char) :
    extendStarts c b (startsOf a b) = startsOf (c :: a) b := by
  induction b with
  | nil => rfl
  | cons d b ih =>
    cases b with
    | nil => simp [extendStarts, startsOf, commonLength, commonLength_nil_right]
    | cons e b => exact congrArg _ ih

theorem scan_starts (i : Nat) (a b : List Char) : (scan i a b).1 = startsOf a b := by
  induction a generalizing i with
  | nil =>
    induction b with
    | nil => rfl
    | cons d b ih => exact congrArg _ ih
  | cons c a ih =>
    show extendStarts c b (scan (i + 1) a b).1 = _
    rw [ih, extendStarts_startsOf]

/-! ## The longest block -/

namespace Block

/-- A block is common to two sequences, whose places are counted from `i` and from `j`: the same
characters stand there in both. -/
def CommonTo (i j : Nat) (a b : List Char) (block : Block) : Prop :=
  ∃ x w y x' y', a = x ++ w ++ y ∧ b = x' ++ w ++ y' ∧
    block = ⟨i + x.length, j + x'.length, w.length⟩

/-- A block is preferred to another one: it is longer, or as long and does not start behind it in the
first sequence, nor, from the same place there, in the second. -/
def PreferredTo (block other : Block) : Prop :=
  other.size < block.size ∨ other.size = block.size ∧
    (block.first < other.first ∨ block.first = other.first ∧ block.second ≤ other.second)

variable {i j : Nat} {a b : List Char} {block other earlier later : Block} {c d : Char}

theorem PreferredTo.size_le (h : block.PreferredTo other) : other.size ≤ block.size :=
  h.elim le_of_lt fun h => h.1.le

theorem PreferredTo.antisymm (h : block.PreferredTo other) (h' : other.PreferredTo block) :
    block = other := by
  obtain ⟨first, second, size⟩ := block
  obtain ⟨first', second', size'⟩ := other
  simp only [PreferredTo, mk.injEq] at *
  omega

theorem CommonTo.of_cons_left (h : block.CommonTo (i + 1) j a b) :
    block.CommonTo i j (c :: a) b := by
  obtain ⟨x, w, y, x', y', rfl, rfl, rfl⟩ := h
  refine ⟨c :: x, w, y, x', y', rfl, rfl, ?_⟩
  rw [length_cons, Nat.add_comm x.length, Nat.add_assoc]

theorem CommonTo.of_cons_right (h : block.CommonTo i (j + 1) a b) :
    block.CommonTo i j a (d :: b) := by
  obtain ⟨x, w, y, x', y', rfl, rfl, rfl⟩ := h
  refine ⟨x, w, y, d :: x', y', rfl, rfl, ?_⟩
  rw [length_cons, Nat.add_comm x'.length, Nat.add_assoc]

/-- A common block starts at the first character of the first sequence or behind it. -/
theorem CommonTo.cons_left (h : block.CommonTo i j (c :: a) b) :
    block.first = i ∨ i < block.first ∧ block.CommonTo (i + 1) j a b := by
  obtain ⟨x, w, y, x', y', ha, rfl, rfl⟩ := h
  cases x with
  | nil => exact Or.inl rfl
  | cons e x =>
    obtain ⟨-, rfl⟩ := cons.inj ha
    refine Or.inr ⟨Nat.lt_add_of_pos_right (Nat.succ_pos _), x, w, y, x', y', rfl, rfl, ?_⟩
    rw [length_cons, Nat.add_comm x.length, Nat.add_assoc]

theorem CommonTo.cons_right (h : block.CommonTo i j a (d :: b)) :
    block.second = j ∨ j < block.second ∧ block.CommonTo i (j + 1) a b := by
  obtain ⟨x, w, y, x', y', rfl, hb, rfl⟩ := h
  cases x' with
  | nil => exact Or.inl rfl
  | cons e x' =>
    obtain ⟨-, rfl⟩ := cons.inj hb
    refine Or.inr ⟨Nat.lt_add_of_pos_right (Nat.succ_pos _), x, w, y, x', y', rfl, rfl, ?_⟩
    rw [length_cons, Nat.add_comm x'.length, Nat.add_assoc]

/-- A common block lies within both sequences. -/
theorem CommonTo.bounds (h : block.CommonTo i j a b) :
    i ≤ block.first ∧ block.first + block.size ≤ i + a.length ∧
      j ≤ block.second ∧ block.second + block.size ≤ j + b.length := by
  obtain ⟨x, w, y, x', y', rfl, rfl, rfl⟩ := h
  simp only [length_append]
  omega

/-- A common block that starts both sequences is a common beginning. -/
theorem CommonTo.size_le_commonLength (h : block.CommonTo i j a b) (hi : block.first = i)
    (hj : block.second = j) : block.size ≤ commonLength a b := by
  obtain ⟨x, w, y, x', y', rfl, rfl, rfl⟩ := h
  obtain rfl : x = [] := length_eq_zero_iff.1 (Nat.add_eq_left.1 hi)
  obtain rfl : x' = [] := length_eq_zero_iff.1 (Nat.add_eq_left.1 hj)
  exact length_le_commonLength (prefix_append w y) (prefix_append w y')

theorem commonTo_longer (h : earlier.CommonTo i j a b) (h' : later.CommonTo i j a b) :
    (longer earlier later).CommonTo i j a b := by
  rw [longer]
  split
  · exact h'
  · exact h

/-- The longer of two blocks is preferred to whatever one of them is preferred to, if the earlier one
is the first of all. -/
theorem longer_preferredTo (h : earlier.PreferredTo other ∨ later.PreferredTo other ∧
    (earlier.first < other.first ∨
      earlier.first = other.first ∧ earlier.second ≤ other.second)) :
    (longer earlier later).PreferredTo other := by
  unfold PreferredTo at *
  rw [longer]
  split <;> omega

end Block

variable {i j : Nat} {a b w : List Char} {block : Block}

theorem longestOf_first (i j : Nat) (starts : List Nat) : (longestOf i j starts).first = i := by
  induction starts generalizing j with
  | nil => rfl
  | cons n starts ih =>
    rw [longestOf, Block.longer]
    split
    · exact ih (j + 1)
    · rfl

theorem longestOf_commonTo (i j : Nat) (a b : List Char) :
    (longestOf i j (startsOf a b)).CommonTo i j a b := by
  induction b generalizing j with
  | nil => exact ⟨[], [], a, [], [], rfl, rfl, rfl⟩
  | cons d b ih =>
    obtain ⟨w, ⟨y, ha⟩, ⟨y', hb⟩, hw⟩ := exists_prefix_commonLength a (d :: b)
    refine Block.commonTo_longer ⟨[], w, y, [], y', ha.symm, hb.symm, ?_⟩ (ih (j + 1)).of_cons_right
    rw [hw]
    rfl

/-- From its place in the first sequence no common block is preferred to it. -/
theorem longestOf_preferredTo (h : block.CommonTo i j a b) (hi : block.first = i) :
    (longestOf i j (startsOf a b)).PreferredTo block := by
  induction b generalizing j with
  | nil =>
    have hbounds := h.bounds
    rw [length_nil] at hbounds
    unfold Block.PreferredTo
    simp only [startsOf, longestOf]
    omega
  | cons d b ih =>
    refine Block.longer_preferredTo ?_
    rcases h.cons_right with hj | ⟨hlt, h'⟩
    · have hsize := h.size_le_commonLength hi hj
      refine Or.inl ?_
      unfold Block.PreferredTo
      dsimp only
      omega
    · exact Or.inr ⟨ih h', Or.inr ⟨hi.symm, hlt.le⟩⟩

theorem scan_commonTo (i : Nat) (a b : List Char) : (scan i a b).2.CommonTo i 0 a b := by
  induction a generalizing i with
  | nil => exact ⟨[], [], [], [], b, rfl, rfl, rfl⟩
  | cons c a ih =>
    show (Block.longer (longestOf i 0 (scan i (c :: a) b).1) (scan (i + 1) a b).2).CommonTo i 0 _ b
    rw [scan_starts]
    exact Block.commonTo_longer (longestOf_commonTo i 0 (c :: a) b) (ih (i + 1)).of_cons_left

theorem scan_preferredTo (h : block.CommonTo i 0 a b) : (scan i a b).2.PreferredTo block := by
  induction a generalizing i with
  | nil =>
    have hbounds := h.bounds
    rw [length_nil] at hbounds
    unfold Block.PreferredTo
    simp only [scan]
    omega
  | cons c a ih =>
    show (Block.longer (longestOf i 0 (scan i (c :: a) b).1) (scan (i + 1) a b).2).PreferredTo block
    rw [scan_starts]
    refine Block.longer_preferredTo ?_
    rcases h.cons_left with hi | ⟨hlt, h'⟩
    · exact Or.inl (longestOf_preferredTo h hi)
    · exact Or.inr ⟨ih h', Or.inl ((longestOf_first ..).trans_lt hlt)⟩

theorem longest_commonTo (a b : List Char) : (longest a b).CommonTo 0 0 a b :=
  scan_commonTo 0 a b

/-- No common block is preferred to the one that is found. -/
theorem longest_preferredTo (h : block.CommonTo 0 0 a b) : (longest a b).PreferredTo block :=
  scan_preferredTo h

/-- The block that is found is the common block that is preferred to all others. -/
theorem longest_eq_iff : longest a b = block ↔
    block.CommonTo 0 0 a b ∧ ∀ other : Block, other.CommonTo 0 0 a b → block.PreferredTo other := by
  constructor
  · rintro rfl
    exact ⟨longest_commonTo a b, fun other => longest_preferredTo⟩
  · rintro ⟨hcommon, hpreferred⟩
    exact (longest_preferredTo hcommon).antisymm (hpreferred _ (longest_commonTo a b))

theorem length_le_longest (ha : w <:+: a) (hb : w <:+: b) : w.length ≤ (longest a b).size := by
  obtain ⟨x, y, rfl⟩ := ha
  obtain ⟨x', y', rfl⟩ := hb
  exact (longest_preferredTo ⟨x, w, y, x', y', rfl, rfl, rfl⟩).size_le

/-! ## The number of aligned characters -/

theorem alignedWithin_nil (fuel : Nat) (b : List Char) : alignedWithin fuel [] b = 0 := by
  cases fuel <;> rfl

/-- As `fuel`, the length of the first sequence is enough. -/
theorem alignedWithin_congr {fuel fuel' : Nat} (h : a.length ≤ fuel) (h' : a.length ≤ fuel') :
    alignedWithin fuel a b = alignedWithin fuel' a b := by
  induction fuel generalizing fuel' a b with
  | zero =>
    obtain rfl := length_eq_zero_iff.1 (Nat.le_zero.1 h)
    rw [alignedWithin_nil, alignedWithin_nil]
  | succ fuel ih =>
    cases fuel' with
    | zero =>
      obtain rfl := length_eq_zero_iff.1 (Nat.le_zero.1 h')
      rw [alignedWithin_nil, alignedWithin_nil]
    | succ fuel' =>
      have hbounds := (longest_commonTo a b).bounds
      rw [alignedWithin, alignedWithin]
      split
      · rfl
      · -- what lies before the block and behind it is shorter by at least its size
        have hbefore : (a.take (longest a b).first).length ≤ min fuel fuel' := by
          rw [length_take]
          omega
        have hbehind : (a.drop ((longest a b).first + (longest a b).size)).length ≤
            min fuel fuel' := by
          rw [length_drop]
          omega
        rw [ih (hbefore.trans (min_le_left ..)) (hbefore.trans (min_le_right ..)),
          ih (hbehind.trans (min_le_left ..)) (hbehind.trans (min_le_right ..))]

/-- The aligned characters are those of the longest block, those before it and those behind it. -/
theorem aligned_eq (h : (longest a b).size ≠ 0) :
    aligned a b = (longest a b).size +
      aligned (a.take (longest a b).first) (b.take (longest a b).second) +
      aligned (a.drop ((longest a b).first + (longest a b).size))
        (b.drop ((longest a b).second + (longest a b).size)) := by
  have hwithin : ∀ {a' b' : List Char}, a'.length ≤ a.length + 1 →
      alignedWithin (a.length + 1) a' b' = aligned a' b' := fun h => alignedWithin_congr h le_rfl
  have hstep : aligned a b = alignedWithin (a.length + 2) a b :=
    alignedWithin_congr le_rfl (Nat.le_add_right _ _)
  rw [hstep, alignedWithin, if_neg h, hwithin, hwithin]
  · rw [length_drop]
    omega
  · rw [length_take]
    omega

/-- The aligned characters are a common subsequence: those of the block between those that are aligned
before it and behind it. -/
theorem exists_sublist_alignedWithin (fuel : Nat) (a b : List Char) :
    ∃ s, s <+ a ∧ s <+ b ∧ s.length = alignedWithin fuel a b := by
  induction fuel generalizing a b with
  | zero => exact ⟨[], nil_sublist a, nil_sublist b, rfl⟩
  | succ fuel ih =>
    obtain ⟨x, w, y, x', y', rfl, rfl, hblock⟩ := longest_commonTo a b
    obtain ⟨s, hsx, hsx', hs⟩ := ih x x'
    obtain ⟨t, hty, hty', ht⟩ := ih y y'
    rw [alignedWithin]
    split
    · exact ⟨[], nil_sublist _, nil_sublist _, rfl⟩
    · refine ⟨s ++ w ++ t, (hsx.append (Sublist.refl w)).append hty,
        (hsx'.append (Sublist.refl w)).append hty', ?_⟩
      rw [hblock]
      simp [hs, ht]
      omega

theorem longest_le_aligned (a b : List Char) : (longest a b).size ≤ aligned a b := by
  rcases Nat.eq_zero_or_pos (longest a b).size with h | h
  · exact h.le.trans (Nat.zero_le _)
  · rw [aligned_eq h.ne']
    omega

/-- Whatever part the sequences have in common, as many characters are aligned. -/
theorem length_le_aligned (ha : w <:+: a) (hb : w <:+: b) : w.length ≤ aligned a b :=
  (length_le_longest ha hb).trans (longest_le_aligned a b)

theorem aligned_le_length (a b : List Char) : aligned a b ≤ a.length := by
  obtain ⟨s, ha, -, hs⟩ := exists_sublist_alignedWithin a.length a b
  rw [aligned, ← hs]
  exact ha.length_le

theorem aligned_self (a : List Char) : aligned a a = a.length :=
  (aligned_le_length a a).antisymm (length_le_aligned (infix_refl a) (infix_refl a))

/-- What is aligned in full is a subsequence. -/
theorem sublist_of_aligned_eq (h : aligned a b = a.length) : a <+ b := by
  obtain ⟨s, ha, hb, hs⟩ := exists_sublist_alignedWithin a.length a b
  rwa [← ha.eq_of_length (hs.trans h)]

end NodeQuery.Alignment
