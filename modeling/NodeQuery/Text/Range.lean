/-!
Sets of characters as sorted lists of code point ranges, the form in which the tables of the
neighbouring modules hold the Unicode properties.
-/
namespace NodeQuery.Text

/-- Membership in a sorted list of disjoint closed ranges; the search stops at the first range
that does not end before the code point. -/
def inRanges (code : Nat) : List (Nat × Nat) → Bool
  | [] => false
  | (first, last) :: rest => if code ≤ last then first ≤ code else inRanges code rest

/-- The search never accepts a code point that no range holds. -/
theorem exists_range_of_inRanges {code : Nat} {ranges : List (Nat × Nat)}
    (h : inRanges code ranges = true) : ∃ r ∈ ranges, r.1 ≤ code ∧ code ≤ r.2 := by
  induction ranges with
  | nil => simp [inRanges] at h
  | cons r rest ih =>
    obtain ⟨first, last⟩ := r
    by_cases hc : code ≤ last
    · simp only [inRanges, hc, if_true, decide_eq_true_eq] at h
      exact ⟨(first, last), by simp, h, hc⟩
    · simp only [inRanges, hc, if_false] at h
      obtain ⟨r, hr, hle⟩ := ih h
      exact ⟨r, by simp [hr], hle⟩

end NodeQuery.Text
