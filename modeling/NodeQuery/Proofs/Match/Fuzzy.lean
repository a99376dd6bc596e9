import NodeQuery.Proofs.Match.Alignment
import NodeQuery.Proofs.Settings.RoundTrip
/-!
Fuzzy matching. The score is the number of aligned characters as a fraction of the pattern, rounded
(`score_eq`). A text that has the lower-cased pattern as a part is accepted whatever the threshold
(`accepts_of_infix`), since lower casing does not shorten the pattern and rounding is monotone.
-/
namespace NodeQuery

/-- Settings within their bounds have a threshold of at most one. -/
theorem Settings.threshold_le_one {settings : Settings} (h : settings.check = .ok settings) :
    settings.threshold ≤ 1 := by
  obtain ⟨q, hvalue, -, hq⟩ := (check_eq_ok_iff.1 h).1
  rw [threshold, hvalue]
  exact hq

namespace Matcher
open List

/-- What is at least one before it is rounded reaches every threshold up to one. -/
theorem reaches_ofQuotient {n d : ℕ} {threshold : ℚ} (hd : 0 < d) (h : d ≤ n)
    (hthreshold : threshold ≤ 1) :
    reaches (Binary64.ofQuotient false n d) threshold = true := by
  have hone : Binary64.roundQuotient 1 1 = some 1 := by decide +kernel
  have hvalue : ((1 : ℕ) : ℚ) / (1 : ℕ) ≤ n / d := by
    rw [Nat.cast_one, div_one, le_div_iff₀ (Nat.cast_pos.2 hd), one_mul]
    exact_mod_cast h
  rw [Binary64.ofQuotient]
  cases hq : Binary64.roundQuotient n d with
  | none => rfl
  | some q =>
    have hq' := Binary64.roundQuotient_mono one_pos hd hvalue hone hq
    exact decide_eq_true (hthreshold.trans hq')

/-- The fraction of a pattern that is found in a text, before it is rounded. -/
def exactScore (pattern value : String) : ℚ :=
  Alignment.aligned (Text.lower pattern.toList) (Text.lower value.toList) / pattern.length

variable {pattern value : String}

theorem pattern_length_pos (hpattern : pattern ≠ "") : 0 < pattern.length := by
  rw [← String.length_toList, length_pos_iff]
  exact mt String.toList_eq_nil_iff.1 hpattern

/-- The score is the exact fraction rounded, in whatever terms this is written. -/
theorem score_eq (hpattern : pattern ≠ "") {n d : ℕ} (hd : 0 < d)
    (h : (n : ℚ) / d = exactScore pattern value) :
    Alignment.score pattern.toList value.toList = Binary64.ofQuotient false n d := by
  have hempty : pattern.toList ≠ [] := mt String.toList_eq_nil_iff.1 hpattern
  rw [Alignment.score, if_neg (by rwa [List.isEmpty_iff]), String.length_toList,
    Binary64.ofQuotient, Binary64.ofQuotient, Binary64.roundQuotient_congr hd (pattern_length_pos hpattern) h]

/-- A text in which as many characters are found as the pattern has is accepted. -/
theorem accepts_of_length_le {settings : Settings} (hs : settings.check = .ok settings)
    (hpattern : pattern ≠ "") (hall : pattern.length ≤
      Alignment.aligned (Text.lower pattern.toList) (Text.lower value.toList)) :
    (fuzzy pattern settings.threshold).accepts value = true := by
  rw [accepts, score_eq hpattern (pattern_length_pos hpattern) rfl]
  exact reaches_ofQuotient (pattern_length_pos hpattern) hall (Settings.threshold_le_one hs)

/-- A text that has the pattern as a part, without regard to case, is accepted. -/
theorem accepts_of_infix {settings : Settings} (hs : settings.check = .ok settings)
    (hpattern : pattern ≠ "")
    (h : Text.lower pattern.toList <:+: Text.lower value.toList) :
    (fuzzy pattern settings.threshold).accepts value = true := by
  apply accepts_of_length_le hs hpattern
  calc pattern.length = pattern.toList.length := String.length_toList.symm
    _ ≤ (Text.lower pattern.toList).length := Text.length_le_length_lowerAfter [] _
    _ ≤ _ := Alignment.length_le_aligned (List.infix_refl _) h

/-- The score of a pattern, before it is rounded, times the length of the pattern is a whole number:
that of the characters that are found. These are at least as many as any part that the lower-cased
texts have in common, and are a common subsequence of them; and what has the pattern as a part is
accepted under all settings. -/
theorem score_bounds [Host] (pattern value : String) (hpattern : pattern ≠ "") :
    let p := Text.lower pattern.toList
    let v := Text.lower value.toList
    (∃ found : ℕ, exactScore pattern value * pattern.length = found ∧
      (∀ w, w <:+: p → w <:+: v → w.length ≤ found) ∧
      ∃ s, s <+ p ∧ s <+ v ∧ s.length = found) ∧
    (∀ n d : ℕ, 0 < d → (n : ℚ) / d = exactScore pattern value →
      Alignment.score pattern.toList value.toList = Binary64.ofQuotient false n d) ∧
    (p <:+: v → ∀ settings : Settings, settings.check = .ok settings →
      ∃ matcher, compile settings .fuzzy pattern = .ok matcher ∧ matcher.accepts value = true) := by
  have hlength : (pattern.length : ℚ) ≠ 0 := Nat.cast_ne_zero.2 (pattern_length_pos hpattern).ne'
  refine ⟨⟨_, div_mul_cancel₀ _ hlength, ?_, ?_⟩, ?_, ?_⟩
  · exact fun w hp hv => Alignment.length_le_aligned hp hv
  · exact Alignment.exists_sublist_alignedWithin _ _ _
  · exact fun n d hd h => score_eq hpattern hd h
  · exact fun h settings hs => ⟨_, rfl, accepts_of_infix hs hpattern h⟩

theorem score_bounds_photo : "jpg" ≠ "" ∧
    (∃ found : ℕ, exactScore "jpg" "photo.JPG" * "jpg".length = found ∧ 3 ≤ found ∧
      ∃ s, s <+ ['j', 'p', 'g'] ∧ s <+ Text.lower "photo.JPG".toList ∧ s.length = found) ∧
    Alignment.score "jpg".toList "photo.JPG".toList = .finite false 1 ∧
    ∃ matcher, compile Settings.standard .fuzzy "jpg" = .ok matcher ∧
      matcher.accepts "photo.JPG" = true := by
  have hpattern : "jpg" ≠ "" := by decide
  have hlower : Text.lower "jpg".toList = ['j', 'p', 'g'] := by decide
  have hpart : Text.lower "jpg".toList <:+: Text.lower "photo.JPG".toList := by decide +kernel
  have hexact : ((1 : ℕ) : ℚ) / (1 : ℕ) = exactScore "jpg" "photo.JPG" := by
    have hthree :
        Alignment.aligned (Text.lower "jpg".toList) (Text.lower "photo.JPG".toList) = 3 := by
      decide +kernel
    have hlength : "jpg".length = 3 := by decide
    rw [exactScore, hthree, hlength]
    norm_num
  obtain ⟨⟨found, hfound, hleast, hcommon⟩, hscore, haccepts⟩ :=
    score_bounds "jpg" "photo.JPG" hpattern
  refine ⟨hpattern, ⟨found, hfound, ?_, ?_⟩, ?_, ?_⟩
  · exact hleast _ (List.infix_refl _) hpart
  · rwa [hlower] at hcommon
  · rw [hscore 1 1 one_pos hexact]
    decide +kernel
  · exact haccepts hpart Settings.standard Settings.check_standard

end Matcher
end NodeQuery
