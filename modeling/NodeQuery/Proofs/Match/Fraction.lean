import NodeQuery.Proofs.Match.Fuzzy
/-!
The score as a fraction. The characters that are found are counted in the lower-cased pattern, but
their number is divided by the length of the pattern itself. The two have one length unless the
pattern contains `İ`, whose small letter is two characters (`length_lower`); so the score is a
fraction for the other patterns, and for no pattern with an `İ` (`score_fraction`). Under the
threshold one a pattern then has to be found in full, but for what is lost in rounding
(`reaches_one_iff`).
-/
namespace NodeQuery

namespace Text

theorem length_lowerAfter (before s : List Char) :
    (lowerAfter before s).length = s.length + s.count 'İ' := by
  induction s generalizing before with
  | nil => rfl
  | cons c s ih =>
    rw [lowerAfter, List.length_append, ih, List.length_cons, List.count_cons]
    by_cases hsigma : c = 'Σ'
    · subst hsigma
      have hfinal : (if casedNext before && !casedNext s then ['ς'] else ['σ']).length = 1 := by
        split <;> rfl
      rw [if_pos rfl, hfinal, if_neg (by decide)]
      omega
    · rw [if_neg hsigma]
      by_cases hdot : c = 'İ'
      · rw [if_pos hdot, if_pos (beq_iff_eq.2 hdot), List.length_cons, List.length_singleton]
        omega
      · rw [if_neg hdot, if_neg (mt beq_iff_eq.1 hdot), List.length_singleton]
        omega

/-- Lower case adds a character for each `İ`. -/
theorem length_lower (s : List Char) : (lower s).length = s.length + s.count 'İ' :=
  length_lowerAfter [] s

theorem length_lower_of_not_mem {s : List Char} (h : 'İ' ∉ s) : (lower s).length = s.length := by
  rw [length_lower, List.count_eq_zero_of_not_mem h, Nat.add_zero]

end Text

namespace Matcher
open List

/-! ## Reaching one -/

/-- Between a half and one, only what is within `2^-54` of one is rounded to it. -/
theorem near_one_of_one_le_rounded {n d : ℕ} (hd : 0 < d) (hhalf : d < 2 * n) (hone : n < d)
    (h : 1 ≤ Binary64.rounded n d) : 2 ^ 54 * (d - n) ≤ d := by
  have hd' : (0 : ℚ) < d := Nat.cast_pos.2 hd
  have hlast : Binary64.lastPlace ((n : ℚ) / d) = -53 := by
    apply Binary64.lastPlace_of_half_le
    · rw [div_le_div_iff₀ two_pos hd', one_mul, mul_comm]
      exact_mod_cast hhalf.le
    · rw [div_lt_one hd']
      exact_mod_cast hone
  have hplaces : 2 ^ 53 ≤ Binary64.placesOf n d (-53) := by
    rw [Binary64.rounded, hlast] at h
    have hmany : ((2 ^ 53 : ℕ) : ℚ) ≤ Binary64.placesOf n d (-53) := by
      have hscaled := mul_le_mul_of_nonneg_right h (Binary64.two_zpow_pos 53).le
      rw [mul_assoc, ← Binary64.two_zpow_add] at hscaled
      norm_num at hscaled ⊢
      exact hscaled
    exact_mod_cast hmany
  have hspec := (Binary64.nearest_spec (n * 2 ^ 53) hd).2
  have hnearest : Binary64.placesOf n d (-53) = Binary64.nearest (n * 2 ^ 53) d := by
    show Binary64.nearest (n * 2 ^ 53) (d * 1) = _
    rw [Nat.mul_one]
  rw [hnearest] at hplaces
  have hgap := Nat.mul_le_mul_right d hplaces
  omega

theorem reaches_ofQuotient_iff {n d : ℕ} {q threshold : ℚ}
    (hq : Binary64.roundQuotient n d = some q) :
    reaches (Binary64.ofQuotient false n d) threshold = true ↔ threshold ≤ q := by
  rw [Binary64.ofQuotient, hq]
  exact decide_eq_true_iff

/-- A quotient reaches one if it is at least one but for what rounding makes up for. -/
theorem reaches_one_iff {n d : ℕ} (hd : 0 < d) :
    reaches (Binary64.ofQuotient false n d) 1 = true ↔ 2 ^ 54 * (d - n) ≤ d := by
  rcases Nat.lt_or_ge n d with hone | hle
  · have hle : (n : ℚ) / d ≤ (1 : ℕ) / (1 : ℕ) := Binary64.quotient_le hd one_pos (by omega)
    obtain ⟨q, hq, -⟩ := Binary64.exists_roundQuotient_le hd one_pos hle
      (show Binary64.roundQuotient 1 1 = some 1 by decide +kernel)
    rw [reaches_ofQuotient_iff hq]
    constructor
    · intro h
      rcases Nat.lt_or_ge d (2 * n) with hhalf | hhalf
      · have hn : 0 < n := by omega
        obtain ⟨-, rfl⟩ := (Binary64.roundQuotient_eq_some_iff hn hd).1 hq
        exact near_one_of_one_le_rounded hd hhalf hone h
      · have hle : (n : ℚ) / d ≤ (1 : ℕ) / (2 : ℕ) := Binary64.quotient_le hd two_pos (by omega)
        have hsmall := Binary64.roundQuotient_mono hd two_pos hle hq
          (show Binary64.roundQuotient 1 2 = some (1 / 2) by decide +kernel)
        norm_num at hsmall
        linarith
    · intro h
      have hlarge : ((2 ^ 54 - 1 : ℕ) : ℚ) / (2 ^ 54 : ℕ) ≤ n / d :=
        Binary64.quotient_le (by norm_num) hd (by omega)
      exact Binary64.roundQuotient_mono (by norm_num) hd hlarge (by decide +kernel) hq
  · rw [Nat.sub_eq_zero_of_le hle]
    exact iff_of_true (reaches_ofQuotient hd hle le_rfl) (Nat.zero_le d)

/-! ## The bounds of a score -/

variable {pattern value : String}

theorem exactScore_nonneg (pattern value : String) : 0 ≤ exactScore pattern value :=
  div_nonneg (Nat.cast_nonneg _) (Nat.cast_nonneg _)

theorem length_lower_pattern (h : 'İ' ∉ pattern.toList) :
    (Text.lower pattern.toList).length = pattern.length := by
  rw [Text.length_lower_of_not_mem h, String.length_toList]

/-- Against itself, a pattern with an `İ` has more characters found than it has. -/
theorem one_lt_exactScore_self (h : 'İ' ∈ pattern.toList) : 1 < exactScore pattern pattern := by
  have hpattern : pattern ≠ "" := by
    intro hempty
    rw [hempty] at h
    cases h
  have hpos : (0 : ℚ) < pattern.length := Nat.cast_pos.2 (pattern_length_pos hpattern)
  have hcount : 0 < pattern.toList.count 'İ' := count_pos_iff.2 h
  have hmore : pattern.length < (Text.lower pattern.toList).length := by
    rw [Text.length_lower, String.length_toList]
    omega
  rw [exactScore, Alignment.aligned_self, lt_div_iff₀ hpos, one_mul]
  exact_mod_cast hmore

theorem exactScore_le_one (h : 'İ' ∉ pattern.toList) (value : String) :
    exactScore pattern value ≤ 1 := by
  have hfound := Alignment.aligned_le_length (Text.lower pattern.toList) (Text.lower value.toList)
  rw [length_lower_pattern h] at hfound
  exact div_le_one_of_le₀ (Nat.cast_le.2 hfound) (Nat.cast_nonneg _)

theorem exactScore_le_two (pattern value : String) : exactScore pattern value ≤ 2 := by
  have hfound := Alignment.aligned_le_length (Text.lower pattern.toList) (Text.lower value.toList)
  have hcount : pattern.toList.count 'İ' ≤ pattern.toList.length := count_le_length
  rw [Text.length_lower, String.length_toList] at hfound
  rw [String.length_toList] at hcount
  refine div_le_of_le_mul₀ (Nat.cast_nonneg _) two_pos.le ?_
  exact_mod_cast by omega

/-- A score is a number and not negative, and at most one where the exact fraction is. -/
theorem score_finite (pattern value : String) :
    ∃ q, Alignment.score pattern.toList value.toList = .finite false q ∧ 0 ≤ q ∧
      (exactScore pattern value ≤ 1 → q ≤ 1) := by
  by_cases hpattern : pattern = ""
  · exact ⟨1, by rw [hpattern]; rfl, zero_le_one, fun _ => le_rfl⟩
  · have hd := pattern_length_pos hpattern
    have htwo : exactScore pattern value ≤ (2 : ℕ) / (1 : ℕ) := by
      rw [Nat.cast_one, div_one]
      exact exactScore_le_two pattern value
    obtain ⟨q, hq, -⟩ := Binary64.exists_roundQuotient_le hd one_pos htwo
      (show Binary64.roundQuotient 2 1 = some 2 by decide +kernel)
    refine ⟨q, ?_, (Binary64.representable_of_roundQuotient hd hq).nonneg, ?_⟩
    · rw [score_eq hpattern hd rfl, Binary64.ofQuotient, hq]
    · intro h
      have hone : exactScore pattern value ≤ (1 : ℕ) / (1 : ℕ) := by
        rwa [Nat.cast_one, div_one]
      exact Binary64.roundQuotient_mono hd one_pos hone hq (by decide +kernel)

/-- Under the threshold one, as many characters have to be found as the pattern has, but for what
rounding makes up for. -/
theorem accepts_one_iff (pattern value : String) : (fuzzy pattern 1).accepts value = true ↔
    2 ^ 54 * (pattern.length - Alignment.aligned (Text.lower pattern.toList)
      (Text.lower value.toList)) ≤ pattern.length := by
  by_cases hpattern : pattern = ""
  · rw [hpattern]
    exact iff_of_true rfl (Nat.zero_le _)
  · rw [accepts, score_eq hpattern (pattern_length_pos hpattern) rfl,
      reaches_one_iff (pattern_length_pos hpattern)]

/-- The score of a pattern is a number from zero to one against all texts, unless the pattern
contains an `İ`. Under the threshold one a text is accepted if as many characters are found in it as
the pattern has, but for what rounding makes up for; these are all characters of the lower-cased
pattern, and it is a subsequence of the lower-cased text, unless the pattern contains an `İ` or is
too long for any memory. -/
theorem score_fraction [Host] (pattern : String) :
    ((∀ value, 0 ≤ exactScore pattern value ∧ exactScore pattern value ≤ 1) ↔
      'İ' ∉ pattern.toList) ∧
    ∀ value,
      let p := Text.lower pattern.toList
      let v := Text.lower value.toList
      (∃ q, Alignment.score pattern.toList value.toList = .finite false q ∧ 0 ≤ q ∧
        ('İ' ∉ pattern.toList → q ≤ 1)) ∧
      ∀ settings : Settings, settings.threshold = 1 →
        ∃ matcher, compile settings .fuzzy pattern = .ok matcher ∧
          (matcher.accepts value = true ↔
            2 ^ 54 * (pattern.length - Alignment.aligned p v) ≤ pattern.length) ∧
          ('İ' ∉ pattern.toList → pattern.length < 2 ^ 54 → matcher.accepts value = true →
            Alignment.aligned p v = p.length ∧ p <+ v) := by
  refine ⟨⟨?_, ?_⟩, ?_⟩
  · intro h hdot
    exact absurd (h pattern).2 (not_le.2 (one_lt_exactScore_self hdot))
  · intro h value
    exact ⟨exactScore_nonneg pattern value, exactScore_le_one h value⟩
  · intro value p v
    refine ⟨?_, ?_⟩
    · obtain ⟨q, hscore, hq, hone⟩ := score_finite pattern value
      exact ⟨q, hscore, hq, fun h => hone (exactScore_le_one h value)⟩
    · intro settings hthreshold
      refine ⟨.fuzzy pattern settings.threshold, rfl, ?_, ?_⟩
      · rw [hthreshold]
        exact accepts_one_iff pattern value
      · intro hdot hshort haccepts
        rw [hthreshold] at haccepts
        have hfound : 2 ^ 54 * (pattern.length - Alignment.aligned p v) ≤ pattern.length :=
          (accepts_one_iff pattern value).1 haccepts
        have hlength : p.length = pattern.length := length_lower_pattern hdot
        have hbound := Alignment.aligned_le_length p v
        have hall : Alignment.aligned p v = p.length := by
          omega
        exact ⟨hall, Alignment.sublist_of_aligned_eq hall⟩

theorem score_fraction_photo :
    let strict := { Settings.standard with fuzzyThreshold := .int 1 }
    'İ' ∉ "jpg".toList ∧ strict.threshold = 1 ∧ "jpg".length < 2 ^ 54 ∧
    exactScore "jpg" "photo.JPG" ≤ 1 ∧
    ∃ matcher, compile strict .fuzzy "jpg" = .ok matcher ∧ matcher.accepts "photo.JPG" = true ∧
      Text.lower "jpg".toList <+ Text.lower "photo.JPG".toList := by
  intro strict
  have hdot : 'İ' ∉ "jpg".toList := by decide
  have hshort : "jpg".length < 2 ^ 54 := by decide
  have hthreshold : strict.threshold = 1 := by decide
  obtain ⟨hbounds, hvalues⟩ := score_fraction "jpg"
  obtain ⟨-, haccepts⟩ := hvalues "photo.JPG"
  obtain ⟨matcher, hmatcher, -, hall⟩ := haccepts strict hthreshold
  have htrue : matcher.accepts "photo.JPG" = true := by
    cases hmatcher
    decide +kernel
  exact ⟨hdot, hthreshold, hshort, (hbounds.2 hdot "photo.JPG").2, matcher, hmatcher, htrue,
    (hall hdot hshort htrue).2⟩

/-- Against itself an `İ` scores two, and the characters that are counted for it make up for one
that is not found. -/
theorem not_fraction :
    let strict := { Settings.standard with fuzzyThreshold := .int 1 }
    exactScore "İ" "İ" = 2 ∧ Alignment.score "İ".toList "İ".toList = .finite false 2 ∧
    strict.threshold = 1 ∧ ∃ matcher, compile strict .fuzzy "İx" = .ok matcher ∧
      matcher.accepts "İ" = true ∧ ¬ Text.lower "İx".toList <+ Text.lower "İ".toList := by
  intro strict
  refine ⟨?_, by decide +kernel, by decide, .fuzzy "İx" strict.threshold, rfl, by decide +kernel,
    by decide⟩
  have htwo : Alignment.aligned (Text.lower "İ".toList) (Text.lower "İ".toList) = 2 := by
    decide +kernel
  have hone : "İ".length = 1 := by decide
  rw [exactScore, htwo, hone]
  norm_num

end Matcher
end NodeQuery
