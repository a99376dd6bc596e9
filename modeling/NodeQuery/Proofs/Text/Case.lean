import Mathlib.Data.List.Basic
import NodeQuery.Text.CharSet
/-!
Case. The table of capitals is sorted, and no small letter in it is a capital again; so `lowerCode`
is what the table says (`lowerCode_of_has`, `lowerCode_of_not_has`) and lower casing twice is lower
casing once (`lowerCode_lowerCode`). The variants of a code point are the code points that are the
same letter (`mem_variants_unicode`): the meaning of a single character where case is disregarded
(`has_single`). What a set holds then depends on small letters alone (`ignoresCase_ofParts`).
-/
namespace NodeQuery.Text

/-! ## The table of capitals -/

namespace CaseRun

/-- A code point is one of the capitals of a run. -/
def Has (run : CaseRun) (code : Nat) : Prop :=
  run.first ≤ code ∧ code ≤ run.last ∧ (code - run.first) % run.step = 0

/-- Two runs of which the first one lies before the second one. -/
def Before (r s : CaseRun) : Prop :=
  r.first ≤ r.last ∧ r.last < s.first ∧ s.first ≤ s.last

instance : DecidableRel Before :=
  fun r s => inferInstanceAs (Decidable (r.first ≤ r.last ∧ r.last < s.first ∧ s.first ≤ s.last))

instance : Trans Before Before Before where
  trans := by
    intro r s t hrs hst
    unfold Before at *
    omega

/-- No small letter of the first run is a capital of the second one: it lies outside, or falls
between two capitals. -/
def apartFrom (r s : CaseRun) : Bool :=
  let low := r.first + r.up - r.down
  let high := r.last + r.up - r.down
  -- in terms of `Nat.blt` and `Nat.beq`, since all pairs of the table are compared
  Nat.blt high s.first || Nat.blt s.last low ||
    Nat.beq s.step 2 && (Nat.beq r.step 2 || Nat.beq low high) && Nat.beq ((low + s.first) % 2) 1

theorem not_has_of_apartFrom {r s : CaseRun} (h : r.apartFrom s = true)
    (hdown : r.down ≤ r.first + r.up) {code : Nat} (hcode : r.Has code) :
    ¬ s.Has (code + r.up - r.down) := by
  obtain ⟨hfirst, hlast, hstep⟩ := hcode
  intro hs
  obtain ⟨hsfirst, hslast, hsstep⟩ := hs
  simp only [apartFrom, Bool.or_eq_true, Bool.and_eq_true, Nat.blt_eq, Nat.beq_eq] at h
  rcases h with (h | h) | ⟨⟨htwo, h | h⟩, hparity⟩
  · omega
  · omega
  · rw [h] at hstep
    rw [htwo] at hsstep
    omega
  · rw [htwo] at hsstep
    omega

end CaseRun

theorem caseRuns_pairwise : caseRuns.Pairwise CaseRun.Before := by
  rw [← List.isChain_iff_pairwise]
  decide +kernel

theorem caseRuns_down_le : ∀ run ∈ caseRuns, run.down ≤ run.first + run.up := by
  decide +kernel

theorem caseRuns_ascii : ∀ run ∈ caseRuns, run.first < 128 →
    run.first = 65 ∧ run.last = 90 ∧ run.step = 1 ∧ run.up = 32 ∧ run.down = 0 := by
  decide +kernel

theorem caseRuns_apart : (caseRuns.all fun r => caseRuns.all r.apartFrom) = true := by
  decide +kernel

section
variable {code letter c : Nat} {run : CaseRun}

theorem lowerIn_of_has {runs : List CaseRun} (hruns : runs.Pairwise CaseRun.Before)
    (hrun : run ∈ runs) (hcode : run.Has code) :
    lowerIn code runs = code + run.up - run.down := by
  induction runs with
  | nil => cases hrun
  | cons r runs ih =>
    obtain ⟨hbefore, hruns⟩ := List.pairwise_cons.1 hruns
    obtain ⟨hfirst, hlast, hstep⟩ := hcode
    rcases List.mem_cons.1 hrun with rfl | hrun
    · rw [lowerIn, if_pos hlast, if_pos ⟨hfirst, hstep⟩]
    · have hr := hbefore run hrun
      unfold CaseRun.Before at hr
      rw [lowerIn, if_neg (by omega)]
      exact ih hruns hrun

theorem lowerIn_of_not_has {runs : List CaseRun} (h : ∀ run ∈ runs, ¬ run.Has code) :
    lowerIn code runs = code := by
  induction runs with
  | nil => rfl
  | cons r runs ih =>
    obtain ⟨hr, hruns⟩ := List.forall_mem_cons.1 h
    unfold lowerIn
    split
    · next hlast =>
      rw [if_neg fun hfirst => hr ⟨hfirst.1, hlast, hfirst.2⟩]
      split
      · rfl
      · exact ih hruns
    · exact ih hruns

/-- A capital becomes the small letter of its run. -/
theorem lowerCode_of_has (hrun : run ∈ caseRuns) (hcode : run.Has code) :
    lowerCode code = code + run.up - run.down := by
  by_cases hascii : code < 128
  · obtain ⟨hfirst, hlast, -⟩ := hcode
    have hrun := caseRuns_ascii run hrun (by omega)
    rw [lowerCode_ascii hascii, asciiLowerCode, if_pos]
    · omega
    · simp only [Bool.and_eq_true, decide_eq_true_eq]
      omega
  · rw [lowerCode, if_neg hascii]
    exact lowerIn_of_has caseRuns_pairwise hrun hcode

/-- What is no capital stays. -/
theorem lowerCode_of_not_has (h : ∀ run ∈ caseRuns, ¬ run.Has code) : lowerCode code = code := by
  by_cases hascii : code < 128
  · have hrun := h ⟨65, 90, 1, 32, 0⟩ (List.mem_cons_self ..)
    simp only [CaseRun.Has, Nat.mod_one, and_true] at hrun
    rw [lowerCode_ascii hascii, asciiLowerCode, if_neg]
    simp only [Bool.and_eq_true, decide_eq_true_eq]
    exact hrun
  · rw [lowerCode, if_neg hascii]
    exact lowerIn_of_not_has h

/-- A small letter stays. -/
theorem lowerCode_lowerCode (code : Nat) : lowerCode (lowerCode code) = lowerCode code := by
  by_cases h : ∃ run ∈ caseRuns, run.Has code
  · obtain ⟨run, hrun, hcode⟩ := h
    rw [lowerCode_of_has hrun hcode]
    apply lowerCode_of_not_has
    intro other hother
    have hapart := List.all_eq_true.1 (List.all_eq_true.1 caseRuns_apart run hrun) other hother
    exact CaseRun.not_has_of_apartFrom hapart (caseRuns_down_le run hrun) hcode
  · have hsame : lowerCode code = code :=
      lowerCode_of_not_has fun run hrun hcode => h ⟨run, hrun, hcode⟩
    rw [hsame, hsame]

theorem mem_capitalsOf_iff : c ∈ capitalsOf letter ↔
    ∃ run ∈ caseRuns, run.Has c ∧ c + run.up - run.down = letter := by
  simp only [capitalsOf, List.mem_filterMap, Option.ite_none_right_eq_some, Option.some.injEq]
  constructor
  · intro h
    obtain ⟨run, hrun, ⟨hup, hhas⟩, rfl⟩ := h
    exact ⟨run, hrun, hhas, by omega⟩
  · intro h
    obtain ⟨run, hrun, hhas, hletter⟩ := h
    have hdown := caseRuns_down_le run hrun
    have hfirst := hhas.1
    have hcapital : letter + run.down - run.up = c := by omega
    refine ⟨run, hrun, ⟨by omega, ?_⟩, hcapital⟩
    rw [hcapital]
    exact hhas

/-- A small letter and its capitals are the code points that become this letter. -/
theorem eq_or_mem_capitalsOf_iff (hsmall : lowerCode letter = letter) :
    c = letter ∨ c ∈ capitalsOf letter ↔ lowerCode c = letter := by
  rw [mem_capitalsOf_iff]
  constructor
  · intro h
    rcases h with rfl | ⟨run, hrun, hhas, hletter⟩
    · exact hsmall
    · rw [lowerCode_of_has hrun hhas, hletter]
  · intro h
    by_cases hc : ∃ run ∈ caseRuns, run.Has c
    · obtain ⟨run, hrun, hhas⟩ := hc
      rw [lowerCode_of_has hrun hhas] at h
      exact Or.inr ⟨run, hrun, hhas, h⟩
    · rw [lowerCode_of_not_has fun run hrun hhas => hc ⟨run, hrun, hhas⟩] at h
      exact Or.inl h

theorem lowerCode_asciiLowerCode (code : Nat) :
    lowerCode (asciiLowerCode code) = lowerCode code := by
  unfold asciiLowerCode
  split
  · next hcapital =>
    rw [Bool.and_eq_true, decide_eq_true_eq, decide_eq_true_eq] at hcapital
    rw [lowerCode_ascii (by omega), lowerCode_ascii (by omega), asciiLowerCode, asciiLowerCode,
      if_neg (by simp; omega), if_pos (by simp; omega)]
  · rfl

/-- Texts that differ in the case of ASCII letters only have the same small letters. -/
theorem map_lowerCode_congr {s t : List Nat} (h : s.map asciiLowerCode = t.map asciiLowerCode) :
    s.map lowerCode = t.map lowerCode := by
  have hsmall : ∀ u : List Nat, u.map lowerCode = (u.map asciiLowerCode).map lowerCode := by
    intro u
    rw [List.map_map]
    exact List.map_congr_left fun code _ => (lowerCode_asciiLowerCode code).symm
  rw [hsmall s, hsmall t, h]

/-! ## The same letter -/

theorem caseKin_small : ∀ entry ∈ caseKin, ∀ small ∈ entry.2, lowerCode small = small := by
  decide +kernel

theorem lowerCode_of_mem_kinOf (h : letter ∈ kinOf code) : lowerCode letter = letter := by
  unfold kinOf at h
  cases hlookup : caseKin.lookup code with
  | none =>
    rw [hlookup] at h
    cases h
  | some kin =>
    rw [hlookup] at h
    obtain ⟨before, after, hkin, -⟩ := List.lookup_eq_some_iff.1 hlookup
    exact caseKin_small (code, kin) (by simp [hkin]) letter h

/-- Two code points are the same letter, possibly in different case: they have one small letter, or
two that share their capital. -/
def SameLetter (a b : Nat) : Prop :=
  lowerCode a = lowerCode b ∨ lowerCode a ∈ kinOf (lowerCode b)

theorem mem_variants_unicode : c ∈ CaseRule.unicode.variants code ↔ SameLetter c code := by
  have hsmall : ∀ letter ∈ lowerCode code :: kinOf (lowerCode code), lowerCode letter = letter := by
    intro letter hletter
    rcases List.mem_cons.1 hletter with rfl | hkin
    · exact lowerCode_lowerCode code
    · exact lowerCode_of_mem_kinOf hkin
  show c ∈ (lowerCode code :: kinOf (lowerCode code)).flatMap _ ↔ _
  rw [List.mem_flatMap, SameLetter, ← List.mem_cons]
  constructor
  · intro h
    obtain ⟨letter, hletter, hc⟩ := h
    rw [(eq_or_mem_capitalsOf_iff (hsmall letter hletter)).1 (List.mem_cons.1 hc)]
    exact hletter
  · intro h
    exact ⟨lowerCode c, h,
      List.mem_cons.2 ((eq_or_mem_capitalsOf_iff (lowerCode_lowerCode c)).2 rfl)⟩

/-- A character stands for a code point: for itself, or for the same letter. -/
def CaseRule.StandsFor (rule : CaseRule) (character code : Nat) : Prop :=
  match rule with
  | .exact => character = code
  | .ascii | .asciiForms => asciiLowerCode character = asciiLowerCode code
  | .unicode => SameLetter character code

theorem CaseRule.standsFor_refl (rule : CaseRule) (code : Nat) : rule.StandsFor code code := by
  cases rule with
  | unicode => exact Or.inl rfl
  | _ => rfl

theorem mem_variants_ascii :
    c ∈ CaseRule.ascii.variants code ↔ asciiLowerCode c = asciiLowerCode code := by
  simp only [CaseRule.variants, CaseRule.asciiCapital, asciiLowerCode, List.mem_cons,
    List.not_mem_nil, or_false, Bool.and_eq_true, decide_eq_true_eq]
  split <;> split <;> split <;> omega

/-- The set of one character holds what the character stands for. -/
theorem has_single (rule : CaseRule) :
    (CharSet.single rule c).has code = true ↔ rule.StandsFor c code := by
  have hmember : ∀ r : CaseRule, ([CharRange.code c].any (·.has r code) != false) = true ↔
      c ∈ r.variants code := by
    intro r
    simp [CharRange.has]
  cases rule with
  | exact =>
    rw [CharSet.has_single_exact]
    exact eq_comm
  | ascii => exact (hmember .ascii).trans mem_variants_ascii
  | asciiForms =>
    rw [CaseRule.StandsFor, ← mem_variants_ascii]
    simp [CharSet.has, CharSet.single, CharRange.has, CaseRule.variants]
  | unicode => exact (hmember .unicode).trans mem_variants_unicode

/-! ## Sets without regard to case -/

/-- What a set holds depends on small letters alone. -/
def CharSet.IgnoresCase (set : CharSet) : Prop :=
  ∀ a b, lowerCode a = lowerCode b → set.has a = set.has b

theorem ignoresCase_all : CharSet.all.IgnoresCase :=
  fun _ _ _ => rfl

/-- A part that names no class. -/
def CharRange.IsSpelled : CharRange → Prop
  | .named .. => False
  | _ => True

theorem CharRange.has_congr {part : CharRange} (hpart : part.IsSpelled) {a b : Nat}
    (h : lowerCode a = lowerCode b) : part.has .unicode a = part.has .unicode b := by
  have hvariants : CaseRule.unicode.variants a = CaseRule.unicode.variants b := by
    simp only [CaseRule.variants, h]
  cases part with
  | named => cases hpart
  | _ => simp only [CharRange.has, hvariants]

theorem ignoresCase_of_parts {negated : Bool} {parts : List CharRange}
    (h : ∀ part ∈ parts, part.IsSpelled) : (CharSet.mk .unicode negated parts).IgnoresCase := by
  intro a b hab
  have hany : parts.any (·.has .unicode a) = parts.any (·.has .unicode b) := by
    rw [Bool.eq_iff_iff, List.any_eq_true, List.any_eq_true]
    refine exists_congr fun part => and_congr_right fun hpart => ?_
    rw [CharRange.has_congr (h part hpart) hab]
  show (parts.any _ != negated) = (parts.any _ != negated)
  rw [hany]

theorem ignoresCase_ofParts {negated : Bool} {parts : List CharRange}
    (h : ∀ part ∈ parts, part.IsSpelled) :
    (CharSet.ofParts .unicode negated parts).IgnoresCase := by
  apply ignoresCase_of_parts
  intro part hpart
  split at hpart
  · exact h part (List.mem_of_mem_filter hpart)
  · exact h part hpart

end
end NodeQuery.Text
