import Mathlib.Data.List.TakeWhile
import NodeQuery.Match.Matcher
import NodeQuery.Proofs.Match.Compiled
import NodeQuery.Proofs.Text.Case
/-!
What a wildcard pattern says. `Covers` reads it character by character: a star covers any text, a
question mark any code point, a set in brackets what it holds, and every other character what it
stands for under the rule for case. The items of a pattern split the same texts
(`splits_items_iff`), so `fits` decides which texts a pattern covers.
-/
namespace NodeQuery.Wildcard

variable {rule : Text.CaseRule} {inside pattern rest s : List Char} {text : List Nat}

/-! ## Sets -/

/-- The inside of a set: behind an exclamation mark at its start it has a character, and only this
one may be a closing bracket. -/
def IsInside (inside : List Char) : Prop :=
  ∃ negation first body, inside = negation ++ first :: body ∧ ']' ∉ body ∧
    (negation = ['!'] ∨ negation = [] ∧ first ≠ '!')

/-- What stands behind an opening bracket starts with the inside of a set and a closing bracket. -/
def OpensSet (s : List Char) : Prop :=
  ∃ inside rest, IsInside inside ∧ s = inside ++ ']' :: rest

/-- The number of characters that belong to the inside whatever they are. -/
def heldOf (s : List Char) : Nat :=
  let negation := if s.head? = some '!' then 1 else 0
  if (s.drop negation).head? = some ']' then negation + 1 else negation

theorem takeWhile_open {more : List Char} (h : ']' ∉ more) (rest : List Char) :
    (more ++ ']' :: rest).takeWhile (· ≠ ']') = more := by
  rw [List.takeWhile_append_of_pos]
  · simp
  · intro c hc
    simpa using ne_of_mem_of_not_mem hc h

theorem splitSet?_eq (s : List Char) : splitSet? s =
    ((s.drop (heldOf s + ((s.drop (heldOf s)).takeWhile (· ≠ ']')).length)).tail?).map
      fun rest => (s.take (heldOf s) ++ (s.drop (heldOf s)).takeWhile (· ≠ ']'), rest) := by
  unfold splitSet? heldOf
  dsimp only
  split
  · next h =>
    rw [h]
    rfl
  · next h =>
    rw [h]
    rfl

theorem splitSet?_eq_some_iff_exists : splitSet? s = some (inside, rest) ↔
    ∃ more, ']' ∉ more ∧ s.drop (heldOf s) = more ++ ']' :: rest ∧
      inside = s.take (heldOf s) ++ more := by
  rw [splitSet?_eq]
  rw [← List.drop_drop]
  generalize s.drop (heldOf s) = u
  constructor
  · intro h
    have hu := List.takeWhile_append_dropWhile (p := (· ≠ ']')) (l := u)
    have hstop := List.head?_dropWhile_not (· ≠ ']') u
    have hopen : ']' ∉ u.takeWhile (· ≠ ']') := by
      intro hmem
      simpa using List.mem_takeWhile_imp hmem
    generalize u.takeWhile (· ≠ ']') = more at h hu hopen
    generalize u.dropWhile (· ≠ ']') = behind at hu hstop
    subst hu
    rw [List.drop_left] at h
    cases behind with
    | nil => cases h
    | cons c behind =>
      obtain ⟨rfl, rfl⟩ := Prod.mk.inj (Option.some.inj h)
      have hc : c = ']' := by simpa using hstop
      exact ⟨more, hopen, by rw [hc], rfl⟩
  · intro h
    obtain ⟨more, hmore, rfl, rfl⟩ := h
    rw [takeWhile_open hmore, List.drop_left]
    rfl

theorem exists_body {c : Char} {t more : List Char} (h : c :: t = more ++ ']' :: rest)
    (hc : c ≠ ']') : ∃ body, more = c :: body := by
  cases more with
  | nil => exact absurd (List.cons.inj h).1 hc
  | cons first body => exact ⟨body, by rw [(List.cons.inj h).1]⟩

theorem isInside_take {more : List Char} (hmore : ']' ∉ more)
    (h : s.drop (heldOf s) = more ++ ']' :: rest) : IsInside (s.take (heldOf s) ++ more) := by
  cases s with
  | nil => simp at h
  | cons c t =>
    by_cases hc : c = '!'
    · subst hc
      cases t with
      | nil => simp [heldOf] at h
      | cons d t =>
        by_cases hd : d = ']'
        · subst hd
          exact ⟨['!'], ']', more, rfl, hmore, Or.inl rfl⟩
        · have hheld : heldOf ('!' :: d :: t) = 1 := by simp [heldOf, hd]
          rw [hheld] at h ⊢
          obtain ⟨body, rfl⟩ := exists_body h hd
          exact ⟨['!'], d, body, rfl, List.not_mem_of_not_mem_cons hmore, Or.inl rfl⟩
    · by_cases hd : c = ']'
      · subst hd
        exact ⟨[], ']', more, rfl, hmore, Or.inr ⟨rfl, hc⟩⟩
      · have hheld : heldOf (c :: t) = 0 := by simp [heldOf, hc, hd]
        rw [hheld] at h ⊢
        obtain ⟨body, rfl⟩ := exists_body h hd
        exact ⟨[], c, body, rfl, List.not_mem_of_not_mem_cons hmore, Or.inr ⟨rfl, hc⟩⟩

theorem splitSet?_eq_some_iff :
    splitSet? s = some (inside, rest) ↔ IsInside inside ∧ s = inside ++ ']' :: rest := by
  rw [splitSet?_eq_some_iff_exists]
  constructor
  · intro h
    obtain ⟨more, hmore, hdrop, rfl⟩ := h
    refine ⟨isInside_take hmore hdrop, ?_⟩
    rw [List.append_assoc, ← hdrop, List.take_append_drop]
  · intro h
    obtain ⟨⟨negation, first, body, rfl, hbody, hnegation⟩, rfl⟩ := h
    by_cases hclosing : first = ']'
    · subst hclosing
      rcases hnegation with rfl | ⟨rfl, -⟩
      · exact ⟨body, hbody, rfl, rfl⟩
      · exact ⟨body, hbody, rfl, rfl⟩
    · refine ⟨first :: body, by simp [hbody, Ne.symm hclosing], ?_⟩
      rcases hnegation with rfl | ⟨rfl, hfirst⟩
      · simp [heldOf, hclosing]
      · simp [heldOf, hclosing, hfirst]

theorem splitSet?_eq_none_iff : splitSet? s = none ↔ ¬ OpensSet s := by
  rw [← Option.not_isSome_iff_eq_none, not_iff_not, Option.isSome_iff_exists, Prod.exists]
  refine exists_congr fun inside => exists_congr fun rest => splitSet?_eq_some_iff

/-! ## Patterns -/

/-- A pattern covers a whole text. -/
inductive Covers (rule : Text.CaseRule) : List Char → List Nat → Prop where
  | nil : Covers rule [] []
  | star (any : List Nat) {pattern : List Char} {text : List Nat} (h : Covers rule pattern text) :
      Covers rule ('*' :: pattern) (any ++ text)
  | any (code : Nat) {pattern : List Char} {text : List Nat} (h : Covers rule pattern text) :
      Covers rule ('?' :: pattern) (code :: text)
  | set {inside pattern : List Char} {code : Nat} {text : List Nat} (hinside : IsInside inside)
      (hcode : (setOf rule inside).has code = true) (h : Covers rule pattern text) :
      Covers rule ('[' :: (inside ++ ']' :: pattern)) (code :: text)
  /-- An opening bracket that no closing one follows stands for itself, too. -/
  | char {c : Char} {pattern : List Char} {code : Nat} {text : List Nat} (hstar : c ≠ '*')
      (hany : c ≠ '?') (hset : c = '[' → ¬ OpensSet pattern) (hcode : rule.StandsFor c.toNat code)
      (h : Covers rule pattern text) : Covers rule (c :: pattern) (code :: text)

theorem covers_nil_iff : Covers rule [] text ↔ text = [] := by
  constructor
  · intro h
    cases h
    rfl
  · intro h
    rw [h]
    exact .nil

theorem covers_star_iff :
    Covers rule ('*' :: pattern) text ↔ ∃ n, Covers rule pattern (text.drop n) := by
  constructor
  · intro h
    cases h with
    | star any h => exact ⟨any.length, by rwa [List.drop_left]⟩
    | char hstar => exact absurd rfl hstar
  · intro h
    obtain ⟨n, h⟩ := h
    rw [← List.take_append_drop n text]
    exact .star _ h

theorem covers_any_iff : Covers rule ('?' :: pattern) text ↔
    ∃ code rest, text = code :: rest ∧ Covers rule pattern rest := by
  constructor
  · intro h
    cases h with
    | any code h => exact ⟨code, _, rfl, h⟩
    | char _ hany => exact absurd rfl hany
  · intro h
    obtain ⟨code, rest, rfl, h⟩ := h
    exact .any code h

theorem covers_set_iff (hinside : IsInside inside) :
    Covers rule ('[' :: (inside ++ ']' :: pattern)) text ↔
      ∃ code rest, text = code :: rest ∧ (setOf rule inside).has code = true ∧
        Covers rule pattern rest := by
  constructor
  · intro h
    generalize hs : inside ++ ']' :: pattern = s at h
    have hsplit := splitSet?_eq_some_iff.2 ⟨hinside, hs.symm⟩
    cases h with
    | set hinside' hcode h =>
      -- a set is read in one way
      rw [splitSet?_eq_some_iff.2 ⟨hinside', rfl⟩] at hsplit
      obtain ⟨rfl, rfl⟩ := Prod.mk.inj (Option.some.inj hsplit)
      exact ⟨_, _, rfl, hcode, h⟩
    | char _ _ hset => exact absurd ⟨inside, pattern, hinside, hs.symm⟩ (hset rfl)
  · intro h
    obtain ⟨code, rest, rfl, hcode, h⟩ := h
    exact .set hinside hcode h

theorem covers_char_iff {c : Char} (hstar : c ≠ '*') (hany : c ≠ '?')
    (hset : c = '[' → ¬ OpensSet pattern) : Covers rule (c :: pattern) text ↔
      ∃ code rest, text = code :: rest ∧ rule.StandsFor c.toNat code ∧
        Covers rule pattern rest := by
  constructor
  · intro h
    cases h with
    | star => exact absurd rfl hstar
    | any => exact absurd rfl hany
    | set hinside => exact absurd ⟨_, _, hinside, rfl⟩ (hset rfl)
    | char _ _ _ hcode h => exact ⟨_, _, rfl, hcode, h⟩
  · intro h
    obtain ⟨code, rest, rfl, hcode, h⟩ := h
    exact .char hstar hany hset hcode h

/-- Stars that follow each other are one. -/
theorem covers_stars_iff (pattern : List Char) (text : List Nat) :
    Covers rule ('*' :: pattern.dropWhile (· = '*')) text ↔ Covers rule ('*' :: pattern) text := by
  induction pattern generalizing text with
  | nil => rfl
  | cons c pattern ih =>
    by_cases hc : c = '*'
    · subst hc
      rw [List.dropWhile_cons_of_pos (by simp), ih, @covers_star_iff _ ('*' :: pattern)]
      constructor
      · intro h
        exact ⟨0, h⟩
      · intro h
        obtain ⟨n, h⟩ := h
        obtain ⟨m, h⟩ := covers_star_iff.1 h
        rw [List.drop_drop] at h
        exact covers_star_iff.2 ⟨_, h⟩
    · rw [List.dropWhile_cons_of_neg (by simp [hc])]

/-- As `fuel`, the length of the pattern is enough. -/
theorem splits_items_iff {fuel : Nat} (hfuel : pattern.length ≤ fuel) :
    Splits (items rule fuel pattern) text ↔ Covers rule pattern text := by
  induction fuel generalizing pattern text with
  | zero =>
    rw [List.length_eq_zero_iff.1 (Nat.le_zero.1 hfuel), covers_nil_iff]
    exact splits_nil_iff
  | succ fuel ih =>
    cases pattern with
    | nil =>
      rw [covers_nil_iff]
      exact splits_nil_iff
    | cons c pattern =>
      have hpattern : pattern.length ≤ fuel := Nat.le_of_succ_le_succ hfuel
      have hchar : c ≠ '*' → c ≠ '?' → (c = '[' → ¬ OpensSet pattern) →
          (Splits (.one (.single rule c.toNat) :: items rule fuel pattern) text ↔
            Covers rule (c :: pattern) text) := by
        intro hstar hany hset
        simp only [splits_one_iff, covers_char_iff hstar hany hset, Text.has_single, ih hpattern]
      unfold items
      split
      · have hshorter := (List.dropWhile_sublist (· = '*') (l := pattern)).length_le
        rw [splits_star_iff, ← covers_stars_iff, covers_star_iff]
        exact exists_congr fun n => ih (hshorter.trans hpattern)
      · simp only [splits_one_iff, covers_any_iff, ih hpattern]
        exact exists_congr fun code => exists_congr fun rest =>
          and_congr_right fun _ => and_iff_right rfl
      · split
        · next inside rest hsplit =>
          obtain ⟨hinside, rfl⟩ := splitSet?_eq_some_iff.1 hsplit
          have hrest : rest.length ≤ fuel := by
            rw [List.length_append, List.length_cons] at hpattern
            omega
          simp only [splits_one_iff, covers_set_iff hinside, ih hrest]
        · next hnone =>
          exact hchar (by decide) (by decide) fun _ => splitSet?_eq_none_iff.1 hnone
      · next hstar hany hset => exact hchar hstar hany fun h => absurd h hset

/-- A text fits a pattern if the pattern covers it. -/
theorem fits_parse_iff : fits (parse rule pattern) text = true ↔ Covers rule pattern text := by
  rw [fits_iff_splits, parse, splits_items_iff le_rfl]

/-- A character that has no meaning of its own in a pattern. -/
def IsPlain (c : Char) : Prop :=
  c ≠ '*' ∧ c ≠ '?' ∧ c ≠ '['

/-- With regard to case, plain characters cover themselves alone. -/
theorem covers_plain_iff (hplain : ∀ c ∈ pattern, IsPlain c) :
    Covers .exact pattern text ↔ text = pattern.map Char.toNat := by
  induction pattern generalizing text with
  | nil => exact covers_nil_iff
  | cons c pattern ih =>
    obtain ⟨hc, hpattern⟩ := List.forall_mem_cons.1 hplain
    obtain ⟨hstar, hany, hset⟩ := hc
    rw [covers_char_iff hstar hany fun h => absurd h hset, List.map_cons]
    constructor
    · intro h
      obtain ⟨code, rest, rfl, hcode, h⟩ := h
      rw [(ih hpattern).1 h, ← show c.toNat = code from hcode]
    · intro h
      exact ⟨c.toNat, _, h, rfl, (ih hpattern).2 rfl⟩

end NodeQuery.Wildcard

namespace NodeQuery.Matcher
open Wildcard

theorem codesOf_inj {s t : String} : codesOf s = codesOf t ↔ s = t := by
  have hinjective : Function.Injective Char.toNat := fun _ _ => Char.toNat_inj.1
  rw [codesOf, codesOf, (List.map_injective_iff.2 hinjective).eq_iff, String.toList_inj]

/-- A wildcard pattern is never refused, and it accepts what it covers: what its regular expression
matches from the start. One without wildcards accepts itself alone where case counts. -/
theorem accepts_wildcard_iff [Host] (settings : Settings) (pattern value : String) :
    ∃ matcher, compile settings .wildcard pattern = .ok matcher ∧
      (matcher.accepts value = true ↔
        Covers (wildcardRule settings) pattern.toList (codesOf value)) ∧
      matcher.accepts value = (toRegex (parse (wildcardRule settings) pattern.toList)).matchesAt
        (codesOf value).toArray 0 ∧
      (settings.wildcardCaseSensitive.isTruthy = true → (∀ c ∈ pattern.toList, IsPlain c) →
        ∃ fixedMatcher, compile settings .fixed pattern = .ok fixedMatcher ∧
          matcher.accepts value = fixedMatcher.accepts value) := by
  refine ⟨_, rfl, fits_parse_iff, (matchesAt_toRegex _ _).symm, ?_⟩
  intro hcase hplain
  refine ⟨_, rfl, ?_⟩
  rw [Bool.eq_iff_iff, wildcardRule, if_pos hcase]
  calc (wildcard (parse .exact pattern.toList)).accepts value = true
      ↔ Covers .exact pattern.toList (codesOf value) := fits_parse_iff
    _ ↔ codesOf value = codesOf pattern := covers_plain_iff hplain
    _ ↔ value = pattern := codesOf_inj
    _ ↔ (fixed pattern).accepts value = true := beq_iff_eq.symm

/-- A star covers line feeds, too, and nothing may stand behind what a pattern ends with. -/
theorem accepts_wildcard_iff_log :
    (∃ matcher, compile Settings.standard .wildcard "*.lo[!a-f]" = .ok matcher ∧
      matcher.accepts "a\nb.log" = true ∧ matcher.accepts "a.log\n" = false) ∧
    Settings.standard.wildcardCaseSensitive.isTruthy = true ∧
    (∀ c ∈ "a.log".toList, IsPlain c) ∧
    ∃ matcher fixedMatcher, compile Settings.standard .wildcard "a.log" = .ok matcher ∧
      compile Settings.standard .fixed "a.log" = .ok fixedMatcher ∧
      matcher.accepts "a.log" = fixedMatcher.accepts "a.log" := by
  have hplain : ∀ c ∈ "a.log".toList, IsPlain c := by
    simp [IsPlain]
  refine ⟨?_, rfl, hplain, ?_⟩
  · obtain ⟨matcher, hmatcher, hfits, -⟩ :=
      accepts_wildcard_iff Settings.standard "*.lo[!a-f]" "a\nb.log"
    obtain ⟨matcher', hmatcher', hfits', -⟩ :=
      accepts_wildcard_iff Settings.standard "*.lo[!a-f]" "a.log\n"
    obtain rfl : matcher = matcher' := Except.ok.inj (hmatcher.symm.trans hmatcher')
    refine ⟨matcher, hmatcher, hfits.2 (fits_parse_iff.1 (by decide +kernel)), ?_⟩
    rw [← Bool.not_eq_true, hfits', ← fits_parse_iff]
    decide +kernel
  · obtain ⟨matcher, hmatcher, -, -, hfixed⟩ :=
      accepts_wildcard_iff Settings.standard "a.log" "a.log"
    obtain ⟨fixedMatcher, hfixedMatcher, hsame⟩ := hfixed rfl hplain
    exact ⟨matcher, fixedMatcher, hmatcher, hfixedMatcher, hsame⟩

end NodeQuery.Matcher
