import NodeQuery.Proofs.Match.Covering
/-!
Wildcards without regard to case. What a pattern covers then depends on the small letters of a text
alone (`Covers.congr`): sets read a code point through its variants, and these are those of its
small letter. A pattern without sets covers with regard to case only what it also covers without
(`Covers.unicode`); a negated set may lose a letter whose other case it names.
-/
namespace NodeQuery.Wildcard

variable {rule : Text.CaseRule} {pattern : List Char} {text text' : List Nat}

theorem isSpelled_of_mem_ranges (marked : List (Option Char)) :
    ∀ part ∈ ranges marked, part.IsSpelled := by
  induction marked using ranges.induct with
  | case1 => exact List.forall_mem_nil _
  | case2 first last rest ih => exact List.forall_mem_cons.2 ⟨trivial, ih⟩
  | case3 c rest hrange ih =>
    rw [ranges]
    · exact List.forall_mem_cons.2 ⟨trivial, ih⟩
    · exact hrange
  | case4 rest ih => exact List.forall_mem_cons.2 ⟨trivial, ih⟩

theorem ignoresCase_setOf (inside : List Char) : (setOf .unicode inside).IgnoresCase := by
  unfold setOf
  dsimp only
  generalize marked _ = parts
  split
  · exact Text.ignoresCase_all
  · exact Text.ignoresCase_ofParts (isSpelled_of_mem_ranges _)
  · exact Text.ignoresCase_ofParts (isSpelled_of_mem_ranges _)

theorem Covers.congr (h : Covers .unicode pattern text)
    (hsame : text.map Text.lowerCode = text'.map Text.lowerCode) :
    Covers .unicode pattern text' := by
  induction h generalizing text' with
  | nil =>
    rw [List.map_nil, eq_comm, List.map_eq_nil_iff] at hsame
    rw [hsame]
    exact .nil
  | star any h ih =>
    rw [List.map_append, eq_comm, List.map_eq_append_iff] at hsame
    obtain ⟨any', rest, rfl, -, hrest⟩ := hsame
    exact .star any' (ih hrest.symm)
  | any code h ih =>
    rw [List.map_cons, eq_comm, List.map_eq_cons_iff] at hsame
    obtain ⟨code', rest, rfl, -, hrest⟩ := hsame
    exact .any code' (ih hrest.symm)
  | set hinside hcode h ih =>
    rw [List.map_cons, eq_comm, List.map_eq_cons_iff] at hsame
    obtain ⟨code', rest, rfl, hletter, hrest⟩ := hsame
    refine .set hinside ?_ (ih hrest.symm)
    rw [ignoresCase_setOf _ _ _ hletter]
    exact hcode
  | char hstar hany hset hcode h ih =>
    rw [List.map_cons, eq_comm, List.map_eq_cons_iff] at hsame
    obtain ⟨code', rest, rfl, hletter, hrest⟩ := hsame
    refine .char hstar hany hset ?_ (ih hrest.symm)
    show Text.SameLetter _ _
    rw [Text.SameLetter, hletter]
    exact hcode

theorem Covers.unicode (h : Covers .exact pattern text) (hset : '[' ∉ pattern) :
    Covers .unicode pattern text := by
  induction h with
  | nil => exact .nil
  | star any h ih => exact .star any (ih (List.not_mem_of_not_mem_cons hset))
  | any code h ih => exact .any code (ih (List.not_mem_of_not_mem_cons hset))
  | set => exact absurd List.mem_cons_self hset
  | char hstar hany hopen hcode h ih =>
    obtain rfl : _ = _ := hcode
    exact .char hstar hany hopen (Text.CaseRule.standsFor_refl _ _)
      (ih (List.not_mem_of_not_mem_cons hset))

end NodeQuery.Wildcard

namespace NodeQuery.Matcher
open Wildcard

/-- Without regard to case a wildcard pattern accepts both of two texts that differ in the case of
ASCII letters only, or none of them; and one without sets accepts what it accepts with regard to
case. -/
theorem accepts_wildcard_caseless [Host] (respecting ignoring : Settings)
    (hrespecting : respecting.wildcardCaseSensitive.isTruthy = true)
    (hignoring : ignoring.wildcardCaseSensitive.isTruthy = false) (pattern : String) :
    ∃ strict loose, compile respecting .wildcard pattern = .ok strict ∧
      compile ignoring .wildcard pattern = .ok loose ∧
      (∀ value value' : String, (codesOf value).map Text.asciiLowerCode =
        (codesOf value').map Text.asciiLowerCode → loose.accepts value = loose.accepts value') ∧
      ('[' ∉ pattern.toList →
        ∀ value : String, strict.accepts value = true → loose.accepts value = true) := by
  have hstrict : wildcardRule respecting = .exact := if_pos hrespecting
  have hloose : wildcardRule ignoring = .unicode := if_neg (by rw [hignoring]; decide)
  have haccepts : ∀ rule value, (wildcard (parse rule pattern.toList)).accepts value = true ↔
      Covers rule pattern.toList (codesOf value) := fun rule value => fits_parse_iff
  refine ⟨_, _, rfl, rfl, ?_, ?_⟩
  · intro value value' hsame
    have hsmall := Text.map_lowerCode_congr hsame
    rw [hloose, Bool.eq_iff_iff, haccepts, haccepts]
    constructor
    · intro h
      exact h.congr hsmall
    · intro h
      exact h.congr hsmall.symm
  · intro hset value
    rw [hstrict, hloose, haccepts, haccepts]
    intro h
    exact h.unicode hset

theorem accepts_wildcard_caseless_images :
    let ignoring := { Settings.standard with wildcardCaseSensitive := .bool false }
    Settings.standard.wildcardCaseSensitive.isTruthy = true ∧
    ignoring.wildcardCaseSensitive.isTruthy = false ∧
    (∃ loose, compile ignoring .wildcard "[!a-h]mg*.PNG" = .ok loose ∧
      loose.accepts "Img_1.png" = true ∧ loose.accepts "IMG_1.PnG" = true) ∧
    ∃ strict loose, compile Settings.standard .wildcard "*.PNG" = .ok strict ∧
      compile ignoring .wildcard "*.PNG" = .ok loose ∧ strict.accepts "a.PNG" = true ∧
      loose.accepts "a.PNG" = true := by
  intro ignoring
  refine ⟨rfl, rfl, ?_, ?_⟩
  · obtain ⟨-, loose, -, hloose, hsame, -⟩ :=
      accepts_wildcard_caseless Settings.standard ignoring rfl rfl "[!a-h]mg*.PNG"
    have hfirst : loose.accepts "Img_1.png" = true := by
      cases hloose
      decide +kernel
    refine ⟨loose, hloose, hfirst, ?_⟩
    rw [← hsame "Img_1.png" "IMG_1.PnG" (by decide), hfirst]
  · obtain ⟨strict, loose, hstrict, hloose, -, hmore⟩ :=
      accepts_wildcard_caseless Settings.standard ignoring rfl rfl "*.PNG"
    have hfirst : strict.accepts "a.PNG" = true := by
      cases hstrict
      decide +kernel
    exact ⟨strict, loose, hstrict, hloose, hfirst, hmore (by decide) "a.PNG" hfirst⟩

/-- A negated set accepts less without regard to case: it names the other case of a letter, too. -/
example : Wildcard.fits (Wildcard.parse .exact "[!a]".toList) (codesOf "A") = true ∧
    Wildcard.fits (Wildcard.parse .unicode "[!a]".toList) (codesOf "A") = false := by
  decide +kernel

end NodeQuery.Matcher
