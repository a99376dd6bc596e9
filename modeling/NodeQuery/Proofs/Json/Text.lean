import Mathlib.Data.List.Basic
import NodeQuery.Json.Reader
import NodeQuery.Json.Writer
/-!
Texts in JSON. Each character is written in a form that is read as the character: as it is, as an
escaped letter, as one escape by number or, beyond the first plane, as two that are joined
(`readText_writeChar`). So every text is read back up to its closing quote.
-/
namespace NodeQuery.Json

/-! ## Hexadecimal digits -/

theorem hex_succ {width : ℕ} (hwidth : 0 < width) (n : ℕ) :
    (Text.hex (width + 1) n).toList = (Text.hex width (n / 16)).toList ++ [(n % 16).digitChar] := by
  simp only [Text.hex, String.toList_ofList]
  rcases Nat.lt_or_ge n 16 with hsmall | hlarge
  · have hquotient : n / 16 = 0 := by omega
    rw [Nat.toDigits_of_lt_base hsmall, hquotient, Nat.toDigits_zero, Nat.mod_eq_of_lt hsmall]
    obtain ⟨w, rfl⟩ : ∃ w, width = w + 1 := ⟨width - 1, by omega⟩
    simp [← List.replicate_succ', List.replicate_succ]
  · rw [Nat.toDigits_of_base_le (by decide) hlarge]
    simp

theorem hex_one {n : ℕ} (h : n < 16) : (Text.hex 1 n).toList = [n.digitChar] := by
  simp [Text.hex, Nat.toDigits_of_lt_base h]

theorem hexValue?_digitChar {n : ℕ} (h : n < 16) : hexValue? n.digitChar = some n := by
  revert n
  decide

theorem hex_four {n : ℕ} (h : n < 0x10000) : (Text.hex 4 n).toList =
    [(n / 16 / 16 / 16).digitChar, (n / 16 / 16 % 16).digitChar, (n / 16 % 16).digitChar,
      (n % 16).digitChar] := by
  rw [hex_succ (by decide), hex_succ (by decide), hex_succ (by decide), hex_one (by omega)]
  rfl

/-- Four hexadecimal digits are read as the number that they are written for. -/
theorem exists_hexFour {n : ℕ} (h : n < 0x10000) : ∃ a b c d,
    (Text.hex 4 n).toList = [a, b, c, d] ∧ hexFour? a b c d = some n := by
  refine ⟨_, _, _, _, hex_four h, ?_⟩
  simp only [hexFour?, hexValue?_digitChar (show n / 16 / 16 / 16 < 16 by omega),
    hexValue?_digitChar (Nat.mod_lt _ (by decide : 0 < 16)), Option.bind_eq_bind,
    Option.bind_some, Option.pure_def, Option.some_inj]
  omega

/-! ## Halves -/

/-- No character is half of one. -/
theorem toNat_no_half (c : Char) : isHighHalf c.toNat = false ∧ isLowHalf c.toNat = false := by
  have hvalid : c.toNat < 0xD800 ∨ 0xDFFF < c.toNat ∧ c.toNat < 0x110000 := c.valid
  simp only [isHighHalf, isLowHalf, Bool.and_eq_false_iff, decide_eq_false_iff_not]
  omega

/-- The codes of characters make up their text. -/
theorem textOf?_toNat (chars : List Char) :
    textOf? (chars.map Char.toNat) = some (String.ofList chars) := by
  have hhalf : ((chars.map Char.toNat).any fun code => isHighHalf code || isLowHalf code) =
      false := by
    simp [toNat_no_half]
  simp [textOf?, hhalf, Function.comp_def]

section
variable {c : Char} (hc : 0x10000 ≤ c.toNat)
include hc

theorem halves_of_le : isHighHalf (0xD800 + (c.toNat - 0x10000) / 0x400) = true ∧
    isLowHalf (0xDC00 + (c.toNat - 0x10000) % 0x400) = true ∧
    isLowHalf (0xD800 + (c.toNat - 0x10000) / 0x400) = false := by
  have hvalid : c.toNat < 0xD800 ∨ 0xDFFF < c.toNat ∧ c.toNat < 0x110000 := c.valid
  simp only [isHighHalf, isLowHalf, Bool.and_eq_true, Bool.and_eq_false_iff, decide_eq_true_eq,
    decide_eq_false_iff_not]
  omega

theorem joinHalves_of_le : joinHalves (0xD800 + (c.toNat - 0x10000) / 0x400)
    (0xDC00 + (c.toNat - 0x10000) % 0x400) = c.toNat := by
  unfold joinHalves
  omega

end

/-! ## Characters -/

section
variable (start : ℕ) (before : List ℕ) (place : ℕ) {rest : List Char} (hrest : rest ≠ [])
include hrest

omit hrest in
theorem exists_unitEscape {code : ℕ} (hcode : code < 0x10000) (rest : List Char) : ∃ a b c d,
    (unitEscape code).toList ++ rest = '\\' :: 'u' :: a :: b :: c :: d :: rest ∧
      hexFour? a b c d = some code := by
  obtain ⟨a, b, c, d, hdigits, hvalue⟩ := exists_hexFour hcode
  refine ⟨a, b, c, d, ?_, hvalue⟩
  rw [unitEscape, String.toList_append, hdigits]
  rfl

/-- An escape by number that completes nothing. -/
theorem readText_unitEscape {code : ℕ} (hcode : code < 0x10000) :
    readText start none before place ((unitEscape code).toList ++ rest) =
      readText start (if isHighHalf code then some code else none) (code :: before) (place + 6)
        rest := by
  obtain ⟨a, b, c, d, hchars, hvalue⟩ := exists_unitEscape hcode rest
  rw [hchars, readText, hvalue]
  simp [hrest]

/-- An escape by number that completes a first half. -/
theorem readText_lowHalf {first code : ℕ} (hcode : code < 0x10000) (hlow : isLowHalf code = true) :
    readText start (some first) before place ((unitEscape code).toList ++ rest) =
      readText start none (joinHalves first code :: before.drop 1) (place + 6) rest := by
  obtain ⟨a, b, c, d, hchars, hvalue⟩ := exists_unitEscape hcode rest
  rw [hchars, readText, hvalue]
  simp [hrest, hlow]

/-- A character is read as it was written. -/
theorem readText_writeChar (c : Char) : ∃ place',
    readText start none before place ((writeChar c).toList ++ rest) =
      readText start none (c.toNat :: before) place' rest := by
  unfold writeChar
  split
  case h_8 hquote hbackslash _ _ _ _ _ =>
    dsimp only
    split
    · next hplain =>
      refine ⟨place + 1, ?_⟩
      have hprinted : ¬ c.toNat < 32 := by omega
      rw [String.toList_ofList, List.singleton_append]
      rw [readText, if_neg hprinted]
      all_goals simp_all
    · split
      · next hcode =>
        obtain ⟨hhigh, hlow⟩ := toNat_no_half c
        refine ⟨place + 6, ?_⟩
        rw [readText_unitEscape _ _ _ hrest hcode, hhigh]
        rfl
      · next hcode =>
        have hlarge : 0x10000 ≤ c.toNat := by omega
        have hvalid : c.toNat < 0x110000 := by
          have hparts : c.toNat < 0xD800 ∨ 0xDFFF < c.toNat ∧ c.toNat < 0x110000 := c.valid
          omega
        obtain ⟨hhigh, hlow, -⟩ := halves_of_le hlarge
        refine ⟨place + 6 + 6, ?_⟩
        rw [String.toList_append, List.append_assoc, readText_unitEscape _ _ _ (by simp [hrest])
          (by omega), hhigh, if_pos rfl, readText_lowHalf _ _ _ hrest (by omega) hlow,
          joinHalves_of_le hlarge, List.drop_one, List.tail_cons]
  all_goals exact ⟨place + 2, by simp [readText, escaped?]⟩

end

/-! ## Texts -/

/-- The characters of a text are read up to its closing quote. -/
theorem readText_chars (start : ℕ) (chars : List Char) (before : List Char) (place : ℕ)
    (rest : List Char) : ∃ place',
    readText start none (before.map Char.toNat) place
        (chars.flatMap (fun c => (writeChar c).toList) ++ '"' :: rest) =
      .ok (String.ofList (before.reverse ++ chars), ⟨place', rest⟩) := by
  induction chars generalizing before place with
  | nil =>
    refine ⟨place + 1, ?_⟩
    rw [List.flatMap_nil, List.nil_append, readText, ← List.map_reverse, textOf?_toNat,
      List.append_nil]
  | cons c chars ih =>
    have hmore : chars.flatMap (fun c => (writeChar c).toList) ++ '"' :: rest ≠ [] := by simp
    obtain ⟨next, hnext⟩ := readText_writeChar start (before.map Char.toNat) place hmore c
    obtain ⟨place', hrest⟩ := ih (c :: before) next
    refine ⟨place', ?_⟩
    rw [List.flatMap_cons, List.append_assoc, hnext, ← List.map_cons, hrest]
    simp

theorem exists_readText (start place : ℕ) (s : String) (rest : List Char) : ∃ place',
    readText start none [] place (s.toList.flatMap (fun c => (writeChar c).toList) ++ '"' :: rest) =
      .ok (s, ⟨place', rest⟩) := by
  obtain ⟨place', h⟩ := readText_chars start s.toList [] place rest
  exact ⟨place', by simpa using h⟩

theorem writeText_toList (s : String) :
    (writeText s).toList = '"' :: (s.toList.flatMap (fun c => (writeChar c).toList) ++ ['"']) := by
  simp [writeText, String.toList_join, List.flatMap_def, Function.comp_def]

end NodeQuery.Json
