import NodeQuery.Json.Reader
import NodeQuery.Json.Writer
import NodeQuery.Proofs.Number.Numeral
/-!
Numbers in JSON text. A numeral with a sign, up to a character that can follow a value, is read as
a whole number, unless it is too long, or as the decimal that it stands for (`readNumber_chars`);
whole numbers and finite numbers of double precision are written as such numerals.
-/
namespace NodeQuery.Json
open Binary64

/-- What can follow a value in a written text: nothing, a comma or a line end. -/
def Follows (rest : List Char) : Prop :=
  ∀ c ∈ rest.head?, c = ',' ∨ c = '\n'

theorem Follows.head_ne {rest : List Char} (h : Follows rest) {c : Char} (hc : c ∈ rest.head?) :
    c.isDigit = false ∧ c ≠ '.' ∧ c ≠ 'e' ∧ c ≠ 'E' := by
  rcases h c hc with rfl | rfl <;> decide

/-- A run of digits ends before what is no digit. -/
theorem takeWhile_isDigit {digits rest : List Char} (hdigits : ∀ c ∈ digits, c.isDigit = true)
    (hrest : ∀ c ∈ rest.head?, c.isDigit = false) :
    (digits ++ rest).takeWhile Char.isDigit = digits := by
  rw [List.takeWhile_append_of_pos hdigits]
  cases rest with
  | nil => simp
  | cons c more => simp [hrest c rfl]

theorem cursor_rest_skip {c : Cursor} {before after : List Char} (h : c.rest = before ++ after) :
    (c.skip before.length).rest = after := by
  rw [Cursor.skip, h, List.drop_left]

/-! ## Exponents -/

/-- An exponent is written with a sign and digits of its magnitude. -/
theorem exponentText_eq (e : ℤ) : ∃ digits, digits ≠ [] ∧ (∀ c ∈ digits, c.isDigit = true) ∧
    digitsValue digits = e.natAbs ∧
    (exponentText e).toList = (if e < 0 then '-' else '+') :: digits := by
  have hsign : (if e < 0 then "-" else "+").toList = [if e < 0 then '-' else '+'] := by
    split <;> rfl
  have hdigits : ∀ c ∈ (toString e.natAbs).toList, c.isDigit = true := fun c hc =>
    isDigit_of_mem_toString hc
  unfold exponentText
  dsimp only
  rw [String.toList_append, hsign]
  rcases Nat.lt_or_ge (toString e.natAbs).length 2 with hshort | hlong
  · refine ⟨'0' :: (toString e.natAbs).toList, by simp, ?_, ?_, ?_⟩
    · rintro c (_ | ⟨_, hc⟩)
      · rfl
      · exact hdigits c hc
    · rw [← List.singleton_append, digitsValue_append, digitsValue_toString]
      simp [digitsValue]
    · rw [if_pos hshort, String.toList_append]
      rfl
  · refine ⟨(toString e.natAbs).toList, ?_, hdigits, digitsValue_toString _, ?_⟩
    · rw [Nat.toString_eq_repr, Nat.toList_repr]
      exact Nat.toDigits_ne_nil
    · rw [if_neg (Nat.not_lt.2 hlong)]
      rfl

section
variable {x : Numeral} {rest : List Char} (hrest : Follows rest)
include hrest

theorem exponentLength_exponent : exponentLength (x.exponent ++ rest) = x.exponent.length := by
  cases hpower : x.power with
  | none =>
    rw [Numeral.exponent, hpower]
    cases rest with
    | nil => rfl
    | cons c more =>
      obtain ⟨-, -, hsmall, hlarge⟩ := hrest.head_ne (c := c) rfl
      simp [exponentLength, hsmall, hlarge]
  | some e =>
    obtain ⟨digits, hne, hdigits, -, htext⟩ := exponentText_eq e
    have hrun : (digits ++ rest).takeWhile Char.isDigit = digits :=
      takeWhile_isDigit hdigits fun c hc => (hrest.head_ne hc).1
    have hlength : digits.length ≠ 0 := by simpa using hne
    rw [Numeral.exponent, hpower, Option.elim_some, htext]
    split <;> simp [exponentLength, hrun, hlength, Nat.add_comm, Nat.add_left_comm]

theorem head_exponent : ∀ c ∈ (x.exponent ++ rest).head?, c.isDigit = false ∧ c ≠ '.' := by
  intro c hc
  cases hpower : x.power with
  | none =>
    rw [Numeral.exponent, hpower] at hc
    exact ⟨(hrest.head_ne hc).1, (hrest.head_ne hc).2.1⟩
  | some e =>
    obtain rfl : 'e' = c := by simpa [Numeral.exponent, hpower] using hc
    decide

theorem head_fraction : ∀ c ∈ (x.fraction ++ (x.exponent ++ rest)).head?, c.isDigit = false := by
  intro c hc
  unfold Numeral.fraction at hc
  split at hc
  · exact (head_exponent hrest c hc).1
  · obtain rfl : '.' = c := by simpa using hc
    decide

theorem fractionLength_fraction (hplaces : ∀ c ∈ x.places, c.isDigit = true) :
    fractionLength (x.fraction ++ (x.exponent ++ rest)) = x.fraction.length := by
  have hhead := head_exponent (x := x) hrest
  cases hempty : x.places with
  | nil =>
    rw [Numeral.fraction, if_pos hempty, List.nil_append]
    cases hnext : x.exponent ++ rest with
    | nil => rfl
    | cons c more =>
      rw [hnext] at hhead
      simp [fractionLength, (hhead c rfl).2]
  | cons d places =>
    have hrun := takeWhile_isDigit hplaces fun c hc => (hhead c hc).1
    rw [Numeral.fraction, if_neg (by simp [hempty]), List.cons_append, fractionLength, hrun]
    simp [hempty, Nat.add_comm]

end

/-! ## Numbers -/

/-- The power of ten of a numeral is read from its mark on. -/
theorem splitSign_exponent (x : Numeral) :
    (if (splitSign (x.exponent.drop 1)).1 then -(digitsValue (splitSign (x.exponent.drop 1)).2 : ℤ)
      else digitsValue (splitSign (x.exponent.drop 1)).2) = x.power.getD 0 := by
  cases hpower : x.power with
  | none =>
    rw [Numeral.exponent, hpower]
    rfl
  | some e =>
    obtain ⟨digits, -, -, hvalue, htext⟩ := exponentText_eq e
    rw [Numeral.exponent, hpower, Option.elim_some, htext, List.drop_one, List.tail_cons]
    split
    · simp only [splitSign, hvalue, if_true, Option.getD_some]
      omega
    · simp only [splitSign, hvalue, Bool.false_eq_true, if_false, Option.getD_some]
      omega

theorem drop_fraction (x : Numeral) : x.fraction.drop 1 = x.places := by
  unfold Numeral.fraction
  split
  · next hempty => rw [hempty]; rfl
  · rfl

/-- A numeral has neither a point nor a power of ten. -/
abbrev IsWhole (x : Numeral) : Prop :=
  x.fraction.length = 0 ∧ x.exponent.length = 0

/-- The value of a numeral with a sign: a whole number unless it has a point or a power of ten. -/
def numeralValue (negative : Bool) (x : Numeral) : Json :=
  if IsWhole x then
    .int (if negative then -(digitsValue x.whole : ℤ) else digitsValue x.whole)
  else .real (ofDecimal negative x.decimal.digits x.decimal.exponent)

theorem splitMinus_chars {negative : Bool} {x : Numeral} (hvalid : x.Valid) (rest : List Char) :
    splitMinus (signChars negative ++ (x.chars ++ rest)) = (negative, x.chars ++ rest) := by
  cases negative with
  | true => rfl
  | false =>
    obtain ⟨w, ws, hwhole⟩ := List.exists_cons_of_ne_nil hvalid.whole_ne_nil
    have hne : w ≠ '-' := by
      rintro rfl
      exact absurd (hvalid.isDigit_whole '-' (by simp [hwhole])) (by decide)
    simp [signChars, Numeral.chars, hwhole, splitMinus, hne]

theorem wholeDigits_append {x : Numeral} (hvalid : x.Valid) {after : List Char}
    (hafter : ∀ c ∈ after.head?, c.isDigit = false) : wholeDigits (x.whole ++ after) = x.whole := by
  rcases hvalid.head_whole with hzero | hhead
  · rw [hzero]
    rfl
  · obtain ⟨w, ws, hwhole⟩ := List.exists_cons_of_ne_nil hvalid.whole_ne_nil
    have hne : w ≠ '0' := by simpa [hwhole] using hhead
    have hrun := takeWhile_isDigit hvalid.isDigit_whole hafter
    rw [hwhole, List.cons_append] at hrun ⊢
    simpa [wholeDigits, hne] using hrun

theorem readNumber_chars {c : Cursor} {negative : Bool} {x : Numeral} {rest : List Char}
    (hvalid : x.Valid) (hshort : IsWhole x → x.whole.length ≤ digitLimit) (hrest : Follows rest)
    (h : c.rest = signChars negative ++ (x.chars ++ rest)) :
    readNumber c =
      .ok (numeralValue negative x, c.skip (signChars negative ++ x.chars).length) := by
  have hwhole : wholeDigits (x.chars ++ rest) = x.whole := by
    rw [Numeral.chars, List.append_assoc, List.append_assoc,
      wholeDigits_append hvalid (head_fraction hrest)]
  have hdrop : (x.chars ++ rest).drop x.whole.length = x.fraction ++ (x.exponent ++ rest) := by
    rw [Numeral.chars, List.append_assoc, List.append_assoc, List.drop_left]
  have hsize : (if negative then 1 else 0) + x.whole.length + x.fraction.length +
      x.exponent.length = (signChars negative ++ x.chars).length := by
    cases negative <;> simp [signChars, Numeral.chars] <;> omega
  unfold readNumber
  simp only [h, splitMinus_chars hvalid, hwhole, hdrop,
    fractionLength_fraction hrest hvalid.isDigit_places, List.drop_left,
    exponentLength_exponent hrest, List.take_left, drop_fraction, hsize, splitSign_exponent]
  rw [if_neg (by simpa using hvalid.whole_ne_nil)]
  unfold numeralValue
  split
  · next hwhole => rw [if_neg (Nat.not_lt.2 (hshort hwhole))]
  · rfl

theorem signChars_append_whole (n : ℤ) :
    (toString n).toList = signChars (n < 0) ++ (toString n.natAbs).toList := by
  rw [Int.toString_eq_repr, Int.repr_eq_if, Nat.toString_eq_repr]
  rcases Int.lt_or_le n 0 with hneg | hpos
  · have habs : (-n).toNat = n.natAbs := by omega
    rw [if_neg (by omega), String.toList_append, habs, signChars, if_pos (by simpa using hneg)]
    rfl
  · have habs : n.toNat = n.natAbs := by omega
    rw [if_pos hpos, habs, signChars, if_neg (by simpa using hpos), List.nil_append]

/-- A whole number is written as a numeral with the digits of its magnitude. -/
theorem exists_numeral_int (n : ℤ) : ∃ (negative : Bool) (x : Numeral), x.Valid ∧
    (toString n).toList = signChars negative ++ x.chars ∧ numeralValue negative x = .int n ∧
    x.whole = (toString n.natAbs).toList := by
  refine ⟨n < 0, ⟨(toString n.natAbs).toList, [], none⟩, ?_, ?_, ?_, rfl⟩
  · have hdigits : (toString n.natAbs).toList = Nat.toDigits 10 n.natAbs := by
      rw [Nat.toString_eq_repr, Nat.toList_repr]
    refine ⟨?_, fun c hc => isDigit_of_mem_toString hc, by simp, ?_⟩
    · rw [hdigits]
      exact Nat.toDigits_ne_nil
    · rw [hdigits]
      rcases Nat.eq_zero_or_pos n.natAbs with hzero | hpos
      · rw [hzero]
        exact .inl rfl
      · exact .inr (head?_toDigits_ne hpos)
  · rw [signChars_append_whole]
    simp [Numeral.chars, Numeral.fraction, Numeral.exponent]
  · simp only [numeralValue, IsWhole, Numeral.fraction, Numeral.exponent, if_true, Option.elim_none,
      List.length_nil, and_self, digitsValue_toString]
    congr 1
    split <;> rename_i hsign <;> rw [decide_eq_true_eq] at hsign <;> omega

/-- A finite number of double precision is written as a numeral. -/
theorem exists_numeral_real {q : ℚ} (h : Representable q) (negative : Bool) :
    ∃ x : Numeral, x.Valid ∧
      (writeReal (.finite negative q)).toList = signChars negative ++ x.chars ∧
      numeralValue negative x = .real (.finite negative q) ∧ ¬ IsWhole x := by
  obtain ⟨x, htext, hvalid, hreal, hreads⟩ := toText_eq_chars h negative
  have hmarked : ¬ IsWhole x := by
    rintro ⟨hfraction, hexponent⟩
    rcases hreal with hplaces | hpower
    · simp [Numeral.fraction, hplaces] at hfraction
    · obtain ⟨e, he⟩ := Option.ne_none_iff_exists'.1 hpower
      simp [Numeral.exponent, he] at hexponent
  exact ⟨x, hvalid, htext, by rw [numeralValue, if_neg hmarked, hreads], hmarked⟩

end NodeQuery.Json
