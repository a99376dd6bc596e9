import Mathlib.Data.List.TakeWhile
import NodeQuery.Proofs.Number.Notation
/-!
Written numbers. A `Numeral` has digits before and behind a point and perhaps a power of ten; the
written form of every finite number is one, with a sign (`toText_eq_chars`), and stands for a
decimal that is read as the number.
-/
namespace NodeQuery.Binary64

/-! ## Runs of digits -/

/-- A run of digits has the value that core gives it. -/
theorem digitsValue_eq_ofDigitChars (digits : List Char) :
    digitsValue digits = Nat.ofDigitChars 10 digits 0 :=
  Nat.ofDigitChars_eq_foldl.symm

theorem digitsValue_append (a b : List Char) :
    digitsValue (a ++ b) = digitsValue a * 10 ^ b.length + digitsValue b := by
  simp only [digitsValue_eq_ofDigitChars]
  rw [Nat.ofDigitChars_append, Nat.ofDigitChars_eq_ofDigitChars_zero, Nat.mul_comm]

@[simp]
theorem digitsValue_zeros (n : ℕ) : digitsValue (List.replicate n '0') = 0 := by
  rw [digitsValue_eq_ofDigitChars, Nat.ofDigitChars_replicate_zero, Nat.mul_zero]

/-- The digits of a whole number have its value. -/
theorem digitsValue_toString (n : ℕ) : digitsValue (toString n).toList = n := by
  rw [digitsValue_eq_ofDigitChars, Nat.toString_eq_repr, Nat.toList_repr,
    Nat.ofDigitChars_ten_toDigits]

theorem isDigit_of_mem_toString {n : ℕ} {c : Char} (h : c ∈ (toString n).toList) :
    c.isDigit = true := by
  rw [Nat.toString_eq_repr, Nat.toList_repr] at h
  exact Nat.isDigit_of_mem_toDigits (by decide) (by decide) h

/-- A positive number is written without a zero in front. -/
theorem head?_toDigits_ne {n : ℕ} (hn : 0 < n) : (Nat.toDigits 10 n).head? ≠ some '0' := by
  induction n using Nat.strongRecOn with
  | ind n ih =>
    rcases Nat.lt_or_ge n 10 with hsmall | hlarge
    · rw [Nat.toDigits_of_lt_base hsmall, List.head?_cons, ne_eq, Option.some_inj,
        Nat.digitChar_eq_zero]
      exact hn.ne'
    · rw [Nat.toDigits_of_base_le (by decide) hlarge, List.head?_append_of_ne_nil _
        Nat.toDigits_ne_nil]
      exact ih (n / 10) (by omega) (by omega)

/-- Nothing but zeros is cut off. -/
theorem trimZeros_append (digits : List Char) :
    (trimZeros digits).1 ++ List.replicate (trimZeros digits).2 '0' = digits := by
  have hzeros : digits.reverse.takeWhile (· = '0') =
      List.replicate (digits.reverse.takeWhile (· = '0')).length '0' := by
    refine List.eq_replicate_iff.2 ⟨rfl, fun c hc => ?_⟩
    simpa using List.mem_takeWhile_imp hc
  have hparts := congrArg List.reverse
    (List.takeWhile_append_dropWhile (p := (· = '0')) (l := digits.reverse))
  rw [List.reverse_append, List.reverse_reverse, hzeros, List.reverse_replicate] at hparts
  exact hparts

/-! ## Numerals -/

/-- A number as it is written, without its sign. -/
structure Numeral where
  whole : List Char
  places : List Char
  power : Option ℤ

namespace Numeral

/-- The point of a numeral with the digits behind it, if there are any. -/
def fraction (x : Numeral) : List Char :=
  if x.places = [] then [] else '.' :: x.places

/-- The power of ten of a numeral with its mark. -/
def exponent (x : Numeral) : List Char :=
  x.power.elim [] fun e => 'e' :: (exponentText e).toList

/-- The characters of a numeral. -/
def chars (x : Numeral) : List Char :=
  x.whole ++ (x.fraction ++ x.exponent)

/-- The decimal that a numeral stands for. -/
def decimal (x : Numeral) : Decimal :=
  ⟨digitsValue (x.whole ++ x.places), x.power.getD 0 - x.places.length⟩

/-- A numeral in the grammar of JSON: no zero stands in front of other digits. -/
structure Valid (x : Numeral) : Prop where
  whole_ne_nil : x.whole ≠ []
  isDigit_whole : ∀ c ∈ x.whole, c.isDigit = true
  isDigit_places : ∀ c ∈ x.places, c.isDigit = true
  head_whole : x.whole = ['0'] ∨ x.whole.head? ≠ some '0'

/-- A numeral of a double-precision number: one with a point or a power of ten. -/
def IsReal (x : Numeral) : Prop :=
  x.places ≠ [] ∨ x.power ≠ none

end Numeral

/-- Digits laid out around a point: positional as long as it stands near the digits, with a power of
ten beyond. -/
def layout (digits : List Char) (point : ℤ) : Numeral :=
  if -4 < point ∧ point ≤ 16 then
    if point ≤ 0 then ⟨['0'], List.replicate (-point).toNat '0' ++ digits, none⟩
    else if point.toNat < digits.length then
      ⟨digits.take point.toNat, digits.drop point.toNat, none⟩
    else ⟨digits ++ List.replicate (point.toNat - digits.length) '0', ['0'], none⟩
  else ⟨digits.take 1, digits.drop 1, some (point - 1)⟩

section
variable {digits : List Char} (hne : digits ≠ []) (point : ℤ)
include hne

/-- The layout moves the point, not the digits. -/
theorem layout_value : (layout digits point).decimal.value =
    digitsValue digits * 10 ^ (point - digits.length) := by
  have hlength := List.length_pos_of_ne_nil hne
  unfold layout
  split
  · split
    · have hpower : (0 : ℤ) - ((-point).toNat + digits.length : ℕ) = point - digits.length := by
        omega
      have hzeros : digitsValue ('0' :: (List.replicate (-point).toNat '0' ++ digits)) =
          digitsValue digits := by
        rw [← List.cons_append, ← List.replicate_succ, digitsValue_append, digitsValue_zeros,
          Nat.zero_mul, Nat.zero_add]
      simp only [Numeral.decimal, Decimal.value, List.singleton_append, hzeros, Option.getD_none,
        List.length_append, List.length_replicate, hpower]
    · split
      · next hpos hlt =>
        have hpower : (0 : ℤ) - (digits.length - point.toNat : ℕ) = point - digits.length := by
          omega
        simp only [Numeral.decimal, Decimal.value, List.take_append_drop, List.length_drop,
          Option.getD_none, hpower]
      · next hpos hle =>
        obtain ⟨k, hk⟩ := Nat.exists_eq_add_of_le (Nat.not_lt.1 hle)
        have hpower : point - digits.length = (k : ℤ) := by omega
        have hzero : digitsValue ['0'] = 0 := rfl
        simp only [Numeral.decimal, Decimal.value, digitsValue_append, digitsValue_zeros, hzero,
          hpower, hk, Nat.add_sub_cancel_left, List.length_replicate, List.length_singleton]
        push_cast
        rw [Option.getD_none, zpow_natCast, zero_sub, zpow_neg_one]
        ring
  · have hpower : point - 1 - (digits.length - 1 : ℕ) = point - digits.length := by omega
    simp only [Numeral.decimal, Decimal.value, List.take_append_drop, List.length_drop,
      Option.getD_some, hpower]

/-- At most one zero is written behind the last digit. -/
theorem layout_exponent :
    min (point - digits.length) (-1) ≤ (layout digits point).decimal.exponent := by
  have hlength := List.length_pos_of_ne_nil hne
  unfold layout
  split
  · split
    · simp only [Numeral.decimal, List.length_append, List.length_replicate, Option.getD_none]
      omega
    · split
      · simp only [Numeral.decimal, List.length_drop, Option.getD_none]
        omega
      · simp [Numeral.decimal]
  · simp only [Numeral.decimal, List.length_drop, Option.getD_some]
    omega

theorem layout_isReal : (layout digits point).IsReal := by
  unfold layout
  split
  · split
    · exact .inl (by simp [hne])
    · split
      · next hpos hlt => exact .inl (by simpa using hlt)
      · exact .inl (by simp)
  · exact .inr (by simp)

theorem layout_valid (hdigits : ∀ c ∈ digits, c.isDigit = true) (hhead : digits.head? ≠ some '0') :
    (layout digits point).Valid := by
  have hzeros (n : ℕ) : ∀ c ∈ List.replicate n '0', c.isDigit = true := fun c hc =>
    List.eq_of_mem_replicate hc ▸ rfl
  have htake {n : ℕ} (hn : 0 < n) : digits.take n ≠ [] ∧ (digits.take n).head? ≠ some '0' := by
    cases digits with
    | nil => exact absurd rfl hne
    | cons d rest =>
      obtain ⟨m, rfl⟩ := Nat.exists_eq_add_of_lt hn
      simpa using hhead
  unfold layout
  split
  · split
    · refine ⟨by simp, by simp, fun c hc => ?_, .inl rfl⟩
      exact (List.mem_append.1 hc).elim (hzeros _ c) (hdigits c)
    · split
      · next hpos hlt =>
        obtain ⟨hwhole, hfirst⟩ := htake (n := point.toNat) (by omega)
        exact ⟨hwhole, fun c hc => hdigits c (List.mem_of_mem_take hc),
          fun c hc => hdigits c (List.mem_of_mem_drop hc), .inr hfirst⟩
      · refine ⟨by simp [hne], fun c hc => ?_, by simp, .inr ?_⟩
        · exact (List.mem_append.1 hc).elim (hdigits c) (hzeros _ c)
        · rwa [List.head?_append_of_ne_nil _ hne]
  · obtain ⟨hwhole, hfirst⟩ := htake one_pos
    exact ⟨hwhole, fun c hc => hdigits c (List.mem_of_mem_take hc),
      fun c hc => hdigits c (List.mem_of_mem_drop hc), .inr hfirst⟩

end

/-- The digits of `q` without the zeros at their end. -/
def significand (q : ℚ) : List Char :=
  (trimZeros (toString (shortest q).digits).toList).1

/-- The place of the point of `q`, counted from before its first digit. -/
def pointPlace (q : ℚ) : ℤ :=
  (significand q).length + (trimZeros (toString (shortest q).digits).toList).2 +
    (shortest q).exponent

/-- A magnitude is written as the layout of its digits around its point. -/
theorem magnitudeText_eq_chars {q : ℚ} (hne : significand q ≠ []) :
    (magnitudeText q).toList = (layout (significand q) (pointPlace q)).chars := by
  unfold magnitudeText layout pointPlace
  unfold significand at hne ⊢
  dsimp only
  generalize trimZeros (toString (shortest q).digits).toList = trimmed at hne ⊢
  obtain ⟨digits, zeros⟩ := trimmed
  generalize (digits.length + zeros + (shortest q).exponent : ℤ) = point
  dsimp only at hne ⊢
  split
  · split
    · simp [Numeral.chars, Numeral.fraction, Numeral.exponent, hne]
    · split
      · next hpos hlt => simp [Numeral.chars, Numeral.fraction, Numeral.exponent, hlt]
      · simp [Numeral.chars, Numeral.fraction, Numeral.exponent]
  · cases digits with
    | nil => exact absurd rfl hne
    | cons d rest =>
      cases rest <;> simp [Numeral.chars, Numeral.fraction, Numeral.exponent]

section
variable {q : ℚ} (h : Representable q) (hq : 0 < q)
include h hq

theorem significand_ne_nil : significand q ≠ [] := by
  intro hempty
  have hparts := trimZeros_append (toString (shortest q).digits).toList
  rw [← significand, hempty, List.nil_append] at hparts
  have hvalue := digitsValue_toString (shortest q).digits
  rw [← hparts, digitsValue_zeros] at hvalue
  have hpos := digits_pos_of_round hq (round_of_ofDecimal hq (ofDecimal_shortest h hq).1)
  omega

omit h hq in
theorem isDigit_significand : ∀ c ∈ significand q, c.isDigit = true := by
  intro c hc
  refine isDigit_of_mem_toString (n := (shortest q).digits) ?_
  rw [← trimZeros_append (toString (shortest q).digits).toList]
  exact List.mem_append_left _ hc

theorem head?_significand : (significand q).head? ≠ some '0' := by
  have hpos := digits_pos_of_round hq (round_of_ofDecimal hq (ofDecimal_shortest h hq).1)
  have hhead := head?_toDigits_ne hpos
  rw [← Nat.toList_repr, ← Nat.toString_eq_repr,
    ← trimZeros_append (toString (shortest q).digits).toList, ← significand,
    List.head?_append_of_ne_nil _ (significand_ne_nil h hq)] at hhead
  exact hhead

omit h hq in
/-- The zeros that are cut off count for the place of the point. -/
theorem value_significand :
    (digitsValue (significand q) : ℚ) * 10 ^ (pointPlace q - (significand q).length) =
      (shortest q).value := by
  have hparts := digitsValue_append (significand q)
    (List.replicate (trimZeros (toString (shortest q).digits).toList).2 '0')
  rw [significand, trimZeros_append, digitsValue_toString, digitsValue_zeros, ← significand,
    Nat.add_zero, List.length_replicate] at hparts
  rw [Decimal.value, hparts, pointPlace, add_assoc, add_sub_cancel_left,
    zpow_add₀ (by norm_num), zpow_natCast]
  push_cast
  ring

end

/-- A number that is one of double precision: what is finite has a magnitude that fits. -/
def IsDouble : Binary64 → Prop
  | .finite _ q => Representable q
  | _ => True

/-- The sign of a number as it is written. -/
def signChars (negative : Bool) : List Char :=
  if negative then ['-'] else []

/-- A finite number is written as a numeral that is read as the number. -/
theorem toText_eq_chars {q : ℚ} (h : Representable q) (negative : Bool) :
    ∃ x : Numeral, (toText (.finite negative q)).toList = signChars negative ++ x.chars ∧
      x.Valid ∧ x.IsReal ∧
      ofDecimal negative x.decimal.digits x.decimal.exponent = .finite negative q := by
  have hsign : (if negative then "-" else "").toList = signChars negative := by
    cases negative <;> rfl
  rcases eq_or_ne q 0 with rfl | hzero
  · refine ⟨⟨['0'], ['0'], none⟩, ?_, ⟨by simp, by simp, by simp, .inl rfl⟩, .inl (by simp), rfl⟩
    rw [toText, if_pos rfl, String.toList_append, hsign]
    rfl
  · have hq : 0 < q := lt_of_le_of_ne h.nonneg hzero.symm
    have hne := significand_ne_nil h hq
    obtain ⟨hreads, hexponent⟩ := ofDecimal_shortest h hq
    refine ⟨layout (significand q) (pointPlace q), ?_, layout_valid hne _ isDigit_significand
      (head?_significand h hq), layout_isReal hne _, ?_⟩
    · rw [toText, if_neg hzero, String.toList_append, hsign, magnitudeText_eq_chars hne]
    · refine ofDecimal_of_value hreads hq ?_ ?_ negative
      · rw [layout_value hne, value_significand]
      · have hbound := layout_exponent hne (pointPlace q)
        have hpoint : (shortest q).exponent ≤ pointPlace q - (significand q).length := by
          unfold pointPlace
          omega
        omega

/-! ## Numbers that are read -/

theorem ofQuotient_isDouble (negative : Bool) (n : ℕ) {d : ℕ} (hd : 0 < d) :
    (ofQuotient negative n d).IsDouble := by
  unfold ofQuotient
  split
  · next hround => exact representable_of_roundQuotient hd hround
  · trivial

theorem ofDecimal_isDouble (negative : Bool) (digits : ℕ) (exponent : ℤ) :
    (ofDecimal negative digits exponent).IsDouble := by
  unfold ofDecimal
  dsimp only
  split
  · exact representable_zero
  · split
    · trivial
    · split
      · exact representable_zero
      · exact ofQuotient_isDouble negative _ (pow_ten_pos _)

theorem readUnsigned?_isDouble {negative : Bool} {s : List Char} {x : Binary64}
    (h : readUnsigned? negative s = some x) : x.IsDouble := by
  unfold readUnsigned? at h
  dsimp only at h
  split at h
  all_goals
    obtain ⟨-, hread⟩ := Option.ite_none_left_eq_some.1 h
    obtain ⟨e, -, rfl⟩ := Option.map_eq_some_iff.1 hread
    exact ofDecimal_isDouble _ _ _

/-- What a person types is read as a number of double precision. -/
theorem ofText?_isDouble {text : String} {x : Binary64} (h : ofText? text = some x) :
    x.IsDouble := by
  unfold ofText? at h
  dsimp only at h
  split at h
  · cases h
    trivial
  · split at h
    · cases h
      trivial
    · obtain ⟨body, -, hread⟩ := Option.bind_eq_some_iff.1 h
      exact readUnsigned?_isDouble hread

end NodeQuery.Binary64
