import Mathlib.Data.Nat.Prime.Basic
import NodeQuery.Number.Decimal
import NodeQuery.Proofs.Number.Rounding
/-!
Decimals read back. `Decimal.value` is what a decimal stands for, and reading gives what this value
is rounded to (`ofDecimal_of_value`), so digits may be written in any way that keeps the value. The
digits of `shortest` read back as the magnitude that they are found for (`ofDecimal_shortest`).
-/
namespace NodeQuery.Binary64

/-- The number that a decimal stands for. -/
def Decimal.value (x : Decimal) : ℚ :=
  x.digits * 10 ^ x.exponent

theorem pow_ten_pos (n : ℕ) : 0 < Nat.pow 10 n :=
  Nat.pow_pos (by norm_num)

theorem ten_zpow_pos (e : ℤ) : (0 : ℚ) < 10 ^ e :=
  zpow_pos (by norm_num) e

/-- The quotient that is rounded when a decimal is read. -/
theorem decimal_quotient (x : Decimal) :
    ((x.digits * Nat.pow 10 x.exponent.toNat : ℕ) : ℚ) / (Nat.pow 10 (-x.exponent).toNat : ℕ) =
      x.value := by
  have hpow := zpow_eq_div (b := 10) (by norm_num) x.exponent
  rw [Nat.cast_ofNat] at hpow
  rw [Decimal.value, hpow, Nat.cast_mul, mul_div_assoc]

/-! ## The order of magnitude -/

section
variable {a j : ℤ}

/-- A thousand is less than `2^10`. -/
theorem le_of_two_zpow_le (hj : 0 ≤ j) (h : (2 : ℚ) ^ a ≤ 10 ^ j) : 3 * a ≤ 10 * j := by
  rw [← two_zpow_le_iff]
  calc (2 : ℚ) ^ (3 * a) = (2 ^ a) ^ (3 : ℤ) := by rw [mul_comm, zpow_mul]
    _ ≤ (10 ^ j) ^ (3 : ℤ) := zpow_le_zpow_left₀ (by norm_num) (two_zpow_pos a).le h
    _ = (10 ^ (3 : ℤ)) ^ j := by rw [← zpow_mul, ← zpow_mul, mul_comm]
    _ ≤ (2 ^ (10 : ℤ)) ^ j := zpow_le_zpow_left₀ hj (by norm_num) (by norm_num)
    _ = 2 ^ (10 * j) := (zpow_mul _ _ _).symm

/-- `2^93` is less than `10^28`. -/
theorem le_of_le_two_zpow (hj : 0 ≤ j) (h : (10 : ℚ) ^ j ≤ 2 ^ a) : 93 * j ≤ 28 * a := by
  rw [← two_zpow_le_iff]
  calc (2 : ℚ) ^ (93 * j) = (2 ^ (93 : ℤ)) ^ j := zpow_mul _ _ _
    _ ≤ (10 ^ (28 : ℤ)) ^ j := zpow_le_zpow_left₀ hj (by norm_num) (by norm_num)
    _ = (10 ^ j) ^ (28 : ℤ) := by rw [← zpow_mul, ← zpow_mul, mul_comm]
    _ ≤ (2 ^ a) ^ (28 : ℤ) := zpow_le_zpow_left₀ (by norm_num) (ten_zpow_pos j).le h
    _ = 2 ^ (28 * a) := by rw [mul_comm, zpow_mul]

theorem inv_zpow_le {b c : ℚ} (hb : 0 < b) (h : b ^ a ≤ c ^ j) :
    c ^ (-j) ≤ b ^ (-a) := by
  rw [zpow_neg, zpow_neg]
  exact inv_anti₀ (zpow_pos hb a) h

end

section
variable {x y : Decimal} {q : ℚ}

/-- The estimate of the order of magnitude lets no number pass for infinite or zero that is neither,
as long as its last place is not too far behind the point. -/
theorem order_bounds (hdigits : 0 < x.digits) (hexponent : -5000 ≤ x.exponent)
    (hlow : (2 : ℚ) ^ (-1075 : ℤ) ≤ x.value) (hhigh : x.value < 2 ^ (1024 : ℤ)) :
    -orderLimit ≤ (x.digits.log2 : ℤ) * 30103 / 100000 + x.exponent ∧
      (x.digits.log2 : ℤ) * 30103 / 100000 + x.exponent ≤ orderLimit := by
  have hten := ten_zpow_pos x.exponent
  have hupper : (10 : ℚ) ^ x.exponent ≤ 2 ^ (1024 - (x.digits.log2 : ℤ)) := by
    rw [zpow_sub₀ two_ne_zero, le_div_iff₀ (two_zpow_pos _), mul_comm]
    exact (mul_le_mul_of_nonneg_right (two_zpow_log2_le hdigits) hten.le).trans hhigh.le
  have hlower : (2 : ℚ) ^ (-1075 - ((x.digits.log2 : ℤ) + 1)) ≤ 10 ^ x.exponent := by
    rw [zpow_sub₀ two_ne_zero, div_le_iff₀ (two_zpow_pos _), mul_comm]
    exact hlow.trans (mul_le_mul_of_nonneg_right (lt_two_zpow_log2 x.digits).le hten.le)
  unfold orderLimit
  rcases Int.lt_or_le x.exponent 0 with hneg | hpos
  · have hup := le_of_two_zpow_le (by omega) (inv_zpow_le (by norm_num) hupper)
    have hdown := le_of_le_two_zpow (by omega) (inv_zpow_le two_pos hlower)
    omega
  · have hup := le_of_le_two_zpow hpos hupper
    omega

/-! ## Reading -/

theorem digits_pos_of_round (hq : 0 < q)
    (h : roundQuotient (x.digits * Nat.pow 10 x.exponent.toNat) (Nat.pow 10 (-x.exponent).toNat) =
      some q) : 0 < x.digits := by
  rcases Nat.eq_zero_or_pos x.digits with hzero | hpos
  · rw [hzero, Nat.zero_mul] at h
    cases h
    exact absurd hq (lt_irrefl 0)
  · exact hpos

/-- A decimal is read as what its quotient is rounded to. -/
theorem ofDecimal_of_round (negative : Bool) (hexponent : -5000 ≤ x.exponent) (hq : 0 < q)
    (h : roundQuotient (x.digits * Nat.pow 10 x.exponent.toNat) (Nat.pow 10 (-x.exponent).toNat) =
      some q) : ofDecimal negative x.digits x.exponent = .finite negative q := by
  have hdigits := digits_pos_of_round hq h
  obtain ⟨hlow, hhigh⟩ := bounds_of_roundQuotient (pow_ten_pos _) h hq
  rw [decimal_quotient] at hlow hhigh
  obtain ⟨hfloor, hceil⟩ := order_bounds hdigits hexponent hlow hhigh
  simp only [ofDecimal, if_neg hdigits.ne', if_neg (not_lt.2 hceil), if_neg (not_lt.2 hfloor),
    ofQuotient, h]

/-- Read as a finite number other than zero is only what is rounded to it. -/
theorem round_of_ofDecimal {negative : Bool} (hq : 0 < q)
    (h : ofDecimal negative x.digits x.exponent = .finite negative q) :
    roundQuotient (x.digits * Nat.pow 10 x.exponent.toNat) (Nat.pow 10 (-x.exponent).toNat) =
      some q := by
  simp only [ofDecimal] at h
  split at h
  · cases h
    exact absurd hq (lt_irrefl 0)
  · split at h
    · cases h
    · split at h
      · cases h
        exact absurd hq (lt_irrefl 0)
      · unfold ofQuotient at h
        split at h
        · next hround =>
          cases h
          exact hround
        · cases h

/-- Decimals of the same value are read as the same number. -/
theorem ofDecimal_of_value (h : ofDecimal false x.digits x.exponent = .finite false q)
    (hq : 0 < q) (hvalue : x.value = y.value) (hexponent : -5000 ≤ y.exponent) (negative : Bool) :
    ofDecimal negative y.digits y.exponent = .finite negative q := by
  refine ofDecimal_of_round negative hexponent hq ?_
  rw [← round_of_ofDecimal hq h]
  refine roundQuotient_congr (pow_ten_pos _) (pow_ten_pos _) ?_
  rw [decimal_quotient, decimal_quotient, hvalue]

/-! ## The fewest digits -/

theorem ofDecimal_withDigits {place : ℤ} {count : ℕ} (h : withDigits? q place count = some x) :
    ofDecimal false x.digits x.exponent = .finite false q ∧ x.exponent = place - count := by
  simp only [withDigits?, Bool.and_eq_true, beq_iff_eq] at h
  split at h
  · next hreads =>
    cases h
    exact ⟨hreads.1, rfl⟩
  · split at h
    · next hreads =>
      cases h
      exact ⟨hreads, rfl⟩
    · cases h

theorem le_decimalPlace (n d : ℕ) : floorLog2 n d * 30103 / 100000 - 1 ≤ decimalPlace n d := by
  unfold decimalPlace
  dsimp only
  split
  · omega
  · split
    · omega
    · split <;> omega

section
variable (h : Representable q) (hq : 0 < q)
include h

/-- The least magnitude other than zero is `2^-1074`. -/
theorem Representable.two_zpow_le (hq : 0 < q) : (2 : ℚ) ^ (-1074 : ℤ) ≤ q := by
  obtain ⟨m, e, -, he, rfl, -⟩ := h
  have hm : 1 ≤ m := by
    refine Nat.one_le_iff_ne_zero.2 fun hzero => ?_
    rw [hzero] at hq
    simp at hq
  calc (2 : ℚ) ^ (-1074 : ℤ) ≤ 2 ^ e := two_zpow_le_iff.2 he
    _ ≤ m * 2 ^ e := le_mul_of_one_le_left (two_zpow_pos e).le (by exact_mod_cast hm)

omit h in
/-- The denominator of a whole number times a power of two is a power of two. -/
theorem den_eq_two_pow {m k : ℕ} {e : ℤ} (he : -(k : ℤ) ≤ e) (hq : q = m * 2 ^ e) :
    ∃ i ≤ k, q.den = 2 ^ i := by
  obtain ⟨j, hj⟩ := Int.eq_ofNat_of_zero_le (show 0 ≤ e + k by omega)
  have hsplit : (2 : ℚ) ^ e * 2 ^ k = 2 ^ j := by
    rw [← zpow_natCast, ← two_zpow_add, hj]
    exact zpow_natCast _ _
  have hquotient : q = Rat.divInt (m * 2 ^ j : ℕ) (2 ^ k : ℕ) := by
    rw [Rat.divInt_eq_div, eq_div_iff (by exact_mod_cast pow_ne_zero k two_ne_zero), hq]
    push_cast
    rw [mul_assoc, hsplit]
  have hdvd : (q.den : ℤ) ∣ ((2 ^ k : ℕ) : ℤ) := hquotient ▸ Rat.den_dvd _ _
  exact (Nat.dvd_prime_pow Nat.prime_two).1 (Int.natCast_dvd_natCast.1 hdvd)

omit h in
theorem num_toNat_div_den (hq : 0 < q) : (q.num.toNat : ℚ) / q.den = q := by
  have hnum : ((q.num.toNat : ℕ) : ℤ) = q.num := Int.toNat_of_nonneg (Rat.num_nonneg.2 hq.le)
  rw [← Int.cast_natCast (R := ℚ) q.num.toNat, hnum, Rat.num_div_den]

theorem ofDecimal_exactDecimal (hq : 0 < q) :
    ofDecimal false (exactDecimal q).digits (exactDecimal q).exponent = .finite false q ∧
      -1074 ≤ (exactDecimal q).exponent := by
  obtain ⟨m, e, -, he, hqe, -⟩ := id h
  obtain ⟨k, hk, hden⟩ := den_eq_two_pow (k := 1074) he hqe
  have hlog : q.den.log2 = k := by rw [hden, Nat.log2_two_pow]
  have hexponent : (exactDecimal q).exponent = -(k : ℤ) := by rw [exactDecimal, hlog]
  have hvalue : (exactDecimal q).value = q := by
    calc (exactDecimal q).value = ((q.num.toNat * 5 ^ k : ℕ) : ℚ) * 10 ^ (-(k : ℤ)) := by
          rw [Decimal.value, exactDecimal, hlog]; rfl
      _ = q.num.toNat / 2 ^ k := by
          have hten : (10 : ℚ) ^ k = 5 ^ k * 2 ^ k := by rw [← mul_pow]; norm_num
          rw [zpow_neg, zpow_natCast, hten]
          push_cast
          field_simp
      _ = q := by
          rw [← Nat.cast_ofNat, ← Nat.cast_pow, ← hden]
          exact num_toNat_div_den hq
  refine ⟨ofDecimal_of_round false (by omega) hq ?_, by omega⟩
  exact roundQuotient_of_representable (pow_ten_pos _) ((decimal_quotient _).trans hvalue) h

/-- The fewest digits read back as the magnitude that they are found for. -/
theorem ofDecimal_shortest (hq : 0 < q) :
    ofDecimal false (shortest q).digits (shortest q).exponent = .finite false q ∧
      -1074 ≤ (shortest q).exponent := by
  have hnum : 0 < q.num.toNat := by
    have := Rat.num_pos.2 hq
    omega
  have hplace : -400 ≤ decimalPlace q.num.toNat q.den := by
    have hlog : -1074 ≤ floorLog2 q.num.toNat q.den := by
      rw [floorLog2_eq_log hnum q.den_pos, num_toNat_div_den hq]
      refine (Int.zpow_le_iff_le_log one_lt_two hq).1 ?_
      rw [Nat.cast_ofNat]
      exact h.two_zpow_le hq
    have hguess := le_decimalPlace q.num.toNat q.den
    omega
  unfold shortest
  dsimp only
  cases hfind : (List.range 17).findSome? fun i =>
      withDigits? q (decimalPlace q.num.toNat q.den) (i + 1) with
  | none => exact ofDecimal_exactDecimal h hq
  | some x =>
    obtain ⟨i, hi, hx⟩ := List.exists_of_findSome?_eq_some hfind
    obtain ⟨hreads, hexponent⟩ := ofDecimal_withDigits hx
    rw [List.mem_range] at hi
    refine ⟨hreads, ?_⟩
    rw [Option.getD_some, hexponent]
    omega

end
end
end NodeQuery.Binary64
