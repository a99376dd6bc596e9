import Mathlib.Algebra.Order.Floor.Semifield
import Mathlib.Data.Int.Log
import Mathlib.Data.Rat.Floor
import Mathlib.Tactic.FieldSimp
import Mathlib.Tactic.Linarith
import Mathlib.Tactic.NormNum
import Mathlib.Tactic.Positivity
import Mathlib.Tactic.Ring
import NodeQuery.Number.Binary64
/-!
Rounding to double precision. What a quotient is rounded to depends on its value alone
(`roundQuotient_congr`). A magnitude is `Representable` if it is a whole number of at most 53 bits
times a power of two in the exponent range: rounding gives such magnitudes
(`representable_of_roundQuotient`) and leaves them as they are (`roundQuotient_of_representable`).
Of two quotients the larger one is not rounded to less (`roundQuotient_mono`).
-/
namespace NodeQuery.Binary64

/-! ## Powers with whole exponents -/

/-- A power with a whole exponent as a quotient of two powers with natural ones, one of which is
one. -/
theorem zpow_eq_div {b : ℕ} (hb : b ≠ 0) (e : ℤ) :
    (b : ℚ) ^ e = (Nat.pow b e.toNat : ℕ) / (Nat.pow b (-e).toNat : ℕ) := by
  have hb' : (b : ℚ) ≠ 0 := Nat.cast_ne_zero.2 hb
  rcases Int.le_total 0 e with h | h
  · obtain ⟨n, rfl⟩ := Int.eq_ofNat_of_zero_le h
    simp
  · obtain ⟨n, hn⟩ := Int.eq_ofNat_of_zero_le (Int.neg_nonneg_of_nonpos h)
    obtain rfl : e = -(n : ℤ) := by omega
    simp

theorem two_zpow_pos (e : ℤ) : (0 : ℚ) < 2 ^ e :=
  zpow_pos two_pos e

theorem two_zpow_add (a b : ℤ) : (2 : ℚ) ^ (a + b) = 2 ^ a * 2 ^ b :=
  zpow_add₀ two_ne_zero a b

theorem two_zpow_le_iff {a b : ℤ} : (2 : ℚ) ^ a ≤ 2 ^ b ↔ a ≤ b :=
  zpow_le_zpow_iff_right₀ one_lt_two

theorem scaled_eq (m : ℕ) (e : ℤ) : scaled m e = m * 2 ^ e := by
  have hpow := zpow_eq_div two_ne_zero e
  rw [Nat.cast_ofNat] at hpow
  rw [scaled, Rat.mkRat_eq_div, hpow]
  push_cast
  ring

/-! ## Logarithms -/

section
variable {n d n' d' : ℕ}

theorem div_pos_of_pos (hn : 0 < n) (hd : 0 < d) : (0 : ℚ) < n / d :=
  div_pos (Nat.cast_pos.2 hn) (Nat.cast_pos.2 hd)

theorem two_zpow_log2_le (hn : 0 < n) : (2 : ℚ) ^ (n.log2 : ℤ) ≤ n := by
  rw [zpow_natCast]
  exact_mod_cast Nat.log2_self_le hn.ne'

theorem lt_two_zpow_log2 (n : ℕ) : (n : ℚ) < 2 ^ ((n.log2 : ℤ) + 1) := by
  rw [← Nat.cast_add_one, zpow_natCast]
  exact_mod_cast Nat.lt_log2_self

/-- A quotient lies between two powers of two next to each other. -/
theorem floorLog2_spec (hn : 0 < n) (hd : 0 < d) :
    (2 : ℚ) ^ floorLog2 n d ≤ n / d ∧ (n : ℚ) / d < 2 ^ (floorLog2 n d + 1) := by
  have hd' : (0 : ℚ) < d := Nat.cast_pos.2 hd
  have hlow : (2 : ℚ) ^ ((n.log2 : ℤ) - d.log2 - 1) ≤ n / d := by
    rw [le_div_iff₀ hd']
    calc (2 : ℚ) ^ ((n.log2 : ℤ) - d.log2 - 1) * d
        ≤ 2 ^ ((n.log2 : ℤ) - d.log2 - 1) * 2 ^ ((d.log2 : ℤ) + 1) :=
          mul_le_mul_of_nonneg_left (lt_two_zpow_log2 d).le (two_zpow_pos _).le
      _ = 2 ^ (n.log2 : ℤ) := by rw [← two_zpow_add]; congr 1; omega
      _ ≤ n := two_zpow_log2_le hn
  have hhigh : (n : ℚ) / d < 2 ^ ((n.log2 : ℤ) - d.log2 + 1) := by
    rw [div_lt_iff₀ hd']
    calc (n : ℚ) < 2 ^ ((n.log2 : ℤ) + 1) := lt_two_zpow_log2 n
      _ = 2 ^ ((n.log2 : ℤ) - d.log2 + 1) * 2 ^ (d.log2 : ℤ) := by
          rw [← two_zpow_add]; congr 1; omega
      _ ≤ 2 ^ ((n.log2 : ℤ) - d.log2 + 1) * d :=
          mul_le_mul_of_nonneg_left (two_zpow_log2_le hd) (two_zpow_pos _).le
  have htest : d * Nat.pow 2 ((n.log2 : ℤ) - d.log2).toNat ≤
      n * Nat.pow 2 (-((n.log2 : ℤ) - d.log2)).toNat ↔
      (2 : ℚ) ^ ((n.log2 : ℤ) - d.log2) ≤ n / d := by
    have hpow := zpow_eq_div two_ne_zero ((n.log2 : ℤ) - d.log2)
    rw [Nat.cast_ofNat] at hpow
    have hden : (0 : ℚ) < (Nat.pow 2 (-((n.log2 : ℤ) - d.log2)).toNat : ℕ) :=
      Nat.cast_pos.2 (Nat.pow_pos two_pos)
    rw [hpow, div_le_div_iff₀ hden hd', ← Nat.cast_mul, ← Nat.cast_mul, Nat.cast_le, mul_comm d]
  unfold floorLog2
  simp only [htest]
  split
  · next h => exact ⟨h, hhigh⟩
  · next h => exact ⟨hlow, by simpa using not_le.1 h⟩

theorem floorLog2_eq_log (hn : 0 < n) (hd : 0 < d) : floorLog2 n d = Int.log 2 ((n : ℚ) / d) := by
  obtain ⟨hlow, hhigh⟩ := floorLog2_spec hn hd
  have hpos := div_pos_of_pos hn hd
  have hle := (Int.zpow_le_iff_le_log one_lt_two hpos).1 (by exact_mod_cast hlow)
  have hlt := (Int.lt_zpow_iff_log_lt one_lt_two hpos).1 (by exact_mod_cast hhigh)
  omega

/-! ## The nearest whole number -/

theorem nearest_mul_right (n d : ℕ) {k : ℕ} (hk : 0 < k) :
    nearest (n * k) (d * k) = nearest n d := by
  have hlow : 2 * (n % d * k) < d * k ↔ 2 * (n % d) < d := by
    rw [← mul_assoc]
    exact Nat.mul_lt_mul_right hk
  have hhigh : d * k < 2 * (n % d * k) ↔ d < 2 * (n % d) := by
    rw [← mul_assoc]
    exact Nat.mul_lt_mul_right hk
  simp only [nearest, Nat.mul_div_mul_right n d hk, Nat.mul_mod_mul_right, hlow, hhigh]

theorem nearest_congr (hd : 0 < d) (hd' : 0 < d') (h : (n : ℚ) / d = n' / d') :
    nearest n d = nearest n' d' := by
  have hcross : n * d' = n' * d := by
    rw [div_eq_div_iff (Nat.cast_ne_zero.2 hd.ne') (Nat.cast_ne_zero.2 hd'.ne')] at h
    exact_mod_cast h
  rw [← nearest_mul_right n d hd', hcross, mul_comm d d', nearest_mul_right n' d' hd]

theorem nearest_le_nearest (hd : 0 < d) (h : n ≤ n') : nearest n d ≤ nearest n' d := by
  by_contra hlt
  -- the two quotients lie on either side of a half
  have hbelow := (nearest_spec n' hd).1
  have habove := (nearest_spec n hd).2
  have hgap := Nat.mul_le_mul_right d (not_le.1 hlt)
  rw [Nat.succ_mul] at hgap
  obtain rfl : n = n' := by omega
  exact hlt le_rfl

/-- Rounding to a whole number is monotone. -/
theorem nearest_mono (hd : 0 < d) (hd' : 0 < d') (h : (n : ℚ) / d ≤ n' / d') :
    nearest n d ≤ nearest n' d' := by
  rw [div_le_div_iff₀ (Nat.cast_pos.2 hd) (Nat.cast_pos.2 hd')] at h
  rw [← nearest_mul_right n d hd', ← nearest_mul_right n' d' hd, mul_comm d' d]
  exact nearest_le_nearest (Nat.mul_pos hd hd') (by exact_mod_cast h)

theorem nearest_le (n d : ℕ) : nearest n d ≤ n / d + 1 := by
  unfold nearest
  dsimp only
  split
  · omega
  · split
    · omega
    · split <;> omega

theorem le_nearest (n d : ℕ) : n / d ≤ nearest n d := by
  unfold nearest
  dsimp only
  split
  · omega
  · split
    · omega
    · split <;> omega

/-! ## Rounding -/

/-- The exponent of the last place of a magnitude. -/
def lastPlace (v : ℚ) : ℤ :=
  max (Int.log 2 v - 52) (-1074)

/-- The number of last places in a magnitude, rounded. -/
def placesOf (n d : ℕ) (e : ℤ) : ℕ :=
  nearest (n * Nat.pow 2 (-e).toNat) (d * Nat.pow 2 e.toNat)

/-- A quotient rounded to a whole number of last places. -/
def rounded (n d : ℕ) : ℚ :=
  placesOf n d (lastPlace (n / d)) * 2 ^ lastPlace (n / d)

theorem roundQuotient_eq_some_iff (hn : 0 < n) (hd : 0 < d) {q : ℚ} :
    roundQuotient n d = some q ↔ rounded n d < 2 ^ (1024 : ℤ) ∧ rounded n d = q := by
  have hlimit : ((Nat.pow 2 1024 : ℕ) : ℚ) = 2 ^ (1024 : ℤ) := by
    simp only [Nat.pow_eq, Nat.cast_pow, Nat.cast_ofNat, zpow_ofNat]
  rw [roundQuotient, if_neg hn.ne', Option.ite_none_right_eq_some, Option.some.injEq, scaled_eq,
    hlimit, floorLog2_eq_log hn hd]
  rfl

theorem denominator_pos (hd : 0 < d) (e : ℤ) : 0 < d * Nat.pow 2 e.toNat :=
  Nat.mul_pos hd (Nat.pow_pos two_pos)

/-- The quotient that is rounded to a whole number is the magnitude in last places. -/
theorem quotient_eq (n d : ℕ) (e : ℤ) :
    ((n * Nat.pow 2 (-e).toNat : ℕ) : ℚ) / (d * Nat.pow 2 e.toNat : ℕ) = n / d / 2 ^ e := by
  have hpow := zpow_eq_div two_ne_zero e
  rw [Nat.cast_ofNat] at hpow
  rw [hpow, Nat.cast_mul, Nat.cast_mul]
  field_simp

/-- Rounding depends on the value of a quotient alone. -/
theorem roundQuotient_congr (hd : 0 < d) (hd' : 0 < d') (h : (n : ℚ) / d = n' / d') :
    roundQuotient n d = roundQuotient n' d' := by
  have hzero : n = 0 ↔ n' = 0 := by
    have hd0 : (d : ℚ) ≠ 0 := Nat.cast_ne_zero.2 hd.ne'
    have hd0' : (d' : ℚ) ≠ 0 := Nat.cast_ne_zero.2 hd'.ne'
    have hiff : (n : ℚ) / d = 0 ↔ (n' : ℚ) / d' = 0 := by rw [h]
    simpa [hd0, hd0'] using hiff
  rcases Nat.eq_zero_or_pos n with rfl | hn
  · rw [hzero.1 rfl]
    rfl
  · have hn' : 0 < n' := Nat.pos_of_ne_zero (mt hzero.2 hn.ne')
    have hplaces : ∀ e, placesOf n d e = placesOf n' d' e := fun e =>
      nearest_congr (denominator_pos hd e) (denominator_pos hd' e) (by
        rw [quotient_eq, quotient_eq, h])
    have hrounded : rounded n d = rounded n' d' := by rw [rounded, rounded, h, hplaces]
    refine Option.ext fun q => ?_
    rw [roundQuotient_eq_some_iff hn hd, roundQuotient_eq_some_iff hn' hd', hrounded]

/-- A magnitude is less than `2^53` last places. -/
theorem div_lastPlace_lt (v : ℚ) : v / 2 ^ lastPlace v < 2 ^ (53 : ℤ) := by
  rw [div_lt_iff₀ (two_zpow_pos _), ← two_zpow_add]
  refine lt_of_lt_of_le (Int.lt_zpow_succ_log_self one_lt_two v) ?_
  rw [Nat.cast_ofNat, two_zpow_le_iff, lastPlace]
  omega

theorem placesOf_le (n : ℕ) (hd : 0 < d) : placesOf n d (lastPlace (n / d)) ≤ 2 ^ 53 := by
  have hlt := div_lastPlace_lt ((n : ℚ) / d)
  rw [← quotient_eq, div_lt_iff₀ (Nat.cast_pos.2 (denominator_pos hd _))] at hlt
  have hfloor := (Nat.div_lt_iff_lt_mul (denominator_pos hd (lastPlace (n / d)))).2
    (by exact_mod_cast hlt)
  exact (nearest_le _ _).trans hfloor

/-- Unless the last place is the smallest there is, a magnitude has 53 bits before it. -/
theorem le_placesOf (hn : 0 < n) (hd : 0 < d) (h : -1074 < lastPlace ((n : ℚ) / d)) :
    2 ^ 52 ≤ placesOf n d (lastPlace (n / d)) := by
  have hlast : lastPlace ((n : ℚ) / d) = Int.log 2 ((n : ℚ) / d) - 52 := by
    rw [lastPlace] at h ⊢
    omega
  have hmany : (2 : ℚ) ^ (52 : ℤ) ≤ n / d / 2 ^ lastPlace ((n : ℚ) / d) := by
    have hlog := Int.zpow_log_le_self one_lt_two (div_pos_of_pos hn hd)
    rw [Nat.cast_ofNat] at hlog
    rw [le_div_iff₀ (two_zpow_pos _), ← two_zpow_add, hlast, add_sub_cancel]
    exact hlog
  have hden := denominator_pos hd (lastPlace ((n : ℚ) / d))
  rw [← quotient_eq, le_div_iff₀ (Nat.cast_pos.2 hden)] at hmany
  refine le_trans ?_ (le_nearest _ _)
  rw [Nat.le_div_iff_mul_le hden]
  exact_mod_cast hmany

theorem lastPlace_mono {v v' : ℚ} (hv : 0 < v) (h : v ≤ v') : lastPlace v ≤ lastPlace v' :=
  max_le_max_right _ (sub_le_sub_right (Int.log_mono_right hv h) 52)

theorem rounded_mono (hn : 0 < n) (hn' : 0 < n') (hd : 0 < d) (hd' : 0 < d')
    (h : (n : ℚ) / d ≤ n' / d') : rounded n d ≤ rounded n' d' := by
  rw [rounded, rounded]
  rcases (lastPlace_mono (div_pos_of_pos hn hd) h).eq_or_lt with heq | hlt
  · -- both are rounded to the same place
    rw [← heq]
    refine mul_le_mul_of_nonneg_right (Nat.cast_le.2 ?_) (two_zpow_pos _).le
    refine nearest_mono (denominator_pos hd _) (denominator_pos hd' _) ?_
    rw [quotient_eq, quotient_eq]
    exact div_le_div_of_nonneg_right h (two_zpow_pos _).le
  · -- a power of two lies between the results
    have hlast : -1074 ≤ lastPlace ((n : ℚ) / d) := le_max_right _ _
    calc (placesOf n d (lastPlace (n / d)) : ℚ) * 2 ^ lastPlace ((n : ℚ) / d)
        ≤ 2 ^ (53 : ℤ) * 2 ^ lastPlace ((n : ℚ) / d) :=
          mul_le_mul_of_nonneg_right (by exact_mod_cast placesOf_le n hd) (two_zpow_pos _).le
      _ ≤ 2 ^ (52 : ℤ) * 2 ^ lastPlace ((n' : ℚ) / d') := by
          rw [← two_zpow_add, ← two_zpow_add, two_zpow_le_iff]
          omega
      _ ≤ placesOf n' d' (lastPlace (n' / d')) * 2 ^ lastPlace ((n' : ℚ) / d') :=
          mul_le_mul_of_nonneg_right
            (by exact_mod_cast le_placesOf hn' hd' (hlast.trans_lt hlt)) (two_zpow_pos _).le

/-! ## Magnitudes that are represented exactly -/

/-- A magnitude of double precision: at most 53 bits times a power of two in the exponent range. -/
def Representable (q : ℚ) : Prop :=
  ∃ (m : ℕ) (e : ℤ), m < 2 ^ 53 ∧ -1074 ≤ e ∧ q = m * 2 ^ e ∧ q < 2 ^ (1024 : ℤ)

theorem Representable.nonneg {q : ℚ} (h : Representable q) : 0 ≤ q := by
  obtain ⟨m, e, -, -, rfl, -⟩ := h
  exact mul_nonneg (Nat.cast_nonneg m) (two_zpow_pos e).le

theorem representable_zero : Representable 0 :=
  ⟨0, 0, by norm_num, by norm_num, by norm_num, by norm_num⟩

/-- A representable magnitude is a whole number of its last places. -/
theorem Representable.exists_places {q : ℚ} (h : Representable q) (hq : 0 < q) :
    ∃ m : ℕ, q = m * 2 ^ lastPlace q := by
  obtain ⟨m, e, hm, he, hqe, -⟩ := h
  have hlog : Int.log 2 q < e + 53 := by
    refine (Int.lt_zpow_iff_log_lt one_lt_two hq).1 ?_
    rw [Nat.cast_ofNat, hqe, add_comm, two_zpow_add]
    exact mul_lt_mul_of_pos_right (by exact_mod_cast hm) (two_zpow_pos e)
  have hle : lastPlace q ≤ e := by
    rw [lastPlace]
    omega
  obtain ⟨k, hk⟩ := Int.eq_ofNat_of_zero_le (Int.sub_nonneg_of_le hle)
  have hsplit : e = k + lastPlace q := by omega
  refine ⟨m * 2 ^ k, ?_⟩
  calc q = m * 2 ^ ((k : ℤ) + lastPlace q) := by rw [← hsplit]; exact hqe
    _ = ((m * 2 ^ k : ℕ) : ℚ) * 2 ^ lastPlace q := by
        rw [two_zpow_add, zpow_natCast, ← mul_assoc]; push_cast; rfl

/-- A representable magnitude is not changed by rounding. -/
theorem roundQuotient_of_representable (hd : 0 < d) {q : ℚ} (hvalue : (n : ℚ) / d = q)
    (h : Representable q) : roundQuotient n d = some q := by
  rcases Nat.eq_zero_or_pos n with rfl | hn
  · rw [← hvalue]
    simp [roundQuotient]
  · have hq : 0 < q := hvalue ▸ div_pos_of_pos hn hd
    obtain ⟨m, hm⟩ := h.exists_places hq
    have hplaces : placesOf n d (lastPlace q) = m := by
      have hquotient : ((n * Nat.pow 2 (-lastPlace q).toNat : ℕ) : ℚ) /
          (d * Nat.pow 2 (lastPlace q).toNat : ℕ) = m / (1 : ℕ) := by
        rw [quotient_eq, hvalue, Nat.cast_one, div_one,
          div_eq_iff (two_zpow_pos (lastPlace q)).ne']
        exact hm
      rw [placesOf, nearest_congr (denominator_pos hd _) one_pos hquotient]
      simpa using nearest_mul_self m one_pos
    obtain ⟨-, -, -, -, -, hlimit⟩ := h
    have hrounded : rounded n d = q := by rw [rounded, hvalue, hplaces, ← hm]
    exact (roundQuotient_eq_some_iff hn hd).2 ⟨hrounded ▸ hlimit, hrounded⟩

/-- Rounding gives representable magnitudes. -/
theorem representable_of_roundQuotient (hd : 0 < d) {q : ℚ} (h : roundQuotient n d = some q) :
    Representable q := by
  rcases Nat.eq_zero_or_pos n with rfl | hn
  · cases h
    exact representable_zero
  · obtain ⟨hlimit, rfl⟩ := (roundQuotient_eq_some_iff hn hd).1 h
    have hlast : -1074 ≤ lastPlace ((n : ℚ) / d) := le_max_right _ _
    rcases Nat.lt_or_eq_of_le (placesOf_le n hd) with hlt | heq
    · exact ⟨_, _, hlt, hlast, rfl, hlimit⟩
    · -- a carry into the 54th bit
      refine ⟨2 ^ 52, lastPlace (n / d) + 1, by norm_num, by omega, ?_, hlimit⟩
      rw [rounded, heq, two_zpow_add]
      push_cast
      ring

/-- What is rounded to one last place at least is half of it at least. -/
theorem half_le_of_placesOf_pos (hd : 0 < d) {e : ℤ} (h : 0 < placesOf n d e) :
    (1 : ℚ) / 2 * 2 ^ e ≤ n / d := by
  have hden := denominator_pos hd e
  have hspec := (nearest_spec (n * Nat.pow 2 (-e).toNat) hden).2
  have hplace := Nat.le_mul_of_pos_left (d * Nat.pow 2 e.toNat) h
  have hhalf : d * Nat.pow 2 e.toNat ≤ n * Nat.pow 2 (-e).toNat * 2 := by
    rw [placesOf] at hplace
    omega
  rw [← le_div_iff₀ (two_zpow_pos e), ← quotient_eq, div_le_div_iff₀ two_pos (Nat.cast_pos.2 hden),
    one_mul]
  exact_mod_cast hhalf

/-- Beyond the limit there would be `2^52` last places of at least `2^972`. -/
theorem lt_of_rounded_lt (hn : 0 < n) (hd : 0 < d) (h : rounded n d < 2 ^ (1024 : ℤ)) :
    (n : ℚ) / d < 2 ^ (1024 : ℤ) := by
  by_contra hlarge
  have hlog : 1024 ≤ Int.log 2 ((n : ℚ) / d) :=
    (Int.zpow_le_iff_le_log one_lt_two (div_pos_of_pos hn hd)).1
      (by rw [Nat.cast_ofNat]; exact not_lt.1 hlarge)
  have hlast : 972 ≤ lastPlace ((n : ℚ) / d) := by
    rw [lastPlace]
    omega
  refine absurd h (not_lt.2 ?_)
  calc (2 : ℚ) ^ (1024 : ℤ) ≤ 2 ^ (52 + lastPlace ((n : ℚ) / d)) :=
        two_zpow_le_iff.2 (by omega)
    _ = ((2 ^ 52 : ℕ) : ℚ) * 2 ^ lastPlace ((n : ℚ) / d) := by
        rw [two_zpow_add]; norm_num
    _ ≤ placesOf n d (lastPlace (n / d)) * 2 ^ lastPlace ((n : ℚ) / d) :=
        mul_le_mul_of_nonneg_right (by exact_mod_cast le_placesOf hn hd (by omega))
          (two_zpow_pos _).le

/-- What is rounded to a magnitude other than zero is not too small and not too large. -/
theorem bounds_of_roundQuotient (hd : 0 < d) {q : ℚ} (h : roundQuotient n d = some q)
    (hq : 0 < q) : (2 : ℚ) ^ (-1075 : ℤ) ≤ n / d ∧ (n : ℚ) / d < 2 ^ (1024 : ℤ) := by
  have hn : 0 < n := by
    rcases Nat.eq_zero_or_pos n with rfl | hn
    · cases h
      exact absurd hq (lt_irrefl 0)
    · exact hn
  obtain ⟨hlimit, rfl⟩ := (roundQuotient_eq_some_iff hn hd).1 h
  have hplaces : 0 < placesOf n d (lastPlace (n / d)) := by
    refine Nat.pos_of_ne_zero fun hzero => ?_
    rw [rounded, hzero] at hq
    simp at hq
  have hlast : -1074 ≤ lastPlace ((n : ℚ) / d) := le_max_right _ _
  refine ⟨?_, lt_of_rounded_lt hn hd hlimit⟩
  calc (2 : ℚ) ^ (-1075 : ℤ) ≤ 2 ^ (-1 + lastPlace ((n : ℚ) / d)) :=
        two_zpow_le_iff.2 (by omega)
    _ = 1 / 2 * 2 ^ lastPlace ((n : ℚ) / d) := by rw [two_zpow_add]; norm_num
    _ ≤ n / d := half_le_of_placesOf_pos hd hplaces

theorem quotient_le (hd : 0 < d) (hd' : 0 < d') (h : n * d' ≤ n' * d) : (n : ℚ) / d ≤ n' / d' := by
  rw [div_le_div_iff₀ (Nat.cast_pos.2 hd) (Nat.cast_pos.2 hd')]
  exact_mod_cast h

/-- What is at most a number that is not too large is not too large, either. -/
theorem exists_roundQuotient_le (hd : 0 < d) (hd' : 0 < d') (h : (n : ℚ) / d ≤ n' / d') {q' : ℚ}
    (hq' : roundQuotient n' d' = some q') : ∃ q, roundQuotient n d = some q ∧ q ≤ q' := by
  rcases Nat.eq_zero_or_pos n with rfl | hn
  · exact ⟨0, rfl, (representable_of_roundQuotient hd' hq').nonneg⟩
  · have hn' : 0 < n' := by
      have hpos := (div_pos_of_pos hn hd).trans_le h
      rw [lt_div_iff₀ (Nat.cast_pos.2 hd'), zero_mul] at hpos
      exact_mod_cast hpos
    have hmono := rounded_mono hn hn' hd hd' h
    obtain ⟨hlimit, rfl⟩ := (roundQuotient_eq_some_iff hn' hd').1 hq'
    exact ⟨_, (roundQuotient_eq_some_iff hn hd).2 ⟨hmono.trans_lt hlimit, rfl⟩, hmono⟩

/-- Rounding is monotone. -/
theorem roundQuotient_mono (hd : 0 < d) (hd' : 0 < d') {q q' : ℚ} (h : (n : ℚ) / d ≤ n' / d')
    (hq : roundQuotient n d = some q) (hq' : roundQuotient n' d' = some q') : q ≤ q' := by
  obtain ⟨r, hr, hle⟩ := exists_roundQuotient_le hd hd' h hq'
  rwa [Option.some.inj (hq.symm.trans hr)]

/-- From a half up to one the last place is worth `2^-53`. -/
theorem lastPlace_of_half_le {v : ℚ} (hhalf : 1 / 2 ≤ v) (hone : v < 1) : lastPlace v = -53 := by
  have hpos : 0 < v := lt_of_lt_of_le (by norm_num) hhalf
  have hlow : -1 ≤ Int.log 2 v := (Int.zpow_le_iff_le_log one_lt_two hpos).1 (by simpa using hhalf)
  have hhigh : Int.log 2 v < 0 := (Int.lt_zpow_iff_log_lt one_lt_two hpos).1 (by simpa using hone)
  rw [lastPlace]
  omega

end
end NodeQuery.Binary64
