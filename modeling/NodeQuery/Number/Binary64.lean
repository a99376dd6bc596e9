/-!
Double-precision numbers as exact data. A finite number is a sign and a non-negative rational
magnitude; `ofQuotient` rounds any magnitude to the nearest one that fits 53 significant bits and
the exponent range, a tie going to the even significand.
-/
namespace NodeQuery

/-- A double-precision number. The sign of a zero is kept. -/
inductive Binary64 where
  | nan
  | infinite (negative : Bool)
  | finite (negative : Bool) (magnitude : Rat)
  deriving DecidableEq, Repr

namespace Binary64

/-- The whole part of the binary logarithm of `n / d`, for positive `n` and `d`. -/
def floorLog2 (n d : Nat) : Int :=
  let e : Int := (n.log2 : Int) - (d.log2 : Int)
  if d * Nat.pow 2 e.toNat ≤ n * Nat.pow 2 (-e).toNat then e else e - 1

/-- The whole number nearest to `n / d`, a half going to the even neighbour. -/
def nearest (n d : Nat) : Nat :=
  let q := n / d
  let r := n % d
  if 2 * r < d then q
  else if d < 2 * r then q + 1
  else if q % 2 = 0 then q else q + 1

/-- The number `m · 2^e`. -/
def scaled (m : Nat) (e : Int) : Rat :=
  mkRat (m * Nat.pow 2 e.toNat : Nat) (Nat.pow 2 (-e).toNat)

/-- The magnitude that represents `n / d`, or nothing when it is too large for any. The last place
is worth `2^e` with 53 bits before it, but never less than `2^-1074`. -/
def roundQuotient (n d : Nat) : Option Rat :=
  if n = 0 then some 0
  else
    let e : Int := max (floorLog2 n d - 52) (-1074)
    let q := scaled (nearest (n * Nat.pow 2 (-e).toNat) (d * Nat.pow 2 e.toNat)) e
    if q < Nat.pow 2 1024 then some q else none

/-- The double-precision number nearest to a magnitude `n / d` with a sign. -/
def ofQuotient (negative : Bool) (n d : Nat) : Binary64 :=
  match roundQuotient n d with
  | some q => .finite negative q
  | none => .infinite negative

/-- The double-precision number nearest to a whole number. -/
def ofInt (n : Int) : Binary64 :=
  ofQuotient (n < 0) n.natAbs 1

/-- The exact value of a finite number. -/
def toRat? : Binary64 → Option Rat
  | .finite negative q => some (if negative then -q else q)
  | _ => none

/-- Zero, of either sign. -/
def isZero : Binary64 → Bool
  | .finite _ q => q == 0
  | _ => false

/-- A whole number rounds to itself. -/
theorem nearest_mul_self (n : Nat) {d : Nat} (h : 0 < d) : nearest (n * d) d = n := by
  simp [nearest, Nat.mul_div_cancel n h, h]

/-- Rounding errs by at most a half. -/
theorem nearest_spec (n : Nat) {d : Nat} (h : 0 < d) :
    2 * n ≤ 2 * (nearest n d * d) + d ∧ 2 * (nearest n d * d) ≤ 2 * n + d := by
  have hn := Nat.div_add_mod n d
  have hr := Nat.mod_lt n h
  have hq : n / d * d = d * (n / d) := Nat.mul_comm _ _
  have hq1 : (n / d + 1) * d = d * (n / d) + d := by rw [Nat.add_mul, Nat.one_mul, hq]
  simp only [nearest]
  split
  · rw [hq]; omega
  · split
    · rw [hq1]; omega
    · split
      · rw [hq]; omega
      · rw [hq1]; omega

end Binary64
end NodeQuery
