import Mathlib.Tactic.SplitIfs
import NodeQuery.Proofs.Time.Calendar
import NodeQuery.Time.Iso
/-!
Times that are read. Whatever is read is a time of the calendar with an offset of less than a day
(`parse_isValid`), and naive times of the calendar are ordered as they are written
(`instant_lt_iff`).
-/
namespace NodeQuery

namespace Time

/-! ## Fractions of a second -/

section
variable {s rest after : List Char} {n value count : Nat}

/-- Digits read behind a value leave it as much room as they are many. -/
theorem takeDigits?_lt (h : takeDigits? count value s = some (n, rest)) :
    n < (value + 1) * 10 ^ count := by
  induction count generalizing value s with
  | zero =>
    rw [takeDigits?, Option.some.injEq, Prod.mk.injEq] at h
    omega
  | succ count ih =>
    cases s with
    | nil => cases h
    | cons c s =>
      rw [takeDigits?] at h
      split at h
      · next hdigit =>
        have hc : c.toNat ≤ 57 := by
          simp only [Char.isDigit, Bool.and_eq_true, decide_eq_true_eq] at hdigit
          exact hdigit.2
        calc n < (10 * value + (c.toNat - 48) + 1) * 10 ^ count := ih h
          _ ≤ ((value + 1) * 10) * 10 ^ count := Nat.mul_le_mul_right _ (by omega)
          _ = (value + 1) * 10 ^ (count + 1) := by rw [Nat.mul_assoc, Nat.pow_succ']
      · cases h

theorem readFraction?_lt {more : Bool} (h : readFraction? s after = some (n, more)) :
    n < 1000000 := by
  obtain ⟨⟨value, rest⟩, hdigits, h⟩ := Option.bind_eq_some_iff.1 h
  cases h
  have hlt := takeDigits?_lt hdigits
  have hsum : 10 ^ min 6 s.length * 10 ^ (6 - min 6 s.length) = 1000000 := by
    rw [← Nat.pow_add, Nat.add_sub_cancel' (Nat.min_le_left _ _)]
  calc value * 10 ^ (6 - min 6 s.length)
      < 10 ^ min 6 s.length * 10 ^ (6 - min 6 s.length) :=
        Nat.mul_lt_mul_of_pos_right (by omega) (Nat.pow_pos (by decide))
    _ = 1000000 := hsum

theorem readPairs?_lt {left : Nat} {colons more : Bool} {fields found : List Nat}
    (h : readPairs? left colons fields s after = some (found, n, more)) : n < 1000000 := by
  have hlast : ∀ {colons : Bool} {fields : List Nat} {s : List Char},
      readPairs? 0 colons fields s after = some (found, n, more) → n < 1000000 := by
    intro colons fields s h
    rw [readPairs?, Option.map_eq_some_iff] at h
    obtain ⟨⟨fraction, _⟩, hfraction, heq⟩ := h
    cases heq
    exact readFraction?_lt hfraction
  induction left generalizing colons fields s with
  | zero => exact hlast h
  | succ left ih =>
    rw [readPairs?] at h
    obtain ⟨⟨value, rest⟩, -, h⟩ := Option.bind_eq_some_iff.1 h
    dsimp only at h
    split_ifs at h
    · cases h
      decide
    -- more pairs follow, or the fraction
    all_goals first
      | exact ih h
      | exact hlast h

theorem readClock?_lt {clock : Clock} {more : Bool} (h : readClock? s after = some (clock, more)) :
    clock.microsecond < 1000000 := by
  obtain ⟨⟨fields, fraction, _⟩, hpairs, heq⟩ := Option.map_eq_some_iff.1 h
  cases heq
  exact readPairs?_lt hpairs

theorem readTime?_lt {clock : Clock} {offset : Option Int}
    (h : readTime? s = some (clock, offset)) : clock.microsecond < 1000000 := by
  unfold readTime? at h
  split at h
  · cases h
  · dsimp only at h
    split at h
    · cases h
    · next time more hclock =>
      have hlt := readClock?_lt hclock
      split at h
      · split at h
        · cases h
        · cases h
          exact hlt
      · split at h
        · cases h
        · cases h
          exact hlt
      · split at h
        · cases h
          exact hlt
        · cases h

theorem readParts?_lt {date : Nat × Nat × Nat} {clock : Clock} {offset : Option Int}
    (h : readParts? s = some (date, clock, offset)) : clock.microsecond < 1000000 := by
  rw [readParts?] at h
  obtain ⟨found, -, h⟩ := Option.bind_eq_some_iff.1 h
  split at h
  · cases h
    decide
  · obtain ⟨⟨time, zone⟩, htime, h⟩ := Option.bind_eq_some_iff.1 h
    cases h
    exact readTime?_lt htime

/-! ## Times -/

theorem checkFields_eq_ok {year month day : Nat} {clock : Clock}
    (h : checkFields year month day clock = .ok ()) : IsDate year month day ∧ year ≤ 9999 ∧
      clock.hour < 24 ∧ clock.minute < 60 ∧ clock.second < 60 := by
  unfold checkFields at h
  simp only [throw, throwThe, MonadExceptOf.throw, bind, Except.bind, pure, Except.pure] at h
  split_ifs at h with hyear hmonth hday hhour hminute hsecond
  exact ⟨⟨by omega, by omega, by omega, by omega, by omega⟩, by omega, by omega, by omega,
    by omega⟩

end
end Time

namespace Stamp

/-- A time of the calendar, with an offset of less than a day. -/
structure IsValid (t : Stamp) : Prop where
  date : Time.IsDate t.year t.month t.day
  year_le : t.year ≤ 9999
  hour_lt : t.hour < 24
  minute_lt : t.minute < 60
  second_lt : t.second < 60
  microsecond_lt : t.microsecond < 1000000
  offset_lt : ∀ offset, t.offset = some offset → -Time.daySpan < offset ∧ offset < Time.daySpan

/-- What is written of a time, in the order of its weight. -/
def fields (t : Stamp) : List Nat :=
  [t.year, t.month, t.day, t.hour, t.minute, t.second, t.microsecond]

variable {a b : Stamp}

/-- Times as they are written are ordered by their fields. -/
theorem localMicroseconds_lt_iff (ha : a.IsValid) (hb : b.IsValid) :
    a.localMicroseconds < b.localMicroseconds ↔ a.fields < b.fields := by
  have hdays := Time.dayNumber_lt_iff ha.date hb.date
  have hsame : a.year = b.year → a.month = b.month → a.day = b.day →
      Time.dayNumber a.year a.month a.day = Time.dayNumber b.year b.month b.day := by
    intro hyear hmonth hday
    rw [hyear, hmonth, hday]
  have hdays' := Time.dayNumber_lt_iff hb.date ha.date
  have hfields : a.fields < b.fields ↔
      Time.dayNumber a.year a.month a.day < Time.dayNumber b.year b.month b.day ∨
      Time.dayNumber a.year a.month a.day = Time.dayNumber b.year b.month b.day ∧
        (a.hour < b.hour ∨ a.hour = b.hour ∧ (a.minute < b.minute ∨ a.minute = b.minute ∧
          (a.second < b.second ∨ a.second = b.second ∧ a.microsecond < b.microsecond))) := by
    simp only [fields, List.cons_lt_cons_iff, List.not_lt_nil, and_false, or_false]
    omega
  obtain ⟨-, -, hhour, hminute, hsecond, hmicrosecond, -⟩ := ha
  obtain ⟨-, -, hhour', hminute', hsecond', hmicrosecond', -⟩ := hb
  rw [hfields]
  simp only [localMicroseconds, Int.ofNat_lt]
  omega

/-- Naive times are compared as they are written. -/
theorem instant_lt_iff (ha : a.IsValid) (hb : b.IsValid) (hnaive : a.isAware = false)
    (hnaive' : b.isAware = false) : a.instant < b.instant ↔ a.fields < b.fields := by
  have hoffset : ∀ {t : Stamp}, t.isAware = false → t.instant = t.localMicroseconds := by
    intro t ht
    rw [isAware, Option.isSome_eq_false_iff, Option.isNone_iff_eq_none] at ht
    rw [instant, ht]
    exact Int.sub_zero _
  rw [hoffset hnaive, hoffset hnaive', localMicroseconds_lt_iff ha hb]

end Stamp

namespace Time

/-- Whatever is read is a time of the calendar. -/
theorem parse_isValid {text : String} {t : Stamp} (h : parse text = .ok t) : t.IsValid := by
  rw [parse] at h
  split at h
  · cases h
  next year month day clock offset hparts =>
  have hmicrosecond := readParts?_lt hparts
  have hspan : ∀ span, offset = some span → -daySpan < span ∧ span < daySpan := by
    rintro span rfl
    by_contra hlarge
    rw [not_and_or, not_lt, not_lt, or_comm] at hlarge
    simp only [if_pos hlarge] at h
    cases h
  obtain ⟨hfields, rfl⟩ : checkFields year month day clock = .ok () ∧ t = ⟨year, month, day,
      clock.hour, clock.minute, clock.second, clock.microsecond, offset⟩ := by
    cases hfields : checkFields year month day clock with
    | error error =>
      rw [hfields] at h
      split at h
      · split at h <;> cases h
      · cases h
    | ok u =>
      rw [hfields] at h
      split at h
      · split at h
        · cases h
        · cases h
          exact ⟨rfl, rfl⟩
      · cases h
        exact ⟨rfl, rfl⟩
  obtain ⟨hdate, hyear, hhour, hminute, hsecond⟩ := checkFields_eq_ok hfields
  exact ⟨hdate, hyear, hhour, hminute, hsecond, hmicrosecond, hspan⟩

end Time
end NodeQuery
