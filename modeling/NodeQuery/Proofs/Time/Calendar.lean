import Mathlib.Algebra.Order.Group.Nat
import Mathlib.Data.Nat.Init
import NodeQuery.Time.Calendar
/-!
The calendar. Every month and every year ends before the next one starts, so days are numbered in
the order of their dates (`dayNumber_lt_iff`).
-/
namespace NodeQuery.Time

/-- A date of the calendar. -/
structure IsDate (year month day : Nat) : Prop where
  year_pos : 1 ≤ year
  month_pos : 1 ≤ month
  month_le : month ≤ 12
  day_pos : 1 ≤ day
  day_le : day ≤ monthDays year month

/-- The number of days of a year. -/
def yearDays (year : Nat) : Nat :=
  if isLeap year then 366 else 365

section
variable {year month day year' month' day' : Nat}

/-! ## Days before a month -/

theorem daysBeforeMonth_succ (year : Nat) (h : 1 ≤ month) :
    daysBeforeMonth year (month + 1) = daysBeforeMonth year month + monthDays year month := by
  have hfold : ∀ (l : List Nat) (n : Nat), l.foldr (· + ·) n = l.foldr (· + ·) 0 + n := by
    intro l n
    induction l with
    | nil => exact (Nat.zero_add n).symm
    | cons m l ih => rw [List.foldr_cons, List.foldr_cons, ih, Nat.add_assoc]
  obtain ⟨m, rfl⟩ := Nat.exists_eq_add_of_le' h
  rw [daysBeforeMonth, daysBeforeMonth, Nat.add_sub_cancel, Nat.add_sub_cancel, List.range_succ,
    List.map_append, List.foldr_append, hfold]
  rfl

theorem daysBeforeMonth_mono (year : Nat) (h : 1 ≤ month) (hlt : month < month') :
    daysBeforeMonth year month + monthDays year month ≤ daysBeforeMonth year month' := by
  induction month' with
  | zero => exact absurd hlt (Nat.not_lt_zero _)
  | succ n ih =>
    rcases Nat.lt_succ_iff_lt_or_eq.1 hlt with hlt' | rfl
    · rw [daysBeforeMonth_succ year (h.trans hlt'.le)]
      exact (ih hlt').trans (Nat.le_add_right _ _)
    · exact (daysBeforeMonth_succ year h).ge

theorem daysBeforeMonth_end (year : Nat) : daysBeforeMonth year 13 = yearDays year := by
  simp only [daysBeforeMonth, yearDays, monthDays]
  cases isLeap year <;> rfl

/-- A day of a month is a day of its year. -/
theorem IsDate.le_yearDays (h : IsDate year month day) :
    daysBeforeMonth year month + day ≤ yearDays year := by
  have hmonth := daysBeforeMonth_mono year h.month_pos (Nat.lt_succ_of_le h.month_le)
  rw [daysBeforeMonth_end] at hmonth
  exact (Nat.add_le_add_left h.day_le _).trans hmonth

/-! ## Days before a year -/

theorem isLeap_iff : isLeap year = true ↔ 4 ∣ year ∧ (¬ 100 ∣ year ∨ 400 ∣ year) := by
  simp [isLeap, Nat.dvd_iff_mod_eq_zero]

theorem daysBeforeYear_succ (h : 1 ≤ year) :
    daysBeforeYear (year + 1) = daysBeforeYear year + yearDays year := by
  obtain ⟨k, rfl⟩ := Nat.exists_eq_add_of_le' h
  have hless : k / 100 ≤ k / 4 := Nat.div_le_div_left (by decide) (by decide)
  simp only [daysBeforeYear, yearDays, isLeap_iff, Nat.add_sub_cancel, Nat.succ_div]
  split_ifs <;> omega

theorem daysBeforeYear_mono (h : 1 ≤ year) (hlt : year < year') :
    daysBeforeYear year + yearDays year ≤ daysBeforeYear year' := by
  induction year' with
  | zero => exact absurd hlt (Nat.not_lt_zero _)
  | succ n ih =>
    rcases Nat.lt_succ_iff_lt_or_eq.1 hlt with hlt' | rfl
    · rw [daysBeforeYear_succ (h.trans hlt'.le)]
      exact (ih hlt').trans (Nat.le_add_right _ _)
    · exact (daysBeforeYear_succ h).ge

/-! ## The order of days -/

theorem dayNumber_lt_of_year (h : IsDate year month day) (h' : IsDate year' month' day')
    (hlt : year < year') : dayNumber year month day < dayNumber year' month' day' := by
  have hyear := daysBeforeYear_mono h.year_pos hlt
  have hend := h.le_yearDays
  have hday := h'.day_pos
  unfold dayNumber
  omega

theorem dayNumber_lt_of_month (h : IsDate year month day) (h' : IsDate year month' day')
    (hlt : month < month') : dayNumber year month day < dayNumber year month' day' := by
  have hmonth := daysBeforeMonth_mono year h.month_pos hlt
  have hend := h.day_le
  have hday := h'.day_pos
  unfold dayNumber
  omega

/-- Days are numbered in the order of their dates. -/
theorem dayNumber_lt_iff (h : IsDate year month day) (h' : IsDate year' month' day') :
    dayNumber year month day < dayNumber year' month' day' ↔
      year < year' ∨ year = year' ∧ (month < month' ∨ month = month' ∧ day < day') := by
  rcases Nat.lt_trichotomy year year' with hlt | rfl | hgt
  · simp [hlt, dayNumber_lt_of_year h h' hlt]
  · rcases Nat.lt_trichotomy month month' with hlt | rfl | hgt
    · simp [hlt, dayNumber_lt_of_month h h' hlt]
    · simp [dayNumber]
    · have hnot := (dayNumber_lt_of_month h' h hgt).not_gt
      simp [hnot, hgt.not_gt, hgt.ne']
  · have hnot := (dayNumber_lt_of_year h' h hgt).not_gt
    simp [hnot, hgt.not_gt, hgt.ne']

end
end NodeQuery.Time
