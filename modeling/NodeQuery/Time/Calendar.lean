/-!
The proleptic Gregorian calendar: days are numbered from 1 January of year 1, which is day 1. Weeks
start on Monday, and week 1 of a year is the one that holds its first Thursday.
-/
namespace NodeQuery.Time

/-- A year with 366 days. -/
def isLeap (year : Nat) : Bool :=
  year % 4 == 0 && (year % 100 != 0 || year % 400 == 0)

/-- The number of days of a month of a common year. -/
def commonMonthDays : Nat → Nat
  | 2 => 28
  | 4 | 6 | 9 | 11 => 30
  | _ => 31

/-- The number of days of a month. -/
def monthDays (year month : Nat) : Nat :=
  if month = 2 ∧ isLeap year then 29 else commonMonthDays month

/-- The number of days before a year, which is at least 1. -/
def daysBeforeYear (year : Nat) : Nat :=
  let y := year - 1
  y * 365 + y / 4 - y / 100 + y / 400

/-- The number of days of a year before one of its months. -/
def daysBeforeMonth (year month : Nat) : Nat :=
  ((List.range (month - 1)).map fun m => monthDays year (m + 1)).foldr (· + ·) 0

/-- The number of a day. -/
def dayNumber (year month day : Nat) : Nat :=
  daysBeforeYear year + daysBeforeMonth year month + day

/-- The weekday of a day number, Monday being 0. -/
def weekday (number : Nat) : Nat :=
  (number + 6) % 7

/-- Month and day of a day counted from the start of its year, from 0. -/
def monthOfDay (year : Nat) : Nat → Nat → Nat → Nat × Nat
  | 0, month, rest => (month, rest + 1)
  | fuel + 1, month, rest =>
    if rest < monthDays year month then (month, rest + 1)
    else monthOfDay year fuel (month + 1) (rest - monthDays year month)

/-- Year, month and day of a day number, which is at least 1. -/
def ofDayNumber (number : Nat) : Nat × Nat × Nat :=
  let n := number - 1
  let centuries4 := n / 146097
  let n := n % 146097
  let centuries := min (n / 36524) 3
  let n := n - centuries * 36524
  let years4 := n / 1461
  let n := n % 1461
  let years := min (n / 365) 3
  let n := n - years * 365
  let year := centuries4 * 400 + centuries * 100 + years4 * 4 + years + 1
  let (month, day) := monthOfDay year 12 1 n
  (year, month, day)

/-- The day number of the Monday that starts week 1 of a year. -/
def firstMonday (year : Nat) : Nat :=
  let first := dayNumber year 1 1
  let day := weekday first
  if 3 < day then first + 7 - day else first - day

/-- A year has 53 weeks if it starts on a Thursday, or on a Wednesday and is a leap year. -/
def weeksOfYear (year : Nat) : Nat :=
  let day := weekday (dayNumber year 1 1)
  if day = 3 ∨ (day = 2 ∧ isLeap year) then 53 else 52

end NodeQuery.Time
