import NodeQuery.Time.Calendar
/-!
Times: a date, a time of day and, for an aware time, its offset from UTC. Aware times are compared
as instants, naive ones as they are written; the two kinds do not compare.
-/
namespace NodeQuery

/-- A time. The offset is counted in microseconds east of UTC and is less than a day. -/
structure Stamp where
  year : Nat
  month : Nat
  day : Nat
  hour : Nat
  minute : Nat
  second : Nat
  microsecond : Nat
  offset : Option Int
  deriving DecidableEq, Repr

namespace Stamp

/-- A time with an offset. -/
def isAware (t : Stamp) : Bool :=
  t.offset.isSome

/-- Microseconds since the start of year 1, by the time as it is written. -/
def localMicroseconds (t : Stamp) : Int :=
  let seconds := ((Time.dayNumber t.year t.month t.day * 24 + t.hour) * 60 + t.minute) * 60 + t.second
  (seconds * 1000000 + t.microsecond : Nat)

/-- Microseconds since the start of year 1, in UTC for an aware time. -/
def instant (t : Stamp) : Int :=
  t.localMicroseconds - t.offset.getD 0

/-- A number with at least the given number of digits. -/
def padded (width n : Nat) : String :=
  let digits := (toString n).toList
  String.ofList (List.replicate (width - digits.length) '0' ++ digits)

/-- The fraction of a second, left out when it is zero. -/
def fractionText (microsecond : Nat) : String :=
  if microsecond = 0 then "" else "." ++ padded 6 microsecond

/-- An offset as a sign, hours and minutes, with seconds and their fraction only where needed. -/
def offsetText (offset : Int) : String :=
  let size := offset.natAbs
  let seconds := size / 1000000
  let fraction := size % 1000000
  let sign := if offset < 0 then "-" else "+"
  sign ++ padded 2 (seconds / 3600) ++ ":" ++ padded 2 (seconds / 60 % 60) ++
    (if seconds % 60 = 0 ∧ fraction = 0 then "" else ":" ++ padded 2 (seconds % 60)) ++
    fractionText fraction

/-- The ISO 8601 form with the given text between date and time. -/
def textWith (separator : String) (t : Stamp) : String :=
  padded 4 t.year ++ "-" ++ padded 2 t.month ++ "-" ++ padded 2 t.day ++ separator ++
    padded 2 t.hour ++ ":" ++ padded 2 t.minute ++ ":" ++ padded 2 t.second ++
    fractionText t.microsecond ++ (t.offset.map offsetText).getD ""

/-- The ISO 8601 form. -/
def isoText (t : Stamp) : String :=
  t.textWith "T"

/-- The form with a space between date and time, in which a time is compared with a text. -/
def display (t : Stamp) : String :=
  t.textWith " "

/-- A time span as days, seconds of a day and microseconds of a second, those that are not zero. -/
def spanText (microseconds : Int) : String :=
  let days := Int.fdiv microseconds 86400000000
  let rest := (Int.fmod microseconds 86400000000).toNat
  let seconds := rest / 1000000
  let fraction := rest % 1000000
  let parts := (if days = 0 then [] else ["days=" ++ toString days]) ++
    (if seconds = 0 then [] else ["seconds=" ++ toString seconds]) ++
    (if fraction = 0 then [] else ["microseconds=" ++ toString fraction])
  "datetime.timedelta(" ++ (if parts.isEmpty then "0" else ", ".intercalate parts) ++ ")"

/-- The constructor form, in which a time is shown inside another value. -/
def quote (t : Stamp) : String :=
  let zone := match t.offset with
    | none => []
    | some offset =>
      if offset = 0 then ["tzinfo=datetime.timezone.utc"]
      else ["tzinfo=datetime.timezone(" ++ spanText offset ++ ")"]
  let fraction := if t.microsecond = 0 then [] else [toString t.microsecond]
  let seconds := if t.second = 0 ∧ t.microsecond = 0 then [] else [toString t.second]
  let parts := [t.year, t.month, t.day, t.hour, t.minute].map toString ++ seconds ++ fraction ++ zone
  "datetime.datetime(" ++ ", ".intercalate parts ++ ")"

end Stamp
end NodeQuery
