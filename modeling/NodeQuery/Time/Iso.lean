import NodeQuery.Time.Stamp
import NodeQuery.Text.Quoted
/-!
Reading ISO 8601 times. A date is `YYYY-MM-DD`, `YYYYMMDD`, or a year, week and optional weekday; any
one character separates it from the time of day, which may stop after the hours or the minutes, may
leave out its colons, and may carry a fraction (cut to six digits) and an offset. Where a week date
could end in two places, a hyphen is taken for the separator rather than a digit.
-/
namespace NodeQuery.Time

/-- Why a text is no time. -/
inductive IsoError where
  | malformed (text : String)
  | offsetTooLarge (microseconds : Int)
  | year (year : Nat)
  | month
  | day
  | hour
  | minute
  | second
  deriving DecidableEq, Repr

/-- The text of an error. -/
def IsoError.message : IsoError → String
  | .malformed text => "Invalid isoformat string: " ++ Text.quoted text
  | .offsetTooLarge span =>
    "offset must be a timedelta strictly between -timedelta(hours=24) and timedelta(hours=24), not " ++
      Stamp.spanText span ++ "."
  | .year y => "year " ++ toString y ++ " is out of range"
  | .month => "month must be in 1..12"
  | .day => "day is out of range for month"
  | .hour => "hour must be in 0..23"
  | .minute => "minute must be in 0..59"
  | .second => "second must be in 0..59"

/-- Reads exactly the given number of ASCII digits. -/
def takeDigits? : Nat → Nat → List Char → Option (Nat × List Char)
  | 0, value, rest => some (value, rest)
  | count + 1, value, c :: rest =>
    if c.isDigit then takeDigits? count (10 * value + (c.toNat - 48)) rest else none
  | _ + 1, _, [] => none

/-- How many characters of a text belong to its date, judged by its fifth and sixth character and,
for a week date, by what stands where it may end. -/
def dateLength (s : List Char) : Nat :=
  let digitAt (i : Nat) : Bool := (s[i]?.map Char.isDigit).getD false
  if s.length = 7 then 7
  else if s[4]? = some '-' then
    if s[5]? = some 'W' then
      if s[8]? = some '-' then (if digitAt 10 then 8 else 10) else 8
    else 10
  else if s[4]? = some 'W' then
    let digits := ((s.drop 7).takeWhile Char.isDigit).length
    if digits < 2 then 7 + digits
    else if digits % 2 = 1 then 7
    else 8
  else 8

/-- The date of a year, week and weekday. -/
def ofWeek? (year week day : Nat) : Option (Nat × Nat × Nat) :=
  if year = 0 ∨ week = 0 ∨ weeksOfYear year < week ∨ day = 0 ∨ 7 < day then none
  else some (ofDayNumber (firstMonday year + (week - 1) * 7 + (day - 1)))

/-- Skips a hyphen where the date has them. -/
def skipHyphen? (hyphens : Bool) (s : List Char) : Option (List Char) :=
  if hyphens then
    match s with
    | '-' :: rest => some rest
    | _ => none
  else some s

/-- Reads a date that fills the whole text: year, month and day. -/
def readDate? (s : List Char) : Option (Nat × Nat × Nat) := do
  let (year, s) ← takeDigits? 4 0 s
  let hyphens := s.head? = some '-'
  let s := if hyphens then s.drop 1 else s
  if s.head? = some 'W' then
    let (week, s) ← takeDigits? 2 0 (s.drop 1)
    if s.isEmpty then ofWeek? year week 1
    else
      let s ← skipHyphen? hyphens s
      let (day, _) ← takeDigits? 1 0 s
      ofWeek? year week day
  else
    let (month, s) ← takeDigits? 2 0 s
    let s ← skipHyphen? hyphens s
    let (day, s) ← takeDigits? 2 0 s
    if s.isEmpty then some (year, month, day) else none

/-- Hours, minutes, seconds and microseconds. -/
structure Clock where
  hour : Nat := 0
  minute : Nat := 0
  second : Nat := 0
  microsecond : Nat := 0

/-- Reads the digits after a point: at most six count, and fewer fill up with zeros. The other
result says whether something is left over after all digits of the text beyond. -/
def readFraction? (s after : List Char) : Option (Nat × Bool) := do
  let count := min 6 s.length
  let (value, rest) ← takeDigits? count 0 s
  let more := ((rest ++ after).dropWhile Char.isDigit)
  some (value * Nat.pow 10 (6 - count), more.head?.any (· ≠ '\x00'))

/-- Reads up to three pairs of digits, the first of which are already in `fields`, then a fraction.
`s` is the text of the clock time and `after` what follows it. Colons stand between all pairs or
none. The other result says whether something was left over, which can be one ASCII character. -/
def readPairs? : Nat → Bool → List Nat → List Char → List Char → Option (List Nat × Nat × Bool)
  | 0, _, fields, s, after =>
    (readFraction? s after).map fun (fraction, more) => (fields, fraction, more)
  | left + 1, colons, fields, s, after => do
    let (value, s) ← takeDigits? 2 0 s
    let fields := fields ++ [value]
    let next := (s ++ after).headD '\x00'
    let colons := if fields.length = 1 then next = ':' else colons
    if s.length ≤ 1 ∧ s.all (·.toNat < 128) then some (fields, 0, next ≠ '\x00')
    else if colons && next = ':' then readPairs? left colons fields (s.drop 1) after
    else if next = '.' ∨ next = ',' then readPairs? 0 colons fields (s.drop 1) after
    else if colons then none
    else readPairs? left colons fields s after

/-- Reads a clock time; the other result says whether something was left over. -/
def readClock? (s after : List Char) : Option (Clock × Bool) :=
  (readPairs? 3 false [] s after).map fun (fields, fraction, more) =>
    ({ hour := fields.getD 0 0, minute := fields.getD 1 0, second := fields.getD 2 0
       microsecond := fraction }, more)

/-- The microseconds of an offset. One of less than a second counts as none. -/
def Clock.span (c : Clock) : Int :=
  let seconds := (c.hour * 60 + c.minute) * 60 + c.second
  if seconds = 0 then 0 else (seconds * 1000000 + c.microsecond : Nat)

/-- A character that starts an offset. -/
def startsOffset (c : Char) : Bool :=
  c = '+' || c = '-' || c = 'Z'

/-- Reads a time of day with an optional offset. -/
def readTime? (s : List Char) : Option (Clock × Option Int) :=
  match s with
  | [] => none
  | _ =>
    let clock := s.takeWhile (fun c => !startsOffset c)
    let zone := s.dropWhile (fun c => !startsOffset c)
    match readClock? clock zone with
    | none => none
    | some (time, more) =>
      match zone with
      | [] => if more then none else some (time, none)
      | 'Z' :: rest => if rest.head?.any (· ≠ '\x00') then none else some (time, some 0)
      | sign :: rest =>
        match readClock? rest [] with
        | some (offset, false) =>
          some (time, some (if sign = '-' then -offset.span else offset.span))
        | _ => none

/-- The first field of a time that is out of its range. -/
def checkFields (year month day : Nat) (c : Clock) : Except IsoError Unit := do
  if year = 0 ∨ 9999 < year then throw (.year year)
  if month = 0 ∨ 12 < month then throw .month
  if day = 0 ∨ monthDays year month < day then throw .day
  if 23 < c.hour then throw .hour
  if 59 < c.minute then throw .minute
  if 59 < c.second then throw .second

/-- The microseconds of a day. -/
def daySpan : Int := 86400000000

/-- The parts of a time text: date, clock time and offset. A date may stand alone, but not with a
separator alone. -/
def readParts? (s : List Char) : Option ((Nat × Nat × Nat) × Clock × Option Int) := do
  let size := dateLength s
  let date ← readDate? (s.take size)
  match s.drop size with
  | [] => some (date, {}, none)
  | _ :: rest =>
    let (clock, offset) ← readTime? rest
    some (date, clock, offset)

/-- Reads a time. An offset that is too large is found before a field out of range. -/
def parse (text : String) : Except IsoError Stamp :=
  match readParts? text.toList with
  | none => .error (.malformed text)
  | some ((year, month, day), clock, offset) => do
    match offset with
    | some span => if daySpan ≤ span ∨ span ≤ -daySpan then throw (.offsetTooLarge span)
    | none => pure ()
    checkFields year month day clock
    return { year, month, day, hour := clock.hour, minute := clock.minute, second := clock.second,
             microsecond := clock.microsecond, offset }

end NodeQuery.Time
