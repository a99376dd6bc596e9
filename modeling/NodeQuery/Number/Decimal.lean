import NodeQuery.Number.Binary64
import NodeQuery.Text.Blank
import NodeQuery.Text.Digit
/-!
Decimal notation of double-precision numbers. `ofDecimal` reads digits and an exponent; `shortest`
finds the fewest digits that read back as the same number, of two candidates of that length the
nearer; `Binary64.toText` writes them; `Binary64.ofText?` reads a number as a person types it.
-/
namespace NodeQuery

namespace Binary64

/-- The decimal order of magnitude beyond which a number is infinite or zero without a look at its
digits. -/
def orderLimit : Int := 400

/-- The double-precision number nearest to `digits · 10^exponent`. -/
def ofDecimal (negative : Bool) (digits : Nat) (exponent : Int) : Binary64 :=
  if digits = 0 then .finite negative 0
  else
    let order : Int := (digits.log2 : Int) * 30103 / 100000 + exponent
    if orderLimit < order then .infinite negative
    else if order < -orderLimit then .finite negative 0
    else ofQuotient negative (digits * Nat.pow 10 exponent.toNat)
      (Nat.pow 10 (-exponent).toNat)

/-- A number `digits · 10^exponent`. -/
structure Decimal where
  digits : Nat
  exponent : Int
  deriving DecidableEq, Repr

/-- The least power of ten above `n / d`, as its exponent. -/
def decimalPlace (n d : Nat) : Int :=
  let guess : Int := floorLog2 n d * 30103 / 100000 - 1
  let below (k : Int) : Bool := n * Nat.pow 10 (-k).toNat < d * Nat.pow 10 k.toNat
  if below guess then guess
  else if below (guess + 1) then guess + 1
  else if below (guess + 2) then guess + 2
  else guess + 3

/-- The decimal with the given number of digits that reads back as `q`, if there is one: one of the
two neighbours of `q` on the grid with that many digits, the nearer if both do, and the even one if
both are equally near. -/
def withDigits? (q : Rat) (place : Int) (count : Nat) : Option Decimal :=
  let step : Int := place - count
  let n := q.num.toNat * Nat.pow 10 (-step).toNat
  let d := q.den * Nat.pow 10 step.toNat
  let low := n / d
  let rest := n % d
  let reads (c : Nat) : Bool := ofDecimal false c step == .finite false q
  let nearerLow : Bool := 2 * rest < d || (2 * rest == d && low % 2 == 0)
  if reads low && (nearerLow || !reads (low + 1)) then some ⟨low, step⟩
  else if reads (low + 1) then some ⟨low + 1, step⟩
  else none

/-- The exact decimal form of a magnitude whose denominator is a power of two. -/
def exactDecimal (q : Rat) : Decimal :=
  ⟨q.num.toNat * Nat.pow 5 q.den.log2, -(q.den.log2 : Int)⟩

/-- The fewest digits that read back as `q`. Seventeen always do. -/
def shortest (q : Rat) : Decimal :=
  let place := decimalPlace q.num.toNat q.den
  (((List.range 17).findSome? fun i => withDigits? q place (i + 1)).getD (exactDecimal q))

/-- Digits without the zeros at their end, and how many there were. -/
def trimZeros (digits : List Char) : List Char × Nat :=
  let zeros := digits.reverse.takeWhile (· = '0')
  ((digits.reverse.dropWhile (· = '0')).reverse, zeros.length)

/-- An exponent with its sign and at least two digits. -/
def exponentText (e : Int) : String :=
  let digits := toString e.natAbs
  (if e < 0 then "-" else "+") ++ (if digits.length < 2 then "0" ++ digits else digits)

/-- The written form of a positive magnitude: positional for values from `10^-4` to below `10^16`,
always with a point and a digit on each side of it, and with an exponent beyond. -/
def magnitudeText (q : Rat) : String :=
  let decimal := shortest q
  let (digits, zeros) := trimZeros (toString decimal.digits).toList
  let point : Int := digits.length + zeros + decimal.exponent
  let text := String.ofList digits
  if -4 < point ∧ point ≤ 16 then
    if point ≤ 0 then "0." ++ String.ofList (List.replicate (-point).toNat '0') ++ text
    else if point.toNat < digits.length then
      String.ofList (digits.take point.toNat) ++ "." ++ String.ofList (digits.drop point.toNat)
    else text ++ String.ofList (List.replicate (point.toNat - digits.length) '0') ++ ".0"
  else
    let mantissa := match digits with
      | [] => "0"
      | [d] => String.ofList [d]
      | d :: rest => String.ofList [d] ++ "." ++ String.ofList rest
    mantissa ++ "e" ++ exponentText (point - 1)

/-- The written form of a number. -/
def toText : Binary64 → String
  | .nan => "nan"
  | .infinite negative => if negative then "-inf" else "inf"
  | .finite negative q =>
    (if negative then "-" else "") ++ (if q = 0 then "0.0" else magnitudeText q)

/-- Digits of any script as ASCII digits, and blanks of any script as spaces. -/
def plainDigit (c : Char) : Char :=
  if c.toNat < 128 then c
  else if Text.isBlank c.toNat then ' '
  else match Text.digitValue? c.toNat with
    | some d => Char.ofNat (48 + d)
    | none => c

/-- A text without the ASCII blanks around it. -/
def trimBlanks (s : List Char) : List Char :=
  let blank (c : Char) : Bool := Text.isAsciiBlank c.toNat
  ((s.dropWhile blank).reverse.dropWhile blank).reverse

/-- Removes the underscores of a number; each must stand between two digits. -/
def dropUnderscores? : Bool → List Char → Option (List Char)
  | _, [] => some []
  | afterDigit, '_' :: rest =>
    if afterDigit && (rest.head?.map Char.isDigit).getD false then dropUnderscores? false rest
    else none
  | _, c :: rest => (dropUnderscores? c.isDigit rest).map (c :: ·)

/-- The sign at the front of a number: whether it is negative, and what follows. -/
def splitSign : List Char → Bool × List Char
  | '-' :: rest => (true, rest)
  | '+' :: rest => (false, rest)
  | rest => (false, rest)

/-- The value of a run of ASCII digits. -/
def digitsValue (digits : List Char) : Nat :=
  digits.foldl (fun n c => 10 * n + (c.toNat - 48)) 0

/-- Reads an optional exponent that ends the text. -/
def readExponent? : List Char → Option Int
  | [] => some 0
  | e :: rest =>
    if e = 'e' ∨ e = 'E' then
      let (negative, digits) := splitSign rest
      if digits.isEmpty || !digits.all Char.isDigit then none
      else some (if negative then -(digitsValue digits : Int) else digitsValue digits)
    else none

/-- Reads digits with an optional point and exponent. -/
def readUnsigned? (negative : Bool) (s : List Char) : Option Binary64 :=
  let whole := s.takeWhile Char.isDigit
  let rest := s.dropWhile Char.isDigit
  let (fraction, rest) := match rest with
    | '.' :: more => (more.takeWhile Char.isDigit, more.dropWhile Char.isDigit)
    | _ => ([], rest)
  if whole.isEmpty && fraction.isEmpty then none
  else (readExponent? rest).map fun e =>
    ofDecimal negative (digitsValue (whole ++ fraction)) (e - fraction.length)

/-- Reads a number as a person types it: blanks around it, digits of any script, underscores between
digits, and the words for what is not finite. -/
def ofText? (text : String) : Option Binary64 :=
  let s := trimBlanks (text.toList.map plainDigit)
  let (negative, body) := splitSign s
  let word := body.map Char.toLower
  if word = "inf".toList ∨ word = "infinity".toList then some (.infinite negative)
  else if word = "nan".toList then some .nan
  else (dropUnderscores? false body).bind (readUnsigned? negative)

end Binary64

/-- The greatest number of digits with which a whole number is read, zeros at the front included. -/
def digitLimit : Nat := 4300

/-- What is said of a whole number with more digits. -/
def longNumberText (count : Nat) : String :=
  "Exceeds the limit (" ++ toString digitLimit ++ " digits) for integer string conversion: " ++
    "value has " ++ toString count ++
    " digits; use sys.set_int_max_str_digits() to increase the limit"

/-- Reads a whole number as a person types it. -/
def wholeOfText? (text : String) : Option Int :=
  let (negative, body) :=
    Binary64.splitSign (Binary64.trimBlanks (text.toList.map Binary64.plainDigit))
  match Binary64.dropUnderscores? false body with
  | some digits =>
    if digits.isEmpty || !digits.all Char.isDigit || digitLimit < digits.length then none
    else
      let n : Int := Binary64.digitsValue digits
      some (if negative then -n else n)
  | none => none

end NodeQuery
