import NodeQuery.Json.Basic
import NodeQuery.Number.Decimal
/-!
Reading JSON text. `Json.parse` accepts the standard grammar and the words `NaN`, `Infinity` and
`-Infinity`; a repeated member keeps its first place and takes its last value. A text that is no
JSON is refused with the first place where it goes wrong, and so is a whole number that is too long.
-/
namespace NodeQuery.Json

/-- Why a text is no JSON value. -/
inductive ReadCause where
  | value
  | memberName
  | colon
  | comma
  | extraData
  | openText
  | controlCharacter
  | badEscape
  | badHexEscape
  | byteOrderMark
  /-- A whole number has more digits than are read. -/
  | longNumber (digits : Nat)
  /-- A half of a character beyond the first plane stands alone. Some readers keep it; a text here
  cannot hold it. -/
  | loneHalf
  deriving DecidableEq, Repr

/-- The words for a cause. -/
def ReadCause.message : ReadCause → String
  | .value => "Expecting value"
  | .memberName => "Expecting property name enclosed in double quotes"
  | .colon => "Expecting ':' delimiter"
  | .comma => "Expecting ',' delimiter"
  | .extraData => "Extra data"
  | .openText => "Unterminated string starting at"
  | .controlCharacter => "Invalid control character at"
  | .badEscape => "Invalid \\escape"
  | .badHexEscape => "Invalid \\uXXXX escape"
  | .byteOrderMark => "Unexpected UTF-8 BOM (decode using utf-8-sig)"
  | .longNumber digits => longNumberText digits
  | .loneHalf => "Half a character in the text starting at"

/-- A cause and its place in the text, by characters and by line and column. -/
structure ReadError where
  cause : ReadCause
  position : Nat
  line : Nat
  column : Nat
  deriving DecidableEq, Repr

/-- The text of an error. -/
def ReadError.message (e : ReadError) : String :=
  e.cause.message ++ ": line " ++ toString e.line ++ " column " ++ toString e.column ++
    " (char " ++ toString e.position ++ ")"

/-- The error for a cause at a place of a text. -/
def ReadError.at (text : List Char) (cause : ReadCause) (position : Nat) : ReadError :=
  let before := text.take position
  { cause, position
    line := before.count '\n' + 1
    column := (before.reverse.takeWhile (· ≠ '\n')).length + 1 }

/-- A place in the text: how many characters lie before it, and those that follow. -/
structure Cursor where
  position : Nat
  rest : List Char

namespace Cursor

/-- The cursor after the given number of characters. -/
def skip (c : Cursor) (n : Nat) : Cursor :=
  ⟨c.position + n, c.rest.drop n⟩

/-- The four characters that may stand between the parts of a JSON text. -/
def isSpace (c : Char) : Bool :=
  c = ' ' || c = '\t' || c = '\n' || c = '\r'

/-- The cursor after any spaces. -/
def skipSpace (c : Cursor) : Cursor :=
  c.skip (c.rest.takeWhile isSpace).length

/-- The text at the cursor starts with the given one. -/
def startsWith (c : Cursor) (word : String) : Bool :=
  word.toList.isPrefixOf c.rest

end Cursor

/-- The result of reading, or a cause and its place. -/
abbrev Read := Except (ReadCause × Nat)

/-- The value of a hexadecimal digit. -/
def hexValue? (c : Char) : Option Nat :=
  if '0' ≤ c ∧ c ≤ '9' then some (c.toNat - 48)
  else if 'a' ≤ c ∧ c ≤ 'f' then some (c.toNat - 87)
  else if 'A' ≤ c ∧ c ≤ 'F' then some (c.toNat - 55)
  else none

/-- The value of four hexadecimal digits. -/
def hexFour? (a b c d : Char) : Option Nat := do
  let a ← hexValue? a
  let b ← hexValue? b
  let c ← hexValue? c
  let d ← hexValue? d
  return ((a * 16 + b) * 16 + c) * 16 + d

/-- The character for an escaped letter. -/
def escaped? : Char → Option Char
  | '"' => some '"'
  | '\\' => some '\\'
  | '/' => some '/'
  | 'b' => some '\x08'
  | 'f' => some '\x0c'
  | 'n' => some '\n'
  | 'r' => some '\r'
  | 't' => some '\t'
  | _ => none

/-- The first half of a character beyond the first plane. -/
def isHighHalf (code : Nat) : Bool :=
  0xD800 ≤ code && code ≤ 0xDBFF

/-- The second half of such a character. -/
def isLowHalf (code : Nat) : Bool :=
  0xDC00 ≤ code && code ≤ 0xDFFF

/-- The code of the character with two halves. -/
def joinHalves (high low : Nat) : Nat :=
  0x10000 + (high - 0xD800) * 0x400 + (low - 0xDC00)

/-- The text with the given codes, unless one of them is half a character. -/
def textOf? (codes : List Nat) : Option String :=
  if codes.any fun code => isHighHalf code || isLowHalf code then none
  else some (String.ofList (codes.map Char.ofNat))

/-- Reads the characters of a text up to its closing quote. `start` is the place of the opening
quote, `high` the first half just read, which the next escape may complete, `before` the codes that
have been read in reverse, and `place` the place of the next character. An escape by number is
complete only if at least one character follows it. -/
def readText (start : Nat) (high : Option Nat) (before : List Nat) (place : Nat) :
    List Char → Read (String × Cursor)
  | [] => .error (.openText, start)
  | '"' :: rest =>
    match textOf? before.reverse with
    | some s => .ok (s, ⟨place + 1, rest⟩)
    | none => .error (.loneHalf, start)
  | '\\' :: 'u' :: a :: b :: c :: d :: rest =>
    match hexFour? a b c d with
    | none => .error (.badHexEscape, place + 1)
    | some code =>
      if rest.isEmpty then .error (.badHexEscape, place + 1)
      else
        match high, isLowHalf code with
        | some first, true =>
          readText start none (joinHalves first code :: before.drop 1) (place + 6) rest
        | _, _ =>
          readText start (if isHighHalf code then some code else none) (code :: before) (place + 6)
            rest
  | '\\' :: 'u' :: _ => .error (.badHexEscape, place + 1)
  | ['\\'] => .error (.openText, start)
  | '\\' :: letter :: rest =>
    match escaped? letter with
    | some char => readText start none (char.toNat :: before) (place + 2) rest
    | none => .error (.badEscape, place)
  | char :: rest =>
    if char.toNat < 32 then .error (.controlCharacter, place)
    else readText start none (char.toNat :: before) (place + 1) rest

/-- The digits of a number's exponent with its mark and sign, if the text starts with one. -/
def exponentLength (s : List Char) : Nat :=
  match s with
  | mark :: rest =>
    if mark = 'e' ∨ mark = 'E' then
      let sign := match rest with
        | '+' :: _ => 1
        | '-' :: _ => 1
        | _ => 0
      let digits := ((rest.drop sign).takeWhile Char.isDigit).length
      if digits = 0 then 0 else 1 + sign + digits
    else 0
  | [] => 0

/-- The point and the digits of a number's fraction, if the text starts with one. -/
def fractionLength (s : List Char) : Nat :=
  match s with
  | '.' :: rest =>
    let digits := (rest.takeWhile Char.isDigit).length
    if digits = 0 then 0 else 1 + digits
  | _ => 0

/-- The minus at the front of a number: whether there is one, and what follows. -/
def splitMinus : List Char → Bool × List Char
  | '-' :: rest => (true, rest)
  | rest => (false, rest)

/-- The digits at the front of a number without sign. A zero stands alone. -/
def wholeDigits : List Char → List Char
  | '0' :: _ => ['0']
  | body => body.takeWhile Char.isDigit

/-- Reads a number. One with a fraction or an exponent is double-precision. -/
def readNumber (c : Cursor) : Read (Json × Cursor) :=
  let (negative, body) := splitMinus c.rest
  let sign := if negative then 1 else 0
  let whole := wholeDigits body
  if whole.isEmpty then .error (.value, c.position)
  else
    let afterWhole := body.drop whole.length
    let fraction := fractionLength afterWhole
    let afterFraction := afterWhole.drop fraction
    let exponent := exponentLength afterFraction
    let size := sign + whole.length + fraction + exponent
    if fraction = 0 ∧ exponent = 0 then
      let n : Int := Binary64.digitsValue whole
      if digitLimit < whole.length then .error (.longNumber whole.length, c.position)
      else .ok (.int (if negative then -n else n), c.skip size)
    else
      let places := (afterWhole.take fraction).drop 1
      let (down, power) := Binary64.splitSign ((afterFraction.take exponent).drop 1)
      let power : Int := Binary64.digitsValue power
      let x := Binary64.ofDecimal negative (Binary64.digitsValue (whole ++ places))
        ((if down then -power else power) - places.length)
      .ok (.real x, c.skip size)

mutual

/-- Reads one value. -/
def readValue : Nat → Cursor → Read (Json × Cursor)
  | 0, c => .error (.value, c.position)
  | fuel + 1, c =>
    match c.rest with
    | '"' :: rest => do
      let (s, c) ← readText c.position none [] (c.position + 1) rest
      return (.text s, c)
    | '\x7b' :: _ =>
      let inside := (c.skip 1).skipSpace
      match inside.rest with
      | '\x7d' :: _ => .ok (.object [], inside.skip 1)
      | _ => readMembers fuel [] inside
    | '[' :: _ =>
      let inside := (c.skip 1).skipSpace
      match inside.rest with
      | ']' :: _ => .ok (.list [], inside.skip 1)
      | _ => readItems fuel [] inside
    | _ =>
      if c.startsWith "null" then .ok (.null, c.skip 4)
      else if c.startsWith "true" then .ok (.bool true, c.skip 4)
      else if c.startsWith "false" then .ok (.bool false, c.skip 5)
      else if c.startsWith "NaN" then .ok (.real .nan, c.skip 3)
      else if c.startsWith "Infinity" then .ok (.real (.infinite false), c.skip 8)
      else if c.startsWith "-Infinity" then .ok (.real (.infinite true), c.skip 9)
      else readNumber c

/-- Reads the items of a list, after those read already. -/
def readItems : Nat → List Json → Cursor → Read (Json × Cursor)
  | 0, _, c => .error (.value, c.position)
  | fuel + 1, before, c => do
    let (item, c) ← readValue fuel c
    let c := c.skipSpace
    match c.rest with
    | ']' :: _ => return (.list (before ++ [item]), c.skip 1)
    | ',' :: _ => readItems fuel (before ++ [item]) (c.skip 1).skipSpace
    | _ => .error (.comma, c.position)

/-- Reads the members of an object, after those read already. -/
def readMembers : Nat → List (String × Json) → Cursor → Read (Json × Cursor)
  | 0, _, c => .error (.value, c.position)
  | fuel + 1, before, c =>
    match c.rest with
    | '"' :: rest => do
      let (name, c) ← readText c.position none [] (c.position + 1) rest
      let c := c.skipSpace
      match c.rest with
      | ':' :: _ =>
        let (value, c) ← readValue fuel (c.skip 1).skipSpace
        let c := c.skipSpace
        match c.rest with
        | '\x7d' :: _ => return (.object (putMember before name value), c.skip 1)
        | ',' :: _ => readMembers fuel (putMember before name value) (c.skip 1).skipSpace
        | _ => .error (.comma, c.position)
      | _ => .error (.colon, c.position)
    | _ => .error (.memberName, c.position)

end

/-- Reads a whole text as one JSON value. -/
def parse (text : List Char) : Except ReadError Json :=
  let result : Read Json := do
    if text.head? = some '\uFEFF' then throw (.byteOrderMark, 0)
    let (value, c) ← readValue (2 * text.length + 2) (Cursor.skipSpace ⟨0, text⟩)
    let c := c.skipSpace
    if c.rest.isEmpty then return value else throw (.extraData, c.position)
  result.mapError fun e => ReadError.at text e.1 e.2

end NodeQuery.Json
