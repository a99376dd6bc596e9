import NodeQuery.Host
import NodeQuery.Regex.Fault
import NodeQuery.Text.CharSet
import NodeQuery.Text.Identifier
import NodeQuery.Text.Word
/-!
Reading a pattern symbol by symbol. A symbol is one character, or a backslash with the character
after it. The reader always holds the next symbol, so a lone backslash at the end of a pattern is
refused as soon as the symbol before it has been taken.
-/
namespace NodeQuery.Regex

/-- A symbol of a pattern. -/
inductive Symbol where
  | plain (char : Char)
  | escaped (char : Char)
  deriving DecidableEq, Repr

namespace Symbol

/-- The characters of a symbol. -/
def chars : Symbol → List Char
  | plain c => [c]
  | escaped c => ['\\', c]

/-- The text of a symbol. -/
def text (s : Symbol) : String :=
  String.ofList s.chars

/-- The number of characters of a symbol. -/
def size (s : Symbol) : Nat :=
  s.chars.length

end Symbol

/-- The symbol at a place of a pattern, if any is left, and the characters after it. -/
structure Reader where
  next : Option Symbol
  place : Nat
  rest : List Char

/-- A result, or what is wrong with the pattern. -/
abbrev Result := Except Error

/-- Refuses a pattern for a fault at a place. -/
def refuse {α : Type} (fault : Fault) (position : Nat) : Result α :=
  .error (.fault fault (some position))

namespace Reader

/-- The reader at the start of the given characters. -/
def start (place : Nat) : List Char → Result Reader
  | [] => .ok ⟨none, place, []⟩
  | ['\\'] => refuse .endsInBackslash place
  | '\\' :: c :: rest => .ok ⟨some (.escaped c), place, rest⟩
  | c :: rest => .ok ⟨some (.plain c), place, rest⟩

/-- The reader after the next symbol. -/
def advance (r : Reader) : Result Reader :=
  start (r.place + (r.next.map Symbol.size).getD 0) r.rest

/-- An upper bound for the number of symbols that are left. -/
def left (r : Reader) : Nat :=
  r.rest.length + 1

/-- The next symbol is the given character. -/
def sees (r : Reader) (c : Char) : Bool :=
  r.next == some (.plain c)

/-- Takes the given character if it is next. -/
def take? (r : Reader) (c : Char) : Result (Bool × Reader) := do
  if r.sees c then return (true, ← r.advance) else return (false, r)

/-- Takes up to the given number of characters with a property. -/
def takeWhile (property : Char → Bool) : Nat → Reader → Result (List Char × Reader)
  | 0, r => return ([], r)
  | count + 1, r =>
    match r.next with
    | some (.plain c) =>
      if property c then do
        let (more, r) ← takeWhile property count (← r.advance)
        return (c :: more, r)
      else return ([], r)
    | _ => return ([], r)

/-- Reads a name up to its closing character, given what has been read of it. -/
def readName (closing : Char) (what : String) : Nat → List Char → Reader → Result (String × Reader)
  | 0, _, r => refuse (.missing what) r.place
  | fuel + 1, before, r => do
    let after ← r.advance
    match r.next with
    | none =>
      if before.isEmpty then refuse (.missing what) after.place
      else refuse (.openName closing) (after.place - before.length)
    | some symbol =>
      if symbol = .plain closing then
        if before.isEmpty then refuse (.missing what) (after.place - 1)
        else return (String.ofList before, after)
      else readName closing what fuel (before ++ symbol.chars) after

/-- The name of a group up to its closing character. -/
def groupName (r : Reader) (closing : Char) : Result (String × Reader) :=
  readName closing "group name" (r.left + 1) [] r

/-- Refuses a group name, just read, that is no identifier. -/
def checkName (r : Reader) (name : String) : Result Unit :=
  if Text.isIdentifier name.toList then return ()
  else refuse (.badGroupName name) (r.place - (name.length + 1))

/-- Skips a comment that ends with its line. -/
def skipLine : Nat → Reader → Result Reader
  | 0, r => return r
  | fuel + 1, r => do
    let after ← r.advance
    if r.next = none ∨ r.sees '\n' then return after else skipLine fuel after

/-- Skips a comment that ends with a parenthesis; `opened` is the place of the opening one. -/
def skipComment (opened : Nat) : Nat → Reader → Result Reader
  | 0, _ => refuse .openComment opened
  | fuel + 1, r =>
    if r.next = none then refuse .openComment opened
    else do
      let after ← r.advance
      if r.sees ')' then return after else skipComment opened fuel after

end Reader

/-- A digit of a number to base eight. -/
def isOctal (c : Char) : Bool :=
  '0' ≤ c && c ≤ '7'

/-- A digit of a number to base sixteen. -/
def isHex (c : Char) : Bool :=
  c.isDigit || ('a' ≤ c && c ≤ 'f') || ('A' ≤ c && c ≤ 'F')

/-- The value of a digit to base sixteen. -/
def hexDigit (c : Char) : Nat :=
  if c.isDigit then c.toNat - 48 else c.toLower.toNat - 87

/-- The value of digits to a base. -/
def digitsToBase (base : Nat) (digits : List Char) : Nat :=
  digits.foldl (fun n c => n * base + hexDigit c) 0

/-- The code point of a control character that a letter stands for after a backslash. -/
def controlCode? : Char → Option Nat
  | 'a' => some 7
  | 'b' => some 8
  | 'f' => some 12
  | 'n' => some 10
  | 'r' => some 13
  | 't' => some 9
  | 'v' => some 11
  | '\\' => some 92
  | _ => none

/-- The class that a letter stands for after a backslash, and whether it is negated. -/
def classLetter? : Char → Option (Text.CharClass × Bool)
  | 'd' => some (.digit, false)
  | 'D' => some (.digit, true)
  | 's' => some (.blank, false)
  | 'S' => some (.blank, true)
  | 'w' => some (.word, false)
  | 'W' => some (.word, true)
  | _ => none

/-- Reads an escape of a fixed number of digits to base sixteen, up to the given code point. -/
def hexEscape (letter : Char) (count limit : Nat) (r : Reader) : Result (Nat × Reader) := do
  let (digits, r) ← r.takeWhile isHex count
  let text := String.ofList ('\\' :: letter :: digits)
  if digits.length < count then refuse (.incompleteEscape text) (r.place - text.length)
  let code := digitsToBase 16 digits
  if limit < code then refuse (.badEscape text) (r.place - text.length)
  return (code, r)

section
variable [Host]

/-- Reads the name of a character in braces. -/
def nameEscape (r : Reader) : Result (Nat × Reader) := do
  if !r.sees '\x7b' then refuse (.missing "\x7b") r.place
  let (name, r) ← Reader.readName '\x7d' "character name" (r.left + 1) [] (← r.advance)
  match Text.named? name with
  | some code => return (code, r)
  | none => refuse (.unknownCharacterName name) (r.place - (name.length + 4))

/-- The escapes that mean the same inside sets and outside: a character by its code or name. Nothing
for a letter that starts no such escape. -/
def codeEscape? (wide : Bool) (letter : Char) (r : Reader) : Option (Result (Nat × Reader)) :=
  match letter, wide with
  | 'x', _ => some (hexEscape 'x' 2 0xFF r)
  | 'u', true => some (hexEscape 'u' 4 0xFFFF r)
  | 'U', true => some (hexEscape 'U' 8 0x10FFFF r)
  | 'N', true => some (nameEscape r)
  | _, _ => none

/-- An escaped character that stands for itself; letters and digits never do. -/
def selfEscape (c : Char) (r : Reader) : Result (Nat × Reader) :=
  if Text.isAsciiLetter c.toNat || c.isDigit then
    refuse (.badEscape (String.ofList ['\\', c])) (r.place - 2)
  else return (c.toNat, r)

/-- The value of a number to base eight, which must fit a byte. -/
def octalCode (digits : List Char) (r : Reader) : Result (Nat × Reader) :=
  let code := digitsToBase 8 digits
  if 0xFF < code then
    refuse (.octalTooLarge (String.ofList ('\\' :: digits))) (r.place - (digits.length + 1))
  else return (code, r)

/-- What stands in a set: a character, or a class with whether it is negated. -/
inductive SetItem where
  | code (code : Nat)
  | named (kind : Text.CharClass) (negated : Bool)

/-- Reads an escape inside a set, after its first symbol. -/
def setEscape (wide : Bool) (c : Char) (r : Reader) : Result (SetItem × Reader) :=
  match controlCode? c, classLetter? c, codeEscape? wide c r with
  | some code, _, _ => return (.code code, r)
  | _, some (kind, negated), _ => return (.named kind negated, r)
  | _, _, some result => result.map fun (code, r) => (.code code, r)
  | _, _, _ =>
    if isOctal c then do
      let (digits, r) ← r.takeWhile isOctal 2
      let (code, r) ← octalCode (c :: digits) r
      return (.code code, r)
    else (selfEscape c r).map fun (code, r) => (.code code, r)

end

end NodeQuery.Regex
