import NodeQuery.Text.CharSet
/-!
Wildcard patterns: `*` stands for any text, `?` for any character, a set in brackets for one of its
characters, and everything else for itself. `Wildcard.fits` decides whether a whole text fits a
pattern: it takes each chunk between two stars where it first stands and never goes back to it.
-/
namespace NodeQuery

namespace Wildcard

/-- An item of a pattern. -/
inductive Item where
  /-- Any text, the empty one too. -/
  | star
  | one (set : Text.CharSet)
  deriving DecidableEq, Repr

/-- The inside of a set, cut at the hyphens that form ranges. A hyphen forms none at the start, or
within the two characters after one that does; one at the end belongs to the last chunk. The
arguments are the number of characters in which no hyphen counts, the chunk so far and the rest. -/
def chunks : Nat → List Char → List Char → List (List Char)
  | _, chunk, [] => [chunk]
  | 0, chunk, '-' :: rest => if rest.isEmpty then [chunk ++ ['-']] else chunk :: chunks 2 [] rest
  | held, chunk, c :: rest => chunks (held - 1) (chunk ++ [c]) rest

/-- Joins chunks whose range would be empty: its two ends disappear. Later ranges are judged
first. -/
def joinEmptyRanges : List (List Char) → List (List Char)
  | [] => []
  | chunk :: rest =>
    match joinEmptyRanges rest with
    | [] => [chunk]
    | next :: others =>
      match chunk.getLast?, next.head? with
      | some last, some first =>
        if first < last then (chunk.dropLast ++ next.drop 1) :: others
        else chunk :: next :: others
      | _, _ => chunk :: next :: others

/-- The inside of a set as characters and, for the hyphens that form ranges, nothing. -/
def marked : List (List Char) → List (Option Char)
  | [] => []
  | [chunk] => chunk.map some
  | chunk :: rest => chunk.map some ++ none :: marked rest

/-- The ranges of a set. A hyphen that has lost what stood before it stands for itself. -/
def ranges : List (Option Char) → List Text.CharRange
  | [] => []
  | some first :: none :: some last :: rest => .codes first.toNat last.toNat :: ranges rest
  | some c :: rest => .code c.toNat :: ranges rest
  | none :: rest => .code 45 :: ranges rest

/-- The set with the given inside. An exclamation mark at its start negates it. -/
def setOf (rule : Text.CaseRule) (inside : List Char) : Text.CharSet :=
  let held := if inside.head? = some '!' then 2 else 1
  match marked (joinEmptyRanges (chunks held [] inside)) with
  | [some '!'] => .all
  | some '!' :: rest => .ofParts rule true (ranges rest)
  | parts => .ofParts rule false (ranges parts)

/-- Splits off the inside of a set after its opening bracket. A closing bracket that comes first,
or right after an exclamation mark, belongs to the inside. -/
def splitSet? (s : List Char) : Option (List Char × List Char) :=
  let negation := if s.head? = some '!' then 1 else 0
  let held := if (s.drop negation).head? = some ']' then negation + 1 else negation
  let more := (s.drop held).takeWhile (· ≠ ']')
  match s.drop (held + more.length) with
  | [] => none
  | _ :: rest => some (s.take held ++ more, rest)

/-- Reads a pattern, of which at most `fuel` characters are read. A bracket that is not closed
stands for itself, and stars that follow each other are one. -/
def items (rule : Text.CaseRule) : Nat → List Char → List Item
  | 0, _ => []
  | _, [] => []
  | fuel + 1, c :: rest =>
    match c with
    | '*' => .star :: items rule fuel (rest.dropWhile (· = '*'))
    | '?' => .one .all :: items rule fuel rest
    | '[' =>
      match splitSet? rest with
      | some (inside, rest) => .one (setOf rule inside) :: items rule fuel rest
      | none => .one (.single rule c.toNat) :: items rule fuel rest
    | c => .one (.single rule c.toNat) :: items rule fuel rest

/-- The items of a pattern. -/
def parse (rule : Text.CaseRule) (pattern : List Char) : List Item :=
  items rule pattern.length pattern

/-- The sets before the first star, and those behind each star. -/
def chunksOf : List Item → List Text.CharSet × List (List Text.CharSet)
  | [] => ([], [])
  | .star :: rest =>
    let chunks := chunksOf rest
    ([], chunks.1 :: chunks.2)
  | .one set :: rest =>
    let chunks := chunksOf rest
    (set :: chunks.1, chunks.2)

/-- A chunk stands at the start of a text. -/
def begins : List Text.CharSet → List Nat → Bool
  | [], _ => true
  | _ :: _, [] => false
  | set :: chunk, code :: text => set.has code && begins chunk text

/-- What stands behind the first place of a chunk in a text. -/
def behindFirst? (chunk : List Text.CharSet) : List Nat → Option (List Nat)
  | [] => if begins chunk [] then some [] else none
  | code :: text =>
    if begins chunk (code :: text) then some ((code :: text).drop chunk.length)
    else behindFirst? chunk text

/-- A text fits stars with the given chunks behind them. Each chunk but the last is taken where it
first stands, once and for all; the last one is sought at the end. -/
def fitsBehind : List (List Text.CharSet) → List Nat → Bool
  | [], text => text.isEmpty
  | [last], text =>
    last.length ≤ text.length && begins last (text.drop (text.length - last.length))
  | chunk :: rest, text =>
    match behindFirst? chunk text with
    | some text => fitsBehind rest text
    | none => false

/-- A whole text fits a pattern. -/
def fits (pattern : List Item) (text : List Nat) : Bool :=
  let chunks := chunksOf pattern
  begins chunks.1 text && fitsBehind chunks.2 (text.drop chunks.1.length)

end Wildcard
end NodeQuery
