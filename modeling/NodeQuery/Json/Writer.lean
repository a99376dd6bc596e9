import NodeQuery.Json.Basic
import NodeQuery.Number.Decimal
import NodeQuery.Text.Quoted
/-!
Writing JSON text in ASCII, with every item and member on a line of its own, four spaces further in
than the value that holds it. What is empty stays on one line.
-/
namespace NodeQuery.Json

/-- One UTF-16 unit as an escape. -/
def unitEscape (unit : Nat) : String :=
  "\\u" ++ Text.hex 4 unit

/-- One character of a text. -/
def writeChar (c : Char) : String :=
  match c with
  | '"' => "\\\""
  | '\\' => "\\\\"
  | '\n' => "\\n"
  | '\r' => "\\r"
  | '\t' => "\\t"
  | '\x08' => "\\b"
  | '\x0c' => "\\f"
  | c =>
    let code := c.toNat
    if 32 ≤ code ∧ code < 127 then String.ofList [c]
    else if code < 0x10000 then unitEscape code
    else unitEscape (0xD800 + (code - 0x10000) / 0x400) ++
      unitEscape (0xDC00 + (code - 0x10000) % 0x400)

/-- A text in double quotes. -/
def writeText (s : String) : String :=
  "\"" ++ String.join (s.toList.map writeChar) ++ "\""

/-- A double-precision number, with the words for what is not finite. -/
def writeReal : Binary64 → String
  | .nan => "NaN"
  | .infinite negative => if negative then "-Infinity" else "Infinity"
  | x => x.toText

/-- A line end and the spaces before a value at the given depth. -/
def lineStart (depth : Nat) : String :=
  "\n" ++ String.ofList (List.replicate (4 * depth) ' ')

mutual

/-- Writes a value that stands at the given depth. -/
def write (depth : Nat) : Json → String
  | .null => "null"
  | .bool b => if b then "true" else "false"
  | .int n => toString n
  | .real x => writeReal x
  | .text s => writeText s
  | .list [] => "[]"
  | .list items =>
    "[" ++ lineStart (depth + 1) ++
      ("," ++ lineStart (depth + 1)).intercalate (writeItems (depth + 1) items) ++
      lineStart depth ++ "]"
  | .object [] => "\x7b\x7d"
  | .object members =>
    "\x7b" ++ lineStart (depth + 1) ++
      ("," ++ lineStart (depth + 1)).intercalate (writeMembers (depth + 1) members) ++
      lineStart depth ++ "\x7d"

/-- Writes the items of a list. -/
def writeItems (depth : Nat) : List Json → List String
  | [] => []
  | item :: rest => item.write depth :: writeItems depth rest

/-- Writes the members of an object. -/
def writeMembers (depth : Nat) : List (String × Json) → List String
  | [] => []
  | (name, value) :: rest =>
    (writeText name ++ ": " ++ value.write depth) :: writeMembers depth rest

end

end NodeQuery.Json
