import NodeQuery.Text.Utf8
/-!
Base64, read leniently: characters outside the alphabet are skipped, and padding that completes a
group of four ends the data. What stays incomplete is refused.
-/
namespace NodeQuery.Text.Base64

/-- Why a text is no base64 data. -/
inductive Error where
  | notAscii
  | padding
  | lonelyCharacter (count : Nat)
  deriving DecidableEq, Repr

/-- The text of an error. -/
def Error.message : Error → String
  | .notAscii => "string argument should contain only ASCII characters"
  | .padding => "Incorrect padding"
  | .lonelyCharacter count =>
    "Invalid base64-encoded string: number of data characters (" ++ toString count ++
      ") cannot be 1 more than a multiple of 4"

/-- The six bits of a character of the alphabet. -/
def bits? (c : Char) : Option Nat :=
  if 'A' ≤ c ∧ c ≤ 'Z' then some (c.toNat - 65)
  else if 'a' ≤ c ∧ c ≤ 'z' then some (c.toNat - 71)
  else if '0' ≤ c ∧ c ≤ '9' then some (c.toNat + 4)
  else if c = '+' then some 62
  else if c = '/' then some 63
  else none

/-- Collects the six-bit groups of a text, with the number of groups read in the current four and of
pads since the last of them. Padding that fills up the current four stops the reading and empties
the count of what is still open. -/
def groups : Nat → Nat → List Char → List Nat × Nat
  | filled, _, [] => ([], filled)
  | filled, pads, c :: rest =>
    if c = '=' then
      if 2 ≤ filled then
        if 4 ≤ filled + pads + 1 then ([], 0) else groups filled (pads + 1) rest
      else groups filled pads rest
    else match bits? c with
      | none => groups filled pads rest
      | some b =>
        let (more, opened) := groups ((filled + 1) % 4) 0 rest
        (b :: more, opened)

/-- The bytes of six-bit groups; bits that fill no byte are dropped. -/
def bytesOf : List Nat → Bytes
  | a :: b :: c :: d :: rest =>
    UInt8.ofNat (a * 4 + b / 16) :: UInt8.ofNat (b % 16 * 16 + c / 4) ::
      UInt8.ofNat (c % 4 * 64 + d) :: bytesOf rest
  | [a, b, c] => [UInt8.ofNat (a * 4 + b / 16), UInt8.ofNat (b % 16 * 16 + c / 4)]
  | [a, b] => [UInt8.ofNat (a * 4 + b / 16)]
  | _ => []

/-- Reads a text as base64 data. -/
def decode (s : List Char) : Except Error Bytes :=
  if s.any (fun c => 128 ≤ c.toNat) then .error .notAscii
  else
    let (bits, opened) := groups 0 0 s
    if opened = 0 then .ok (bytesOf bits)
    else if opened = 1 then .error (.lonelyCharacter bits.length)
    else .error .padding

end NodeQuery.Text.Base64
