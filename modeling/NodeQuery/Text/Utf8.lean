import NodeQuery.Text.Quoted
/-!
UTF-8. `encode` writes a text as bytes. `decode` reads bytes as a text: strictly, with the first
fault found, or with the replacement character for every faulty part. A faulty part is the longest
run of bytes that starts some character but completes none, or else a single byte.
-/
namespace NodeQuery

/-- A sequence of bytes. -/
abbrev Bytes := List UInt8

namespace Text.Utf8

/-- The bytes of one character. -/
def encodeChar (c : Char) : Bytes :=
  let code := c.toNat
  let tail (shift : Nat) : UInt8 := UInt8.ofNat (0x80 + code / Nat.pow 2 shift % 64)
  if code < 0x80 then [UInt8.ofNat code]
  else if code < 0x800 then [UInt8.ofNat (0xC0 + code / 64), tail 0]
  else if code < 0x10000 then [UInt8.ofNat (0xE0 + code / 4096), tail 6, tail 0]
  else [UInt8.ofNat (0xF0 + code / 262144), tail 12, tail 6, tail 0]

/-- The bytes of a text. -/
def encode (s : List Char) : Bytes :=
  s.flatMap encodeChar

/-- How many bytes follow a first byte, and the range of the first of them; nothing for a byte that
starts no character. -/
def lead? (b : Nat) : Option (Nat × Nat × Nat) :=
  if 0xC2 ≤ b ∧ b ≤ 0xDF then some (1, 0x80, 0xBF)
  else if b = 0xE0 then some (2, 0xA0, 0xBF)
  else if b = 0xED then some (2, 0x80, 0x9F)
  else if 0xE1 ≤ b ∧ b ≤ 0xEF then some (2, 0x80, 0xBF)
  else if b = 0xF0 then some (3, 0x90, 0xBF)
  else if 0xF1 ≤ b ∧ b ≤ 0xF3 then some (3, 0x80, 0xBF)
  else if b = 0xF4 then some (3, 0x80, 0x8F)
  else none

/-- What is wrong with a faulty part. -/
inductive Fault where
  | start
  | continuation
  | endOfData
  deriving DecidableEq, Repr

/-- The words for a fault. -/
def Fault.message : Fault → String
  | .start => "invalid start byte"
  | .continuation => "invalid continuation byte"
  | .endOfData => "unexpected end of data"

/-- Reads the bytes after a first one: the code so far, the number of bytes read and of those still
owed, and the range of the next. Gives the code, or a fault with the length of the faulty part. -/
def readTail (code read : Nat) : Nat → Nat → Nat → List UInt8 → Except (Fault × Nat) (Nat × Nat)
  | 0, _, _, _ => .ok (code, read)
  | _ + 1, _, _, [] => .error (.endOfData, read)
  | owed + 1, first, last, b :: rest =>
    if first ≤ b.toNat ∧ b.toNat ≤ last then
      readTail (code * 64 + b.toNat % 64) (read + 1) owed 0x80 0xBF rest
    else .error (.continuation, read)

/-- Reads the first character: its code and its number of bytes, or a fault and the length of the
faulty part. -/
def readChar (b : UInt8) (rest : List UInt8) : Except (Fault × Nat) (Nat × Nat) :=
  if b.toNat < 0x80 then .ok (b.toNat, 1)
  else match lead? b.toNat with
    | none => .error (.start, 1)
    | some (owed, first, last) =>
      readTail (b.toNat % Nat.pow 2 (6 - owed)) 1 owed first last rest

/-- A fault, its place, and the bytes of the faulty part. -/
structure DecodeError where
  fault : Fault
  position : Nat
  bytes : Bytes
  deriving DecidableEq, Repr

/-- The text of a decoding error. -/
def DecodeError.message (e : DecodeError) : String :=
  let place := match e.bytes with
    | [b] => "byte 0x" ++ hex 2 b.toNat ++ " in position " ++ toString e.position
    | bytes => "bytes in position " ++ toString e.position ++ "-" ++
        toString (e.position + bytes.length - 1)
  "'utf-8' codec can't decode " ++ place ++ ": " ++ e.fault.message

/-- The characters and the faulty parts of a byte sequence, in order. The first argument counts the
bytes that belong to what was read last. -/
def parts : Nat → Nat → List UInt8 → List (Except DecodeError Char)
  | _, _, [] => []
  | skip + 1, position, _ :: rest => parts skip (position + 1) rest
  | 0, position, b :: rest =>
    match readChar b rest with
    | .ok (code, size) => .ok (Char.ofNat code) :: parts (size - 1) (position + 1) rest
    | .error (fault, size) =>
      .error ⟨fault, position, (b :: rest).take size⟩ :: parts (size - 1) (position + 1) rest

/-- Reads bytes as a text, or finds the first faulty part. -/
def decode (bytes : Bytes) : Except DecodeError (List Char) :=
  (parts 0 0 bytes).mapM id

/-- Reads bytes as a text, with the replacement character for each faulty part. -/
def decodeLossy (bytes : Bytes) : List Char :=
  (parts 0 0 bytes).map fun
    | .ok c => c
    | .error _ => '\uFFFD'

theorem encode_append (s t : List Char) : encode (s ++ t) = encode s ++ encode t := by
  simp [encode]

end Text.Utf8
end NodeQuery
