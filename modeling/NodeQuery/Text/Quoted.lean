import NodeQuery.Text.Printable
/-!
Quoted text, as messages show it: single quotes, or double quotes when the text holds a single quote
and no double one. The backslash, the quote in use, and characters without a printed form are
escaped; the shortest of `\xNN`, `\uNNNN` and `\UNNNNNNNN` that fits is taken. Quoted bytes have the
same form with a `b` in front and escape everything outside printed ASCII.
-/
namespace NodeQuery.Text

/-- A number in hexadecimal with at least the given number of digits. -/
def hex (width n : Nat) : String :=
  let digits := Nat.toDigits 16 n
  String.ofList (List.replicate (width - digits.length) '0' ++ digits)

/-- The escape for a code point without a printed form. -/
def escapeCode (code : Nat) : String :=
  if code < 0x100 then "\\x" ++ hex 2 code
  else if code < 0x10000 then "\\u" ++ hex 4 code
  else "\\U" ++ hex 8 code

/-- One code point inside quotes. -/
def quotedCode (quote : Char) (printable : Nat → Bool) (code : Nat) : String :=
  if code = quote.toNat ∨ code = 92 then String.ofList ['\\', Char.ofNat code]
  else if code = 10 then "\\n"
  else if code = 13 then "\\r"
  else if code = 9 then "\\t"
  else if printable code then String.ofList [Char.ofNat code]
  else escapeCode code

/-- The quote for a text: double only if that saves escaping single ones. -/
def quoteFor (codes : List Nat) : Char :=
  if codes.contains 39 && !codes.contains 34 then '"' else '\''

/-- A text in quotes. -/
def quoted (s : String) : String :=
  let codes := s.toList.map Char.toNat
  let quote := quoteFor codes
  String.ofList [quote] ++ String.join (codes.map (quotedCode quote isPrintable)) ++
    String.ofList [quote]

/-- Bytes in quotes. -/
def quotedBytes (bytes : List UInt8) : String :=
  let codes := bytes.map UInt8.toNat
  let quote := quoteFor codes
  "b" ++ String.ofList [quote] ++
    String.join (codes.map (quotedCode quote fun code => 32 ≤ code && code < 127)) ++
    String.ofList [quote]

end NodeQuery.Text
