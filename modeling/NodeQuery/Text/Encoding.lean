import NodeQuery.Text.Utf8
/-!
Text encodings by name. A name is looked up without regard to case and to the characters between its
letters and digits. An encoding writes every character or refuses the text at the first run of
characters that it cannot write. Encodings that are not written out here are known by what they do
with a text alone (`Codec`).
-/
namespace NodeQuery.Text

/-- A way to write text as bytes. -/
inductive Encoding where
  | utf8
  | utf8Signed
  | utf16
  | utf16Little
  | utf16Big
  | utf32
  | utf32Little
  | utf32Big
  | ascii
  | latin1
  deriving DecidableEq, Repr

namespace Encoding

/-- Why a text is refused. -/
inductive Refusal where
  | unencodable (encoding : Encoding) (first : Char) (start length : Nat)
  /-- For a reason that is particular to the encoding. -/
  | other (detail : String)
  deriving DecidableEq, Repr

/-- Why a text could not be encoded. -/
inductive Error where
  | unknown (name : String)
  /-- What has the name turns no text into bytes. -/
  | notText (name : String)
  | refused (cause : Refusal)
  deriving DecidableEq, Repr

/-- The name of an encoding in messages. -/
def label : Encoding → String
  | utf8 => "utf-8"
  | utf8Signed => "utf-8-sig"
  | utf16 => "utf-16"
  | utf16Little => "utf-16-le"
  | utf16Big => "utf-16-be"
  | utf32 => "utf-32"
  | utf32Little => "utf-32-le"
  | utf32Big => "utf-32-be"
  | ascii => "ascii"
  | latin1 => "latin-1"

/-- The first code point that an encoding cannot write. -/
def limit : Encoding → Nat
  | ascii => 128
  | latin1 => 256
  | _ => 0x110000

/-- The words for a refusal. -/
def Refusal.message : Refusal → String
  | .unencodable encoding first start length =>
    let place :=
      if length = 1 then
        "character '" ++ escapeCode first.toNat ++ "' in position " ++ toString start
      else "characters in position " ++ toString start ++ "-" ++ toString (start + length - 1)
    "'" ++ encoding.label ++ "' codec can't encode " ++ place ++ ": ordinal not in range(" ++
      toString encoding.limit ++ ")"
  | .other detail => detail

/-- The text of an encoding error. -/
def Error.message : Error → String
  | .unknown name => "unknown encoding: " ++ name
  | .notText name =>
    "'" ++ name ++ "' is not a text encoding; use codecs.encode() to handle arbitrary codecs"
  | .refused cause => cause.message

/-- A name in lower case, with one underscore for everything that stands between letters, digits and
dots, and none at the ends. -/
def plainName (name : String) : String :=
  let step (state : List Char × Bool) (c : Char) : List Char × Bool :=
    if c.isAlphanum || c == '.' then
      (if state.2 && !state.1.isEmpty then c.toLower :: '_' :: state.1 else c.toLower :: state.1,
       false)
    else (state.1, true)
  String.ofList (name.toList.foldl step ([], false)).1.reverse

/-- The encodings with the names under which they are known, the chief name first. -/
def names : List (Encoding × List String) :=
  [(utf8, ["utf_8", "utf8", "u8", "utf", "utf8_ucs2", "utf8_ucs4", "cp65001"]),
   (utf8Signed, ["utf_8_sig"]),
   (utf16, ["utf_16", "utf16", "u16"]),
   (utf16Little, ["utf_16_le", "utf_16le", "unicodelittleunmarked"]),
   (utf16Big, ["utf_16_be", "utf_16be", "unicodebigunmarked"]),
   (utf32, ["utf_32", "utf32", "u32"]),
   (utf32Little, ["utf_32_le", "utf_32le"]),
   (utf32Big, ["utf_32_be", "utf_32be"]),
   (ascii, ["ascii", "us_ascii", "646", "ansi_x3.4_1968", "ansi_x3_4_1968", "ansi_x3.4_1986",
     "cp367", "csascii", "ibm367", "iso646_us", "iso_646.irv_1991", "iso_ir_6", "us"]),
   (latin1, ["latin_1", "latin1", "latin", "l1", "iso_8859_1", "iso8859_1", "iso8859", "8859",
     "cp819", "ibm819", "csisolatin1", "iso_8859_1_1987", "iso_ir_100"])]

/-- The encoding with a name, if it is one of these. All names but the chief one may have dots for
underscores. -/
def named? (name : String) : Option Encoding :=
  let plain := plainName name
  let joined := String.ofList (plain.toList.map fun c => if c = '.' then '_' else c)
  (names.find? fun entry => entry.2.contains plain || entry.2.tail.contains joined).map (·.1)

/-- A 16-bit unit, low byte first. -/
def little16 (unit : Nat) : Bytes :=
  [UInt8.ofNat (unit % 256), UInt8.ofNat (unit / 256)]

/-- The UTF-16 units of a character. -/
def units16 (c : Char) : List Nat :=
  let code := c.toNat
  if code < 0x10000 then [code]
  else [0xD800 + (code - 0x10000) / 0x400, 0xDC00 + (code - 0x10000) % 0x400]

/-- A character in UTF-32, low byte first. -/
def little32 (c : Char) : Bytes :=
  let code := c.toNat
  little16 (code % 0x10000) ++ little16 (code / 0x10000)

/-- The bytes of one character that the encoding can write. -/
def encodeChar : Encoding → Char → Bytes
  | utf8, c | utf8Signed, c => Utf8.encodeChar c
  | utf16, c | utf16Little, c => (units16 c).flatMap little16
  | utf16Big, c => (units16 c).flatMap fun unit => (little16 unit).reverse
  | utf32, c | utf32Little, c => little32 c
  | utf32Big, c => (little32 c).reverse
  | ascii, c | latin1, c => [UInt8.ofNat c.toNat]

/-- The bytes that an encoding puts before every text. -/
def mark : Encoding → Bytes
  | utf8Signed => [0xEF, 0xBB, 0xBF]
  | utf16 => [0xFF, 0xFE]
  | utf32 => [0xFF, 0xFE, 0, 0]
  | _ => []

/-- The encoding can write a character. -/
def canEncode (encoding : Encoding) (c : Char) : Bool :=
  c.toNat < encoding.limit

/-- The bytes of a text. -/
def encode (encoding : Encoding) (s : List Char) : Except Refusal Bytes :=
  match s.dropWhile encoding.canEncode with
  | [] => .ok (encoding.mark ++ s.flatMap encoding.encodeChar)
  | first :: rest =>
    let start := (s.takeWhile encoding.canEncode).length
    let length := 1 + (rest.takeWhile fun c => !encoding.canEncode c).length
    .error (.unencodable encoding first start length)

end Encoding

/-- An encoding as far as texts can tell: what it makes of each of them. -/
structure Codec where
  /-- It turns text into bytes, and not bytes into bytes or text into text. -/
  isText : Bool
  encode : List Char → Except Encoding.Refusal Bytes

/-- What an encoding makes of texts. -/
def Encoding.codec (encoding : Encoding) : Codec :=
  ⟨true, encoding.encode⟩

end NodeQuery.Text
