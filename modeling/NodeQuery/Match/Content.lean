import NodeQuery.Match.Matcher
/-!
Searching the content of nodes: for a text in any of the configured encodings, or for a regular
expression over bytes.
-/
namespace NodeQuery

/-- A search made ready. -/
inductive ContentTest where
  | needles (needles : List Bytes)
  | regex (regex : Regex)

namespace ContentTest
variable [Host]

/-- The encoding that a setting names. -/
def codecOf (name : Json) : Outcome Text.Codec :=
  match name with
  | .text name =>
    if name.toList.contains '\x00' then .error (.badValue "embedded null character")
    else match Text.Codec.named? name with
      | some codec => if codec.isText then .ok codec else .error (.encoding (.notText name))
      | none => .error (.encoding (.unknown name))
  | _ => .error (.wrongType "the name of an encoding must be a text")

/-- The bytes of a text in an encoding given by name. -/
def needle (text : List Char) (name : Json) : Outcome Bytes := do
  let codec ← codecOf name
  (codec.encode text).mapError fun cause => .encoding (.refused cause)

/-- The bytes of a text in each encoding, after those found already; repeated ones are left out. -/
def needlesAfter (text : List Char) : List Bytes → List Json → Outcome (List Bytes)
  | found, [] => .ok found
  | found, name :: names => do
    let bytes ← needle text name
    needlesAfter text (if found.contains bytes then found else found ++ [bytes]) names

/-- The bytes of a text in each configured encoding, without repetition. -/
def needlesOf (settings : Settings) (text : String) : Outcome (List Bytes) :=
  needlesAfter text.toList [] settings.encodings

/-- The flags of regular expressions over content. -/
def flags (settings : Settings) : List Regex.Flag :=
  (if settings.dataIgnoreCase.isTruthy then [.ignoreCase] else []) ++
    (if settings.dataDotAll.isTruthy then [.dotAll] else [])

/-- A pattern as bytes, each in the place of the character with its code. -/
def bytePattern (literal : String) : List Char :=
  (Text.Utf8.encode literal.toList).map fun b => Char.ofNat b.toNat

/-- Makes a literal ready for a method. -/
def compile (settings : Settings) (method : Query.DataMethod) (literal : String) :
    Outcome ContentTest :=
  match method with
  | .text => (needlesOf settings literal).map .needles
  | .regex =>
    let pattern := bytePattern literal
    match Regex.parse true (flags settings) pattern with
    | .ok r => .ok (.regex r)
    | .error error => .error (patternFailure .dataRegex literal true pattern error)

/-- A byte sequence occurs in another one. -/
def occursIn (needle content : Bytes) : Bool :=
  needle.isPrefixOf content || match content with
    | [] => false
    | _ :: rest => occursIn needle rest

/-- Content satisfies a search. -/
def accepts (test : ContentTest) (content : Bytes) : Bool :=
  match test with
  | needles found => found.any (occursIn · content)
  | regex r => r.search (content.map UInt8.toNat)

end ContentTest
end NodeQuery
