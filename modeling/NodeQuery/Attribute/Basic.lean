import NodeQuery.Json.Display
import NodeQuery.Text.Utf8
import NodeQuery.Time.Stamp
/-!
Attributes of a node: an ordered list of keys, each with a value or with a nested set of attributes.
A value below nested sets is addressed by its dotted name, the keys on the way to it joined by
points. `flatten` gives the values by dotted name, `names` all dotted names, the nested sets'
included.
-/
namespace NodeQuery

/-- The value of an attribute. -/
inductive AttributeValue where
  | json (value : Json)
  | time (value : Stamp)
  | bytes (value : Bytes)

/-- An ordered list of attributes. -/
inductive Attributes where
  | nil
  | leaf (key : Json) (value : AttributeValue) (rest : Attributes)
  | nest (key : Json) (inner rest : Attributes)

namespace AttributeValue

/-- The text as which a value is compared. A whole number has all its digits here; how many of them
a machine writes is left to its bounds. -/
def text : AttributeValue → String
  | json (.bool b) => if b then "true" else "false"
  | json value => value.display
  | time value => value.display
  | bytes value => String.ofList (Text.Utf8.decodeLossy value)

/-- The text of a value inside another one. -/
def quote : AttributeValue → String
  | json value => value.quote
  | time value => value.quote
  | bytes value => Text.quotedBytes value

end AttributeValue

namespace Attributes

/-- The dotted name of a key inside the set with the given name; a name that counts as empty adds
nothing. -/
def joinName (outer key : Json) : Json :=
  if outer.isTruthy then .text (outer.display ++ "." ++ key.display) else key

/-- The values with their dotted names, in order. -/
def flatten (outer : Json) : Attributes → List (Json × AttributeValue)
  | nil => []
  | leaf key value rest => (joinName outer key, value) :: flatten outer rest
  | nest key inner rest => flatten (joinName outer key) inner ++ flatten outer rest

/-- All dotted names, in order. The name of a nested set comes after the names in it. -/
def names (outer : Json) : Attributes → List Json
  | nil => []
  | leaf key _ rest => joinName outer key :: names outer rest
  | nest key inner rest => names (joinName outer key) inner ++ joinName outer key :: names outer rest

/-- The outer name of attributes that stand in no set. -/
def noName : Json := .text ""

/-- The texts of the attributes of a nested set. -/
def quoteEach : Attributes → List String
  | nil => []
  | leaf key value rest => (key.quote ++ ": " ++ value.quote) :: quoteEach rest
  | nest key inner rest =>
    (key.quote ++ ": " ++ "\x7b" ++ ", ".intercalate (quoteEach inner) ++ "\x7d") :: quoteEach rest

/-- The text of a nested set. -/
def quote (a : Attributes) : String :=
  "\x7b" ++ ", ".intercalate a.quoteEach ++ "\x7d"

/-- The attributes of one list after those of another. -/
def append : Attributes → Attributes → Attributes
  | nil, b => b
  | leaf key value rest, b => leaf key value (append rest b)
  | nest key inner rest, b => nest key inner (append rest b)

end Attributes
end NodeQuery
