import NodeQuery.Json.Basic
import NodeQuery.Number.Decimal
import NodeQuery.Text.Quoted
/-!
The text of a JSON value in messages and comparisons: `quote` shows texts in quotes, `display` shows
a text that stands alone as it is.
-/
namespace NodeQuery.Json

mutual

/-- The text of a value inside another text: texts are quoted. -/
def quote : Json → String
  | .null => "None"
  | .bool b => if b then "True" else "False"
  | .int n => toString n
  | .real x => x.toText
  | .text s => Text.quoted s
  | .list items => "[" ++ ", ".intercalate (quoteItems items) ++ "]"
  | .object members => "\x7b" ++ ", ".intercalate (quoteMembers members) ++ "\x7d"

/-- The texts of the items of a list. -/
def quoteItems : List Json → List String
  | [] => []
  | item :: rest => item.quote :: quoteItems rest

/-- The texts of the members of an object. -/
def quoteMembers : List (String × Json) → List String
  | [] => []
  | (name, value) :: rest => (Text.quoted name ++ ": " ++ value.quote) :: quoteMembers rest

end

/-- The text of a value that stands alone. -/
def display : Json → String
  | .text s => s
  | value => value.quote

end NodeQuery.Json
