import NodeQuery.Text.Quoted
/-!
Query expressions: leaves that test the name, the attributes or the content of a node, joined by
connectives. A group keeps the parentheses of the query.
-/
namespace NodeQuery.Query

/-- How a literal is compared with a text. -/
inductive Method where
  | fixed
  | wildcard
  | regex
  | fuzzy
  deriving DecidableEq, Repr

/-- How a literal is searched for in content. -/
inductive DataMethod where
  | text
  | regex
  deriving DecidableEq, Repr

/-- What a name leaf tests: the node's own name or the names of its attributes. -/
inductive Axis where
  | name
  | attributeName
  deriving DecidableEq, Repr

/-- A leaf of a query. -/
inductive Leaf where
  | name (axis : Axis) (method : Method) (value : String)
  | attribute (key : String) (keyMethod : Method) (value : String) (valueMethod : Method)
  | data (method : DataMethod) (value : String)
  deriving DecidableEq, Repr

/-- What joins two operands. -/
inductive Connective where
  | or
  | and
  | andNot
  deriving DecidableEq, Repr

/-- A query expression. -/
inductive Expr where
  | leaf (leaf : Leaf)
  | join (connective : Connective) (left right : Expr)
  | group (inner : Expr)
  deriving DecidableEq, Repr

namespace Method

/-- The word for a method. -/
def label : Method → String
  | fixed => "FIXED"
  | wildcard => "WILDCARD"
  | regex => "REGEX"
  | fuzzy => "FUZZY"

/-- The number of a method. -/
def number : Method → Nat
  | fixed => 1
  | wildcard => 2
  | regex => 3
  | fuzzy => 4

/-- The method with a letter. -/
def ofLetter? (letter : String) : Option Method :=
  if letter = "u" then some fixed
  else if letter = "w" then some wildcard
  else if letter = "r" then some regex
  else if letter = "f" then some fuzzy
  else none

/-- The method with a word. -/
def ofLabel? (label : String) : Option Method :=
  [fixed, wildcard, regex, fuzzy].find? (·.label == label)

end Method

namespace DataMethod

/-- The word for a method. -/
def label : DataMethod → String
  | text => "TEXT"
  | regex => "REGEX"

/-- The number of a method. -/
def number : DataMethod → Nat
  | text => 1
  | regex => 2

/-- The method with a letter. -/
def ofLetter? (letter : String) : Option DataMethod :=
  if letter = "t" then some text
  else if letter = "r" then some regex
  else none

/-- The method with a word. -/
def ofLabel? (label : String) : Option DataMethod :=
  [text, regex].find? (·.label == label)

end DataMethod

namespace Axis

/-- The word for an axis. -/
def label : Axis → String
  | name => "NAME"
  | attributeName => "ATTRIBUTE_NAME"

/-- The number of an axis. -/
def number : Axis → Nat
  | name => 1
  | attributeName => 2

/-- The axis with a word. -/
def ofLabel? (label : String) : Option Axis :=
  [name, attributeName].find? (·.label == label)

end Axis

namespace Leaf

/-- The literals of a leaf, in the order of the query. -/
def literals : Leaf → List String
  | .name _ _ value => [value]
  | .attribute key _ value _ => [key, value]
  | .data _ value => [value]

/-- A named constant in the form of debug messages. -/
def constantText (kind label : String) (number : Nat) : String :=
  "<" ++ kind ++ "." ++ label ++ ": " ++ toString number ++ ">"

/-- A method in the form of debug messages. -/
def methodText (m : Method) : String :=
  constantText "MatchMethod" m.label m.number

/-- A leaf in the form of debug messages. -/
def inspect : Leaf → String
  | .name axis method value =>
    "NameQuery(query_type=" ++ constantText "QueryType" axis.label axis.number ++
      ", value=" ++ Text.quoted value ++ ", method=" ++ methodText method ++ ")"
  | .attribute key keyMethod value valueMethod =>
    "AttributeQuery(name=" ++ Text.quoted key ++ ", value=" ++ Text.quoted value ++
      ", name_method=" ++ methodText keyMethod ++ ", value_method=" ++ methodText valueMethod ++ ")"
  | .data method value =>
    "DataQuery(value=" ++ Text.quoted value ++ ", method=" ++
      constantText "DataMethod" method.label method.number ++ ")"

end Leaf

/-- The name of a connective in debug messages. -/
def Connective.nodeName : Connective → String
  | .or => "OrNode"
  | .and => "AndNode"
  | .andNot => "AndNotNode"

namespace Expr

/-- The leaves of an expression, from left to right. -/
def leaves : Expr → List Leaf
  | leaf l => [l]
  | join _ left right => left.leaves ++ right.leaves
  | group inner => inner.leaves

/-- An expression in the form of debug messages. -/
def inspect : Expr → String
  | leaf l => l.inspect
  | join c left right =>
    c.nodeName ++ "(left=" ++ left.inspect ++ ", right=" ++ right.inspect ++ ")"
  | group inner => "GroupNode(child=" ++ inner.inspect ++ ")"

end Expr
end NodeQuery.Query
