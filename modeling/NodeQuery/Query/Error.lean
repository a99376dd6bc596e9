import NodeQuery.Fault
import NodeQuery.Json.Display
import NodeQuery.Query.Token
/-!
Why a query fails, and the words for it. A failure in the text of a query has a place.
-/
namespace NodeQuery

namespace Query

/-- What a query needs at a place. -/
inductive Expected where
  | operand
  | equals
  | literal
  | close
  | connective
  deriving DecidableEq, Repr

/-- The words for what is expected. -/
def Expected.label : Expected → String
  | .operand => "a query or '('"
  | .equals => "'=='"
  | .literal => "a quoted literal"
  | .close => "')'"
  | .connective => "'or', 'and' or 'and not'"

/-- What is wrong with the form of a query. -/
inductive Malformation where
  | unexpectedCharacter (char : Char)
  | openLiteral
  | unexpectedToken (expected : Expected) (got : TokenKind)
  | methodNotAllowed (letter : String) (allowed : List String)
  deriving DecidableEq, Repr

/-- The words for a malformation. -/
def Malformation.message : Malformation → String
  | .unexpectedCharacter c => "Unexpected character " ++ Text.quoted (String.ofList [c])
  | .openLiteral => "Unterminated or empty literal"
  | .unexpectedToken expected got => "Expected " ++ expected.label ++ ", got " ++ got.label
  | .methodNotAllowed letter allowed =>
    "Match method " ++ Text.quoted letter ++ " is not allowed here (expected one of " ++
      ", ".intercalate allowed ++ ")"

/-- Which kind of pattern a literal should have been. -/
inductive PatternKind where
  | regex
  | dataRegex
  deriving DecidableEq, Repr

/-- The words for a kind of pattern. -/
def PatternKind.label : PatternKind → String
  | .regex => "regex pattern"
  | .dataRegex => "data regex"

end Query

/-- Why a query fails. -/
inductive QueryError where
  | malformed (cause : Query.Malformation) (position : Nat)
  | unknownAxis (word : String) (position : Nat)
  | invalidPattern (kind : Query.PatternKind) (pattern detail : String)
  | attributeLookup (id : Json) (cause : Fault)
  | dataUnavailable (id : Json) (cause : Fault)
  | invalidPath (path : String)

namespace QueryError

/-- The word for the kind of an error. -/
def label : QueryError → String
  | malformed .. => "SYNTAX"
  | unknownAxis .. => "UNKNOWN_AXIS"
  | invalidPattern .. => "INVALID_PATTERN"
  | attributeLookup .. => "ATTRIBUTE_LOOKUP"
  | dataUnavailable .. => "DATA_UNAVAILABLE"
  | invalidPath .. => "INVALID_PATH"

/-- The words for an error. -/
def message : QueryError → String
  | malformed cause _ => cause.message
  | unknownAxis word _ => "Unknown axis " ++ Text.quoted word
  | invalidPattern kind pattern detail =>
    "Invalid " ++ kind.label ++ " " ++ Text.quoted pattern ++ ": " ++ detail
  | attributeLookup id cause =>
    "Cannot read attributes of node " ++ id.quote ++ ": " ++ cause.message
  | dataUnavailable id cause => "Cannot read data of node " ++ id.quote ++ ": " ++ cause.message
  | invalidPath path => "Invalid path " ++ Text.quoted path

/-- The place of an error in the query. -/
def position? : QueryError → Option Nat
  | malformed _ position | unknownAxis _ position => some position
  | _ => none

/-- The text of an error: its words and its place. -/
def text (e : QueryError) : String :=
  match e.position? with
  | some position => e.message ++ " (at position " ++ toString position ++ ")"
  | none => e.message

end QueryError
end NodeQuery
