/-!
Tokens of a query and the words by which messages call them.
-/
namespace NodeQuery.Query

/-- What a token is. A method letter stands directly before a literal, an attribute prefix holds the
letter after its colon, or nothing. -/
inductive TokenKind where
  | or
  | and
  | andNot
  | openParen
  | closeParen
  | equals
  | name
  | attributeName
  | data
  | attribute (letter : String)
  | method (letter : String)
  | literal (value : String)
  | word (value : String)
  | last
  deriving DecidableEq, Repr

/-- A token and its place in the query. -/
structure Token where
  kind : TokenKind
  position : Nat
  deriving DecidableEq, Repr

/-- The word for a kind of token. -/
def TokenKind.label : TokenKind → String
  | .or => "OR"
  | .and => "AND"
  | .andNot => "AND_NOT"
  | .openParen => "LPAREN"
  | .closeParen => "RPAREN"
  | .equals => "EQ"
  | .name => "NAME"
  | .attributeName => "ATTRIBUTE_NAME"
  | .data => "DATA"
  | .attribute _ => "ATTRIBUTE"
  | .method _ => "METHOD"
  | .literal _ => "LITERAL"
  | .word _ => "WORD"
  | .last => "EOF"

/-- The text that a token carries. -/
def TokenKind.value? : TokenKind → Option String
  | .attribute s | .method s | .literal s | .word s => some s
  | _ => none

/-- The kind of token with a word and, where the kind carries one, a text. -/
def TokenKind.ofLabel? (label value : String) : Option TokenKind :=
  [.or, .and, .andNot, .openParen, .closeParen, .equals, .name, .attributeName, .data, .attribute value,
    .method value, .literal value, .word value, .last].find? (·.label == label)

end NodeQuery.Query
