import NodeQuery.Query.Error
import NodeQuery.Text.Blank
import NodeQuery.Text.Word
/-!
Cutting a query into tokens. At each place that is not blank the first lexeme of `lexeme?` that fits
is taken: keywords end at a word edge, a method letter and the letter of an attribute prefix need a
literal right after them, and a literal runs to the next quote and is not empty.
-/
namespace NodeQuery.Query

/-- A blank character. -/
def isBlank (c : Char) : Bool :=
  Text.isBlank c.toNat

/-- A character that continues a word. -/
def isWordChar (c : Char) : Bool :=
  Text.isWord c.toNat

/-- A character that starts a bare word. -/
def startsWord (c : Char) : Bool :=
  Text.isAsciiLetter c.toNat || c == '_'

/-- A character that continues a bare word. -/
def continuesWord (c : Char) : Bool :=
  isWordChar c || c == '.' || c == ':'

/-- The letters of attribute prefixes. -/
def isAttributeLetter (c : Char) : Bool :=
  c == 'u' || c == 'w' || c == 'r' || c == 'f'

/-- The letters of methods. -/
def isMethodLetter (c : Char) : Bool :=
  isAttributeLetter c || c == 't'

/-- What follows a text at the start of another one. -/
def rest? : List Char → List Char → Option (List Char)
  | [], s => some s
  | _ :: _, [] => none
  | c :: word, d :: s => if c = d then rest? word s else none

/-- No word goes on here. -/
def atEdge (s : List Char) : Bool :=
  !(s.head?.any isWordChar)

/-- A keyword at the start of a text. -/
def startsWithKeyword (word s : List Char) : Bool :=
  (rest? word s).any atEdge

/-- The length of `and not` at the start of a text, with the blanks between its two words. -/
def andNotLength? (s : List Char) : Option Nat :=
  match rest? ['a', 'n', 'd'] s with
  | none => none
  | some s =>
    let blanks := s.takeWhile isBlank
    if !blanks.isEmpty && startsWithKeyword ['n', 'o', 't'] (s.dropWhile isBlank) then
      some (3 + blanks.length + 3)
    else none

/-- The characters of `attribute`. -/
def attributeWord : List Char := ['a', 't', 't', 'r', 'i', 'b', 'u', 't', 'e']

/-- The letter of an attribute prefix, if a literal follows it. -/
def letterAfterColon : List Char → String
  | letter :: '\'' :: _ => if isAttributeLetter letter then String.ofList [letter] else ""
  | _ => ""

/-- The value of a literal at the start of a text. -/
def literalValue? : List Char → Option (List Char)
  | '\'' :: s =>
    let value := s.takeWhile (· ≠ '\'')
    if !value.isEmpty && value.length < s.length then some value else none
  | _ => none

/-- The first token of a text that does not start with a blank, and its length. -/
def lexeme? (s : List Char) : Option (TokenKind × Nat) :=
  match andNotLength? s with
  | some size => some (.andNot, size)
  | none =>
    if startsWithKeyword ['a', 'n', 'd'] s then some (.and, 3)
    else if startsWithKeyword ['o', 'r'] s then some (.or, 2)
    else if startsWithKeyword (attributeWord ++ ['.', 'n', 'a', 'm', 'e']) s then
      some (.attributeName, 14)
    else match rest? (attributeWord ++ [':']) s with
    | some rest =>
      let letter := letterAfterColon rest
      some (.attribute letter, 10 + letter.length)
    | none =>
      if startsWithKeyword ['n', 'a', 'm', 'e'] s then some (.name, 4)
      else if startsWithKeyword ['d', 'a', 't', 'a'] s then some (.data, 4)
      else match s with
      | '=' :: '=' :: _ => some (.equals, 2)
      | '(' :: _ => some (.openParen, 1)
      | ')' :: _ => some (.closeParen, 1)
      | _ =>
        match literalValue? s, s with
        | some value, _ => some (.literal (String.ofList value), value.length + 2)
        | none, c :: rest =>
          if isMethodLetter c && rest.head? = some '\'' then some (.method (String.ofList [c]), 1)
          else if startsWord c then
            let word := c :: rest.takeWhile continuesWord
            some (.word (String.ofList word), word.length)
          else none
        | none, [] => none

/-- The error for a text that starts with no token, at its place. -/
def lexError (c : Char) (position : Nat) : QueryError :=
  .malformed (if c = '\'' then .openLiteral else .unexpectedCharacter c) position

/-- The tokens of the rest of a query. The first argument counts the characters that belong to the
token read last, the second is the place of the rest. -/
def tokensFrom : Nat → Nat → List Char → Except QueryError (List Token)
  | _, position, [] => .ok [⟨.last, position⟩]
  | held + 1, position, _ :: rest => tokensFrom held (position + 1) rest
  | 0, position, c :: rest =>
    if isBlank c then tokensFrom 0 (position + 1) rest
    else
      match lexeme? (c :: rest) with
      | some (kind, size) =>
        (tokensFrom (size - 1) (position + 1) rest).map (⟨kind, position⟩ :: ·)
      | none => .error (lexError c position)

/-- The tokens of a query, with one at its end. -/
def tokenize (query : String) : Except QueryError (List Token) :=
  tokensFrom 0 0 query.toList

end NodeQuery.Query
