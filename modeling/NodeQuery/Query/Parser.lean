import NodeQuery.Failure
import NodeQuery.Query.Expr
import NodeQuery.Query.Lexer
/-!
Reading tokens as an expression. The reader is a state that each token advances: the left operand
that waits for a right one, the same for every open parenthesis around it, and what may come next.
All connectives have the same precedence and join to the left, so one waiting operand is enough.
-/
namespace NodeQuery.Query

/-- What a leaf tests, before its method is known. -/
inductive Head where
  | name (axis : Axis)
  | attribute (key : String) (keyMethod : Method)
  | data
  deriving DecidableEq, Repr

/-- A leaf without its literal. -/
inductive Slot where
  | name (axis : Axis) (method : Method)
  | attribute (key : String) (keyMethod valueMethod : Method)
  | data (method : DataMethod)
  deriving DecidableEq, Repr

/-- The leaf with a literal. -/
def Slot.fill (value : String) : Slot → Leaf
  | .name axis method => .name axis method value
  | .attribute key keyMethod valueMethod => .attribute key keyMethod value valueMethod
  | .data method => .data method value

namespace Head

/-- The slot where no method is given: texts are compared as they are, content is searched for a
regular expression. -/
def standard : Head → Slot
  | name axis => .name axis .fixed
  | .attribute key keyMethod => .attribute key keyMethod .fixed
  | data => .data .regex

/-- The slot for a method letter, if the letter is allowed. -/
def withLetter? (letter : String) : Head → Option Slot
  | name axis => (Method.ofLetter? letter).map (.name axis)
  | .attribute key keyMethod => (Method.ofLetter? letter).map (.attribute key keyMethod)
  | data => (DataMethod.ofLetter? letter).map .data

/-- The allowed letters. -/
def letters : Head → List String
  | data => ["r", "t"]
  | _ => ["f", "r", "u", "w"]

end Head

/-- What may come next. -/
inductive Expects where
  | operand
  | key (method : Method)
  | equals (head : Head)
  | value (head : Head)
  | literal (slot : Slot)
  /-- A connective or an end, after a complete operand. -/
  | connective (left : Expr)
  deriving DecidableEq, Repr

/-- A left operand and its connective, waiting for the right operand. -/
abbrev Waiting := Option (Expr × Connective)

/-- The state of the reading; `outer` holds what waits around each open parenthesis. -/
structure ParseState where
  waiting : Waiting
  outer : List Waiting
  expects : Expects
  deriving DecidableEq, Repr

/-- What a token leads to. -/
inductive ParseStep where
  | next (state : ParseState)
  | done (expr : Expr)
  | fail (error : Failure)

namespace ParseState

/-- The state before the first token. -/
def initial : ParseState :=
  ⟨none, [], .operand⟩

/-- The operand at a level once its last part is there. -/
def joined : Waiting → Expr → Expr
  | none, e => e
  | some (left, c), e => .join c left e

/-- The state after a complete operand. -/
def complete (s : ParseState) (e : Expr) : ParseState :=
  { s with waiting := none, expects := .connective (joined s.waiting e) }

/-- The error for a token that is not what is expected. -/
def unexpected (expected : Expected) (t : Token) : ParseStep :=
  .fail (.query (.malformed (.unexpectedToken expected t.kind) t.position))

/-- The connective that a token is. -/
def connective? : TokenKind → Option Connective
  | .or => some .or
  | .and => some .and
  | .andNot => some .andNot
  | _ => none

/-- The method that the letter of an attribute prefix stands for. -/
def methodOfLetter? (letter : String) : Option Method :=
  if letter = "" then some .fixed else Method.ofLetter? letter

/-- The step where an operand may start. -/
def onOperand (s : ParseState) (t : Token) : ParseStep :=
  match t.kind with
  | .openParen => .next { s with waiting := none, outer := s.waiting :: s.outer }
  | .name => .next { s with expects := .equals (.name .name) }
  | .attributeName => .next { s with expects := .equals (.name .attributeName) }
  | .data => .next { s with expects := .equals .data }
  | .attribute letter =>
    match methodOfLetter? letter with
    | some method => .next { s with expects := .key method }
    | none => .fail (.fault (.missingKey letter))
  | .word word => .fail (.query (.unknownAxis word t.position))
  | _ => unexpected .operand t

/-- The step after a complete operand. -/
def onConnective (s : ParseState) (left : Expr) (t : Token) : ParseStep :=
  match connective? t.kind, s.outer, t.kind with
  | some c, _, _ => .next { s with waiting := some (left, c), expects := .operand }
  | none, waiting :: outer, .closeParen =>
    .next (complete { s with waiting, outer } (.group left))
  | none, _ :: _, _ => unexpected .close t
  | none, [], .last => .done left
  | none, [], _ => unexpected .connective t

/-- The step for a token. -/
def step (s : ParseState) (t : Token) : ParseStep :=
  match s.expects, t.kind with
  | .operand, _ => s.onOperand t
  | .key method, .literal key => .next { s with expects := .equals (.attribute key method) }
  | .key _, _ => unexpected .literal t
  | .equals head, .equals => .next { s with expects := .value head }
  | .equals _, _ => unexpected .equals t
  | .value head, .method letter =>
    match head.withLetter? letter with
    | some slot => .next { s with expects := .literal slot }
    | none => .fail (.query (.malformed (.methodNotAllowed letter head.letters) t.position))
  | .value head, .literal value => .next (s.complete (.leaf (head.standard.fill value)))
  | .value _, _ => unexpected .literal t
  | .literal slot, .literal value => .next (s.complete (.leaf (slot.fill value)))
  | .literal _, _ => unexpected .literal t
  | .connective left, _ => s.onConnective left t

/-- Reads tokens one by one until the outcome is clear or the tokens have ended. -/
def run : ParseState → List Token → ParseStep
  | s, [] => .next s
  | s, t :: rest =>
    match s.step t with
    | .next s => run s rest
    | outcome => outcome

end ParseState

/-- Reads a list of tokens as an expression. After its end the last token comes again and again: it
closes parentheses or fails, unless it opens them. -/
def parseTokens (tokens : List Token) : Outcome Expr :=
  match tokens.getLast? with
  | none => .error (.fault (.badIndex "list index out of range"))
  | some last =>
    match ParseState.run .initial tokens with
    | .done e => .ok e
    | .fail error => .error error
    | .next s =>
      match s.run (List.replicate (s.outer.length + 4) last) with
      | .done e => .ok e
      | .fail error => .error error
      | .next _ => .error .endless

/-- Reads a query as an expression. -/
def parse (query : String) : Outcome Expr :=
  match tokenize query with
  | .ok tokens => parseTokens tokens
  | .error error => .error (.query error)

end NodeQuery.Query
