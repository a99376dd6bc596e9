import NodeQuery.Match.Alignment
import NodeQuery.Match.Wildcard
import NodeQuery.Query.Expr
import NodeQuery.Regex.Matching
import NodeQuery.Regex.Parser
import NodeQuery.Settings.Basic
/-!
Comparing a literal with texts by one of the four methods. A matcher is made once from the literal,
so that a literal that is no pattern fails before any text is looked at.
-/
namespace NodeQuery

/-- A literal made ready for one method. -/
inductive Matcher where
  | fixed (text : String)
  | wildcard (items : List Wildcard.Item)
  | regex (regex : Regex)
  /-- The score of the pattern in a text must reach the threshold. -/
  | fuzzy (pattern : String) (threshold : Rat)

/-- The code points of a text. -/
def codesOf (s : String) : List Nat :=
  s.toList.map Char.toNat

/-- The failure for a pattern that is no regular expression. What is refused for something else than
its grammar is no failure of the query. -/
def patternFailure (kind : Query.PatternKind) (literal : String) (bytes : Bool)
    (pattern : List Char) (error : Regex.Error) : Failure :=
  match error with
  | .fault .. => .query (.invalidPattern kind literal (error.message bytes pattern))
  | _ => .pattern error

namespace Matcher

/-- How wildcards treat case. -/
def wildcardRule (settings : Settings) : Text.CaseRule :=
  if settings.wildcardCaseSensitive.isTruthy then .exact else .unicode

/-- Makes a literal ready for a method. -/
def compile [Host] (settings : Settings) (method : Query.Method) (literal : String) :
    Outcome Matcher :=
  match method with
  | .fixed => .ok (.fixed literal)
  | .wildcard => .ok (.wildcard (Wildcard.parse (wildcardRule settings) literal.toList))
  | .regex =>
    match Regex.parse false [] literal.toList with
    | .ok r => .ok (.regex r)
    | .error error => .error (patternFailure .regex literal false literal.toList error)
  | .fuzzy => .ok (.fuzzy literal settings.threshold)

/-- A score reaches a threshold. -/
def reaches (score : Binary64) (threshold : Rat) : Bool :=
  match score with
  | .nan => false
  | .infinite negative => !negative
  | .finite negative q => threshold ≤ (if negative then -q else q)

/-- A text matches. -/
def accepts (m : Matcher) (text : String) : Bool :=
  match m with
  | fixed literal => text == literal
  | wildcard items => Wildcard.fits items (codesOf text)
  | regex r => r.search (codesOf text)
  | fuzzy pattern threshold =>
    reaches (Alignment.score pattern.toList text.toList) threshold

/-- A name matches. A name that is no text differs from every text; patterns cannot be compared with
it, and only the empty one is found in it. -/
def acceptsName (m : Matcher) (name : Json) : Outcome Bool :=
  match name with
  | .text s => .ok (m.accepts s)
  | _ =>
    match m with
    | fixed _ => .ok false
    | wildcard _ | regex _ => .error (.wrongType "a pattern needs a text")
    | fuzzy pattern threshold =>
      if pattern.isEmpty then .ok (reaches (.finite false 1) threshold)
      else .error (.fault (.noMember "a name that is no text has no lower case"))

end Matcher
end NodeQuery
