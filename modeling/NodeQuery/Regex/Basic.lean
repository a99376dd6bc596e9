import NodeQuery.Text.CharSet
/-!
Regular expressions with everything that makes matching depend on order and on what was matched
before: greedy, lazy and possessive repetition, groups, look-around, back-references and conditions
on groups. Case and class rules are resolved already: they are in the sets and anchors.
-/
namespace NodeQuery

namespace Regex

/-- A condition on a place of the text. -/
inductive Anchor where
  | textStart
  | lineStart
  | textEnd
  /-- The end of the text, or the place before a line feed that ends it. -/
  | lastEnd
  | lineEnd
  /-- Between a word character and one that is none. -/
  | wordEdge (negated wide : Bool)
  deriving DecidableEq, Repr

/-- In which order a repetition tries its counts. -/
inductive Greed where
  | greedy
  | lazy
  /-- As many as possible, and never fewer afterwards. -/
  | possessive
  deriving DecidableEq, Repr

end Regex

/-- A regular expression. -/
inductive Regex where
  | empty
  | unit (set : Text.CharSet)
  | anchor (kind : Regex.Anchor)
  | seq (first second : Regex)
  | alt (first second : Regex)
  | repeated (greed : Regex.Greed) (least : Nat) (most : Option Nat) (body : Regex)
  | group (number : Nat) (body : Regex)
  /-- The first way in which the body matches, and no other. -/
  | atomic (body : Regex)
  /-- The body matches, or does not, from the place that lies the given number of characters back;
  it uses up nothing. -/
  | look (negated : Bool) (back : Nat) (body : Regex)
  /-- The text of a group once more. -/
  | repeatGroup (rule : Text.CaseRule) (number : Nat)
  /-- One of two ways, by whether a group has matched. -/
  | conditional (number : Nat) (yes no : Regex)
  deriving DecidableEq, Repr

namespace Regex

/-- Regular expressions one after the other. -/
def sequence : List Regex → Regex
  | [] => .empty
  | r :: rest => .seq r (sequence rest)

/-- Regular expressions to be tried in turn. -/
def choice : List Regex → Regex
  | [] => .empty
  | [r] => r
  | r :: rest => .alt r (choice rest)

end Regex
end NodeQuery
