import NodeQuery.Match.Content
import NodeQuery.Query.Parser
import NodeQuery.Query.Selection
import NodeQuery.Tree.Basic
/-!
Evaluating an expression over candidate nodes. Every leaf runs over all candidates, in order, and
its literals are made ready before any node is looked at; connectives combine the selections.
Candidates that are no nodes are passed over without a look-up.
-/
namespace NodeQuery

/-- The items that pass a test, in order, or the first failure of the test. -/
def keep {α : Type} (test : α → Outcome Bool) : List α → Outcome (List α)
  | [] => .ok []
  | a :: rest => do
    let passes ← test a
    let kept ← keep test rest
    return if passes then a :: kept else kept

/-- Some item passes a test; items after the first that passes are not tested. -/
def anyPasses {α : Type} (test : α → Outcome Bool) : List α → Outcome Bool
  | [] => .ok false
  | a :: rest => do
    if ← test a then return true else anyPasses test rest

namespace Query

/-- What a query is evaluated over. -/
structure Context where
  tree : NodeTree
  candidates : List Json
  settings : Settings

/-- A leaf made ready. -/
inductive LeafTest where
  | name (matcher : Matcher)
  | attributeName (matcher : Matcher)
  | attribute (key value : Matcher)
  | data (test : ContentTest)

/-- Makes the literals of a leaf ready, a key before its value. -/
def Leaf.compile [Host] (settings : Settings) : Leaf → Outcome LeafTest
  | .name .name method value => (Matcher.compile settings method value).map .name
  | .name .attributeName method value => (Matcher.compile settings method value).map .attributeName
  | .attribute key keyMethod value valueMethod => do
    let key ← Matcher.compile settings keyMethod key
    let value ← Matcher.compile settings valueMethod value
    return .attribute key value
  | .data method value => (ContentTest.compile settings method value).map .data

namespace LeafTest

/-- The attributes of a node satisfy a test of both key and value: some value passes among those
whose dotted name does. All names are tested first. -/
def attributeHolds (key value : Matcher) (attributes : Attributes) : Outcome Bool := do
  let selected ← keep (fun entry => key.acceptsName entry.1) (attributes.flatten Attributes.noName)
  return selected.any fun entry => value.accepts entry.2.text

/-- A node satisfies a leaf. -/
def holds (tree : NodeTree) (id : Json) : LeafTest → Outcome Bool
  | name matcher => do matcher.acceptsName (← tree.readName id)
  | attributeName matcher => do
    let attributes ← tree.readAttributes id
    anyPasses matcher.acceptsName (attributes.names Attributes.noName)
  | .attribute key value => do
    let attributes ← tree.readAttributes id
    attributeHolds key value attributes
  | data test => do
    match ← tree.readData id with
    | some content => return test.accepts content
    | none => return false

/-- A candidate is a node that satisfies a leaf. -/
def selects (tree : NodeTree) (test : LeafTest) (id : Json) : Outcome Bool :=
  if tree.has id then test.holds tree id else .ok false

end LeafTest

/-- The candidates that satisfy a leaf. -/
def Leaf.select [Host] (context : Context) (leaf : Leaf) : Outcome (List Json) := do
  let test ← leaf.compile context.settings
  keep (test.selects context.tree) context.candidates

/-- Two selections combined. -/
def Connective.combine : Connective → List Json → List Json → List Json
  | .or => Selection.union
  | .and => Selection.inter
  | .andNot => Selection.diff

/-- The candidates that an expression selects. Both operands are always evaluated, the left one
first. -/
def Expr.select [Host] (context : Context) : Expr → Outcome (List Json)
  | .leaf l => l.select context
  | .join c left right => do
    let chosen ← left.select context
    let others ← right.select context
    return c.combine chosen others
  | .group inner => inner.select context

/-- Evaluates a query over candidates, of which repetitions are dropped. The query is read before
anything else; ids must be scalars. -/
def evaluate [Host] (tree : NodeTree) (candidates : List Json) (query : String)
    (settings : Settings) : Outcome (List Json) := do
  let expr ← parse query
  if candidates.all Json.isScalar then
    expr.select ⟨tree, Selection.distinct candidates, settings⟩
  else .error (.wrongType "an id must be a scalar")

end Query
end NodeQuery
