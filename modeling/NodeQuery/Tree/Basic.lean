import NodeQuery.Attribute.Basic
import NodeQuery.Failure
/-!
Trees as a query sees them: nodes are known by ids, and each look-up of a node can fail. Reading
attributes or content on behalf of a query turns such a failure into one of the query where that is
possible.
-/
namespace NodeQuery

/-- What a query can ask of a tree. Ids are scalar JSON values. -/
structure NodeTree where
  /-- An id belongs to a node. -/
  has : Json → Bool
  name : Json → Except Fault Json
  attributes : Json → Except Fault Attributes
  /-- The content of a node, if it has any. -/
  data : Json → Except Fault (Option Bytes)

namespace NodeTree

/-- The attributes of a node on behalf of a query. -/
def readAttributes (t : NodeTree) (id : Json) : Outcome Attributes :=
  match t.attributes id with
  | .ok attributes => .ok attributes
  | .error fault =>
    .error (if fault.ofEnumeration then .query (.attributeLookup id fault) else .fault fault)

/-- The content of a node on behalf of a query. -/
def readData (t : NodeTree) (id : Json) : Outcome (Option Bytes) :=
  match t.data id with
  | .ok content => .ok content
  | .error fault =>
    .error (if fault.ofSystem then .query (.dataUnavailable id fault) else .fault fault)

/-- The name of a node on behalf of a query. -/
def readName (t : NodeTree) (id : Json) : Outcome Json :=
  (t.name id).mapError Failure.fault

end NodeTree
end NodeQuery
