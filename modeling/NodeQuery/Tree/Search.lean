import NodeQuery.Query.Evaluation
import NodeQuery.Timeline
/-!
Queries and timelines over what lies below a path, or over the whole tree if no path is given.
-/
namespace NodeQuery.MemoryTree

/-- The nodes that a query selects of those below a path. -/
def select [Host] (t : MemoryTree) (view : NodeTree) (path : Option String) (query : String)
    (settings : Settings) : Outcome (List Json) := do
  let ids ← t.idsBelow path
  Query.evaluate view ids query settings

/-- The timeline of the nodes below a path. -/
def timeline (t : MemoryTree) (view : NodeTree) (path : Option String) (window : Window) :
    Outcome (List TimelineEntry) := do
  let ids ← t.idsBelow path
  Timeline.ofNodes view window ids

end NodeQuery.MemoryTree
