import NodeQuery.Tree.Memory
/-!
Timelines: the times among the attributes of nodes that lie in a window, sorted. A window is aware
or naive; times of the other kind cannot be placed in it and are skipped. Times that are equal keep
the order of their nodes.
-/
namespace NodeQuery

/-- A time among the attributes of a node. -/
structure TimelineEntry where
  time : Stamp
  name : Json
  id : Json

/-- A span of time with both its ends. -/
structure Window where
  first : Stamp
  last : Stamp

namespace Window

/-- A window whose ends can be compared. -/
def isSound (w : Window) : Bool :=
  w.first.isAware == w.last.isAware

/-- A time can be placed in the window. -/
def places (w : Window) (t : Stamp) : Bool :=
  t.isAware == w.first.isAware

/-- A time lies in the window. -/
def holds (w : Window) (t : Stamp) : Bool :=
  w.places t && w.first.instant ≤ t.instant && t.instant ≤ w.last.instant

end Window

namespace Timeline

/-- The times among the attributes of a node, with their dotted names. -/
def timesOf (id : Json) (attributes : Attributes) : List TimelineEntry :=
  (attributes.flatten Attributes.noName).filterMap fun (name, value) =>
    match value with
    | .time t => some ⟨t, name, id⟩
    | _ => none

/-- All times among the attributes of nodes. -/
def times (tree : NodeTree) : List Json → Outcome (List TimelineEntry)
  | [] => .ok []
  | id :: rest =>
    if tree.has id then do
      let attributes ← tree.readAttributes id
      return timesOf id attributes ++ (← times tree rest)
    else times tree rest

/-- One entry is not later than another one. -/
def notLater (a b : TimelineEntry) : Bool :=
  a.time.instant ≤ b.time.instant

/-- The entries of a window, sorted. -/
def sorted (w : Window) (entries : List TimelineEntry) : List TimelineEntry :=
  (entries.filter fun e => w.holds e.time).mergeSort notLater

/-- The timeline of nodes. -/
def ofNodes (tree : NodeTree) (w : Window) (ids : List Json) : Outcome (List TimelineEntry) :=
  if w.isSound then (times tree ids).map (sorted w)
  else .error (.badValue "min_time and max_time must both be naive or both be aware")

/-- The number of times among the attributes of nodes that cannot be placed in a window. -/
def skippedCount (w : Window) (entries : List TimelineEntry) : Nat :=
  (entries.filter fun e => !w.places e.time).length

end Timeline

/-- The nodes below a path, or of the whole tree; a path must lead to a node. -/
def MemoryTree.idsBelow (t : MemoryTree) (path : Option String) : Outcome (List Json) :=
  match path, t.belowPath? path with
  | _, some numbers => .ok (MemoryTree.ids numbers)
  | some path, none => .error (.query (.invalidPath path))
  | none, none => .ok []

end NodeQuery
