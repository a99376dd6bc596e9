import NodeQuery.Files.Store
import NodeQuery.Json.Identity
import NodeQuery.Tree.Basic
/-!
Trees held in memory. Nodes are numbered in the order in which they are added, the root being 0;
content is held too, or lies in a file that is read when it is asked for. Paths name nodes from the
root down; the root's own name may come first.
-/
namespace NodeQuery

/-- The content of a node. -/
inductive Content where
  | bytes (bytes : Bytes)
  | file (path : Files.Path)

/-- What a node holds in the place of its attributes. -/
inductive AttributeSlot where
  | attributes (attributes : Attributes)
  /-- A time, from which no attributes can be read. -/
  | time (value : Stamp)

/-- A node. -/
structure Node where
  name : Json
  parent : Option Nat
  slot : AttributeSlot
  content : Option Content
  /-- The numbers of the nodes below, in the order of their adding. -/
  children : List Nat

/-- A tree, as its nodes by number. -/
structure MemoryTree where
  nodes : List Node

namespace MemoryTree

/-- The tree of a root without attributes and content. -/
def ofRoot (name : Json) : MemoryTree :=
  ⟨[⟨name, none, .attributes .nil, none, []⟩]⟩

/-- The number of nodes. -/
def size (t : MemoryTree) : Nat :=
  t.nodes.length

/-- The number of the node with an id. Only whole numbers are ids. -/
def number? (t : MemoryTree) : Json → Option Nat
  | .int (.ofNat n) => if n < t.size then some n else none
  | _ => none

/-- An id belongs to a node. -/
def has (t : MemoryTree) (id : Json) : Bool :=
  (t.number? id).isSome

/-- The bound of positions in a list, on both sides of zero. -/
def positionLimit : Int := Nat.pow 2 63

/-- The position that a whole number means: a negative one counts from the end. -/
def positionOf (t : MemoryTree) (n : Int) : Except Fault Nat :=
  let i := if n < 0 then n + t.size else n
  if 0 ≤ i ∧ i < t.size then .ok i.toNat
  else if n < -positionLimit ∨ positionLimit ≤ n then
    .error (.badIndex "cannot fit 'int' into an index-sized integer")
  else .error (.badIndex "list index out of range")

/-- The position that a value means. -/
def position (t : MemoryTree) : Json → Except Fault Nat
  | .int n => t.positionOf n
  | .bool b => t.positionOf (if b then 1 else 0)
  | _ => .error (.wrongType "a position must be a whole number")

/-- The node at a position. -/
def node (t : MemoryTree) (id : Json) : Except Fault Node := do
  let i ← t.position id
  match t.nodes[i]? with
  | some node => return node
  | none => .error (.badIndex "list index out of range")

/-- The name of a node. -/
def name (t : MemoryTree) (id : Json) : Except Fault Json :=
  (t.node id).map Node.name

/-- The attributes of a node. -/
def attributes (t : MemoryTree) (id : Json) : Except Fault Attributes := do
  let node ← t.node id
  match node.slot with
  | .attributes attributes => return attributes
  | .time _ => .error (.noMember "a time has no attributes")

/-- The content of a node. -/
def data (t : MemoryTree) (files : Files.Store) (id : Json) : Except Fault (Option Bytes) := do
  let node ← t.node id
  match node.content with
  | none => return none
  | some (.bytes bytes) => return some bytes
  | some (.file path) => return some (← files.read path)

/-- A tree as a query sees it. -/
def view (t : MemoryTree) (files : Files.Store) : NodeTree :=
  ⟨t.has, t.name, t.attributes, t.data files⟩

/-- The nodes right below a node. -/
def childrenOf (t : MemoryTree) (n : Nat) : List Nat :=
  ((t.nodes[n]?).map Node.children).getD []

/-- Adds a node below the node with a number. -/
def push (t : MemoryTree) (parent : Nat) (name : Json) (attributes : Attributes)
    (content : Option Content) : MemoryTree :=
  let node : Node := ⟨name, some parent, .attributes attributes, content, []⟩
  ⟨t.nodes.modify parent (fun p => { p with children := p.children ++ [t.size] }) ++ [node]⟩

/-- Adds a node below the node with an id, and gives its number. -/
def add (t : MemoryTree) (parent name : Json) (attributes : Attributes)
    (content : Option Content) : Except Fault (Nat × MemoryTree) :=
  match t.number? parent with
  | some n => .ok (t.size, t.push n name attributes content)
  | none => .error (.missingKey ("Unknown parent node " ++ parent.quote))

/-- The nodes waiting to be visited and all below them, each before those below it. -/
def visit (t : MemoryTree) : Nat → List Nat → List Nat
  | 0, _ => []
  | _, [] => []
  | fuel + 1, n :: rest => n :: visit t fuel (t.childrenOf n ++ rest)

/-- All nodes below a node. -/
def below (t : MemoryTree) (n : Nat) : List Nat :=
  t.visit t.size (t.childrenOf n)

/-- The name of a node is the given text. -/
def isNamed (t : MemoryTree) (name : String) (n : Nat) : Bool :=
  match t.nodes[n]? with
  | some node =>
    match node.name with
    | .text s => s == name
    | _ => false
  | none => false

/-- Follows names down from a node, always to the first node of that name. -/
def descend (t : MemoryTree) (n : Nat) : List String → Option Nat
  | [] => some n
  | name :: rest =>
    match (t.childrenOf n).find? (t.isNamed name) with
    | some child => descend t child rest
    | none => none

/-- The names in a path. -/
def pathNames (path : String) : List String :=
  ((path.toList.splitOn '/').filter (· ≠ [])).map String.ofList

/-- The names in a path without the root's. -/
def namesBelowRoot (t : MemoryTree) (path : String) : List String :=
  match pathNames path with
  | [] => []
  | name :: rest => if t.isNamed name 0 then rest else name :: rest

/-- The node at a path. -/
def find? (t : MemoryTree) (path : String) : Option Nat :=
  t.descend 0 (t.namesBelowRoot path)

/-- All nodes below a path, or below the root if no path is given. -/
def belowPath? (t : MemoryTree) (path : Option String) : Option (List Nat) :=
  match path with
  | none => some (t.below 0)
  | some path => (t.find? path).map t.below

/-- The names on the way from a node up to the root, the root's left out. -/
def namesUp (t : MemoryTree) : Nat → Json → Except Fault (List Json)
  | 0, _ => .ok []
  | fuel + 1, id =>
    if id.same .null || id.same (.int 0) then .ok []
    else do
      let node ← t.node id
      match node.parent with
      | some parent => return node.name :: (← namesUp t fuel (.int parent))
      | none => return [node.name]

/-- Names that are texts. -/
def textsOf : List Json → Except Fault (List String)
  | [] => .ok []
  | .text s :: rest => (textsOf rest).map (s :: ·)
  | _ :: _ => .error (.wrongType "a name in a path must be a text")

/-- The path of a node. -/
def path (t : MemoryTree) (id : Json) : Except Fault String := do
  let names ← t.namesUp (t.size + 1) id
  let texts ← textsOf names
  return "/" ++ "/".intercalate texts.reverse

/-- Node numbers as ids. -/
def ids (numbers : List Nat) : List Json :=
  numbers.map fun n : Nat => .int n

theorem number?_eq_some_iff {t : MemoryTree} {id : Json} {n : Nat} :
    t.number? id = some n ↔ id = .int n ∧ n < t.size := by
  unfold number?
  split
  · rename_i m
    constructor
    · intro h
      by_cases hm : m < t.size
      · simp only [hm, if_true, Option.some.injEq] at h
        subst h
        exact ⟨rfl, hm⟩
      · simp [hm] at h
    · rintro ⟨h, hn⟩
      have hmn : m = n := Int.ofNat.inj (Json.int.inj h)
      subst hmn
      simp [hn]
  · rename_i h
    constructor
    · intro hn; simp at hn
    · rintro ⟨rfl, _⟩
      exact absurd rfl (h n)

/-- Whole numbers from zero on are positions as they are. -/
theorem node_of_getElem? {t : MemoryTree} {n : Nat} {node : Node} (h : t.nodes[n]? = some node) :
    t.node (.int n) = .ok node := by
  have hlt : n < t.size := (List.getElem?_eq_some_iff.1 h).1
  have hinside : (0 : Int) ≤ n ∧ (n : Int) < t.size := by omega
  have hposition : t.position (.int n) = .ok n := by
    rw [position, positionOf]
    simp only [if_neg (Int.not_lt.2 hinside.1), if_pos hinside, Int.toNat_natCast]
  simp [MemoryTree.node, hposition, h, bind, Except.bind, pure, Except.pure]

end MemoryTree
end NodeQuery
