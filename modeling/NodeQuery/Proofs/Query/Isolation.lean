import NodeQuery.Proofs.Query.Order
/-!
What an evaluation depends on. Every leaf looks at one aspect of a node: its name, its attributes or
its content. Two trees that have the same candidates as nodes, and that agree on these nodes in the
aspects that the leaves of an expression look at, are the same to the expression, failures included
(`select_isolated`). So a candidate that is no node is not looked at, and neither is an aspect
without a leaf.
-/
namespace NodeQuery

/-- What a query can look at in a node. -/
inductive Aspect where
  | name
  | attributes
  | content
  deriving DecidableEq, Repr

/-- Two trees agree on an aspect of a node: a look-up gives the same or fails in the same way. -/
def NodeTree.Agrees (tree tree' : NodeTree) (id : Json) : Aspect → Prop
  | .name => tree.name id = tree'.name id
  | .attributes => tree.attributes id = tree'.attributes id
  | .content => tree.data id = tree'.data id

/-- A tree that takes one aspect of its nodes from another tree. -/
def NodeTree.replace (tree other : NodeTree) : Aspect → NodeTree
  | .name => { tree with name := other.name }
  | .attributes => { tree with attributes := other.attributes }
  | .content => { tree with data := other.data }

theorem NodeTree.has_replace (tree other : NodeTree) (replaced : Aspect) (id : Json) :
    (tree.replace other replaced).has id = tree.has id := by
  cases replaced <;> rfl

/-- The other aspects stay as they are. -/
theorem NodeTree.agrees_replace (tree other : NodeTree) (id : Json) {aspect replaced : Aspect}
    (h : aspect ≠ replaced) : tree.Agrees (tree.replace other replaced) id aspect := by
  revert h
  cases aspect <;> cases replaced <;> simp [NodeTree.Agrees, NodeTree.replace]

/-- Two tests that give the same answers keep the same items. -/
theorem keep_congr {α : Type} {test test' : α → Outcome Bool} {as : List α}
    (h : ∀ a ∈ as, test a = test' a) : keep test as = keep test' as := by
  induction as with
  | nil => rfl
  | cons a rest ih =>
    obtain ⟨ha, hrest⟩ := List.forall_mem_cons.1 h
    rw [keep, keep, ha, ih hrest]

namespace Query

/-- The aspect that a leaf looks at. -/
def Leaf.aspect : Leaf → Aspect
  | .name .name _ _ => .name
  | .name .attributeName _ _ | .attribute _ _ _ _ => .attributes
  | .data _ _ => .content

/-- The aspect that a leaf made ready looks at. -/
def LeafTest.aspect : LeafTest → Aspect
  | .name _ => .name
  | .attributeName _ | .attribute _ _ => .attributes
  | .data _ => .content

theorem Leaf.aspect_of_compile [Host] {settings : Settings} {l : Leaf} {test : LeafTest}
    (h : l.compile settings = .ok test) : test.aspect = l.aspect := by
  match l with
  | .name .name _ _ | .name .attributeName _ _ | .data _ _ =>
    obtain ⟨_, -, rfl⟩ := Outcome.map_eq_ok_iff.1 h
    rfl
  | .attribute _ _ _ _ =>
    obtain ⟨_, -, hrest⟩ := Outcome.bind_eq_ok_iff.1 h
    obtain ⟨_, -, htest⟩ := Outcome.bind_eq_ok_iff.1 hrest
    cases htest
    rfl

section
variable {tree tree' : NodeTree} {settings : Settings} {candidates : List Json} {id : Json}

theorem LeafTest.holds_congr {test : LeafTest} (h : tree.Agrees tree' id test.aspect) :
    test.holds tree id = test.holds tree' id := by
  match test with
  | .name matcher =>
    have hname : tree.name id = tree'.name id := h
    simp only [LeafTest.holds, NodeTree.readName, hname]
  | .attributeName matcher =>
    have hattributes : tree.attributes id = tree'.attributes id := h
    simp only [LeafTest.holds, NodeTree.readAttributes, hattributes]
  | .attribute key value =>
    have hattributes : tree.attributes id = tree'.attributes id := h
    simp only [LeafTest.holds, NodeTree.readAttributes, hattributes]
  | .data test =>
    have hdata : tree.data id = tree'.data id := h
    simp only [LeafTest.holds, NodeTree.readData, hdata]

/-- A candidate is asked for its aspect only if it is a node. -/
theorem LeafTest.selects_congr {test : LeafTest} (hhas : tree.has id = tree'.has id)
    (hlook : tree.has id = true → tree.Agrees tree' id test.aspect) :
    test.selects tree id = test.selects tree' id := by
  rw [LeafTest.selects, LeafTest.selects, ← hhas]
  split
  · next hid => exact LeafTest.holds_congr (hlook hid)
  · rfl

theorem Leaf.select_congr [Host] {l : Leaf} (hhas : ∀ id ∈ candidates, tree.has id = tree'.has id)
    (hlook : ∀ id ∈ candidates, tree.has id = true → tree.Agrees tree' id l.aspect) :
    l.select ⟨tree, candidates, settings⟩ = l.select ⟨tree', candidates, settings⟩ := by
  rw [Leaf.select, Leaf.select]
  cases hcompile : l.compile settings with
  | error failure => rfl
  | ok test =>
    refine keep_congr fun id hid => LeafTest.selects_congr (hhas id hid) fun hnode => ?_
    rw [Leaf.aspect_of_compile hcompile]
    exact hlook id hid hnode

/-- The connectives do not look at the tree. -/
theorem Expr.select_congr [Host] {e : Expr} (hhas : ∀ id ∈ candidates, tree.has id = tree'.has id)
    (hlook : ∀ id ∈ candidates, tree.has id = true →
      ∀ l ∈ e.leaves, tree.Agrees tree' id l.aspect) :
    e.select ⟨tree, candidates, settings⟩ = e.select ⟨tree', candidates, settings⟩ := by
  induction e with
  | leaf l =>
    exact Leaf.select_congr hhas fun id hid hnode => hlook id hid hnode l List.mem_cons_self
  | join c left right ihl ihr =>
    rw [Expr.select, Expr.select,
      ihl fun id hid hnode l hl => hlook id hid hnode l (List.mem_append_left _ hl),
      ihr fun id hid hnode l hl => hlook id hid hnode l (List.mem_append_right _ hl)]
  | group inner ih => exact ih hlook

end

/-- Two trees give the same list or the same failure if they have the same candidates as nodes and
agree on these in the aspects that the leaves look at. In particular nothing depends on what a tree
says of ids that are no nodes, and nothing on an aspect that no leaf looks at. -/
theorem select_isolated [Host] (tree : NodeTree) (candidates : List Json) (settings : Settings)
    (e : Expr) :
    (∀ tree' : NodeTree, (∀ id ∈ candidates, tree.has id = tree'.has id) →
      (∀ id ∈ candidates, tree.has id = true → ∀ l ∈ e.leaves, tree.Agrees tree' id l.aspect) →
      e.select ⟨tree, candidates, settings⟩ = e.select ⟨tree', candidates, settings⟩) ∧
    (∀ name attributes data,
      (∀ id, tree.has id = true → ∀ aspect,
        tree.Agrees ⟨tree.has, name, attributes, data⟩ id aspect) →
      e.select ⟨tree, candidates, settings⟩ =
        e.select ⟨⟨tree.has, name, attributes, data⟩, candidates, settings⟩) ∧
    ∀ aspect, (∀ l ∈ e.leaves, l.aspect ≠ aspect) → ∀ other : NodeTree,
      e.select ⟨tree, candidates, settings⟩ =
        e.select ⟨tree.replace other aspect, candidates, settings⟩ := by
  refine ⟨fun tree' hhas hlook => Expr.select_congr hhas hlook, ?_, ?_⟩
  · intro name attributes data hnodes
    exact Expr.select_congr (fun _ _ => rfl) fun id _ hnode l _ => hnodes id hnode l.aspect
  · intro aspect hunseen other
    exact Expr.select_congr (fun id _ => (tree.has_replace other aspect id).symm)
      fun id _ _ l hl => tree.agrees_replace other id (hunseen l hl)

/-- The pictures on a disk that has gone: no content can be read, and ids that are no nodes have
no names. -/
def lostPictures : NodeTree :=
  { pictures with
    name := fun id => if pictures.has id then pictures.name id else .error (.other "no name")
    data := fun _ => .error (.system false "disk is gone") }

/-- Pictures that were not made by Canon. -/
def foreignPictures : Expr :=
  .join .andNot (.leaf (.name .name .wildcard "*.jpg"))
    (.leaf (.attribute "exif.make" .fixed "Canon" .fixed))

theorem select_isolated_lostPictures :
    (∀ id ∈ [.int 9, .int 2, .int 1], pictures.has id = lostPictures.has id) ∧
    (∀ id ∈ [.int 9, .int 2, .int 1], pictures.has id = true →
      ∀ l ∈ foreignPictures.leaves, pictures.Agrees lostPictures id l.aspect) ∧
    foreignPictures.select ⟨pictures, [.int 9, .int 2, .int 1], .standard⟩ =
      foreignPictures.select ⟨lostPictures, [.int 9, .int 2, .int 1], .standard⟩ ∧
    foreignPictures.select ⟨lostPictures, [.int 9, .int 2, .int 1], .standard⟩ = .ok [.int 2] := by
  have hhas : ∀ id ∈ [.int 9, .int 2, .int 1], pictures.has id = lostPictures.has id :=
    fun _ _ => rfl
  have hlook : ∀ id ∈ [.int 9, .int 2, .int 1], pictures.has id = true →
      ∀ l ∈ foreignPictures.leaves, pictures.Agrees lostPictures id l.aspect := by
    intro id _ hid l hl
    simp only [foreignPictures, Expr.leaves, List.cons_append, List.nil_append, List.mem_cons,
      List.not_mem_nil, or_false] at hl
    rcases hl with rfl | rfl
    · exact (if_pos hid).symm
    · rfl
  exact ⟨hhas, hlook,
    (select_isolated pictures [.int 9, .int 2, .int 1] .standard foreignPictures).1 lostPictures
      hhas hlook, rfl⟩

end Query
end NodeQuery
