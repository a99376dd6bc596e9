import Mathlib.Data.List.Sort
import NodeQuery.Proofs.Tree.Ascent
import NodeQuery.Proofs.Tree.Loading
/-!
What a tree made from a description looks like. New nodes stand behind the old ones in the order of
the outline, each below the node of the object around it (`nodes_of_addNode`). As the links of the
tree agree, nodes have the children of their objects, in order (`childrenOf_eq`), and the nodes
below a node are listed by their numbers (`below_eq_range`). So the tree mirrors the description
(`ofDescription_outline`).
-/
namespace NodeQuery

namespace MemoryTree

/-- The nodes without their children. -/
def bareNodes (t : MemoryTree) : List Node :=
  t.nodes.map fun node => { node with children := [] }

section
variable {t : MemoryTree} {i p : Nat} {node : Node} {name : Json} {attributes : Attributes}
  {content : Option Content}

theorem length_bareNodes : t.bareNodes.length = t.size :=
  List.length_map _

theorem bareNodes_push : (t.push p name attributes content).bareNodes =
    t.bareNodes ++ [⟨name, some p, .attributes attributes, content, []⟩] := by
  refine List.ext_getElem? fun i => ?_
  rw [bareNodes, List.getElem?_map, nodes_push, List.getElem?_append, length_bareNodes, bareNodes,
    List.getElem?_map]
  rcases Nat.lt_trichotomy i t.size with hlt | rfl | hgt
  · rw [if_neg (Nat.ne_of_lt hlt), if_pos hlt]
    cases t.nodes[i]? with
    | none => rfl
    | some node =>
      simp only [Option.map_some, Option.some.injEq]
      split <;> rfl
  · rw [if_pos rfl, if_neg (Nat.lt_irrefl _), Nat.sub_self]
    rfl
  · have hnone : t.nodes[i]? = none := List.getElem?_eq_none (Nat.le_of_lt hgt)
    rw [if_neg (Nat.ne_of_gt hgt), if_neg (Nat.lt_asymm hgt), hnone]
    exact (List.getElem?_eq_none (by simp; omega)).symm

end
end MemoryTree

namespace Description

/-- A node holds what a described node says of its attributes and its content. -/
structure MadeFrom (directory : Files.Path) (o : Json) (node : Node) : Prop where
  slot : slotOf (part? "attributes" o) = .ok node.slot
  content : contentOf directory ((part? "data" o).getD .null) = .ok node.content

/-- The object around an address stands in a list whose first object has the number `base`, and has
the number `q` itself. -/
def Around (l : List (List Nat × Json)) (base : Nat) (a : List Nat) (q : Nat) : Prop :=
  ∃ b k j o, a = b ++ [k] ∧ l[j]? = some (b, o) ∧ q = base + j

/-- A node is made from an object of a list and lies below the node of the object around it. The
objects with the shortest addresses, of the given length, lie below `top`. -/
structure PlacedIn (directory : Files.Path) (l : List (List Nat × Json)) (base depth top : Nat)
    (e : List Nat × Json) (node : Node) : Prop extends MadeFrom directory e.2 node where
  name : part? "name" e.2 = some node.name
  parent : ∃ q, node.parent = some q ∧ (e.1.length = depth ∧ q = top ∨ Around l base e.1 q)

section
variable {directory : Files.Path} {l more : List (List Nat × Json)} {base depth top k q : Nat}
  {a : List Nat} {e : List Nat × Json} {node : Node}

theorem Around.append_left (h : Around l base a q) : Around (l ++ more) base a q := by
  obtain ⟨b, k, j, o, ha, hj, hq⟩ := h
  have hlt : j < l.length := (List.getElem?_eq_some_iff.1 hj).1
  exact ⟨b, k, j, o, ha, by rwa [List.getElem?_append_left hlt], hq⟩

theorem Around.append_right (h : Around l (base + more.length) a q) :
    Around (more ++ l) base a q := by
  obtain ⟨b, k, j, o, ha, hj, hq⟩ := h
  refine ⟨b, k, more.length + j, o, ha, ?_, by omega⟩
  rwa [List.getElem?_append_right (Nat.le_add_right _ _), Nat.add_sub_cancel_left]

theorem Around.inside (h : Around l base a q) :
    Around (l.map (Prod.map (k :: ·) id)) base (k :: a) q := by
  obtain ⟨b, k', j, o, rfl, hj, hq⟩ := h
  exact ⟨k :: b, k', j, o, rfl, by rw [List.getElem?_map, hj]; rfl, hq⟩

theorem PlacedIn.inside (h : PlacedIn directory l base depth top e node) :
    PlacedIn directory (l.map (Prod.map (k :: ·) id)) base (depth + 1) top
      (Prod.map (k :: ·) id e) node := by
  obtain ⟨q, hparent, hq⟩ := h.parent
  refine ⟨h.toMadeFrom, h.name, q, hparent, hq.imp ?_ Around.inside⟩
  exact fun ⟨hlength, htop⟩ => ⟨congrArg (· + 1) hlength, htop⟩

theorem PlacedIn.append_left (h : PlacedIn directory l base depth top e node) :
    PlacedIn directory (l ++ more) base depth top e node := by
  obtain ⟨q, hparent, hq⟩ := h.parent
  exact ⟨h.toMadeFrom, h.name, q, hparent, hq.imp_right Around.append_left⟩

theorem PlacedIn.append_right (h : PlacedIn directory l (base + more.length) depth top e node) :
    PlacedIn directory (more ++ l) base depth top e node := by
  obtain ⟨q, hparent, hq⟩ := h.parent
  exact ⟨h.toMadeFrom, h.name, q, hparent, hq.imp_right Around.append_right⟩

/-- The children of an object are placed in its own outline, right behind it. -/
theorem PlacedIn.under {d : Json} (h : PlacedIn directory l (base + 1) 1 base e node) :
    PlacedIn directory (([], d) :: l) base 0 top e node := by
  obtain ⟨q, hparent, hq⟩ := h.parent
  refine ⟨h.toMadeFrom, h.name, q, hparent, .inr ?_⟩
  rcases hq with ⟨hlength, rfl⟩ | haround
  · obtain ⟨k, hk⟩ := List.length_eq_one_iff.1 hlength
    exact ⟨[], k, 0, d, hk, rfl, rfl⟩
  · have hfirst : Around ([([], d)] ++ l) base e.1 q := haround.append_right
    exact hfirst

end

section
variable {directory : Files.Path} {d o : Json} {p : Nat} {t u : MemoryTree} {items : List Json}

theorem slotOf_of_attributesOf {attributes : Attributes} (h : attributesOf d = .ok attributes) :
    slotOf (part? "attributes" d) = .ok (.attributes attributes) := by
  obtain ⟨slot, hslot, h⟩ := Outcome.bind_eq_ok_iff.1 h
  cases slot with
  | time stamp => cases h
  | attributes found =>
    cases h
    exact hslot

theorem nameOf_eq_ok_iff {name : Json} : nameOf d = .ok name ↔ part? "name" d = some name := by
  cases d with
  | object members =>
    rw [nameOf, part?, membersOf]
    cases Json.member? "name" members <;> simp
  | _ => simp [nameOf, part?, membersOf, Json.member?]

theorem entryOf_eq_ok_iff {entry : Entry} :
    entryOf directory d = .ok entry ↔ part? "name" d = some entry.name ∧
      attributesOf d = .ok entry.attributes ∧
      contentOf directory ((part? "data" d).getD .null) = .ok entry.content := by
  simp only [entryOf, Outcome.bind_eq_ok_iff, nameOf_eq_ok_iff]
  constructor
  · rintro ⟨name, hname, attributes, hattributes, content, hcontent, h⟩
    cases h
    exact ⟨hname, hattributes, hcontent⟩
  · rintro ⟨hname, hattributes, hcontent⟩
    exact ⟨_, hname, _, hattributes, _, hcontent, rfl⟩

/-- If new nodes are as they should be for each of a row of descriptions, they are so for the row.
The nodes of the first description are placed in front of those of the others. -/
theorem nodes_of_addNodes
    (hall : ∀ c ∈ items, ∀ t u, addNode directory p c t = .ok u →
      ∃ new, u.bareNodes = t.bareNodes ++ new ∧
        List.Forall₂ (PlacedIn directory (outline c) t.size 0 p) (outline c) new)
    (place : Nat) (h : addNodes directory p items t = .ok u) :
    ∃ new, u.bareNodes = t.bareNodes ++ new ∧
      List.Forall₂ (PlacedIn directory (outlineFrom place items) t.size 1 p)
        (outlineFrom place items) new := by
  induction items generalizing t place with
  | nil =>
    cases h
    rw [outlineFrom]
    exact ⟨[], (List.append_nil _).symm, .nil⟩
  | cons c rest ih =>
    obtain ⟨v, hv, hu⟩ := Outcome.bind_eq_ok_iff.1 h
    obtain ⟨first, hfirst, hplaced⟩ := hall c List.mem_cons_self t v hv
    obtain ⟨others, hothers, hrest⟩ :=
      ih (fun c hc => hall c (List.mem_cons_of_mem _ hc)) (place + 1) hu
    have hsize : v.size = t.size + ((outline c).map (Prod.map (place :: ·) id)).length := by
      rw [← MemoryTree.length_bareNodes, hfirst, List.length_append, MemoryTree.length_bareNodes,
        List.length_map, hplaced.length_eq]
    refine ⟨first ++ others, by rw [hothers, hfirst, List.append_assoc], ?_⟩
    rw [outlineFrom]
    refine List.rel_append ?_ ?_
    · exact List.forall₂_map_left_iff.2 (hplaced.imp fun e node he => he.inside.append_left)
    · rw [hsize] at hrest
      exact hrest.imp fun e node he => he.append_right

/-- Adding a described node puts the nodes of its outline behind those there are. -/
theorem nodes_of_addNode (h : addNode directory p d t = .ok u) :
    ∃ new, u.bareNodes = t.bareNodes ++ new ∧
      List.Forall₂ (PlacedIn directory (outline d) t.size 0 p) (outline d) new := by
  induction d using induction_children generalizing p t u with
  | step d ih =>
    obtain ⟨entry, items, hentry, hitems, hrest⟩ := addNode_eq_ok_iff.1 h
    obtain rfl := children_of_itemsOf hitems
    obtain ⟨hname, hattributes, hcontent⟩ := entryOf_eq_ok_iff.1 hentry
    obtain ⟨new, hnew, hplaced⟩ := nodes_of_addNodes (fun c hc t u => ih c hc) 0 hrest
    rw [MemoryTree.bareNodes_push, List.append_assoc] at hnew
    rw [MemoryTree.size_push] at hplaced
    refine ⟨_, hnew, ?_⟩
    rw [outline]
    refine .cons ?_ (hplaced.imp fun e node he => he.under)
    exact ⟨⟨slotOf_of_attributesOf hattributes, hcontent⟩, hname, p, rfl, .inl ⟨rfl, rfl⟩⟩

/-! ## The whole tree -/

/-- What the root is called: `root` if it has no name. -/
def rootName (d : Json) : Json :=
  (part? "name" d).getD (.text "root")

theorem ofDescription_eq_ok_iff :
    MemoryTree.ofDescription directory d = .ok t ↔ (∃ members, d = .object members) ∧
      ∃ root, MadeFrom directory d root ∧ root.name = rootName d ∧ root.parent = none ∧
        root.children = [] ∧ itemsOf d = .ok (children d) ∧
        addNodes directory 0 (children d) ⟨[root]⟩ = .ok t := by
  cases d with
  | object members =>
    rw [MemoryTree.ofDescription]
    simp only [Outcome.bind_eq_ok_iff, addBelow_eq]
    constructor
    · rintro ⟨slot, hslot, content, hcontent, items, hitems, hrest⟩
      obtain rfl := children_of_itemsOf hitems
      exact ⟨⟨members, rfl⟩, ⟨rootName (.object members), none, slot, content, []⟩,
        ⟨hslot, hcontent⟩, rfl, rfl, rfl, hitems, hrest⟩
    · rintro ⟨-, ⟨name, parent, slot, content, below⟩, ⟨hslot, hcontent⟩, rfl, rfl, rfl, hitems,
        hrest⟩
      exact ⟨slot, hslot, content, hcontent, _, hitems, hrest⟩
  | _ => simp [MemoryTree.ofDescription]

theorem linked_ofDescription (h : MemoryTree.ofDescription directory d = .ok t) : t.Linked := by
  have hyields := MemoryTree.yields_ofDescription directory d
  rw [h] at hyields
  cases hyields with
  | ok hlinked => exact hlinked

/-- A node is the one for an object with an address. -/
structure MadeAt (directory : Files.Path) (d : Json) (e : List Nat × Json) (node : Node) : Prop
    extends MadeFrom directory e.2 node where
  rootName : e.1 = [] → node.name = rootName d
  name : e.1 ≠ [] → part? "name" e.2 = some node.name
  parent : node.parent = if e.1 = [] then none else some (number d e.1.dropLast)

theorem PlacedIn.madeAt {top : Nat} {e : List Nat × Json} {node : Node}
    (h : PlacedIn directory (outline d) 0 0 top e node) (hne : e.1 ≠ []) :
    MadeAt directory d e node := by
  obtain ⟨q, hparent, ⟨hlength, -⟩ | ⟨b, k, j, o, ha, hj, rfl⟩⟩ := h.parent
  · exact absurd (List.eq_nil_of_length_eq_zero hlength) hne
  · refine ⟨h.toMadeFrom, fun hnil => absurd hnil hne, fun _ => h.name, ?_⟩
    rw [hparent, if_neg hne, ha, List.dropLast_concat, (getElem?_outline_iff.1 hj).2, Nat.zero_add]

/-- The nodes of the tree are those of the outline, one for one. -/
theorem nodes_of_ofDescription (h : MemoryTree.ofDescription directory d = .ok t) :
    List.Forall₂ (MadeAt directory d) (outline d) t.bareNodes := by
  obtain ⟨-, root, hroot, hname, hparent, hchildren, -, hrest⟩ := ofDescription_eq_ok_iff.1 h
  obtain ⟨new, hnew, hplaced⟩ := nodes_of_addNodes (fun c _ t u => nodes_of_addNode) 0 hrest
  have hbare : t.bareNodes = root :: new := by
    rw [hnew, MemoryTree.bareNodes, List.map_singleton, ← hchildren, List.singleton_append]
  have hbelow : List.Forall₂ (MadeAt directory d) (outlineFrom 0 (children d)) new := by
    have hne : ∀ e ∈ outlineFrom 0 (children d), e.1 ≠ [] := by
      rintro ⟨a, o⟩ he rfl
      obtain ⟨k, b, c, heq, -⟩ := mem_outlineFrom_iff.1 he
      cases heq
    refine ((List.forall₂_and_left _ _).2 ⟨hne, hplaced⟩).imp fun e node he => ?_
    have hunder : PlacedIn directory (outline d) 0 0 0 e node := by
      rw [outline]
      exact he.2.under
    exact hunder.madeAt he.1
  rw [hbare, outline]
  refine .cons ⟨hroot, fun _ => hname, fun hne => absurd rfl hne, ?_⟩ hbelow
  rw [hparent, if_pos rfl]

theorem size_ofDescription (h : MemoryTree.ofDescription directory d = .ok t) :
    t.size = (outline d).length := by
  rw [← MemoryTree.length_bareNodes, (nodes_of_ofDescription h).length_eq]

/-- The object at an address has the node with the number of the address. -/
theorem exists_node (h : MemoryTree.ofDescription directory d = .ok t) {a : List Nat}
    (ha : at? d a = some o) :
    ∃ node, t.nodes[number d a]? = some node ∧ MadeAt directory d (a, o) node := by
  have hi := getElem?_outline_iff.2 ⟨ha, rfl⟩
  obtain ⟨hlt, heq⟩ := List.getElem?_eq_some_iff.1 hi
  have hnodes := nodes_of_ofDescription h
  have hbare : number d a < t.bareNodes.length := hnodes.length_eq ▸ hlt
  have hmade := hnodes.get hlt hbare
  rw [List.get_eq_getElem, heq, List.get_eq_getElem] at hmade
  have hnode : number d a < t.nodes.length := by rwa [MemoryTree.length_bareNodes] at hbare
  refine ⟨t.nodes[number d a], List.getElem?_eq_getElem hnode, ?_⟩
  simp only [MemoryTree.bareNodes, List.getElem_map] at hmade
  exact ⟨⟨hmade.slot, hmade.content⟩, hmade.rootName, hmade.name, hmade.parent⟩

/-- Every node has an address. -/
theorem exists_address (h : MemoryTree.ofDescription directory d = .ok t) {i : Nat}
    (hi : i < t.size) : ∃ a o, at? d a = some o ∧ number d a = i := by
  rw [size_ofDescription h] at hi
  obtain ⟨⟨a, o⟩, he⟩ : ∃ e, (outline d)[i]? = some e := ⟨_, List.getElem?_eq_getElem hi⟩
  exact ⟨a, o, getElem?_outline_iff.1 he⟩

theorem parentOf?_number (h : MemoryTree.ofDescription directory d = .ok t) {a : List Nat}
    (ha : at? d a = some o) :
    t.parentOf? (number d a) = if a = [] then none else some (number d a.dropLast) := by
  obtain ⟨node, hnode, hmade⟩ := exists_node h ha
  rw [MemoryTree.parentOf?, hnode, Option.bind_some]
  exact hmade.parent

theorem number_inj {a b : List Nat} {e : Json} (ha : at? d a = some o) (hb : at? d b = some e)
    (hsame : number d a = number d b) : a = b := by
  have hi := getElem?_outline_iff.2 ⟨ha, rfl⟩
  rw [hsame, getElem?_outline_iff.2 ⟨hb, rfl⟩, Option.some.injEq, Prod.mk.injEq] at hi
  exact hi.1.symm

theorem parentOf?_eq_iff (h : MemoryTree.ofDescription directory d = .ok t) {a b : List Nat}
    {e : Json} (hb : at? d b = some e) (ha : at? d a = some o) :
    t.parentOf? (number d b) = some (number d a) ↔ ∃ k, b = a ++ [k] := by
  rw [parentOf?_number h hb]
  rcases List.eq_nil_or_concat' b with rfl | ⟨c, k, rfl⟩
  · simp
  · have hc : ∃ x, at? d c = some x := by
      rw [at?_snoc] at hb
      obtain ⟨x, hx, -⟩ := Option.bind_eq_some_iff.1 hb
      exact ⟨x, hx⟩
    obtain ⟨x, hx⟩ := hc
    rw [if_neg (by simp), List.dropLast_concat, Option.some.injEq]
    constructor
    · intro hsame
      exact ⟨k, by rw [number_inj hx ha hsame]⟩
    · rintro ⟨k', hk'⟩
      rw [(List.append_inj' hk' rfl).1]

/-- The nodes below a node are those of the objects inside its object, in their order. -/
theorem childrenOf_eq (h : MemoryTree.ofDescription directory d = .ok t) {a : List Nat}
    (ha : at? d a = some o) :
    t.childrenOf (number d a) =
      (List.range (children o).length).map fun k => number d (a ++ [k]) := by
  have hlinked := linked_ofDescription h
  have hchild : ∀ k, at? d (a ++ [k]) = (children o)[k]? := fun k => by
    rw [at?_snoc, ha, Option.bind_some]
  have hsorted : ((List.range (children o).length).map fun k => number d (a ++ [k])).Pairwise
      (· < ·) := by
    refine List.pairwise_map.2 (List.pairwise_lt_range.imp_of_mem fun {k k'} hk hk' hlt => ?_)
    have hc := (hchild k).trans (List.getElem?_eq_getElem (List.mem_range.1 hk))
    have hc' := (hchild k').trans (List.getElem?_eq_getElem (List.mem_range.1 hk'))
    exact number_lt_number hc hc' (List.append_left_lt (List.cons_lt_cons_iff.2 (.inl hlt)))
  refine (hlinked.increasing _).eq_of_mem_iff hsorted fun i => ?_
  rw [hlinked.children, List.mem_map]
  constructor
  · intro hparent
    obtain ⟨b, e, hb, rfl⟩ := exists_address h (MemoryTree.lt_size_of_parentOf? hparent)
    obtain ⟨k, rfl⟩ := (parentOf?_eq_iff h hb ha).1 hparent
    rw [hchild k] at hb
    exact ⟨k, List.mem_range.2 (List.getElem?_eq_some_iff.1 hb).1, rfl⟩
  · rintro ⟨k, hk, rfl⟩
    have hc := (hchild k).trans (List.getElem?_eq_getElem (List.mem_range.1 hk))
    exact (parentOf?_eq_iff h hc ha).2 ⟨k, rfl⟩

/-- What lies within a node has an address that goes on from that of the node. -/
theorem exists_address_within (h : MemoryTree.ofDescription directory d = .ok t) {a : List Nat}
    (ha : at? d a = some o) {m : Nat} (hwithin : t.LiesWithin m (number d a)) :
    ∃ b e, at? d (a ++ b) = some e ∧ number d (a ++ b) = m := by
  generalize hn : number d a = n at hwithin
  induction hwithin generalizing a o with
  | refl => exact ⟨[], o, by rwa [List.append_nil], by rw [List.append_nil, hn]⟩
  | tail _ hchild ih =>
    subst hn
    obtain ⟨c, x, hc, rfl⟩ := exists_address h (MemoryTree.lt_size_of_parentOf? hchild)
    obtain ⟨k, rfl⟩ := (parentOf?_eq_iff h hc ha).1 hchild
    obtain ⟨b, e, hb, hm⟩ := ih hc rfl
    rw [List.append_assoc] at hb hm
    exact ⟨_, e, hb, hm⟩

/-- The subtree of a node is listed by increasing numbers. -/
theorem pairwise_preorder (h : MemoryTree.ofDescription directory d = .ok t) {a : List Nat}
    (ha : at? d a = some o) :
    ((linked_ofDescription h).preorder (number d a)).Pairwise (· < ·) := by
  have hlinked := linked_ofDescription h
  induction o using induction_children generalizing a with
  | step o ih =>
    have hchild : ∀ k ∈ List.range (children o).length,
        ∃ c ∈ children o, at? d (a ++ [k]) = some c := by
      intro k hk
      rw [at?_snoc, ha, Option.bind_some, List.getElem?_eq_getElem (List.mem_range.1 hk)]
      exact ⟨_, List.getElem_mem _, rfl⟩
    have hwithin : ∀ {m b}, m ∈ hlinked.preorder (number d b) → t.LiesWithin m (number d b) :=
      hlinked.mem_preorder_iff.1
    rw [hlinked.preorder_eq, childrenOf_eq h ha, List.flatMap_map, List.pairwise_cons,
      List.pairwise_flatMap]
    refine ⟨?_, ?_, ?_⟩
    · intro m hm
      obtain ⟨k, hk, hmem⟩ := List.mem_flatMap.1 hm
      obtain ⟨c, -, hc⟩ := hchild k hk
      have hparent := (parentOf?_eq_iff h hc ha).2 ⟨k, rfl⟩
      exact Nat.lt_of_lt_of_le (hlinked.lt_of_parentOf? hparent)
        (hlinked.le_of_liesWithin (hwithin hmem))
    · intro k hk
      obtain ⟨c, hmem, hc⟩ := hchild k hk
      exact ih c hmem hc
    · -- what lies within an earlier sibling has a smaller address
      refine List.pairwise_lt_range.imp_of_mem fun {k k'} hk hk' hlt => ?_
      intro m hm m' hm'
      obtain ⟨c, -, hc⟩ := hchild k hk
      obtain ⟨c', -, hc'⟩ := hchild k' hk'
      obtain ⟨b, e, hb, rfl⟩ := exists_address_within h hc (hwithin hm)
      obtain ⟨b', e', hb', rfl⟩ := exists_address_within h hc' (hwithin hm')
      refine number_lt_number hb hb' ?_
      rw [List.append_assoc, List.append_assoc]
      exact List.append_left_lt (List.cons_lt_cons_iff.2 (.inl hlt))

/-- The nodes of the tree are listed by their numbers. -/
theorem below_eq_range (h : MemoryTree.ofDescription directory d = .ok t) :
    t.below 0 = List.range' 1 (t.size - 1) := by
  have hlinked := linked_ofDescription h
  have hroot : number d [] = 0 := by
    rw [number, outline]
    exact List.idxOf_cons_self
  have hpreorder : hlinked.preorder 0 = List.range t.size := by
    have hsorted := pairwise_preorder h (a := []) (o := d) rfl
    rw [hroot] at hsorted
    refine hsorted.eq_of_mem_iff List.pairwise_lt_range fun m => ?_
    rw [hlinked.mem_preorder_iff, List.mem_range]
    constructor
    · intro hm
      rcases Relation.reflTransGen_iff_eq_or_transGen.1 hm with heq | hbelow
      · exact heq ▸ hlinked.root.1
      · exact MemoryTree.LiesBelow.lt_size hbelow
    · intro hm
      obtain ⟨names, hway, -⟩ := hlinked.exists_way hm
      exact hway.liesWithin
  have hsize : t.size = t.size - 1 + 1 := (Nat.sub_add_cancel hlinked.root.1).symm
  rw [hlinked.preorder_eq_below, hsize, List.range_eq_range', List.range'_succ,
    List.cons.injEq] at hpreorder
  exact hpreorder.2

/-! ## The mirror -/

/-- The node with a number stands for the object at an address. -/
structure StandsFor (directory : Files.Path) (d : Json) (t : MemoryTree) (i : Nat) (a : List Nat)
    (o : Json) : Prop where
  /-- The root may do without a name. -/
  name : t.nameOf? i = if a = [] then some (rootName o) else part? "name" o
  content : ∃ content, Contains directory (part? "data" o) content ∧
    (t.nodes[i]?).map Node.content = some content
  /-- It is below the node of the object around. -/
  parent : t.parentOf? i = if a = [] then none else some (number d a.dropLast)
  /-- The nodes of the objects inside are below it, in their order. -/
  children : t.childrenOf i = (List.range (children o).length).map fun k => number d (a ++ [k])

/-- The tree made from a description mirrors it, if the description can be read at all. There is one
node for each described node, and the nodes are numbered as the outline lists them: by addresses in
the order of a dictionary, each object before those inside it. The names, contents, parents and
children of nodes are those of the objects, and the nodes below the root are listed by their
numbers. A loop over waiting descriptions that starts with the children of the root ends with the
same tree. -/
theorem ofDescription_outline (h : MemoryTree.ofDescription directory d = .ok t) :
    t.size = (outline d).length ∧
    (∀ i a o, (outline d)[i]? = some (a, o) → StandsFor directory d t i a o) ∧
    (∀ a o, (a, o) ∈ outline d ↔ at? d a = some o) ∧
    ((outline d).map Prod.fst).Pairwise (· < ·) ∧
    t.belowPath? none = some (List.range' 1 (t.size - 1)) ∧
    ∃ root, MadeFrom directory d root ∧ root.name = rootName d ∧ root.parent = none ∧
      root.children = [] ∧
      ∀ result, Loads directory ((children d).map (0, ·)).reverse ⟨[root]⟩ result ↔
        result = .ok t := by
  refine ⟨size_ofDescription h, ?_, fun a o => mem_outline_iff, pairwise_outline d, ?_, ?_⟩
  · intro i a o hi
    obtain ⟨ha, rfl⟩ := getElem?_outline_iff.1 hi
    obtain ⟨node, hnode, hmade⟩ := exists_node h ha
    refine ⟨?_, ⟨node.content, contentOf_eq_ok_iff.1 hmade.content, by rw [hnode]; rfl⟩,
      parentOf?_number h ha, childrenOf_eq h ha⟩
    rw [MemoryTree.nameOf?, hnode, Option.map_some]
    split
    · next hnil =>
      subst hnil
      cases ha
      rw [hmade.rootName rfl]
    · next hne => exact (hmade.name hne).symm
  · exact congrArg some (below_eq_range h)
  · obtain ⟨-, root, hroot, hname, hparent, hchildren, -, hrest⟩ := ofDescription_eq_ok_iff.1 h
    refine ⟨root, hroot, hname, hparent, hchildren, fun result => ?_⟩
    rw [loads_iff, List.reverse_reverse, addAll_children, hrest, eq_comm]

end

/-- A picture in a folder, beside a file. -/
def picture : Json := .object [("data", .object [("base64", .text "aGk=")]), ("name", .text "a.jpg")]

def folder : Json := .object [("name", .text "pictures"), ("children", .list [picture])]

def note : Json := .object [("name", .text "note"), ("data", .object [("file", .text "n.txt")])]

def disk : Json := .object [("data", .null), ("children", .list [folder, note])]

/-- The tree of the disk. -/
def diskTree : MemoryTree :=
  ⟨[⟨.text "root", none, .attributes .nil, none, [1, 3]⟩,
    ⟨.text "pictures", some 0, .attributes .nil, none, [2]⟩,
    ⟨.text "a.jpg", some 1, .attributes .nil, some (.bytes [104, 105]), []⟩,
    ⟨.text "note", some 0, .attributes .nil,
      some (.file ((Files.Path.ofText "home").join (.ofText "n.txt"))), []⟩]⟩

theorem outline_disk :
    outline disk = [([], disk), ([0], folder), ([0, 0], picture), ([1], note)] := by
  have hdisk : children disk = [folder, note] := rfl
  have hfolder : children folder = [picture] := rfl
  have hpicture : children picture = [] := rfl
  have hnote : children note = [] := rfl
  simp [outline, outlineFrom, hdisk, hfolder, hpicture, hnote]

theorem ofDescription_outline_disk :
    MemoryTree.ofDescription (.ofText "home") disk = .ok diskTree ∧
    outline disk = [([], disk), ([0], folder), ([0, 0], picture), ([1], note)] ∧
    StandsFor (.ofText "home") disk diskTree 0 [] disk ∧
    StandsFor (.ofText "home") disk diskTree 2 [0, 0] picture ∧
    StandsFor (.ofText "home") disk diskTree 3 [1] note ∧
    diskTree.belowPath? none = some [1, 2, 3] := by
  have h : MemoryTree.ofDescription (.ofText "home") disk = .ok diskTree := by rfl
  obtain ⟨-, hstands, -, -, hbelow, -⟩ := ofDescription_outline h
  refine ⟨h, outline_disk, hstands 0 [] disk ?_, hstands 2 [0, 0] picture ?_,
    hstands 3 [1] note ?_, hbelow⟩
  · rw [outline_disk]; rfl
  · rw [outline_disk]; rfl
  · rw [outline_disk]; rfl

end Description
end NodeQuery
