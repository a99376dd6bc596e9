import NodeQuery.Tree.Memory
/-!
Trees that are made by adding nodes to a root (`Built`). A tree is looked at through three
questions: which node is above a node, what a node is called and which nodes are right below it.
Adding a node changes the answers for the new node and its parent alone. So the links of every such
tree agree in both directions, and the nodes below a node stand in the order of their adding
(`Built.linked`).
-/
namespace NodeQuery.MemoryTree

/-- The number of the node above a node. -/
def parentOf? (t : MemoryTree) (n : Nat) : Option Nat :=
  (t.nodes[n]?).bind Node.parent

/-- The name of the node with a number. -/
def nameOf? (t : MemoryTree) (n : Nat) : Option Json :=
  (t.nodes[n]?).map Node.name

/-- Trees that are made out of a root by adding nodes. -/
inductive Built : MemoryTree → Prop
  | root (name : Json) : Built (ofRoot name)
  | add {t u : MemoryTree} {parent name : Json} {attributes : Attributes}
    {content : Option Content} {n : Nat} (ht : Built t)
    (h : t.add parent name attributes content = .ok (n, u)) : Built u

section
variable {t u : MemoryTree} {p n : Nat} {parent name : Json} {attributes : Attributes}
  {content : Option Content}

theorem add_eq_ok_iff : t.add parent name attributes content = .ok (n, u) ↔
    ∃ p < t.size, parent = .int p ∧ n = t.size ∧ u = t.push p name attributes content := by
  unfold add
  cases h : t.number? parent with
  | none =>
    refine iff_of_false (by simp) ?_
    rintro ⟨p, hp, rfl, -, -⟩
    rw [number?_eq_some_iff.2 ⟨rfl, hp⟩] at h
    cases h
  | some p =>
    obtain ⟨rfl, hp⟩ := number?_eq_some_iff.1 h
    constructor
    · intro hadd
      cases hadd
      exact ⟨p, hp, rfl, rfl, rfl⟩
    · rintro ⟨q, -, hq, rfl, rfl⟩
      obtain rfl : p = q := Int.ofNat.inj (Json.int.inj hq)
      rfl

theorem Built.push (h : t.Built) (hp : p < t.size) (name : Json) (attributes : Attributes)
    (content : Option Content) : (t.push p name attributes content).Built :=
  h.add (add_eq_ok_iff.2 ⟨p, hp, rfl, rfl, rfl⟩)

/-! ## What adding a node changes -/

theorem size_ofRoot : (ofRoot name).size = 1 :=
  rfl

theorem size_push : (t.push p name attributes content).size = t.size + 1 := by
  simp [MemoryTree.push, size]

theorem nodes_push (i : Nat) : (t.push p name attributes content).nodes[i]? =
    if i = t.size then some ⟨name, some p, .attributes attributes, content, []⟩
    else (t.nodes[i]?).map fun node =>
      if i = p then { node with children := node.children ++ [t.size] } else node := by
  have hlength : (t.nodes.modify p fun node =>
      { node with children := node.children ++ [t.size] }).length = t.size :=
    List.length_modify ..
  rcases Nat.lt_trichotomy i t.size with hlt | rfl | hgt
  · rw [if_neg (Nat.ne_of_lt hlt), MemoryTree.push]
    dsimp only
    rw [List.getElem?_append_left (by rwa [hlength]), List.getElem?_modify]
    simp only [eq_comm]
    rfl
  · rw [if_pos rfl, MemoryTree.push]
    dsimp only
    rw [List.getElem?_append_right (Nat.le_of_eq hlength), hlength, Nat.sub_self]
    rfl
  · have hout : t.size + 1 ≤ i := hgt
    have hnone : t.nodes[i]? = none := List.getElem?_eq_none (Nat.le_of_lt hgt)
    rw [if_neg (Nat.ne_of_gt hgt), hnone]
    exact List.getElem?_eq_none (by rwa [← size, size_push])

theorem parentOf?_push (i : Nat) : (t.push p name attributes content).parentOf? i =
    if i = t.size then some p else t.parentOf? i := by
  rw [parentOf?, nodes_push, parentOf?]
  split
  · rfl
  · cases t.nodes[i]? with
    | none => rfl
    | some node =>
      simp only [Option.map_some, Option.bind_some]
      split <;> rfl

theorem nameOf?_push (i : Nat) : (t.push p name attributes content).nameOf? i =
    if i = t.size then some name else t.nameOf? i := by
  rw [nameOf?, nodes_push, nameOf?]
  split
  · rfl
  · cases t.nodes[i]? with
    | none => rfl
    | some node =>
      simp only [Option.map_some, Option.some.injEq]
      split <;> rfl

theorem childrenOf_push (hp : p < t.size) (i : Nat) :
    (t.push p name attributes content).childrenOf i =
      if i = p then t.childrenOf i ++ [t.size] else t.childrenOf i := by
  rw [childrenOf, nodes_push, childrenOf]
  by_cases hi : i = t.size
  · have hnone : t.nodes[i]? = none := List.getElem?_eq_none (Nat.le_of_eq hi.symm)
    rw [if_pos hi, if_neg (by omega), hnone]
    rfl
  · rw [if_neg hi]
    by_cases heq : i = p
    · subst heq
      simp [List.getElem?_eq_getElem hp]
    · cases t.nodes[i]? <;> simp [heq]

end

/-! ## Links -/

/-- The links of a tree agree. -/
structure Linked (t : MemoryTree) : Prop where
  /-- The first node is the root. -/
  root : 0 < t.size ∧ t.parentOf? 0 = none
  /-- Every other node has a parent, which was there before it. -/
  parent : ∀ n, 0 < n → n < t.size → ∃ p < n, t.parentOf? n = some p
  children : ∀ n p, n ∈ t.childrenOf p ↔ t.parentOf? n = some p
  increasing : ∀ p, (t.childrenOf p).Pairwise (· < ·)

section
variable {t : MemoryTree} {p n : Nat}

theorem lt_size_of_parentOf? (h : t.parentOf? n = some p) : n < t.size := by
  obtain ⟨node, hnode, -⟩ := Option.bind_eq_some_iff.1 h
  exact (List.getElem?_eq_some_iff.1 hnode).1

theorem Linked.lt_of_parentOf? (h : t.Linked) (hparent : t.parentOf? n = some p) : p < n := by
  have hn := lt_size_of_parentOf? hparent
  have hne : n ≠ 0 := by
    rintro rfl
    rw [h.root.2] at hparent
    cases hparent
  obtain ⟨q, hq, hsame⟩ := h.parent n (Nat.pos_of_ne_zero hne) hn
  rw [hparent, Option.some.injEq] at hsame
  rwa [hsame]

theorem Linked.lt_size_of_mem_childrenOf (h : t.Linked) (hn : n ∈ t.childrenOf p) : n < t.size :=
  lt_size_of_parentOf? ((h.children n p).1 hn)

theorem Linked.nodup_childrenOf (h : t.Linked) (p : Nat) : (t.childrenOf p).Nodup :=
  (h.increasing p).imp Nat.ne_of_lt

theorem parentOf?_ofRoot (name : Json) (n : Nat) : (ofRoot name).parentOf? n = none := by
  cases n <;> rfl

/-- The links of a root alone agree. -/
theorem linked_single {node : Node} (hparent : node.parent = none)
    (hchildren : node.children = []) : Linked ⟨[node]⟩ where
  root := ⟨Nat.one_pos, hparent⟩
  parent n hpos hlt := by
    have hone : n < 1 := hlt
    omega
  children n p := by
    cases n <;> cases p <;> simp [childrenOf, parentOf?, hparent, hchildren]
  increasing p := by
    cases p <;> simp [childrenOf, hchildren]

theorem Linked.push (h : t.Linked) (hp : p < t.size) (name : Json) (attributes : Attributes)
    (content : Option Content) : (t.push p name attributes content).Linked where
  root := by
    rw [size_push, parentOf?_push, if_neg (Nat.ne_of_lt h.root.1)]
    exact ⟨Nat.succ_pos _, h.root.2⟩
  parent n hpos hlt := by
    rw [parentOf?_push]
    rw [size_push] at hlt
    split
    · next heq => exact ⟨p, heq ▸ hp, rfl⟩
    · next hne => exact h.parent n hpos (by omega)
  children n q := by
    rw [childrenOf_push hp, parentOf?_push]
    by_cases hn : n = t.size
    · -- the new node was nobody's child
      have hnew : n ∉ t.childrenOf q := by
        intro hmem
        have hlt := lt_size_of_parentOf? ((h.children n q).1 hmem)
        omega
      rw [if_pos hn, Option.some.injEq]
      split
      · next heq => simp [heq, hn]
      · next hne => exact iff_of_false hnew (Ne.symm hne)
    · rw [if_neg hn, ← h.children n q]
      split
      · simp [hn]
      · rfl
  increasing q := by
    rw [childrenOf_push hp]
    split
    · refine List.pairwise_append.2 ⟨h.increasing q, List.pairwise_singleton _ _, ?_⟩
      intro a ha b hb
      rw [List.mem_singleton.1 hb]
      exact lt_size_of_parentOf? ((h.children a q).1 ha)
    · exact h.increasing q

theorem Built.linked (h : t.Built) : t.Linked := by
  induction h with
  | root name => exact linked_single rfl rfl
  | add _ hadd ih =>
    obtain ⟨p, hp, -, -, rfl⟩ := add_eq_ok_iff.1 hadd
    exact ih.push hp ..

end
end NodeQuery.MemoryTree
