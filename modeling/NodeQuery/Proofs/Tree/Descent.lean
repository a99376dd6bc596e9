import Mathlib.Data.List.Nodup
import Mathlib.Data.List.Perm.Subperm
import Mathlib.Logic.Relation
import NodeQuery.Proofs.Tree.Lookup
/-!
The nodes below a node. One node lies below another one if parents lead up from it to the other one.
Visiting the nodes below a node with a stack lists each child in turn, followed by what is below it
(`Linked.below_eq_flatMap`), and so every node below exactly once (`Linked.mem_below_iff`,
`Linked.nodup_below`). What is below a node further down is a block of the list, right after that
node (`Linked.below_block`).
-/
namespace NodeQuery.MemoryTree

/-- A node is a child of another one. -/
def IsChild (t : MemoryTree) (child parent : Nat) : Prop :=
  t.parentOf? child = some parent

/-- A node lies below another one. -/
def LiesBelow (t : MemoryTree) : Nat → Nat → Prop :=
  Relation.TransGen t.IsChild

/-- A node is another one or lies below it. -/
def LiesWithin (t : MemoryTree) : Nat → Nat → Prop :=
  Relation.ReflTransGen t.IsChild

section
variable {t : MemoryTree} {n m s child other : Nat}

theorem liesWithin_iff :
    t.LiesWithin m n ↔ m = n ∨ ∃ child, t.LiesWithin m child ∧ t.IsChild child n := by
  rw [LiesWithin, Relation.ReflTransGen.cases_tail_iff]
  simp only [eq_comm]

theorem liesBelow_iff : t.LiesBelow m n ↔ ∃ child, t.LiesWithin m child ∧ t.IsChild child n :=
  Relation.TransGen.tail'_iff

theorem Linked.lt_of_liesBelow (h : t.Linked) (hbelow : t.LiesBelow m n) : n < m := by
  induction hbelow with
  | single hchild => exact h.lt_of_parentOf? hchild
  | tail _ hchild ih => exact Nat.lt_trans (h.lt_of_parentOf? hchild) ih

theorem Linked.le_of_liesWithin (h : t.Linked) (hwithin : t.LiesWithin m n) : n ≤ m := by
  rcases Relation.reflTransGen_iff_eq_or_transGen.1 hwithin with rfl | hbelow
  · exact Nat.le_refl n
  · exact Nat.le_of_lt (h.lt_of_liesBelow hbelow)

theorem LiesBelow.lt_size (hbelow : t.LiesBelow m n) : m < t.size := by
  obtain ⟨parent, hparent, -⟩ := Relation.TransGen.head'_iff.1 hbelow
  exact lt_size_of_parentOf? hparent

theorem Way.liesWithin {property : Nat → Prop} {names : List Json}
    (h : t.Way property n names m) : t.LiesWithin m n := by
  induction h with
  | here n => exact .refl
  | down hparent _ _ _ ih => exact ih.tail hparent

/-- A path leads to a node of the tree. -/
theorem Linked.liesWithin_of_find? (h : t.Linked) {path : String} (hs : t.find? path = some s) :
    t.LiesWithin s 0 := by
  obtain ⟨names, hway, -⟩ := h.find?_eq_some_iff.1 hs
  exact hway.liesWithin

/-- Of two children of a node neither lies within the other one. -/
theorem Linked.eq_of_liesWithin (h : t.Linked) (hchild : t.IsChild child n)
    (hother : t.IsChild other n) (hwithin : t.LiesWithin child other) : child = other := by
  rcases Relation.ReflTransGen.cases_head hwithin with heq | ⟨parent, hparent, hup⟩
  · exact heq
  · obtain rfl : n = parent := Option.some.inj (hchild.symm.trans hparent)
    have hle := h.le_of_liesWithin hup
    have hlt := h.lt_of_parentOf? hother
    omega

/-- No node lies within two children of a node. -/
theorem Linked.child_unique (h : t.Linked) (hchild : t.IsChild child n)
    (hother : t.IsChild other n) (hm : t.LiesWithin m child) (hm' : t.LiesWithin m other) :
    child = other := by
  have hfunctional : Relator.RightUnique t.IsChild :=
    fun _ _ _ hp hq => Option.some.inj (hp.symm.trans hq)
  rcases Relation.ReflTransGen.total_of_right_unique hfunctional hm hm' with hwithin | hwithin
  · exact h.eq_of_liesWithin hchild hother hwithin
  · exact (h.eq_of_liesWithin hother hchild hwithin).symm

/-! ## Preorder -/

/-- What holds of a node if it holds of its children holds of all nodes. -/
theorem Linked.induction_up (h : t.Linked) {motive : Nat → Prop}
    (step : ∀ n, (∀ child, t.IsChild child n → motive child) → motive n) (n : Nat) : motive n := by
  induction hk : t.size - n using Nat.strongRecOn generalizing n with
  | ind k ih =>
    refine step n fun child hchild => ?_
    have hlt := h.lt_of_parentOf? hchild
    have hsize := lt_size_of_parentOf? hchild
    exact ih (t.size - child) (by omega) child rfl

/-- A node and all below it, the children in order, each followed by what is below it. -/
def Linked.preorder (h : t.Linked) (n : Nat) : List Nat :=
  n :: (t.childrenOf n).attach.flatMap fun child => h.preorder child.1
termination_by t.size - n
decreasing_by
  have hchild := (h.children child.1 n).1 child.2
  have hlt := h.lt_of_parentOf? hchild
  have hsize := lt_size_of_parentOf? hchild
  omega

theorem Linked.preorder_eq (h : t.Linked) (n : Nat) :
    h.preorder n = n :: (t.childrenOf n).flatMap h.preorder := by
  rw [preorder]
  simp

theorem Linked.mem_preorder_iff (h : t.Linked) : m ∈ h.preorder n ↔ t.LiesWithin m n := by
  induction n using h.induction_up with
  | step n ih =>
    rw [h.preorder_eq, List.mem_cons, List.mem_flatMap, liesWithin_iff]
    refine or_congr_right (exists_congr fun child => ?_)
    rw [h.children child n, and_comm]
    exact and_congr_left fun hchild => ih child hchild

theorem Linked.nodup_preorder (h : t.Linked) (n : Nat) : (h.preorder n).Nodup := by
  induction n using h.induction_up with
  | step n ih =>
    rw [h.preorder_eq, List.nodup_cons, List.nodup_flatMap]
    refine ⟨?_, fun child hchild => ih child ((h.children child n).1 hchild), ?_⟩
    · intro hn
      obtain ⟨child, hchild, hwithin⟩ := List.mem_flatMap.1 hn
      have hlt := h.lt_of_parentOf? ((h.children child n).1 hchild)
      have hle := h.le_of_liesWithin (h.mem_preorder_iff.1 hwithin)
      omega
    · -- the subtrees of two children have no node in common
      refine (h.nodup_childrenOf n).imp_of_mem fun {child other} hchild hother hne => ?_
      intro m hm hm'
      exact hne (h.child_unique ((h.children child n).1 hchild) ((h.children other n).1 hother)
        (h.mem_preorder_iff.1 hm) (h.mem_preorder_iff.1 hm'))

/-! ## Visiting with a stack -/

/-- What is waiting on the stack is listed in turn, each node with what is below it. -/
theorem Linked.visit_eq (h : t.Linked) {fuel : Nat} {stack : List Nat}
    (hfuel : (stack.flatMap h.preorder).length ≤ fuel) :
    t.visit fuel stack = stack.flatMap h.preorder := by
  induction fuel generalizing stack with
  | zero => exact (List.eq_nil_of_length_eq_zero (Nat.le_zero.1 hfuel)).symm
  | succ fuel ih =>
    cases stack with
    | nil => rfl
    | cons n rest =>
      have hall : (n :: rest).flatMap h.preorder =
          n :: (t.childrenOf n ++ rest).flatMap h.preorder := by
        rw [List.flatMap_cons, h.preorder_eq, List.cons_append, List.flatMap_append]
      rw [hall, List.length_cons] at hfuel
      rw [hall, visit, ih (Nat.le_of_succ_le_succ hfuel)]

/-- No node is visited twice, so as many steps as there are nodes are enough. -/
theorem Linked.preorder_eq_below (h : t.Linked) (n : Nat) : h.preorder n = n :: t.below n := by
  have hnodup : ((t.childrenOf n).flatMap h.preorder).Nodup := by
    have hall := h.nodup_preorder n
    rw [h.preorder_eq, List.nodup_cons] at hall
    exact hall.2
  have hbound : (t.childrenOf n).flatMap h.preorder ⊆ List.range t.size := by
    intro m hm
    obtain ⟨child, hchild, hwithin⟩ := List.mem_flatMap.1 hm
    have hbelow : t.LiesBelow m n :=
      liesBelow_iff.2 ⟨child, h.mem_preorder_iff.1 hwithin, (h.children child n).1 hchild⟩
    exact List.mem_range.2 hbelow.lt_size
  have hfuel : ((t.childrenOf n).flatMap h.preorder).length ≤ t.size := by
    have hlength := (List.subperm_of_subset hnodup hbound).length_le
    rwa [List.length_range] at hlength
  rw [h.preorder_eq, below, h.visit_eq hfuel]

theorem Linked.below_eq_flatMap (h : t.Linked) (n : Nat) :
    t.below n = (t.childrenOf n).flatMap fun child => child :: t.below child := by
  have hall := h.preorder_eq n
  rw [h.preorder_eq_below, List.cons.injEq] at hall
  rw [hall.2]
  exact List.flatMap_congr fun child _ => h.preorder_eq_below child

theorem Linked.mem_below_iff (h : t.Linked) : m ∈ t.below n ↔ t.LiesBelow m n := by
  rw [h.below_eq_flatMap, List.mem_flatMap, liesBelow_iff]
  refine exists_congr fun child => ?_
  rw [← h.preorder_eq_below, h.mem_preorder_iff, h.children child n, and_comm]
  rfl

theorem Linked.nodup_below (h : t.Linked) (n : Nat) : (t.below n).Nodup := by
  have hall := h.nodup_preorder n
  rw [h.preorder_eq_below, List.nodup_cons] at hall
  exact hall.2

/-! ## Parts of a tree -/

/-- What is below a node further down stands together, right after that node. -/
theorem Linked.below_block (h : t.Linked) (hs : t.LiesBelow s n) :
    ∃ before after, t.below n = before ++ s :: t.below s ++ after := by
  induction n using h.induction_up with
  | step n ih =>
    obtain ⟨child, hwithin, hchild⟩ := liesBelow_iff.1 hs
    obtain ⟨first, last, hsplit⟩ := List.append_of_mem ((h.children child n).2 hchild)
    have hblock : ∃ before after, child :: t.below child = before ++ s :: t.below s ++ after := by
      rcases Relation.reflTransGen_iff_eq_or_transGen.1 hwithin with rfl | hbelow
      · exact ⟨[], [], (List.append_nil _).symm⟩
      · obtain ⟨before, after, heq⟩ := ih child hchild hbelow
        exact ⟨child :: before, after, by rw [heq]; rfl⟩
    obtain ⟨before, after, heq⟩ := hblock
    refine ⟨first.flatMap (fun child => child :: t.below child) ++ before,
      after ++ last.flatMap (fun child => child :: t.below child), ?_⟩
    rw [h.below_eq_flatMap, hsplit, List.flatMap_append, List.flatMap_cons, heq]
    simp only [List.append_assoc]

/-- In a list without repetitions a property that is that of being in a block filters the block. -/
theorem filter_eq_block {α : Type} {p : α → Bool} {before block after : List α}
    (hnodup : (before ++ block ++ after).Nodup) (hp : ∀ a, p a = true ↔ a ∈ block) :
    (before ++ block ++ after).filter p = block := by
  have hblock : block.filter p = block := List.filter_eq_self.2 fun a ha => (hp a).2 ha
  obtain ⟨hfirst, -, hlast⟩ := List.nodup_append.1 hnodup
  obtain ⟨-, -, hbefore⟩ := List.nodup_append.1 hfirst
  have hnone : before.filter p = [] := by
    refine List.filter_eq_nil_iff.2 fun a ha hpa => ?_
    exact hbefore a ha a ((hp a).1 hpa) rfl
  have hrest : after.filter p = [] := by
    refine List.filter_eq_nil_iff.2 fun a ha hpa => ?_
    exact hlast a (List.mem_append_right before ((hp a).1 hpa)) a ha rfl
  rw [List.filter_append, List.filter_append, hnone, hblock, hrest, List.nil_append,
    List.append_nil]

/-- Of the nodes below a node, those below a node further down are listed in the same order. -/
theorem Linked.below_filter (h : t.Linked) (hs : t.LiesWithin s n)
    [DecidablePred fun m => t.LiesBelow m s] :
    (t.below n).filter (fun m => t.LiesBelow m s) = t.below s := by
  have hp : ∀ m, decide (t.LiesBelow m s) = true ↔ m ∈ t.below s :=
    fun m => decide_eq_true_iff.trans h.mem_below_iff.symm
  rcases Relation.reflTransGen_iff_eq_or_transGen.1 hs with rfl | hbelow
  · exact List.filter_eq_self.2 fun m hm => (hp m).2 hm
  · obtain ⟨before, after, hblock⟩ := h.below_block hbelow
    have hsplit : t.below n = (before ++ [s]) ++ t.below s ++ after := by
      rw [hblock, List.append_assoc, List.append_assoc, List.append_assoc]
      rfl
    have hnodup := h.nodup_below n
    rw [hsplit] at hnodup ⊢
    exact filter_eq_block hnodup hp

end
end NodeQuery.MemoryTree
