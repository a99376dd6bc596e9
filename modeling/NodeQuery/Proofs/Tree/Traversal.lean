import NodeQuery.Proofs.Tree.Descent
/-!
The loop that lists the nodes below a node. Waiting nodes stand in a row, of which the last one is
taken and makes room for its children, the first of them last. What has been visited, followed by
the subtrees of what waits, is the same before and after a turn (`Turn.visited_append`), so that a
loop ends with the preorder of the nodes below its start (`Linked.turns_iff`), and it always ends
(`Linked.wellFounded_turn`). What is listed below a path is a block of the list of the whole tree
(`belowPath?_preorder`).
-/
namespace NodeQuery.MemoryTree

/-- What waits to be visited, the next node last, and what has been visited. -/
structure Visit where
  waiting : List Nat
  visited : List Nat

/-- A turn of the loop. -/
inductive Turn (t : MemoryTree) : Visit → Visit → Prop
  | take (waiting visited : List Nat) (n : Nat) :
    Turn t ⟨waiting ++ [n], visited⟩ ⟨waiting ++ (t.childrenOf n).reverse, visited ++ [n]⟩

/-- Any number of turns. -/
def Turns (t : MemoryTree) : Visit → Visit → Prop :=
  Relation.ReflTransGen t.Turn

/-- The node below which nodes are listed: the one at the path, or the root without a path. -/
def StartsAt (t : MemoryTree) : Option String → Nat → Prop
  | none, s => s = 0
  | some path, s => t.find? path = some s

section
variable {t : MemoryTree} {v w : Visit} {s m : Nat}

/-- The subtrees of what waits, in the order in which it is taken. -/
def Linked.toVisit (h : t.Linked) (v : Visit) : List Nat :=
  v.waiting.reverse.flatMap h.preorder

/-- A turn moves one node from what is to be visited to what has been. -/
theorem Turn.visited_append (hturn : t.Turn v w) (h : t.Linked) :
    v.visited ++ h.toVisit v = w.visited ++ h.toVisit w := by
  cases hturn with
  | take waiting visited n => simp [Linked.toVisit, h.preorder_eq n]

theorem Turn.length_toVisit_lt (hturn : t.Turn v w) (h : t.Linked) :
    (h.toVisit w).length < (h.toVisit v).length := by
  have hlength := congrArg List.length (hturn.visited_append h)
  have hvisited : w.visited.length = v.visited.length + 1 := by
    cases hturn with
    | take waiting visited n => simp
  simp only [List.length_append] at hlength
  omega

/-- There is no endless sequence of turns. -/
theorem Linked.wellFounded_turn (h : t.Linked) :
    WellFounded fun after before : Visit => t.Turn before after :=
  Subrelation.wf (fun hturn => hturn.length_toVisit_lt h) (measure fun v => (h.toVisit v).length).wf

/-- As long as nodes wait there is a turn. So the turns end with everything visited. -/
theorem Linked.turns_visited (h : t.Linked) (v : Visit) :
    t.Turns v ⟨[], v.visited ++ h.toVisit v⟩ := by
  induction v using h.wellFounded_turn.induction with
  | h v ih =>
    obtain ⟨waiting, visited⟩ := v
    rcases List.eq_nil_or_concat waiting with rfl | ⟨rest, n, rfl⟩
    · have hend : visited ++ h.toVisit ⟨[], visited⟩ = visited := List.append_nil visited
      rw [hend]
      exact .refl
    · rw [List.concat_eq_append] at ih ⊢
      have hturn := Turn.take (t := t) rest visited n
      rw [hturn.visited_append h]
      exact .head hturn (ih _ hturn)

theorem Turns.visited_append (hturns : t.Turns v w) (h : t.Linked) :
    v.visited ++ h.toVisit v = w.visited ++ h.toVisit w := by
  induction hturns with
  | refl => rfl
  | tail _ hturn ih => rw [ih, hturn.visited_append h]

/-- The loop that starts with the children of a node ends with the nodes below it. -/
theorem Linked.turns_iff (h : t.Linked) (visited : List Nat) :
    t.Turns ⟨(t.childrenOf s).reverse, []⟩ ⟨[], visited⟩ ↔ visited = t.below s := by
  have hstart : h.toVisit ⟨(t.childrenOf s).reverse, []⟩ = t.below s := by
    have hall := h.preorder_eq s
    rw [h.preorder_eq_below, List.cons.injEq] at hall
    rw [toVisit, List.reverse_reverse, hall.2]
  constructor
  · intro hturns
    have hsame := hturns.visited_append h
    rw [hstart, List.nil_append] at hsame
    rw [hsame]
    exact (List.append_nil visited).symm
  · rintro rfl
    have hturns := h.turns_visited ⟨(t.childrenOf s).reverse, []⟩
    rwa [hstart] at hturns

theorem Linked.liesWithin_of_startsAt (h : t.Linked) {path : Option String}
    (hs : t.StartsAt path s) : t.LiesWithin s 0 := by
  cases path with
  | none =>
    obtain rfl : s = 0 := hs
    exact .refl
  | some path => exact h.liesWithin_of_find? hs

theorem belowPath?_of_startsAt {path : Option String} (hs : t.StartsAt path s) :
    t.belowPath? path = some (t.below s) := by
  cases path with
  | none =>
    obtain rfl : s = 0 := hs
    rfl
  | some path =>
    have hfind : t.find? path = some s := hs
    rw [belowPath?, hfind, Option.map_some]

/-- Listing the nodes below a node comes to an end, whatever waits, and the end is the preorder of
the nodes below the start, where children stand in the order of their adding: every node below the
start once, no other node and not the start itself. In the list of the whole tree they stand
together right after the start, or at the front if the start is the root. -/
theorem belowPath?_preorder (h : t.Built) {path : Option String} (hs : t.StartsAt path s) :
    ∃ found, t.belowPath? path = some found ∧
      (WellFounded fun after before : Visit => t.Turn before after) ∧
      (∀ visited, t.Turns ⟨(t.childrenOf s).reverse, []⟩ ⟨[], visited⟩ ↔ visited = found) ∧
      s :: found = h.linked.preorder s ∧
      (∀ p, (t.childrenOf p).Pairwise (· < ·) ∧ ∀ m, m ∈ t.childrenOf p ↔ t.IsChild m p) ∧
      (∀ m, (t.LiesBelow m s → found.count m = 1) ∧ (¬ t.LiesBelow m s → m ∉ found)) ∧
      s ∉ found ∧
      ∃ whole, t.belowPath? none = some whole ∧
        (s = 0 ∧ whole = found ∨
          ∃ before after, whole = before ++ s :: found ++ after) := by
  have hlinked := h.linked
  refine ⟨t.below s, belowPath?_of_startsAt hs, hlinked.wellFounded_turn, hlinked.turns_iff,
    (hlinked.preorder_eq_below s).symm, fun p => ⟨hlinked.increasing p, fun m => ?_⟩,
    fun m => ⟨fun hm => ?_, fun hm => ?_⟩, ?_, t.below 0, rfl, ?_⟩
  · exact hlinked.children m p
  · exact List.count_eq_one_of_mem (hlinked.nodup_below s) (hlinked.mem_below_iff.2 hm)
  · exact fun hmem => hm (hlinked.mem_below_iff.1 hmem)
  · intro hmem
    have hlt := hlinked.lt_of_liesBelow (hlinked.mem_below_iff.1 hmem)
    exact Nat.lt_irrefl s hlt
  · rcases Relation.reflTransGen_iff_eq_or_transGen.1 (hlinked.liesWithin_of_startsAt hs) with
      heq | hbelow
    · exact .inl ⟨heq.symm, by rw [← heq]⟩
    · exact .inr (hlinked.below_block hbelow)

end

/-- A child that was added last stands below the child that was added first. -/
def branches : MemoryTree :=
  (((ofRoot (.text "root")).push 0 (.text "a") .nil none).push 0 (.text "b") .nil none).push 1
    (.text "c") .nil none

theorem belowPath?_preorder_branches :
    ∃ h : branches.Built, branches.StartsAt (some "/a") 1 ∧
      branches.belowPath? (some "/a") = some [3] ∧ branches.belowPath? none = some [1, 3, 2] ∧
      ∃ found, branches.belowPath? (some "/a") = some found ∧
        (WellFounded fun after before : Visit => branches.Turn before after) ∧
        (∀ visited, branches.Turns ⟨(branches.childrenOf 1).reverse, []⟩ ⟨[], visited⟩ ↔
          visited = found) ∧
        1 :: found = h.linked.preorder 1 ∧
        (∀ p, (branches.childrenOf p).Pairwise (· < ·) ∧
          ∀ m, m ∈ branches.childrenOf p ↔ branches.IsChild m p) ∧
        (∀ m, (branches.LiesBelow m 1 → found.count m = 1) ∧
          (¬ branches.LiesBelow m 1 → m ∉ found)) ∧
        1 ∉ found ∧
        ∃ whole, branches.belowPath? none = some whole ∧
          (1 = 0 ∧ whole = found ∨ ∃ before after, whole = before ++ 1 :: found ++ after) := by
  have hbuilt : branches.Built :=
    (((Built.root _).push (by decide) ..).push (by decide) ..).push (by decide) ..
  have hs : branches.StartsAt (some "/a") 1 := by
    show branches.find? "/a" = some 1
    decide
  exact ⟨hbuilt, hs, by decide, by decide, belowPath?_preorder hbuilt hs⟩

end NodeQuery.MemoryTree
