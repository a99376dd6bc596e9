import Mathlib.Data.List.Nodup
import NodeQuery.Proofs.Query.Truth
/-!
The order of a selection. Only unions reorder, and only along left operands: an expression gives
every id a rank (`Expr.rank`), and it lists what it selects by rank, and by candidate order where
ranks are equal (`select_ordered`). Without a union on its left spine an expression keeps the order
of the candidates.
-/
namespace NodeQuery.Query

open Classical in
/-- Where an expression lists an id, given which leaves are true of it. Ranks are compared from
their first number on. A union lists the ids of its left operand first and then the others, both by
their ranks in the operand that they come from. -/
noncomputable def Expr.rank (truth : Leaf → Prop) : Expr → List Nat
  | .leaf _ => []
  | .join .or left right =>
    if left.Formula truth then 0 :: left.rank truth else 1 :: right.rank truth
  | .join .and left _ => left.rank truth
  | .join .andNot left _ => left.rank truth
  | .group inner => inner.rank truth

/-- The connectives that are met on the way down through left operands and groups. -/
def Expr.spine : Expr → List Connective
  | .leaf _ => []
  | .join c left _ => c :: left.spine
  | .group inner => inner.spine

/-- One id comes before another by rank, or by a given order if their ranks are equal. -/
def ByRank {α : Type} (rank : α → List Nat) (earlier : α → α → Prop) (a b : α) : Prop :=
  rank a < rank b ∨ rank a = rank b ∧ earlier a b

/-- A number in front of both ranks does not change which one is smaller. -/
theorem ByRank.cons {α : Type} {rank rank' : α → List Nat} {earlier : α → α → Prop} {a b : α}
    {k : Nat} (ha : rank' a = k :: rank a) (hb : rank' b = k :: rank b)
    (h : ByRank rank earlier a b) : ByRank rank' earlier a b := by
  rw [ByRank, ha, hb, List.cons_lt_cons_iff, List.cons.injEq]
  exact h.imp (fun hlt => .inr ⟨rfl, hlt⟩) fun ⟨heq, hearlier⟩ => ⟨⟨rfl, heq⟩, hearlier⟩

section
variable [Host] {context : Context} {earlier : Json → Json → Prop} {found chosen others : List Json}

/-- The rank of an id in a context. -/
noncomputable def Expr.rankOf (context : Context) (e : Expr) (id : Json) : List Nat :=
  e.rank (Leaf.TrueOf context.tree context.settings id)

theorem Expr.rankOf_or_of_formula {left : Expr} (right : Expr) {id : Json}
    (h : left.Formula (Leaf.TrueOf context.tree context.settings id)) :
    (Expr.join .or left right).rankOf context id = 0 :: left.rankOf context id :=
  if_pos h

theorem Expr.rankOf_or_of_not_formula {left : Expr} (right : Expr) {id : Json}
    (h : ¬ left.Formula (Leaf.TrueOf context.tree context.settings id)) :
    (Expr.join .or left right).rankOf context id = 1 :: right.rankOf context id :=
  if_neg h

/-- What a union lists of its left operand comes before what it adds, and both parts keep their
order. -/
theorem pairwise_union {left right : Expr}
    (hall : Selection.Distinct context.candidates)
    (hl : left.select context = .ok chosen) (hr : right.select context = .ok others)
    (hchosen : chosen.Pairwise (ByRank (left.rankOf context) earlier))
    (hothers : others.Pairwise (ByRank (right.rankOf context) earlier)) :
    (Selection.union chosen others).Pairwise
      (ByRank ((Expr.join .or left right).rankOf context) earlier) := by
  have hleft := selects_of_select hall hl
  have hright := selects_of_select hall hr
  have hfirst : ∀ id ∈ chosen,
      (Expr.join .or left right).rankOf context id = 0 :: left.rankOf context id :=
    fun id hid => Expr.rankOf_or_of_formula right ((hleft.mem_iff id).1 hid).2
  have hsecond : ∀ id ∈ Selection.additions chosen others,
      (Expr.join .or left right).rankOf context id = 1 :: right.rankOf context id := by
    intro id hid
    have hnew := Selection.not_mem_of_mem_additions hid
    have hcandidate := hright.subset (Selection.additions_subset _ _ hid)
    exact Expr.rankOf_or_of_not_formula right
      fun htrue => hnew ((hleft.mem_iff id).2 ⟨hcandidate, htrue⟩)
  rw [Selection.union, List.pairwise_append]
  refine ⟨?_, ?_, ?_⟩
  · exact hchosen.imp_of_mem fun {a b} ha hb h => h.cons (hfirst a ha) (hfirst b hb)
  · have hadded := hothers.sublist (Selection.additions_sublist chosen others)
    exact hadded.imp_of_mem fun {a b} ha hb h => h.cons (hsecond a ha) (hsecond b hb)
  · intro a ha b hb
    left
    rw [hfirst a ha, hsecond b hb]
    exact List.cons_lt_cons_iff.2 (.inl Nat.zero_lt_one)

/-- An expression lists what it selects by rank. -/
theorem pairwise_select (hall : Selection.Distinct context.candidates)
    (horder : context.candidates.Pairwise earlier) {e : Expr} (h : e.select context = .ok found) :
    found.Pairwise (ByRank (e.rankOf context) earlier) := by
  induction e generalizing found with
  | leaf l =>
    obtain ⟨test, -, -, rfl⟩ := Leaf.select_eq_ok_iff.1 h
    exact (horder.filter _).imp fun h => .inr ⟨rfl, h⟩
  | join c left right ihl ihr =>
    obtain ⟨chosen, others, hl, hr, rfl⟩ := Expr.select_join_eq_ok_iff.1 h
    cases c with
    | or => exact pairwise_union hall hl hr (ihl hl) (ihr hr)
    | and => exact (ihl hl).filter _
    | andNot => exact (ihl hl).filter _
  | group inner ih => exact ih h

/-- Intersections and differences take away from their left operand, so the order changes only at
a union on the left spine. -/
theorem select_sublist {e : Expr} (hspine : .or ∉ e.spine) (h : e.select context = .ok found) :
    found.Sublist context.candidates := by
  induction e generalizing found with
  | leaf l =>
    obtain ⟨test, -, -, rfl⟩ := Leaf.select_eq_ok_iff.1 h
    exact List.filter_sublist
  | join c left right ihl _ =>
    obtain ⟨chosen, others, hl, -, rfl⟩ := Expr.select_join_eq_ok_iff.1 h
    rw [Expr.spine, List.mem_cons, not_or] at hspine
    obtain ⟨hc, hleft⟩ := hspine
    cases c with
    | or => exact absurd rfl hc
    | and => exact List.filter_sublist.trans (ihl hleft hl)
    | andNot => exact List.filter_sublist.trans (ihl hleft hl)
  | group inner ih => exact ih hspine h

end

/-! ## Whole numbers as candidates -/

theorem pairwise_idxOf {ids : List Int} (hids : ids.Nodup) :
    ids.Pairwise fun m n => ids.idxOf m < ids.idxOf n := by
  rw [List.pairwise_iff_getElem]
  intro i j hi hj hij
  rwa [hids.idxOf_getElem, hids.idxOf_getElem]

/-- Over whole numbers without repetitions, an expression all of whose leaves succeed lists the
candidates of which its formula is true strictly by rank and place among the candidates, and by
place alone if no union lies on its left spine. -/
theorem select_ordered [Host] (tree : NodeTree) (settings : Settings) {ids : List Int}
    (hids : ids.Nodup) (e : Expr)
    (hleaves : ∀ l ∈ e.leaves, ∃ found, l.select ⟨tree, ids.map .int, settings⟩ = .ok found) :
    ∃ found : List Int,
      e.select ⟨tree, ids.map .int, settings⟩ = .ok (found.map .int) ∧
      (∀ n, n ∈ found ↔ n ∈ ids ∧ e.Formula (Leaf.TrueOf tree settings (.int n))) ∧
      found.Pairwise (ByRank (fun n => e.rank (Leaf.TrueOf tree settings (.int n)))
        fun m n => ids.idxOf m < ids.idxOf n) ∧
      (.or ∉ e.spine → found.Sublist ids) := by
  have hall : Selection.Distinct (ids.map Json.int) := Selection.distinct_int.2 hids
  have hinj : Function.Injective Json.int := fun _ _ => Json.int.inj
  obtain ⟨found, hfound⟩ := Expr.exists_select_iff.2 hleaves
  have hselects := selects_of_select hall hfound
  obtain ⟨ns, rfl⟩ := Selection.exists_ints hselects.subset
  refine ⟨ns, hfound, fun n => ?_, ?_, fun hspine => ?_⟩
  · have hmem := hselects.mem_iff (.int n)
    rwa [List.mem_map_of_injective hinj, List.mem_map_of_injective hinj] at hmem
  · have horder : (ids.map Json.int).Pairwise fun a b =>
        ∀ m n, a = .int m → b = .int n → ids.idxOf m < ids.idxOf n := by
      rw [List.pairwise_map]
      refine (pairwise_idxOf hids).imp fun {i j} h m n hm hn => ?_
      cases hm
      cases hn
      exact h
    have hsorted := pairwise_select hall horder hfound
    rw [List.pairwise_map] at hsorted
    exact hsorted.imp fun h => h.imp_right fun ⟨hrank, h⟩ => ⟨hrank, h _ _ rfl rfl⟩
  · obtain ⟨ms, hms, hmap⟩ := List.sublist_map_iff.1 (select_sublist hspine hfound)
    rwa [hinj.list_map hmap]

/-- Nodes that neither are the root nor hold a capital D, the picture `a.jpg` before the others. -/
def firstPictures : Expr :=
  .join .andNot
    (.group (.join .or (.leaf (.name .name .fixed "a.jpg")) (.leaf (.name .name .wildcard "*"))))
    (.join .or (.leaf (.name .name .fixed "root")) (.leaf (.data .text "D")))

theorem select_ordered_firstPictures :
    ([2, 9, 1, 0] : List Int).Nodup ∧
    (∀ l ∈ firstPictures.leaves, ∃ found,
      l.select ⟨pictures, [2, 9, 1, 0].map .int, .standard⟩ = .ok found) ∧
    ∃ found : List Int,
      firstPictures.select ⟨pictures, [2, 9, 1, 0].map .int, .standard⟩ = .ok (found.map .int) ∧
      (∀ n, n ∈ found ↔ n ∈ [2, 9, 1, 0] ∧
        firstPictures.Formula (Leaf.TrueOf pictures .standard (.int n))) ∧
      found.Pairwise (ByRank
        (fun n => firstPictures.rank (Leaf.TrueOf pictures .standard (.int n)))
        fun m n => [2, 9, 1, 0].idxOf m < [2, 9, 1, 0].idxOf n) ∧
      (.or ∉ firstPictures.spine → found.Sublist [2, 9, 1, 0]) := by
  have hids : ([2, 9, 1, 0] : List Int).Nodup := by decide
  have hleaves : ∀ l ∈ firstPictures.leaves, ∃ found,
      l.select ⟨pictures, [2, 9, 1, 0].map .int, .standard⟩ = .ok found := by
    simp only [firstPictures, Expr.leaves, List.cons_append, List.nil_append, List.forall_mem_cons]
    exact ⟨⟨_, rfl⟩, ⟨_, rfl⟩, ⟨_, rfl⟩, ⟨_, rfl⟩, List.forall_mem_nil _⟩
  exact ⟨hids, hleaves, select_ordered pictures .standard hids firstPictures hleaves⟩

/-- Among the candidates `a.jpg` stands after `b.jpg`, and the union on the left spine puts it
first. -/
example : firstPictures.select ⟨pictures, [2, 9, 1, 0].map .int, .standard⟩ =
    .ok [.int 1, .int 2] := rfl

end NodeQuery.Query
