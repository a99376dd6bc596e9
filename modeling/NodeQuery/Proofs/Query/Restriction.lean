import NodeQuery.Proofs.Query.Truth
/-!
Evaluation over fewer candidates. No candidate has a say in whether another one is selected, nor in
their order: evaluating over the candidates with some property gives what evaluating over all of
them gives, restricted to the property (`evaluate_filter`). Where several ids are the same, they
have to agree on the property (`Respects`), or dropping repetitions would keep a different one.
-/
namespace NodeQuery

/-- A test and a property commute if the property does not change the test. -/
theorem filter_filter_comm {α : Type} {as : List α} {p test test' : α → Bool}
    (h : ∀ a ∈ as, p a = true → test' a = test a) :
    (as.filter p).filter test' = (as.filter test).filter p := by
  rw [List.filter_filter, List.filter_filter]
  refine List.filter_congr fun a ha => ?_
  cases hp : p a with
  | false => rw [Bool.and_false, Bool.false_and]
  | true => rw [Bool.and_true, Bool.true_and, h a ha hp]

theorem keep_filter {α : Type} {test : α → Outcome Bool} {as found : List α}
    (h : keep test as = .ok found) (p : α → Bool) :
    keep test (as.filter p) = .ok (found.filter p) := by
  obtain ⟨hanswers, rfl⟩ := keep_eq_ok_iff.1 h
  refine keep_eq_ok_iff.2 ⟨fun a ha => hanswers a (List.mem_of_mem_filter ha), ?_⟩
  exact (filter_filter_comm fun _ _ _ => rfl).symm

namespace Selection

/-- Those of the given ids that are the same agree on a property. -/
def Respects (p : Json → Bool) (all : List Json) : Prop :=
  ∀ a ∈ all, ∀ b ∈ all, a.identity = b.identity → p a = p b

theorem Respects.mono {p : Json → Bool} {all some : List Json} (h : Respects p all)
    (hsub : some ⊆ all) : Respects p some :=
  fun a ha b hb => h a (hsub ha) b (hsub hb)

/-- Whole numbers are the same id only if they are equal. -/
theorem respects_int (p : Json → Bool) (ns : List Int) : Respects p (ns.map .int) := by
  intro a ha b hb hab
  obtain ⟨m, -, rfl⟩ := List.mem_map.1 ha
  obtain ⟨n, -, rfl⟩ := List.mem_map.1 hb
  rw [Json.same_int.1 (Json.same_iff.2 hab)]

section
variable {p : Json → Bool} {all seen left right : List Json} {id : Json}

theorem has_filter (hp : Respects p all) (hleft : left ⊆ all) (hid : id ∈ all)
    (hpid : p id = true) : has (left.filter p) id = has left id := by
  rw [Bool.eq_iff_iff, has_iff, has_iff]
  constructor
  · rintro ⟨x, hx, he⟩
    exact ⟨x, List.mem_of_mem_filter hx, he⟩
  · rintro ⟨x, hx, he⟩
    have hpx : p x = true := (hp x (hleft hx) id hid he).trans hpid
    exact ⟨x, List.mem_filter.2 ⟨hx, hpx⟩, he⟩

theorem additions_filter (hp : Respects p all) (hseen : seen ⊆ all) (hright : right ⊆ all) :
    additions (seen.filter p) (right.filter p) = (additions seen right).filter p := by
  induction right generalizing seen with
  | nil => rfl
  | cons id rest ih =>
    obtain ⟨hid, hrest⟩ := List.cons_subset.1 hright
    have hnext : id :: seen ⊆ all := List.cons_subset.2 ⟨hid, hseen⟩
    cases hpid : p id with
    | false =>
      -- an id without the property leaves no trace among the ids seen
      rw [List.filter_cons_of_neg (by simp [hpid]), additions]
      split
      · exact ih hseen hrest
      · rw [List.filter_cons_of_neg (by simp [hpid]), ← ih hnext hrest,
          List.filter_cons_of_neg (by simp [hpid])]
    | true =>
      rw [List.filter_cons_of_pos hpid, additions, additions, has_filter hp hseen hid hpid]
      split
      · exact ih hseen hrest
      · rw [List.filter_cons_of_pos hpid, ← ih hnext hrest, List.filter_cons_of_pos hpid]

theorem distinct_filter (hp : Respects p all) :
    distinct (all.filter p) = (distinct all).filter p :=
  additions_filter hp (List.nil_subset all) (List.Subset.refl all)

theorem union_filter (hp : Respects p all) (hleft : left ⊆ all) (hright : right ⊆ all) :
    union (left.filter p) (right.filter p) = (union left right).filter p := by
  rw [union, union, additions_filter hp hleft hright, List.filter_append]

theorem inter_filter (hp : Respects p all) (hleft : left ⊆ all) (hright : right ⊆ all) :
    inter (left.filter p) (right.filter p) = (inter left right).filter p :=
  filter_filter_comm fun _ hid hpid => has_filter hp hright (hleft hid) hpid

theorem diff_filter (hp : Respects p all) (hleft : left ⊆ all) (hright : right ⊆ all) :
    diff (left.filter p) (right.filter p) = (diff left right).filter p :=
  filter_filter_comm fun _ hid hpid => by rw [has_filter hp hright (hleft hid) hpid]

end
end Selection

namespace Query
variable {p : Json → Bool} {all left right found : List Json}

theorem Connective.combine_subset (c : Connective) (hleft : left ⊆ all) (hright : right ⊆ all) :
    c.combine left right ⊆ all := by
  cases c with
  | or =>
    have hadded := List.Subset.trans (Selection.additions_subset left right) hright
    exact List.append_subset.2 ⟨hleft, hadded⟩
  | and => exact List.Subset.trans (List.filter_subset_self _) hleft
  | andNot => exact List.Subset.trans (List.filter_subset_self _) hleft

theorem Connective.combine_filter (c : Connective) (hp : Selection.Respects p all)
    (hleft : left ⊆ all) (hright : right ⊆ all) :
    c.combine (left.filter p) (right.filter p) = (c.combine left right).filter p := by
  cases c with
  | or => exact Selection.union_filter hp hleft hright
  | and => exact Selection.inter_filter hp hleft hright
  | andNot => exact Selection.diff_filter hp hleft hright

section
variable [Host] {tree : NodeTree} {settings : Settings}

theorem Expr.select_subset {e : Expr} (h : e.select ⟨tree, all, settings⟩ = .ok found) :
    found ⊆ all := by
  induction e generalizing found with
  | leaf l =>
    obtain ⟨test, -, -, rfl⟩ := Leaf.select_eq_ok_iff.1 h
    exact List.filter_subset_self _
  | join c left right ihl ihr =>
    obtain ⟨chosen, others, hl, hr, rfl⟩ := Expr.select_join_eq_ok_iff.1 h
    exact c.combine_subset (ihl hl) (ihr hr)
  | group inner ih => exact ih h

/-- What an expression selects of the candidates with a property is what it selects of all of them,
restricted to the property. -/
theorem Expr.select_filter (hp : Selection.Respects p all) {e : Expr}
    (h : e.select ⟨tree, all, settings⟩ = .ok found) :
    e.select ⟨tree, all.filter p, settings⟩ = .ok (found.filter p) := by
  induction e generalizing found with
  | leaf l =>
    obtain ⟨test, hcompile, hkeep⟩ := Outcome.bind_eq_ok_iff.1 h
    exact Outcome.bind_eq_ok_iff.2 ⟨test, hcompile, keep_filter hkeep p⟩
  | join c left right ihl ihr =>
    obtain ⟨chosen, others, hl, hr, rfl⟩ := Expr.select_join_eq_ok_iff.1 h
    refine Expr.select_join_eq_ok_iff.2 ⟨_, _, ihl hl, ihr hr, ?_⟩
    exact (c.combine_filter hp (Expr.select_subset hl) (Expr.select_subset hr)).symm
  | group inner ih => exact ih h

/-- The same where repetitions are dropped first. -/
theorem Expr.select_distinct_filter (hp : Selection.Respects p all) {e : Expr}
    (h : e.select ⟨tree, Selection.distinct all, settings⟩ = .ok found) :
    e.select ⟨tree, Selection.distinct (all.filter p), settings⟩ = .ok (found.filter p) := by
  have hdistinct : Selection.distinct all ⊆ all := Selection.additions_subset [] all
  rw [Selection.distinct_filter hp]
  exact Expr.select_filter (hp.mono hdistinct) h

end

theorem evaluate_eq_ok_iff [Host] {tree : NodeTree} {candidates : List Json} {query : String}
    {settings : Settings} :
    evaluate tree candidates query settings = .ok found ↔
      ∃ e, parse query = .ok e ∧ (∀ id ∈ candidates, id.isScalar = true) ∧
        e.select ⟨tree, Selection.distinct candidates, settings⟩ = .ok found := by
  rw [evaluate, Outcome.bind_eq_ok_iff, ← List.all_eq_true]
  refine exists_congr fun e => and_congr_right fun _ => ?_
  split
  · next hscalar => simp [hscalar]
  · next hscalar => simp [hscalar]

/-- A query that succeeds over whole numbers, repeated or not, succeeds over those of them with any
property, and gives the ids with the property of those that it gives over all, in the same order. -/
theorem evaluate_filter [Host] (tree : NodeTree) (settings : Settings) (query : String)
    (ids : List Int) (h : evaluate tree (ids.map .int) query settings = .ok found)
    (p : Json → Bool) :
    evaluate tree ((ids.map .int).filter p) query settings = .ok (found.filter p) := by
  obtain ⟨e, hparse, hscalar, hselect⟩ := evaluate_eq_ok_iff.1 h
  have hp := Selection.respects_int p ids
  have hdistinct : Selection.distinct (ids.map .int) ⊆ ids.map Json.int :=
    Selection.additions_subset [] _
  refine evaluate_eq_ok_iff.2 ⟨e, hparse, fun id hid => hscalar id (List.mem_of_mem_filter hid), ?_⟩
  rw [Selection.distinct_filter hp]
  exact Expr.select_filter
    (fun a ha b hb hab => hp a (hdistinct ha) b (hdistinct hb) hab) hselect

theorem evaluate_filter_pictures :
    evaluate pictures (([2, 1, 9, 2, 0] : List Int).map .int) "name == 'a.jpg' or name == w'*'"
        .standard = .ok [.int 1, .int 2, .int 0] ∧
    evaluate pictures ((([2, 1, 9, 2, 0] : List Int).map .int).filter fun id => !id.same (.int 1))
        "name == 'a.jpg' or name == w'*'" .standard =
      .ok ([.int 1, .int 2, .int 0].filter fun id => !id.same (.int 1)) := by
  have h : evaluate pictures (([2, 1, 9, 2, 0] : List Int).map .int)
      "name == 'a.jpg' or name == w'*'" .standard = .ok [.int 1, .int 2, .int 0] := rfl
  exact ⟨h, evaluate_filter pictures .standard "name == 'a.jpg' or name == w'*'" [2, 1, 9, 2, 0] h
    fun id => !id.same (.int 1)⟩

end Query
end NodeQuery
