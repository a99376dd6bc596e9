import Mathlib.Data.List.Sort
import NodeQuery.Proofs.Query.Concatenation
import NodeQuery.Proofs.Query.Order
import NodeQuery.Proofs.Query.Restriction
/-!
Searching within what was found. The ids that a first query gives can serve as the candidates of a
second one (`evaluate_within`). The second run meets them in the order of the first result, so its
own result is told from that order and from the ranks of its expression: two lists with the same
members that are sorted by rank and place are equal (`eq_of_byRank`).
-/
namespace NodeQuery

namespace Selection

/-- The place of an id in a list. -/
def place (ids : List Json) (id : Json) : Nat :=
  (ids.map Json.identity).idxOf id.identity

theorem Distinct.nodup {ids : List Json} (h : Distinct ids) : ids.Nodup :=
  List.Nodup.of_map _ h

/-- A list without repetitions is sorted by its own places. -/
theorem Distinct.pairwise_place {ids : List Json} (h : Distinct ids) :
    ids.Pairwise fun a b => place ids a < place ids b := by
  have hplace : ∀ (i : Nat) (hi : i < ids.length), place ids ids[i] = i := by
    intro i hi
    have hidx := h.idxOf_getElem i (by simpa using hi)
    rwa [List.getElem_map] at hidx
  rw [List.pairwise_iff_getElem]
  intro i j hi hj hij
  rwa [hplace i hi, hplace j hj]

theorem additions_eq_self {seen ids : List Json} (h : Distinct ids)
    (hnew : ∀ id ∈ ids, has seen id = false) : additions seen ids = ids := by
  induction ids generalizing seen with
  | nil => rfl
  | cons id rest ih =>
    obtain ⟨hfirst, hrest⟩ := List.nodup_cons.1 h
    obtain ⟨hid, hothers⟩ := List.forall_mem_cons.1 hnew
    have hnext : ∀ other ∈ rest, has (id :: seen) other = false := by
      intro other hother
      have hne : id.identity ≠ other.identity :=
        fun he => hfirst (List.mem_map.2 ⟨other, hother, he.symm⟩)
      have hsame : id.same other = false := by
        rwa [Bool.eq_false_iff, ne_eq, Json.same_iff]
      have hseen := hothers other hother
      simp only [has] at hseen ⊢
      rw [List.any_cons, hsame, hseen, Bool.false_or]
    rw [additions, hid, ih hrest hnext]
    rfl

theorem distinct_eq_self {ids : List Json} (h : Distinct ids) : distinct ids = ids :=
  additions_eq_self h fun _ _ => rfl

end Selection

namespace Query

/-- Two lists with the same members are equal if both are sorted by rank and place. -/
theorem eq_of_byRank {α : Type} {rank : α → List Nat} {place : α → Nat} {as bs : List α}
    (ha : as.Pairwise (ByRank rank fun a b => place a < place b))
    (hb : bs.Pairwise (ByRank rank fun a b => place a < place b))
    (hmem : ∀ a, a ∈ as ↔ a ∈ bs) : as = bs := by
  have hirrefl : ∀ a, ¬ ByRank rank (fun a b => place a < place b) a a := by
    rintro a (h | ⟨-, h⟩)
    · exact List.lt_irrefl _ h
    · exact Nat.lt_irrefl _ h
  have hasymm : ∀ a b, ByRank rank (fun a b => place a < place b) a b →
      ¬ ByRank rank (fun a b => place a < place b) b a := by
    rintro a b (h | ⟨he, h⟩) (h' | ⟨he', h'⟩)
    · exact List.lt_asymm h h'
    · exact List.lt_irrefl _ (he' ▸ h)
    · exact List.lt_irrefl _ (he ▸ h')
    · exact Nat.lt_asymm h h'
  have : Std.Irrefl (ByRank rank fun a b => place a < place b) := ⟨hirrefl⟩
  have : Std.Antisymm (ByRank rank fun a b => place a < place b) :=
    ⟨fun a b h h' => absurd h' (hasymm a b h)⟩
  exact List.Pairwise.eq_of_mem_iff ha hb hmem

section
variable {tree : NodeTree} {settings : Settings} {candidates chosen others within : List Json}
  {e : Expr}

/-- What succeeds over some candidates succeeds over any of them, in any order. -/
theorem Expr.exists_select_of_subset [Host] (h : e.select ⟨tree, candidates, settings⟩ = .ok chosen)
    (hsub : within ⊆ candidates) : ∃ found, e.select ⟨tree, within, settings⟩ = .ok found := by
  have hleaves := Expr.exists_select_iff.1 ⟨chosen, h⟩
  refine Expr.exists_select_iff.2 fun l hl => ?_
  obtain ⟨found, hfound⟩ := hleaves l hl
  obtain ⟨test, hcompile, hanswers, -⟩ := Leaf.select_eq_ok_iff.1 hfound
  exact ⟨_, Leaf.select_eq_ok_iff.2 ⟨test, hcompile, fun id hid => hanswers id (hsub hid), rfl⟩⟩

/-- An expression over what it has selected selects all of it, in the same order. -/
theorem Expr.select_self [Host] (hall : Selection.Distinct candidates)
    (h : e.select ⟨tree, candidates, settings⟩ = .ok chosen) :
    e.select ⟨tree, chosen, settings⟩ = .ok chosen := by
  obtain ⟨again, hagain⟩ := Expr.exists_select_of_subset h (Expr.select_subset h)
  have hfirst := selects_of_select hall h
  have hsecond := selects_of_select hfirst.distinct hagain
  -- the first result is sorted by rank and place among the candidates, hence also by rank and
  -- its own places
  have hplaces := hfirst.distinct.pairwise_place
  have hsorted := pairwise_select hall hall.pairwise_place h
  have hchosen : chosen.Pairwise (ByRank (e.rankOf ⟨tree, chosen, settings⟩)
      fun a b => Selection.place chosen a < Selection.place chosen b) :=
    (hsorted.and hplaces).imp fun ⟨hrank, hplace⟩ => hrank.imp_right fun h => ⟨h.1, hplace⟩
  have hbyRank := pairwise_select hfirst.distinct hplaces hagain
  have heq : again = chosen := eq_of_byRank hbyRank hchosen fun id => by
    rw [hsecond.mem_iff]
    exact and_iff_left_of_imp fun hid => ((hfirst.mem_iff id).1 hid).2
  rw [hagain, heq]

/-- Over a part of the candidates an expression selects what it selects over all of them. -/
theorem Expr.mem_select_within [Host] (hall : Selection.Distinct candidates)
    (h : e.select ⟨tree, candidates, settings⟩ = .ok others) (hsub : chosen ⊆ candidates)
    (hchosen : Selection.Distinct chosen) (hwithin : e.select ⟨tree, chosen, settings⟩ = .ok within)
    (id : Json) : id ∈ within ↔ id ∈ chosen ∧ id ∈ others := by
  have hfirst := selects_of_select hall h
  have hsecond := selects_of_select hchosen hwithin
  rw [hsecond.mem_iff, hfirst.mem_iff]
  exact and_congr_right fun hid => (and_iff_right (hsub hid)).symm

/-- Sublists of a list without repetitions are equal if they have the same members. -/
theorem eq_of_sublist_of_mem_iff (hchosen : Selection.Distinct chosen)
    (hl : others.Sublist chosen) (hr : within.Sublist chosen)
    (hmem : ∀ id, id ∈ others ↔ id ∈ within) : others = within := by
  have hsorted : ∀ {ids : List Json}, ids.Sublist chosen → ids.Pairwise (ByRank (fun _ => [])
      fun a b => Selection.place chosen a < Selection.place chosen b) :=
    fun hsub => (hchosen.pairwise_place.sublist hsub).imp fun h => .inr ⟨rfl, h⟩
  exact eq_of_byRank (hsorted hl) (hsorted hr) hmem

end

/-- A second query over what a first one has found gives the ids of both queries joined by `and`,
in the same order if no union lies on the left spine of the second query. The first query once more
changes nothing. -/
theorem evaluate_within [Host] (tree : NodeTree) (settings : Settings)
    {candidates chosen others : List Json} {query other : String}
    (h : evaluate tree candidates query settings = .ok chosen)
    (h' : evaluate tree candidates other settings = .ok others) :
    (∃ within joined, evaluate tree chosen other settings = .ok within ∧
      evaluate tree candidates (joinedBy .and query other) settings = .ok joined ∧
      within.Perm joined ∧
      ∀ e, parse other = .ok e → .or ∉ e.spine → within = joined) ∧
    evaluate tree chosen query settings = .ok chosen := by
  obtain ⟨e, hparse, hscalar, hselect⟩ := evaluate_eq_ok_iff.1 h
  obtain ⟨e', hparse', -, hselect'⟩ := evaluate_eq_ok_iff.1 h'
  have hall : Selection.Distinct (Selection.distinct candidates) :=
    Selection.distinct_additions [] candidates
  have hselects := selects_of_select hall hselect
  have hselects' := selects_of_select hall hselect'
  have hsub : chosen ⊆ Selection.distinct candidates := hselects.subset
  have hchosenScalar : ∀ id ∈ chosen, id.isScalar = true :=
    fun id hid => hscalar id (Selection.additions_subset [] candidates (hsub hid))
  have hchosen : Selection.distinct chosen = chosen := Selection.distinct_eq_self hselects.distinct
  constructor
  · obtain ⟨within, hwithin⟩ := Expr.exists_select_of_subset hselect' hsub
    have hsecond := selects_of_select hselects.distinct hwithin
    have hjoined : Selection.Distinct (Selection.inter chosen others) := hselects.distinct.filter _
    have hmem : ∀ id, id ∈ within ↔ id ∈ Selection.inter chosen others := by
      intro id
      rw [Expr.mem_select_within hall hselect' hsub hselects.distinct hwithin,
        Selection.mem_inter hall hsub hselects'.subset]
    refine ⟨within, Selection.inter chosen others, ?_, ?_, ?_, ?_⟩
    · exact evaluate_eq_ok_iff.2 ⟨e', hparse', hchosenScalar, hchosen.symm ▸ hwithin⟩
    · refine evaluate_eq_ok_iff.2 ⟨_, parse_joinedBy hparse hparse' .and, hscalar, ?_⟩
      exact Expr.select_join_eq_ok_iff.2 ⟨chosen, others, hselect, hselect', rfl⟩
    · exact (List.perm_ext_iff_of_nodup hsecond.distinct.nodup hjoined.nodup).2 hmem
    · intro e'' hparse'' hspine
      obtain rfl : e' = e'' := Except.ok.inj (hparse'.symm.trans hparse'')
      exact eq_of_sublist_of_mem_iff hselects.distinct (select_sublist hspine hwithin)
        List.filter_sublist hmem
  · refine evaluate_eq_ok_iff.2 ⟨e, hparse, hchosenScalar, ?_⟩
    rw [hchosen]
    exact Expr.select_self hall hselect

/-- The first query puts `a.jpg` first. The second one has a union on its left spine, and puts
`b.jpg` first within what the first query has found. -/
theorem evaluate_within_pictures :
    evaluate pictures [.int 2, .int 0, .int 9, .int 1, .int 2]
      "name == 'a.jpg' or name == w'*.jpg'" .standard = .ok [.int 1, .int 2] ∧
    evaluate pictures [.int 2, .int 0, .int 9, .int 1, .int 2]
      "name == 'b.jpg' or name == w'*'" .standard = .ok [.int 2, .int 0, .int 1] ∧
    (∃ within joined, evaluate pictures [.int 1, .int 2] "name == 'b.jpg' or name == w'*'"
        .standard = .ok within ∧
      evaluate pictures [.int 2, .int 0, .int 9, .int 1, .int 2]
        (joinedBy .and "name == 'a.jpg' or name == w'*.jpg'" "name == 'b.jpg' or name == w'*'")
        .standard = .ok joined ∧
      within.Perm joined ∧
      ∀ e, parse "name == 'b.jpg' or name == w'*'" = .ok e → .or ∉ e.spine → within = joined) ∧
    evaluate pictures [.int 1, .int 2] "name == 'a.jpg' or name == w'*.jpg'" .standard =
      .ok [.int 1, .int 2] := by
  have h : evaluate pictures [.int 2, .int 0, .int 9, .int 1, .int 2]
      "name == 'a.jpg' or name == w'*.jpg'" .standard = .ok [.int 1, .int 2] := rfl
  have h' : evaluate pictures [.int 2, .int 0, .int 9, .int 1, .int 2]
      "name == 'b.jpg' or name == w'*'" .standard = .ok [.int 2, .int 0, .int 1] := rfl
  exact ⟨h, h', evaluate_within pictures .standard h h'⟩

/-- The order of the second run need not be that of both queries joined. -/
example : evaluate pictures [.int 1, .int 2] "name == 'b.jpg' or name == w'*'" .standard =
    .ok [.int 2, .int 1] := rfl

end Query
end NodeQuery
