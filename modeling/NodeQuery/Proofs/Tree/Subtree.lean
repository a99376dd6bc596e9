import NodeQuery.Proofs.Query.Restriction
import NodeQuery.Proofs.Timeline.Restriction
import NodeQuery.Proofs.Tree.Descent
import NodeQuery.Tree.Search
/-!
Runs over a part of a tree. What is found below a path is what is found in the whole tree, with
everything left out that is not below the node at the path (`search_below`): the nodes below that
node are listed in the same order by both runs, and neither a query nor a timeline lets the nodes
that are left out change what is said of the others.
-/
namespace NodeQuery.MemoryTree

/-- An id is that of a node below another one. -/
def IdBelow (t : MemoryTree) (n : Nat) (id : Json) : Prop :=
  ∃ m : Nat, id = .int m ∧ t.LiesBelow m n

section
variable {t : MemoryTree} {n s : Nat} {path : String}

theorem idBelow_int {m : Nat} : t.IdBelow n (.int m) ↔ t.LiesBelow m n := by
  constructor
  · rintro ⟨k, hk, hbelow⟩
    obtain rfl : m = k := Int.ofNat.inj (Json.int.inj hk)
    exact hbelow
  · exact fun hbelow => ⟨m, rfl, hbelow⟩

theorem idsBelow_of_find? (hs : t.find? path = some s) :
    t.idsBelow (some path) = .ok (ids (t.below s)) := by
  simp [idsBelow, belowPath?, hs]

open Classical in
theorem Linked.ids_below_filter (h : t.Linked) (hs : t.LiesWithin s n) :
    (ids (t.below n)).filter (fun id => t.IdBelow s id) = ids (t.below s) := by
  have hnumber : ((fun id => decide (t.IdBelow s id)) ∘ fun m : Nat => Json.int m) =
      fun m => decide (t.LiesBelow m s) := by
    funext m
    simp only [Function.comp_apply, idBelow_int]
  rw [ids, List.filter_map, hnumber, h.below_filter hs, ids]

/-- Ids of nodes are whole numbers, so they are the same only if they are equal. -/
theorem respects_ids (p : Json → Bool) (numbers : List Nat) :
    Selection.Respects p (ids numbers) := by
  have hint : ids numbers = (numbers.map Int.ofNat).map Json.int := by
    rw [List.map_map]
    rfl
  rw [hint]
  exact Selection.respects_int p _

end

open Classical in
/-- A query or a timeline that succeeds over the whole tree succeeds below every path that leads to
a node, whatever the nodes look like. It gives what it gives over the whole tree, restricted to the
nodes below that node, in the same order. -/
theorem search_below [Host] {t : MemoryTree} (h : t.Built) (view : NodeTree) {path : String}
    {s : Nat} (hs : t.find? path = some s) :
    (∀ query settings found, t.select view none query settings = .ok found →
      t.select view (some path) query settings =
        .ok (found.filter fun id => t.IdBelow s id)) ∧
    ∀ window entries, t.timeline view none window = .ok entries →
      t.timeline view (some path) window =
        .ok (entries.filter fun entry => t.IdBelow s entry.id) := by
  have hids := h.linked.ids_below_filter (h.linked.liesWithin_of_find? hs)
  constructor
  · intro query settings found hfound
    obtain ⟨e, hparse, hscalar, hselect⟩ := Query.evaluate_eq_ok_iff.1 hfound
    rw [select, idsBelow_of_find? hs, ← hids]
    refine Query.evaluate_eq_ok_iff.2 ⟨e, hparse, ?_, ?_⟩
    · exact fun id hid => hscalar id (List.mem_of_mem_filter hid)
    · exact e.select_distinct_filter (respects_ids _ _) hselect
  · intro window entries hentries
    rw [timeline, idsBelow_of_find? hs, ← hids]
    exact Timeline.ofNodes_filter hentries fun id => t.IdBelow s id

/-- Midday and evening of the same day. -/
def midday : Stamp := ⟨2020, 6, 1, 12, 0, 0, 0, none⟩
def evening : Stamp := ⟨2020, 6, 1, 18, 0, 0, 0, none⟩

/-- The attributes of a node made at a time. -/
def madeAt (time : Stamp) : Attributes :=
  .leaf (.text "made") (.time time) .nil

/-- The entry for a node made at a time. -/
def madeEntry (time : Stamp) (n : Nat) : TimelineEntry :=
  ⟨time, .text "made", .int n⟩

/-- Two pictures below a child of the root, the second one made before the first, and a note made
when the first picture was. -/
def album : MemoryTree :=
  ((((ofRoot (.text "root")).push 0 (.text "pictures") .nil none).push 0 (.text "notes")
    (madeAt evening) none).push 1 (.text "b.jpg") (madeAt evening) none).push 1 (.text "a.jpg")
    (madeAt midday) none

theorem built_album : album.Built :=
  ((((Built.root _).push (by decide) ..).push (by decide) ..).push (by decide) ..).push
    (by decide) ..

theorem timeline_album :
    album.timeline (album.view .empty) none ⟨midday, evening⟩ =
      .ok [madeEntry midday 4, madeEntry evening 3, madeEntry evening 2] := by
  have hentries : album.timeline (album.view .empty) none ⟨midday, evening⟩ =
      .ok ([madeEntry evening 3, madeEntry midday 4, madeEntry evening 2].mergeSort
        Timeline.notLater) := rfl
  have hrest : [madeEntry midday 4, madeEntry evening 2].mergeSort Timeline.notLater =
      [madeEntry midday 4, madeEntry evening 2] := List.mergeSort_of_pairwise (by decide)
  have hfirst := Timeline.mergeSort_cons_eq Timeline.notLater_trans Timeline.notLater_total
    (madeEntry evening 3) [madeEntry midday 4, madeEntry evening 2]
  rw [hentries, hfirst.1, hrest]
  rfl

theorem idBelow_album {n : Int} : album.IdBelow 1 (.int n) ↔ n = 3 ∨ n = 4 := by
  have hlist : album.below 1 = [3, 4] := by decide
  constructor
  · rintro ⟨m, hm, hbelow⟩
    have hmem := built_album.linked.mem_below_iff.2 hbelow
    rw [hlist] at hmem
    obtain rfl := Json.int.inj hm
    simp only [List.mem_cons, List.not_mem_nil, or_false] at hmem
    omega
  · rintro (rfl | rfl)
    · exact ⟨3, rfl, built_album.linked.mem_below_iff.1 (by decide)⟩
    · exact ⟨4, rfl, built_album.linked.mem_below_iff.1 (by decide)⟩

/-- The second picture comes first by the query and by its time; the note is left out. -/
theorem search_below_album :
    album.Built ∧ album.find? "/pictures" = some 1 ∧
    album.select (album.view .empty) none "name == 'a.jpg' or name == w'*'" .standard =
      .ok (ids [4, 1, 3, 2]) ∧
    album.select (album.view .empty) (some "/pictures") "name == 'a.jpg' or name == w'*'"
      .standard = .ok (ids [4, 3]) ∧
    album.timeline (album.view .empty) none ⟨midday, evening⟩ =
      .ok [madeEntry midday 4, madeEntry evening 3, madeEntry evening 2] ∧
    album.timeline (album.view .empty) (some "/pictures") ⟨midday, evening⟩ =
      .ok [madeEntry midday 4, madeEntry evening 3] := by
  have hfind : album.find? "/pictures" = some 1 := by decide
  have hselect : album.select (album.view .empty) none "name == 'a.jpg' or name == w'*'"
      .standard = .ok (ids [4, 1, 3, 2]) := rfl
  obtain ⟨hselects, htimelines⟩ := search_below built_album (album.view .empty) hfind
  refine ⟨built_album, hfind, hselect, ?_, timeline_album, ?_⟩
  · rw [hselects _ _ _ hselect]
    simp [ids, idBelow_album]
  · rw [htimelines _ _ timeline_album]
    simp [madeEntry, idBelow_album]

end NodeQuery.MemoryTree
