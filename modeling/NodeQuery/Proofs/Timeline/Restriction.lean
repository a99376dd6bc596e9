import Mathlib.Data.List.Basic
import NodeQuery.Proofs.Query.Evaluation
import NodeQuery.Timeline
/-!
Timelines of fewer nodes. Sorting keeps the order of entries with equal times, so the timeline of
the nodes with some property is that of all nodes, restricted to the entries of nodes with the
property (`ofNodes_filter`).
-/
namespace NodeQuery.Timeline

/-! ## Sorting -/

section
variable {α : Type} {le : α → α → Bool} (htrans : ∀ a b c, le a b → le b c → le a c)
  (htotal : ∀ a b, le a b || le b a)
include htrans htotal

/-- Sorting puts the first item before what it is not greater than, and leaves the rest as it
is. -/
theorem mergeSort_cons_eq (a : α) (l : List α) :
    (a :: l).mergeSort le =
        (l.mergeSort le).filter (!le a ·) ++ a :: (l.mergeSort le).filter (le a ·) ∧
      (l.mergeSort le).filter (!le a ·) ++ (l.mergeSort le).filter (le a ·) = l.mergeSort le := by
  obtain ⟨before, after, hall, hrest, hbefore⟩ := List.mergeSort_cons htrans htotal a l
  have hafter : ∀ b ∈ after, le a b = true := by
    have hsorted := List.pairwise_mergeSort htrans htotal (a :: l)
    rw [hall, List.pairwise_append, List.pairwise_cons] at hsorted
    exact hsorted.2.1.1
  have hfirst : (before ++ after).filter (!le a ·) = before := by
    rw [List.filter_append, List.filter_eq_self.2 hbefore,
      List.filter_eq_nil_iff.2 fun b hb => by simp [hafter b hb], List.append_nil]
  have hlast : (before ++ after).filter (le a ·) = after := by
    rw [List.filter_append, List.filter_eq_self.2 hafter,
      List.filter_eq_nil_iff.2 fun b hb => by simpa using hbefore b hb, List.nil_append]
  rw [hall, hrest, hfirst, hlast]
  exact ⟨rfl, rfl⟩

/-- Sorting the items with a property is sorting all and keeping those with the property. -/
theorem mergeSort_filter (p : α → Bool) (l : List α) :
    (l.filter p).mergeSort le = (l.mergeSort le).filter p := by
  induction l with
  | nil => rw [List.filter_nil, List.mergeSort_nil, List.filter_nil]
  | cons a l ih =>
    obtain ⟨hall, hrest⟩ := mergeSort_cons_eq htrans htotal a l
    cases hp : p a with
    | false =>
      rw [List.filter_cons_of_neg (by simp [hp]), ih, hall, List.filter_append,
        List.filter_cons_of_neg (by simp [hp]), ← List.filter_append, hrest]
    | true =>
      rw [List.filter_cons_of_pos hp, (mergeSort_cons_eq htrans htotal a _).1, ih, hall,
        List.filter_append, List.filter_cons_of_pos hp, List.filter_comm, List.filter_comm (le a ·)]

end

theorem notLater_trans (a b c : TimelineEntry) (hab : notLater a b) (hbc : notLater b c) :
    notLater a c := by
  simp only [notLater, decide_eq_true_eq] at hab hbc ⊢
  exact Int.le_trans hab hbc

theorem notLater_total (a b : TimelineEntry) : notLater a b || notLater b a := by
  simpa [notLater] using Int.le_total a.time.instant b.time.instant

theorem sorted_filter (w : Window) (p : TimelineEntry → Bool) (entries : List TimelineEntry) :
    sorted w (entries.filter p) = (sorted w entries).filter p := by
  rw [sorted, sorted, List.filter_comm, mergeSort_filter notLater_trans notLater_total]

/-! ## Collecting -/

section
variable {tree : NodeTree} {ids : List Json} {id : Json} {entries : List TimelineEntry}

/-- The times among the attributes of an id that is a node and can be looked up. -/
def entriesOf (tree : NodeTree) (id : Json) : List TimelineEntry :=
  match tree.has id, tree.readAttributes id with
  | true, .ok attributes => timesOf id attributes
  | _, _ => []

theorem id_of_mem_timesOf {attributes : Attributes} {e : TimelineEntry}
    (h : e ∈ timesOf id attributes) : e.id = id := by
  obtain ⟨⟨name, value⟩, -, he⟩ := List.mem_filterMap.1 h
  cases value with
  | time t =>
    cases he
    rfl
  | _ => cases he

theorem id_of_mem_entriesOf {e : TimelineEntry} (h : e ∈ entriesOf tree id) : e.id = id := by
  unfold entriesOf at h
  split at h
  · exact id_of_mem_timesOf h
  · cases h

/-- Times are collected node by node, and this fails only where the attributes of a node cannot be
looked up. -/
theorem times_eq_ok_iff :
    times tree ids = .ok entries ↔
      (∀ id ∈ ids, tree.has id = true → ∃ attributes, tree.readAttributes id = .ok attributes) ∧
        ids.flatMap (entriesOf tree) = entries := by
  induction ids generalizing entries with
  | nil => simp [times]
  | cons id rest ih =>
    rw [times, List.forall_mem_cons, List.flatMap_cons]
    cases hid : tree.has id with
    | false =>
      have hnone : entriesOf tree id = [] := by simp [entriesOf, hid]
      simp [hnone, ih]
    | true =>
      rw [if_pos rfl, Outcome.bind_eq_ok_iff]
      simp only [Outcome.bind_eq_ok_iff, ih]
      constructor
      · rintro ⟨attributes, hread, more, ⟨hrest, rfl⟩, heq⟩
        obtain rfl := Except.ok.inj heq
        have hmine : entriesOf tree id = timesOf id attributes := by simp [entriesOf, hid, hread]
        exact ⟨⟨fun _ => ⟨attributes, hread⟩, hrest⟩, by rw [hmine]⟩
      · rintro ⟨⟨hread, hrest⟩, rfl⟩
        obtain ⟨attributes, hread⟩ := hread trivial
        have hmine : entriesOf tree id = timesOf id attributes := by simp [entriesOf, hid, hread]
        exact ⟨attributes, hread, _, ⟨hrest, rfl⟩, by rw [hmine]; rfl⟩

/-- Entries belong to the nodes that they were collected from. -/
theorem flatMap_entriesOf_filter (p : Json → Bool) (ids : List Json) :
    (ids.filter p).flatMap (entriesOf tree) = (ids.flatMap (entriesOf tree)).filter (p ·.id) := by
  induction ids with
  | nil => rfl
  | cons id rest ih =>
    rw [List.flatMap_cons, List.filter_append, ← ih]
    cases hp : p id with
    | false =>
      have hnone : (entriesOf tree id).filter (p ·.id) = [] :=
        List.filter_eq_nil_iff.2 fun e he => by simp [id_of_mem_entriesOf he, hp]
      rw [List.filter_cons_of_neg (by simp [hp]), hnone, List.nil_append]
    | true =>
      have hall : (entriesOf tree id).filter (p ·.id) = entriesOf tree id :=
        List.filter_eq_self.2 fun e he => by rw [id_of_mem_entriesOf he, hp]
      rw [List.filter_cons_of_pos hp, hall, List.flatMap_cons]

theorem times_filter (h : times tree ids = .ok entries) (p : Json → Bool) :
    times tree (ids.filter p) = .ok (entries.filter (p ·.id)) := by
  obtain ⟨hread, rfl⟩ := times_eq_ok_iff.1 h
  refine times_eq_ok_iff.2 ⟨fun id hid => hread id (List.mem_of_mem_filter hid), ?_⟩
  exact flatMap_entriesOf_filter p ids

/-- A timeline of the nodes with a property is the timeline of all, restricted to their entries. -/
theorem ofNodes_filter {w : Window} (h : ofNodes tree w ids = .ok entries) (p : Json → Bool) :
    ofNodes tree w (ids.filter p) = .ok (entries.filter (p ·.id)) := by
  unfold ofNodes at h ⊢
  split at h
  · next hsound =>
    obtain ⟨found, hfound, rfl⟩ := Outcome.map_eq_ok_iff.1 h
    rw [if_pos hsound, times_filter hfound p]
    exact congrArg Except.ok (sorted_filter w (p ·.id) found)
  · cases h

end
end NodeQuery.Timeline
