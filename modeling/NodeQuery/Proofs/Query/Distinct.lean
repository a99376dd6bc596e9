import Mathlib.Data.List.Nodup
import NodeQuery.Query.Selection
/-!
Selections without repetitions. Among ids that are drawn from one such list, being the same id is
being equal, so `union`, `inter` and `diff` have the members that their names say (`mem_union`,
`mem_inter`, `mem_diff`), and they repeat nothing.
-/
namespace NodeQuery.Selection

/-- No id occurs twice. -/
def Distinct (ids : List Json) : Prop :=
  (ids.map Json.identity).Nodup

/-- Whole numbers are distinct ids if they are distinct numbers. -/
theorem distinct_int {ns : List Int} : Distinct (ns.map Json.int) ↔ ns.Nodup := by
  have inj : Function.Injective (Json.identity ∘ Json.int) := by
    intro m n h
    exact Json.same_int.1 (Json.same_iff.2 h)
  rw [Distinct, List.map_map, List.nodup_map_iff inj]

/-- What is drawn from whole numbers consists of whole numbers. -/
theorem exists_ints {ns : List Int} {ids : List Json} (h : ids ⊆ ns.map Json.int) :
    ∃ ms : List Int, ms.map Json.int = ids := by
  induction ids with
  | nil => exact ⟨[], rfl⟩
  | cons id rest ih =>
    obtain ⟨hid, hrest⟩ := List.cons_subset.1 h
    obtain ⟨n, -, rfl⟩ := List.mem_map.1 hid
    obtain ⟨ms, rfl⟩ := ih hrest
    exact ⟨n :: ms, rfl⟩

theorem Distinct.filter {ids : List Json} (h : Distinct ids) (p : Json → Bool) :
    Distinct (ids.filter p) :=
  h.sublist (List.filter_sublist.map _)

/-! ## Members -/

section
variable {all left right : List Json} {id : Json}

/-- In a selection without repetitions only equal ids are the same. -/
theorem has_iff_mem (h : Distinct all) (hsub : left ⊆ all) (hid : id ∈ all) :
    has left id = true ↔ id ∈ left := by
  rw [has_iff]
  constructor
  · rintro ⟨x, hx, he⟩
    have hxid : x = id := List.inj_on_of_nodup_map h (hsub hx) hid he
    rw [← hxid]
    exact hx
  · intro hmem
    exact ⟨id, hmem, rfl⟩

theorem additions_sublist (seen right : List Json) : (additions seen right).Sublist right := by
  induction right generalizing seen with
  | nil => exact .slnil
  | cons x rest ih =>
    rw [additions]
    split
    · exact (ih seen).cons x
    · exact (ih (x :: seen)).cons_cons x

theorem additions_subset (seen right : List Json) : additions seen right ⊆ right :=
  (additions_sublist seen right).subset

theorem mem_union (h : Distinct all) (hleft : left ⊆ all) (hright : right ⊆ all) :
    id ∈ union left right ↔ id ∈ left ∨ id ∈ right := by
  have hsub : union left right ⊆ all :=
    List.append_subset.2 ⟨hleft, List.Subset.trans (additions_subset left right) hright⟩
  constructor
  · intro hid
    exact (List.mem_append.1 hid).imp_right (additions_subset left right ·)
  · intro hid
    have hall : id ∈ all := hid.elim (hleft ·) (hright ·)
    rw [← has_iff_mem h hsub hall, has_union, Bool.or_eq_true, has_iff_mem h hleft hall,
      has_iff_mem h hright hall]
    exact hid

theorem mem_inter (h : Distinct all) (hleft : left ⊆ all) (hright : right ⊆ all) :
    id ∈ inter left right ↔ id ∈ left ∧ id ∈ right := by
  rw [inter, List.mem_filter]
  exact and_congr_right fun hid => has_iff_mem h hright (hleft hid)

theorem mem_diff (h : Distinct all) (hleft : left ⊆ all) (hright : right ⊆ all) :
    id ∈ diff left right ↔ id ∈ left ∧ id ∉ right := by
  rw [diff, List.mem_filter]
  refine and_congr_right fun hid => ?_
  rw [Bool.not_eq_true', Bool.eq_false_iff, ne_eq, has_iff_mem h hright (hleft hid)]

end

/-! ## Repetitions -/

/-- What is added to a selection is not in it yet. -/
theorem has_of_mem_additions {seen right : List Json} {id : Json}
    (h : id ∈ additions seen right) : has seen id = false := by
  have hadd : has (additions seen right) id = true := has_iff.2 ⟨id, h, rfl⟩
  rw [has_additions, Bool.and_eq_true, Bool.not_eq_true'] at hadd
  exact hadd.2

theorem not_mem_of_mem_additions {seen right : List Json} {id : Json}
    (h : id ∈ additions seen right) : id ∉ seen := by
  intro hid
  have hfresh := has_of_mem_additions h
  rw [has_iff.2 ⟨id, hid, rfl⟩] at hfresh
  cases hfresh

theorem distinct_additions (seen right : List Json) : Distinct (additions seen right) := by
  induction right generalizing seen with
  | nil => exact List.nodup_nil
  | cons x rest ih =>
    rw [additions]
    split
    · exact ih seen
    · refine List.nodup_cons.2 ⟨?_, ih (x :: seen)⟩
      intro hx
      obtain ⟨y, hy, he⟩ := List.mem_map.1 hx
      have hfresh := has_of_mem_additions hy
      rw [has_iff.2 ⟨x, List.mem_cons_self, he.symm⟩] at hfresh
      cases hfresh

theorem distinct_union {left : List Json} (h : Distinct left) (right : List Json) :
    Distinct (union left right) := by
  unfold Distinct union
  rw [List.map_append, List.nodup_append]
  refine ⟨h, distinct_additions left right, ?_⟩
  intro a ha b hb hab
  obtain ⟨x, hx, rfl⟩ := List.mem_map.1 ha
  obtain ⟨y, hy, rfl⟩ := List.mem_map.1 hb
  have hfresh := has_of_mem_additions hy
  rw [has_iff.2 ⟨x, hx, hab⟩] at hfresh
  cases hfresh

end NodeQuery.Selection
