import NodeQuery.Proofs.Query.Within
/-!
Laws of ordered selections. An operation keeps the order, the forms and the repetitions of its left
operand and adds without repetition. A union is its left operand followed by a difference
(`union_eq`), so most laws of sets come from filters and hold as equations between lists
(`union_inter_diff_laws`). An intersection distributes over a union on its right only up to order and
repetitions.
-/
namespace NodeQuery.Selection

section
variable {left right a b c : List Json} {id : Json}

/-! ## Membership -/

/-- Ids that are the same occur in the same selections. -/
theorem has_congr (ids : List Json) {x y : Json} (h : x.identity = y.identity) :
    has ids x = has ids y := by
  simp only [has, Json.same, h]

theorem respects_has (ids all : List Json) : Respects (has ids) all :=
  fun _ _ _ _ h => has_congr ids h

theorem respects_not_has (ids all : List Json) : Respects (fun id => !has ids id) all :=
  fun _ _ _ _ h => congrArg not (has_congr ids h)

/-- A property on which ids that are the same agree can be tested on any of them. -/
theorem has_filter_of_congr {p : Json → Bool} (hp : ∀ x y, x.identity = y.identity → p x = p y) :
    has (left.filter p) id = (has left id && p id) := by
  rw [Bool.eq_iff_iff, Bool.and_eq_true, has_iff, has_iff]
  constructor
  · rintro ⟨x, hx, hxid⟩
    obtain ⟨hleft, hpx⟩ := List.mem_filter.1 hx
    exact ⟨⟨x, hleft, hxid⟩, hp x id hxid ▸ hpx⟩
  · rintro ⟨⟨x, hleft, hxid⟩, hpid⟩
    exact ⟨x, List.mem_filter.2 ⟨hleft, hp x id hxid ▸ hpid⟩, hxid⟩

theorem has_inter : has (inter left right) id = (has left id && has right id) :=
  has_filter_of_congr fun _ _ => has_congr right

theorem has_diff : has (diff left right) id = (has left id && !has right id) :=
  has_filter_of_congr fun _ _ h => congrArg not (has_congr right h)

/-! ## Differences -/

/-- Of the right operand only membership matters. -/
theorem diff_congr (h : ∀ id ∈ a, has b id = has c id) : diff a b = diff a c :=
  List.filter_congr fun id hid => by rw [h id hid]

theorem diff_diff (a b c : List Json) : diff (diff a b) c = diff a (b ++ c) := by
  rw [diff, diff, diff, List.filter_filter]
  refine List.filter_congr fun id _ => ?_
  rw [has_append, Bool.not_or, Bool.and_comm]

theorem diff_comm (a b c : List Json) : diff (diff a b) c = diff (diff a c) b := by
  rw [diff_diff, diff_diff]
  refine diff_congr fun id _ => ?_
  rw [has_append, has_append, Bool.or_comm]

theorem diff_append (a b c : List Json) : diff (a ++ b) c = diff a c ++ diff b c :=
  List.filter_append ..

theorem distinct_inter (a b : List Json) : distinct (inter a b) = inter (distinct a) b :=
  distinct_filter (respects_has b a)

theorem distinct_diff (a b : List Json) : distinct (diff a b) = diff (distinct a) b :=
  distinct_filter (respects_not_has b a)

theorem distinct_distinct (a : List Json) : distinct (distinct a) = distinct a :=
  distinct_eq_self (distinct_additions [] a)

/-- An id that occurs already does not count a second time. -/
theorem has_append_of_has (h : has a id = true) (x : Json) :
    has ([id] ++ a) x = has a x := by
  rw [has_append]
  cases hsame : has [id] x with
  | false => rfl
  | true =>
    obtain ⟨y, hy, hyx⟩ := has_iff.1 hsame
    rw [← has_congr a hyx, List.mem_singleton.1 hy, h]
    rfl

/-! ## Unions -/

/-- What is added is what differs, without repetitions. -/
theorem additions_eq_diff (seen right : List Json) :
    additions seen right = diff (distinct right) seen := by
  induction right generalizing seen with
  | nil => rfl
  | cons x rest ih =>
    have hfirst : distinct (x :: rest) = x :: diff (distinct rest) [x] := by
      rw [distinct, additions, ih [x]]
      rfl
    rw [hfirst, additions]
    cases hx : has seen x with
    | true =>
      calc additions seen rest
          = diff (distinct rest) ([x] ++ seen) := by
            rw [ih seen, diff_congr fun id _ => has_append_of_has hx id]
        _ = diff (diff (distinct rest) [x]) seen := (diff_diff ..).symm
        _ = diff (x :: diff (distinct rest) [x]) seen :=
            (List.filter_cons_of_neg (by rw [hx]; exact Bool.false_ne_true)).symm
    | false =>
      calc x :: additions (x :: seen) rest
          = x :: diff (diff (distinct rest) [x]) seen := by rw [ih (x :: seen), diff_diff]; rfl
        _ = diff (x :: diff (distinct rest) [x]) seen :=
            (List.filter_cons_of_pos (by rw [hx]; rfl)).symm

theorem union_eq (a b : List Json) : union a b = a ++ diff (distinct b) a := by
  rw [union, additions_eq_diff]

theorem distinct_cons (x : Json) (a : List Json) :
    distinct (x :: a) = x :: diff (distinct a) [x] := by
  rw [← additions_eq_diff]
  rfl

theorem distinct_append (a b : List Json) :
    distinct (a ++ b) = distinct a ++ diff (distinct b) a := by
  induction a with
  | nil =>
    have hall : diff (distinct b) [] = distinct b := List.filter_true _
    rw [hall]
    rfl
  | cons x rest ih =>
    calc distinct (x :: rest ++ b)
        = x :: diff (distinct rest ++ diff (distinct b) rest) [x] := by
          rw [List.cons_append, distinct_cons, ih]
      _ = (x :: diff (distinct rest) [x]) ++ diff (diff (distinct b) [x]) rest := by
          rw [diff_append, diff_comm, List.cons_append]
      _ = distinct (x :: rest) ++ diff (distinct b) (x :: rest) := by
          rw [distinct_cons, diff_diff]
          rfl

theorem distinct_union_eq (a b : List Json) :
    distinct (union a b) = distinct a ++ diff (distinct b) a := by
  have hself : ∀ id ∈ distinct b, has (a ++ a) id = has a id := by
    intro id _
    rw [has_append, Bool.or_self]
  rw [union_eq, distinct_append, distinct_diff, distinct_distinct, diff_diff, diff_congr hself]

theorem union_assoc (a b c : List Json) : union (union a b) c = union a (union b c) := by
  have hseen : ∀ id ∈ distinct c, has (union a b) id = has (b ++ a) id := by
    intro id _
    rw [has_union, has_append, Bool.or_comm]
  calc union (union a b) c
      = a ++ diff (distinct b) a ++ diff (diff (distinct c) b) a := by
        rw [union_eq, diff_congr hseen, union_eq, diff_diff]
    _ = union a (union b c) := by
        rw [union_eq a, distinct_union_eq, diff_append, List.append_assoc]

theorem union_self (a : List Json) : union a a = a := by
  have hnone : diff (distinct a) a = [] := by
    refine List.filter_eq_nil_iff.2 fun id hid => ?_
    have hmem : has a id = true := has_iff.2 ⟨id, additions_subset [] a hid, rfl⟩
    simp [hmem]
  rw [union_eq, hnone, List.append_nil]

/-! ## Intersections -/

theorem inter_congr (h : ∀ id ∈ a, has b id = has c id) : inter a b = inter a c :=
  List.filter_congr h

theorem inter_inter (a b c : List Json) : inter (inter a b) c = inter a (inter b c) := by
  have hboth : ∀ id ∈ a, (has c id && has b id) = has (inter b c) id := by
    intro id _
    rw [has_inter, Bool.and_comm]
  rw [inter, inter, List.filter_filter, List.filter_congr hboth]
  rfl

/-- What occurs in one of two selections, those in the first one listed first. -/
theorem inter_union_perm (a b c : List Json) :
    (inter a b ++ diff (inter a c) b).Perm (inter a (union b c)) := by
  have hfirst : inter (inter a (union b c)) b = inter a b := by
    rw [inter_inter]
    refine inter_congr fun id _ => ?_
    rw [has_inter, has_union]
    cases has b id <;> simp
  have hsecond : diff (inter a (union b c)) b = diff (inter a c) b := by
    rw [diff, diff, inter, inter, List.filter_filter, List.filter_filter]
    refine List.filter_congr fun id _ => ?_
    rw [has_union]
    cases has b id <;> simp
  rw [← hfirst, ← hsecond]
  exact List.filter_append_perm (has b) (inter a (union b c))

/-- An intersection with a union lists the same ids as the union of the intersections. -/
theorem distinct_inter_union_perm (a b c : List Json) :
    (distinct (inter a (union b c))).Perm (distinct (union (inter a b) (inter a c))) := by
  have hcommon : ∀ id ∈ inter (distinct a) c, has (inter a b) id = has b id := by
    intro id hid
    have hmem : id ∈ a := additions_subset [] a (List.mem_of_mem_filter hid)
    rw [has_inter, has_iff.2 ⟨id, hmem, rfl⟩, Bool.true_and]
  rw [distinct_union_eq, distinct_inter, distinct_inter, distinct_inter, diff_congr hcommon]
  exact (inter_union_perm (distinct a) b c).symm

end

/-- Union and intersection are associative, both intersection and difference distribute over a union
on their left, a difference with a union is the difference with one operand and then with the other,
and a union with itself changes nothing: for all lists, in order, form and number of the ids. An
intersection with a union selects the same ids as the union of the intersections; without
repetitions it lists them in the same forms, though in another order. -/
theorem union_inter_diff_laws (a b c : List Json) :
    union (union a b) c = union a (union b c) ∧
    inter (inter a b) c = inter a (inter b c) ∧
    inter (union a b) c = union (inter a c) (inter b c) ∧
    diff (union a b) c = union (diff a c) (diff b c) ∧
    diff (diff a b) c = diff a (union b c) ∧
    union a a = a ∧
    (∀ id, has (inter a (union b c)) id = has (union (inter a b) (inter a c)) id) ∧
    (distinct (inter a (union b c))).Perm (distinct (union (inter a b) (inter a c))) := by
  have hleft : a ⊆ a ++ b := List.subset_append_left a b
  have hright : b ⊆ a ++ b := List.subset_append_right a b
  refine ⟨union_assoc a b c, inter_inter a b c, ?_, ?_, ?_, union_self a, fun id => ?_,
    distinct_inter_union_perm a b c⟩
  · exact (union_filter (respects_has c _) hleft hright).symm
  · exact (union_filter (respects_not_has c _) hleft hright).symm
  · rw [diff_diff]
    refine diff_congr fun id _ => ?_
    rw [has_append, has_union]
  · rw [has_inter, has_union, has_union, has_inter, has_inter, Bool.and_or_distrib_left]

/-- The union lists what is in the first intersection first, and `true` is the same id as 1. -/
example :
    inter [.int 1, .int 2, .bool true] (union [.int 2] [.int 1]) =
      [.int 1, .int 2, .bool true] ∧
    union (inter [.int 1, .int 2, .bool true] [.int 2])
      (inter [.int 1, .int 2, .bool true] [.int 1]) = [.int 2, .int 1] := ⟨rfl, rfl⟩

end NodeQuery.Selection
