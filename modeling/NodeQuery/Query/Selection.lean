import NodeQuery.Json.Identity
/-!
Ordered selections of ids. Ids are compared by `Json.same`. All operations keep the order and the
form of the left selection; a union adds what is new on the right.
-/
namespace NodeQuery.Selection

/-- An id occurs in a selection. -/
def has (ids : List Json) (id : Json) : Bool :=
  ids.any (·.same id)

/-- The ids of `right` that occur neither in `seen` nor earlier in `right`. -/
def additions (seen : List Json) : List Json → List Json
  | [] => []
  | id :: rest =>
    if has seen id then additions seen rest else id :: additions (id :: seen) rest

/-- The left selection, then the ids of the right one that are new. -/
def union (left right : List Json) : List Json :=
  left ++ additions left right

/-- The ids of the left selection that occur in the right one. -/
def inter (left right : List Json) : List Json :=
  left.filter (has right)

/-- The ids of the left selection that do not occur in the right one. -/
def diff (left right : List Json) : List Json :=
  left.filter fun id => !has right id

/-- A selection without repetitions, the first of each id kept. -/
def distinct (ids : List Json) : List Json :=
  additions [] ids

theorem has_iff {ids : List Json} {id : Json} :
    has ids id = true ↔ ∃ x ∈ ids, x.identity = id.identity := by
  simp [has, Json.same_iff]

theorem has_append {a b : List Json} {id : Json} :
    has (a ++ b) id = (has a id || has b id) := by
  simp [has]

/-- An addition occurs in the right selection and not in what was seen. -/
theorem has_additions {seen right : List Json} {id : Json} :
    has (additions seen right) id = (has right id && !has seen id) := by
  induction right generalizing seen with
  | nil => simp [additions, has]
  | cons x rest ih =>
    by_cases hx : has seen x
    · simp only [additions, hx, if_true, ih]
      by_cases h : x.same id
      · have hid : has seen id = true := by
          obtain ⟨y, hy, hyx⟩ := has_iff.1 hx
          exact has_iff.2 ⟨y, hy, hyx.trans (Json.same_iff.1 h)⟩
        simp [hid]
      · simp [has, h]
    · simp only [additions, hx]
      by_cases h : x.same id
      · have hid : has seen id = false := by
          cases hs : has seen id with
          | false => rfl
          | true =>
            obtain ⟨y, hy, hyx⟩ := has_iff.1 hs
            exact absurd (has_iff.2 ⟨y, hy, hyx.trans (Json.same_iff.1 h).symm⟩) hx
        simp [has, h] at hid ⊢
        simpa using hid
      · have hc : has (x :: additions (x :: seen) rest) id =
            has (additions (x :: seen) rest) id := by simp [has, h]
        have hr : has (x :: rest) id = has rest id := by simp [has, h]
        have hs : has (x :: seen) id = has seen id := by simp [has, h]
        simp [hc, hr, hs, ih]

/-- Membership in a union. -/
theorem has_union {left right : List Json} {id : Json} :
    has (union left right) id = (has left id || has right id) := by
  rw [union, has_append, has_additions]
  cases has left id <;> simp

end NodeQuery.Selection
