import NodeQuery.Proofs.Query.Restriction
import NodeQuery.Proofs.Tree.Built
/-!
Candidates in another order. Ids of different forms can be the same, `1` and `true` among them, and
of those that are the same only the one that stands first is a candidate (`mem_distinct_iff`). To a
tree in memory only whole numbers are nodes, so a node is selected if its number stands before every
other form of it. The order of the candidates decides which nodes are selected exactly where it
decides this (`evaluate_rearranged`).
-/
namespace NodeQuery

namespace Selection

/-- The form in which an id stands first in a list. -/
def firstForm (ids : List Json) (id : Json) : Option Json :=
  ids.find? (·.same id)

section
variable {seen ids ids' : List Json} {id : Json}

theorem mem_additions_iff :
    id ∈ additions seen ids ↔ has seen id = false ∧ firstForm ids id = some id := by
  induction ids generalizing seen with
  | nil => simp [additions, firstForm]
  | cons first rest ih =>
    rw [firstForm, List.find?_cons, additions]
    by_cases hsame : first.same id = true
    · rw [hsame]
      have hseen : has seen first = has seen id := by
        simp only [has, Json.same, Json.same_iff.1 hsame]
      have hnotin : ∀ seen', has seen' id = true → id ∉ additions seen' rest := by
        intro seen' hs hmem
        rw [has_of_mem_additions hmem] at hs
        cases hs
      rw [hseen]
      cases hs : has seen id with
      | true => simp [hnotin seen hs]
      | false =>
        have hrest := hnotin (first :: seen) (by simp [has, hsame])
        simp [hrest, eq_comm]
    · have hne : id ≠ first := by
        rintro rfl
        exact hsame (Json.same_refl id)
      rw [Bool.not_eq_true] at hsame
      rw [hsame]
      split
      · exact ih
      · rw [List.mem_cons, or_iff_right hne, ih]
        simp [has, hsame, firstForm]

/-- Of the ids that are the same, the one that stands first is kept. -/
theorem mem_distinct_iff : id ∈ distinct ids ↔ firstForm ids id = some id := by
  rw [distinct, mem_additions_iff]
  exact and_iff_right rfl

/-- An id that is listed in one form alone stands first in this form wherever it is listed. -/
theorem firstForm_eq_some_iff_mem (honly : ∀ x ∈ ids, x.same id = true → x = id) :
    firstForm ids id = some id ↔ id ∈ ids := by
  constructor
  · exact List.mem_of_find?_eq_some
  · intro hid
    cases hfirst : firstForm ids id with
    | none => exact absurd (Json.same_refl id) (List.find?_eq_none.1 hfirst id hid)
    | some x =>
      have hsame : x.same id = true := List.find?_some (p := fun y => Json.same y id) hfirst
      rw [honly x (List.mem_of_find?_eq_some hfirst) hsame]

theorem firstForm_perm (hperm : ids.Perm ids') (honly : ∀ x ∈ ids, x.same id = true → x = id) :
    firstForm ids id = some id ↔ firstForm ids' id = some id := by
  have honly' : ∀ x ∈ ids', x.same id = true → x = id :=
    fun x hx => honly x (hperm.mem_iff.2 hx)
  rw [firstForm_eq_some_iff_mem honly, firstForm_eq_some_iff_mem honly', hperm.mem_iff]

end
end Selection

namespace Query

section
variable [Host] {tree : NodeTree} {settings : Settings} {query : String} {e : Expr}
  {candidates found : List Json} {id : Json}

/-- What is selected is a node. -/
theorem Expr.has_of_formula (h : e.Formula (Leaf.TrueOf tree settings id)) :
    tree.has id = true := by
  induction e with
  | leaf l => exact h.1
  | join c left right ihl ihr =>
    cases c with
    | or => exact h.elim ihl ihr
    | and => exact ihl h.1
    | andNot => exact ihl h.1
  | group inner ih => exact ih h

theorem mem_evaluate_iff (hparse : parse query = .ok e)
    (h : evaluate tree candidates query settings = .ok found) :
    id ∈ found ↔ Selection.firstForm candidates id = some id ∧
      e.Formula (Leaf.TrueOf tree settings id) := by
  obtain ⟨e', hparse', -, hselect⟩ := evaluate_eq_ok_iff.1 h
  obtain rfl : e = e' := Except.ok.inj (hparse.symm.trans hparse')
  have hselects := selects_of_select (Selection.distinct_additions [] candidates) hselect
  rw [hselects.mem_iff]
  exact and_congr_left fun _ => Selection.mem_distinct_iff

end

/-- A node is selected out of candidates of any form if its number stands before every other form of
it and the formula is true of it. So two orders of the same candidates select the same nodes if and
only if no node of which the formula is true stands first by its number in one of them alone; there
is no such node among those that are listed by their numbers alone. -/
theorem evaluate_rearranged [Host] (t : MemoryTree) (files : Files.Store) (settings : Settings)
    {query : String} {e : Expr} (hparse : parse query = .ok e)
    {candidates candidates' found found' : List Json} (hperm : candidates.Perm candidates')
    (h : evaluate (t.view files) candidates query settings = .ok found)
    (h' : evaluate (t.view files) candidates' query settings = .ok found') :
    (∀ id, id ∈ found ↔ ∃ n : Nat, id = .int n ∧ n < t.size ∧
      Selection.firstForm candidates id = some id ∧
      e.Formula (Leaf.TrueOf (t.view files) settings id)) ∧
    ((∀ id, id ∈ found ↔ id ∈ found') ↔
      ∀ n : Nat, e.Formula (Leaf.TrueOf (t.view files) settings (.int n)) →
        (Selection.firstForm candidates (.int n) = some (.int n) ↔
          Selection.firstForm candidates' (.int n) = some (.int n))) ∧
    ∀ n : Nat, (∀ id ∈ candidates, id.same (.int n) = true → id = .int n) →
      (.int n ∈ found ↔ .int n ∈ found') := by
  have hnumber : ∀ id, e.Formula (Leaf.TrueOf (t.view files) settings id) →
      ∃ n : Nat, id = .int n ∧ n < t.size := by
    intro id hformula
    have hhas : (t.number? id).isSome = true := e.has_of_formula hformula
    obtain ⟨n, hn⟩ := Option.isSome_iff_exists.1 hhas
    exact ⟨n, MemoryTree.number?_eq_some_iff.1 hn⟩
  have hmem : ∀ id, id ∈ found ↔ _ := fun id => mem_evaluate_iff hparse h
  have hmem' : ∀ id, id ∈ found' ↔ _ := fun id => mem_evaluate_iff hparse h'
  refine ⟨fun id => ?_, ⟨fun hsame n hformula => ?_, fun hfirst id => ?_⟩, fun n honly => ?_⟩
  · rw [hmem]
    constructor
    · rintro ⟨hfirst, hformula⟩
      obtain ⟨n, hid, hn⟩ := hnumber id hformula
      exact ⟨n, hid, hn, hfirst, hformula⟩
    · rintro ⟨n, -, -, hfirst, hformula⟩
      exact ⟨hfirst, hformula⟩
  · have hn := hsame (.int n)
    rwa [hmem, hmem', and_iff_left hformula, and_iff_left hformula] at hn
  · rw [hmem, hmem']
    refine and_congr_left fun hformula => ?_
    obtain ⟨n, rfl, -⟩ := hnumber id hformula
    exact hfirst n hformula
  · rw [hmem, hmem', Selection.firstForm_perm hperm honly]

/-- A root with three notes below it. -/
def notes : MemoryTree :=
  (((MemoryTree.ofRoot (.text "root")).push 0 (.text "a") .nil none).push 0 (.text "b") .nil
    none).push 0 (.text "c") .nil none

theorem evaluate_rearranged_notes :
    parse "name == w'*'" = .ok (.leaf (.name .name .wildcard "*")) ∧
    [Json.bool true, .int 2, .int 1].Perm [.int 1, .int 2, .bool true] ∧
    evaluate (notes.view .empty) [.bool true, .int 2, .int 1] "name == w'*'" .standard =
      .ok [.int 2] ∧
    evaluate (notes.view .empty) [.int 1, .int 2, .bool true] "name == w'*'" .standard =
      .ok [.int 1, .int 2] ∧
    (∀ id ∈ [Json.bool true, .int 2, .int 1], id.same (.int 2) = true → id = .int 2) ∧
    (.int 2 ∈ [Json.int 2] ↔ .int 2 ∈ [Json.int 1, .int 2]) := by
  have hparse : parse "name == w'*'" = .ok (.leaf (.name .name .wildcard "*")) := rfl
  have hperm : [Json.bool true, .int 2, .int 1].Perm [.int 1, .int 2, .bool true] :=
    (List.reverse_perm _).symm
  have h : evaluate (notes.view .empty) [.bool true, .int 2, .int 1] "name == w'*'" .standard =
      .ok [.int 2] := rfl
  have h' : evaluate (notes.view .empty) [.int 1, .int 2, .bool true] "name == w'*'" .standard =
      .ok [.int 1, .int 2] := rfl
  have honly : ∀ id ∈ [Json.bool true, .int 2, .int 1], id.same (.int 2) = true → id = .int 2 := by
    simp [Json.same, Json.identity]
  exact ⟨hparse, hperm, h, h', honly,
    (evaluate_rearranged notes .empty .standard hparse hperm h h').2.2 2 honly⟩

/-- The first note is listed by its number both times, and it is selected only if its number stands
before `true`, which is no node. -/
theorem not_rearranged :
    notes.Built ∧ [Json.bool true, .int 1].Perm [.int 1, .bool true] ∧
    ∃ found found', evaluate (notes.view .empty) [.bool true, .int 1] "name == 'a'" .standard =
        .ok found ∧
      evaluate (notes.view .empty) [.int 1, .bool true] "name == 'a'" .standard = .ok found' ∧
      ¬ ∀ id, id ∈ found ↔ id ∈ found' := by
  have hbuilt : notes.Built :=
    (((MemoryTree.Built.root _).push (by decide) ..).push (by decide) ..).push (by decide) ..
  refine ⟨hbuilt, .swap _ _ _, [], [.int 1], rfl, rfl, fun h => ?_⟩
  exact absurd ((h (.int 1)).2 List.mem_cons_self) List.not_mem_nil

end Query
end NodeQuery
