import NodeQuery.Query.Evaluation
/-!
When an evaluation succeeds, and with what. A leaf succeeds if its literals can be made ready and
every candidate can be tested, and it selects the candidates that pass (`Leaf.select_eq_ok_iff`). An
expression succeeds if all of its leaves do (`Expr.exists_select_iff`).
-/
namespace NodeQuery

/-- A sequence of two computations succeeds if both do. -/
theorem Outcome.bind_eq_ok_iff {ε α β : Type} {x : Except ε α} {f : α → Except ε β} {b : β} :
    (x >>= f) = .ok b ↔ ∃ a, x = .ok a ∧ f a = .ok b := by
  cases x with
  | error failure => simp [bind, Except.bind]
  | ok a => simp [bind, Except.bind]

theorem Outcome.map_eq_ok_iff {ε α β : Type} {x : Except ε α} {f : α → β} {b : β} :
    x.map f = .ok b ↔ ∃ a, x = .ok a ∧ f a = b := by
  cases x with
  | error failure => simp [Except.map]
  | ok a => simp [Except.map]

theorem Outcome.mapError_eq_ok_iff {ε α : Type} {x : Except ε α} {wrap : ε → Failure} {a : α} :
    x.mapError wrap = .ok a ↔ x = .ok a := by
  cases x with
  | error error => exact iff_of_false nofun nofun
  | ok b =>
    constructor
    · rintro ⟨⟩
      rfl
    · rintro ⟨⟩
      rfl

section
variable {α : Type}

/-- A test gives an answer, and the answer is yes. -/
def passes (test : α → Outcome Bool) (a : α) : Bool :=
  match test a with
  | .ok answer => answer
  | .error _ => false

theorem passes_of_eq_ok {test : α → Outcome Bool} {a : α} {answer : Bool}
    (h : test a = .ok answer) : passes test a = answer := by
  simp [passes, h]

theorem passes_iff {test : α → Outcome Bool} {a : α} :
    passes test a = true ↔ test a = .ok true := by
  unfold passes
  split <;> simp_all

/-- Items are kept if all of them can be tested; kept are those that pass. -/
theorem keep_eq_ok_iff {test : α → Outcome Bool} {as found : List α} :
    keep test as = .ok found ↔
      (∀ a ∈ as, ∃ answer, test a = .ok answer) ∧ found = as.filter (passes test) := by
  induction as generalizing found with
  | nil => simp [keep, eq_comm]
  | cons a rest ih =>
    simp only [keep, Outcome.bind_eq_ok_iff, ih, pure, Except.pure, Except.ok.injEq,
      List.forall_mem_cons, List.filter_cons]
    constructor
    · rintro ⟨answer, ha, kept, ⟨hrest, rfl⟩, rfl⟩
      refine ⟨⟨⟨answer, ha⟩, hrest⟩, ?_⟩
      rw [passes_of_eq_ok ha]
    · rintro ⟨⟨⟨answer, ha⟩, hrest⟩, rfl⟩
      refine ⟨answer, ha, _, ⟨hrest, rfl⟩, ?_⟩
      rw [passes_of_eq_ok ha]

/-- The items after the first that passes are not tested, so the answer yes says nothing of them. -/
theorem anyPasses_eq_ok {test : α → Outcome Bool} {as : List α} {answer : Bool}
    (h : anyPasses test as = .ok answer) : answer = true ↔ ∃ a ∈ as, test a = .ok true := by
  induction as with
  | nil =>
    cases h
    simp
  | cons a rest ih =>
    obtain ⟨first, ha, hrest⟩ := Outcome.bind_eq_ok_iff.1 h
    cases first with
    | true =>
      cases hrest
      simp [ha]
    | false => simp [ih hrest, ha]

end

namespace Query
variable [Host] {context : Context} {found : List Json}

theorem Leaf.select_eq_ok_iff {leaf : Leaf} :
    leaf.select context = .ok found ↔ ∃ test, leaf.compile context.settings = .ok test ∧
      (∀ id ∈ context.candidates, ∃ answer, test.selects context.tree id = .ok answer) ∧
      found = context.candidates.filter (passes (test.selects context.tree)) := by
  rw [Leaf.select, Outcome.bind_eq_ok_iff]
  exact exists_congr fun test => and_congr_right fun _ => keep_eq_ok_iff

theorem Expr.select_join_eq_ok_iff {c : Connective} {left right : Expr} :
    (Expr.join c left right).select context = .ok found ↔ ∃ chosen others,
      left.select context = .ok chosen ∧ right.select context = .ok others ∧
      found = c.combine chosen others := by
  simp only [Expr.select, Outcome.bind_eq_ok_iff, pure, Except.pure, Except.ok.injEq]
  constructor
  · rintro ⟨chosen, hl, others, hr, rfl⟩
    exact ⟨chosen, others, hl, hr, rfl⟩
  · rintro ⟨chosen, others, hl, hr, rfl⟩
    exact ⟨chosen, hl, others, hr, rfl⟩

/-- An expression succeeds if and only if all of its leaves do. -/
theorem Expr.exists_select_iff {e : Expr} :
    (∃ found, e.select context = .ok found) ↔
      ∀ l ∈ e.leaves, ∃ found, l.select context = .ok found := by
  induction e with
  | leaf l => simp [Expr.select, Expr.leaves]
  | join c left right ihl ihr =>
    simp only [Expr.leaves, List.mem_append, or_imp, forall_and, ← ihl, ← ihr,
      Expr.select_join_eq_ok_iff]
    constructor
    · rintro ⟨_, chosen, others, hl, hr, -⟩
      exact ⟨⟨chosen, hl⟩, others, hr⟩
    · rintro ⟨⟨chosen, hl⟩, others, hr⟩
      exact ⟨_, chosen, others, hl, hr, rfl⟩
  | group inner ih => exact ih

/-- What an accepted query is evaluated to. -/
theorem evaluate_of_parse (tree : NodeTree) (candidates : List Json) (settings : Settings)
    {query : String} {e : Expr} (h : parse query = .ok e) :
    evaluate tree candidates query settings =
      if candidates.all Json.isScalar then
        e.select ⟨tree, Selection.distinct candidates, settings⟩
      else .error (.wrongType "an id must be a scalar") := by
  rw [evaluate, h]
  rfl

/-- Whole numbers are ids. -/
theorem evaluate_ints (tree : NodeTree) (ids : List Int) (settings : Settings) {query : String}
    {e : Expr} (h : parse query = .ok e) :
    evaluate tree (ids.map .int) query settings =
      e.select ⟨tree, Selection.distinct (ids.map .int), settings⟩ := by
  have hscalar : (ids.map Json.int).all Json.isScalar = true := by
    simp [Json.isScalar]
  rw [evaluate_of_parse tree _ settings h, if_pos hscalar]

end Query
end NodeQuery
