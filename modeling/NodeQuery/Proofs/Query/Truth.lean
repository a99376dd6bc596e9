import NodeQuery.Proofs.Query.Distinct
import NodeQuery.Proofs.Query.Evaluation
import NodeQuery.Tree.Memory
/-!
What an expression says of a single id. A leaf is true of an id or not (`Leaf.TrueOf`), and an
expression is the propositional formula of its leaves (`Expr.Formula`). Evaluation over a list of
candidates, with its ordered selections and its two operands for each connective, selects the
candidates of which the formula is true (`select_eq_formula`).
-/
namespace NodeQuery.Query

/-- A literal matches a name. -/
def Method.Matches [Host] (settings : Settings) (method : Method) (literal : String) (name : Json) :
    Prop :=
  ∃ matcher, Matcher.compile settings method literal = .ok matcher ∧
    matcher.acceptsName name = .ok true

/-- A literal is found in content. -/
def DataMethod.Finds [Host] (settings : Settings) (method : DataMethod) (literal : String)
    (content : Bytes) : Prop :=
  ∃ test, ContentTest.compile settings method literal = .ok test ∧ test.accepts content = true

/-- What a leaf says of a node. -/
def Leaf.Describes [Host] (tree : NodeTree) (settings : Settings) (id : Json) : Leaf → Prop
  | .name .name method literal =>
    ∃ name, tree.name id = .ok name ∧ method.Matches settings literal name
  | .name .attributeName method literal =>
    ∃ attributes, tree.attributes id = .ok attributes ∧
      ∃ name ∈ attributes.names Attributes.noName, method.Matches settings literal name
  | .attribute key keyMethod literal method =>
    ∃ attributes, tree.attributes id = .ok attributes ∧
      ∃ entry ∈ attributes.flatten Attributes.noName,
        keyMethod.Matches settings key entry.1 ∧
        method.Matches settings literal (.text entry.2.text)
  | .data method literal =>
    ∃ content, tree.data id = .ok (some content) ∧ method.Finds settings literal content

/-- A leaf is true of an id: the id belongs to a node, and the leaf describes the node. -/
def Leaf.TrueOf [Host] (tree : NodeTree) (settings : Settings) (id : Json) (leaf : Leaf) : Prop :=
  tree.has id = true ∧ leaf.Describes tree settings id

/-- A connective as a propositional one. -/
def Connective.Joins : Connective → Prop → Prop → Prop
  | .or, p, q => p ∨ q
  | .and, p, q => p ∧ q
  | .andNot, p, q => p ∧ ¬ q

/-- An expression as a propositional formula, given which of its leaves are true. -/
def Expr.Formula (truth : Leaf → Prop) : Expr → Prop
  | .leaf l => truth l
  | .join c left right => c.Joins (left.Formula truth) (right.Formula truth)
  | .group inner => inner.Formula truth

/-! ## Leaves -/

theorem matches_iff [Host] {settings : Settings} {method : Method} {literal : String}
    {matcher : Matcher} (h : Matcher.compile settings method literal = .ok matcher) (name : Json) :
    method.Matches settings literal name ↔ matcher.acceptsName name = .ok true := by
  simp [Method.Matches, h]

theorem matches_text_iff [Host] {settings : Settings} {method : Method} {literal : String}
    {matcher : Matcher} (h : Matcher.compile settings method literal = .ok matcher) (s : String) :
    method.Matches settings literal (.text s) ↔ matcher.accepts s = true := by
  simp [matches_iff h, Matcher.acceptsName]

theorem readAttributes_eq_ok {tree : NodeTree} {id : Json} {attributes : Attributes}
    (h : tree.readAttributes id = .ok attributes) : tree.attributes id = .ok attributes := by
  unfold NodeTree.readAttributes at h
  split at h
  · next found hfound =>
    cases h
    exact hfound
  · cases h

theorem readData_eq_ok {tree : NodeTree} {id : Json} {content : Option Bytes}
    (h : tree.readData id = .ok content) : tree.data id = .ok content := by
  unfold NodeTree.readData at h
  split at h
  · next found hfound =>
    cases h
    exact hfound
  · cases h

theorem readName_eq_ok {tree : NodeTree} {id name : Json} (h : tree.readName id = .ok name) :
    tree.name id = .ok name := by
  unfold NodeTree.readName at h
  cases hname : tree.name id with
  | error fault =>
    rw [hname] at h
    cases h
  | ok found =>
    rw [hname] at h
    cases h
    rfl

/-- One attribute has to pass both matchers; the names of all are tested before any value is. -/
theorem attributeHolds_eq_ok {key value : Matcher} {attributes : Attributes} {answer : Bool}
    (h : LeafTest.attributeHolds key value attributes = .ok answer) :
    answer = true ↔ ∃ entry ∈ attributes.flatten Attributes.noName,
      key.acceptsName entry.1 = .ok true ∧ value.accepts entry.2.text = true := by
  obtain ⟨selected, hkeep, hany⟩ := Outcome.bind_eq_ok_iff.1 h
  obtain ⟨-, rfl⟩ := keep_eq_ok_iff.1 hkeep
  cases hany
  simp only [List.any_eq_true, List.mem_filter, passes_iff, and_assoc]

/-- The test that a leaf is made into answers whether the leaf describes a node. -/
theorem holds_iff [Host] {tree : NodeTree} {settings : Settings} {id : Json} {leaf : Leaf}
    {test : LeafTest} {answer : Bool} (hcompile : leaf.compile settings = .ok test)
    (hanswer : test.holds tree id = .ok answer) :
    answer = true ↔ leaf.Describes tree settings id := by
  match leaf with
  | .name .name method literal =>
    obtain ⟨matcher, hm, rfl⟩ := Outcome.map_eq_ok_iff.1 hcompile
    obtain ⟨name, hname, haccepts⟩ := Outcome.bind_eq_ok_iff.1 hanswer
    simp [Leaf.Describes, readName_eq_ok hname, matches_iff hm, haccepts]
  | .name .attributeName method literal =>
    obtain ⟨matcher, hm, rfl⟩ := Outcome.map_eq_ok_iff.1 hcompile
    obtain ⟨attributes, hread, hany⟩ := Outcome.bind_eq_ok_iff.1 hanswer
    simp [Leaf.Describes, readAttributes_eq_ok hread, matches_iff hm, anyPasses_eq_ok hany]
  | .attribute key keyMethod literal method =>
    obtain ⟨keyMatcher, hk, hrest⟩ := Outcome.bind_eq_ok_iff.1 hcompile
    obtain ⟨matcher, hm, htest⟩ := Outcome.bind_eq_ok_iff.1 hrest
    cases htest
    obtain ⟨attributes, hread, hholds⟩ := Outcome.bind_eq_ok_iff.1 hanswer
    simp [Leaf.Describes, readAttributes_eq_ok hread, matches_iff hk, matches_text_iff hm,
      attributeHolds_eq_ok hholds]
  | .data method literal =>
    obtain ⟨test, ht, rfl⟩ := Outcome.map_eq_ok_iff.1 hcompile
    obtain ⟨content, hread, haccepts⟩ := Outcome.bind_eq_ok_iff.1 hanswer
    cases content with
    | none =>
      cases haccepts
      simp [Leaf.Describes, readData_eq_ok hread]
    | some bytes =>
      cases haccepts
      simp [Leaf.Describes, readData_eq_ok hread, DataMethod.Finds, ht]

theorem selects_iff [Host] {tree : NodeTree} {settings : Settings} {id : Json} {leaf : Leaf}
    {test : LeafTest} {answer : Bool} (hcompile : leaf.compile settings = .ok test)
    (hanswer : test.selects tree id = .ok answer) :
    answer = true ↔ leaf.TrueOf tree settings id := by
  unfold LeafTest.selects at hanswer
  split at hanswer
  · next hid =>
    rw [holds_iff hcompile hanswer, Leaf.TrueOf, hid]
    simp
  · next hid =>
    cases hanswer
    simp [Leaf.TrueOf, hid]

/-- A leaf that succeeds selects the candidates that it is true of. -/
theorem mem_leaf_select [Host] {context : Context} {leaf : Leaf} {found : List Json} {id : Json}
    (h : leaf.select context = .ok found) :
    id ∈ found ↔ id ∈ context.candidates ∧ leaf.TrueOf context.tree context.settings id := by
  obtain ⟨test, hcompile, hall, rfl⟩ := Leaf.select_eq_ok_iff.1 h
  rw [List.mem_filter]
  refine and_congr_right fun hid => ?_
  obtain ⟨answer, hanswer⟩ := hall id hid
  rw [passes_of_eq_ok hanswer, selects_iff hcompile hanswer]

/-! ## Expressions -/

/-- What evaluation keeps true of a selection: it is drawn from the candidates, it repeats nothing,
and its members are told by a property of the single id. -/
structure Selects (candidates : List Json) (property : Json → Prop) (found : List Json) : Prop where
  distinct : Selection.Distinct found
  mem_iff : ∀ id, id ∈ found ↔ id ∈ candidates ∧ property id

section
variable {candidates left right : List Json} {p q : Json → Prop}

theorem Selects.subset (h : Selects candidates p left) : left ⊆ candidates :=
  fun id hid => ((h.mem_iff id).1 hid).1

/-- Each connective combines two selections as its propositional connective combines their
properties. -/
theorem Selects.combine (hall : Selection.Distinct candidates) (hl : Selects candidates p left)
    (hr : Selects candidates q right) (c : Connective) :
    Selects candidates (fun id => c.Joins (p id) (q id)) (c.combine left right) := by
  cases c with
  | or =>
    refine ⟨Selection.distinct_union hl.distinct right, fun id => ?_⟩
    rw [Connective.combine, Selection.mem_union hall hl.subset hr.subset, hl.mem_iff, hr.mem_iff,
      ← and_or_left]
    rfl
  | and =>
    refine ⟨hl.distinct.filter _, fun id => ?_⟩
    rw [Connective.combine, Selection.mem_inter hall hl.subset hr.subset, hl.mem_iff, hr.mem_iff,
      and_and_and_comm, and_self]
    rfl
  | andNot =>
    refine ⟨hl.distinct.filter _, fun id => ?_⟩
    rw [Connective.combine, Selection.mem_diff hall hl.subset hr.subset, hl.mem_iff, hr.mem_iff,
      and_assoc]
    refine and_congr_right fun hid => and_congr_right fun _ => ?_
    simp [hid]

end

/-- A selection that an expression gives is that of its formula. -/
theorem selects_of_select [Host] {context : Context} (hall : Selection.Distinct context.candidates)
    {e : Expr} {found : List Json} (h : e.select context = .ok found) :
    Selects context.candidates
      (fun id => e.Formula (Leaf.TrueOf context.tree context.settings id)) found := by
  induction e generalizing found with
  | leaf l =>
    refine ⟨?_, fun id => mem_leaf_select h⟩
    obtain ⟨test, -, -, rfl⟩ := Leaf.select_eq_ok_iff.1 h
    exact hall.filter _
  | join c left right ihl ihr =>
    obtain ⟨chosen, others, hl, hr, rfl⟩ := Expr.select_join_eq_ok_iff.1 h
    exact (ihl hl).combine hall (ihr hr) c
  | group inner ih => exact ih h

/-- Over whole numbers without repetitions, an expression all of whose leaves succeed selects
exactly the candidates of which its formula is true, each once. -/
theorem select_eq_formula [Host] (tree : NodeTree) (settings : Settings) {ids : List Int}
    (hids : ids.Nodup) (e : Expr)
    (hleaves : ∀ l ∈ e.leaves, ∃ found, l.select ⟨tree, ids.map .int, settings⟩ = .ok found) :
    ∃ found : List Int,
      e.select ⟨tree, ids.map .int, settings⟩ = .ok (found.map .int) ∧ found.Nodup ∧
      ∀ n, n ∈ found ↔ n ∈ ids ∧ e.Formula (Leaf.TrueOf tree settings (.int n)) := by
  obtain ⟨found, hfound⟩ := Expr.exists_select_iff.2 hleaves
  have hsel := selects_of_select (Selection.distinct_int.2 hids) hfound
  obtain ⟨ns, rfl⟩ := Selection.exists_ints hsel.subset
  refine ⟨ns, hfound, Selection.distinct_int.1 hsel.distinct, fun n => ?_⟩
  have hinj : Function.Injective Json.int := fun _ _ => Json.int.inj
  have hmem := hsel.mem_iff (.int n)
  rwa [List.mem_map_of_injective hinj, List.mem_map_of_injective hinj] at hmem

/-- Two pictures below a root. The first says who made it, and has content. -/
def pictures : NodeTree :=
  let maker := .leaf (.text "make") (.json (.text "Canon")) .nil
  (((MemoryTree.ofRoot (.text "root")).push 0 (.text "a.jpg") (.nest (.text "exif") maker .nil)
    (some (.bytes [67]))).push 0 (.text "b.jpg") .nil none).view .empty

/-- Pictures that neither were made by Canon nor hold a capital C. -/
def otherPictures : Expr :=
  .join .andNot (.leaf (.name .name .wildcard "*.jpg"))
    (.group (.join .or (.leaf (.attribute "exif.make" .fixed "Canon" .fixed))
      (.leaf (.data .text "C"))))

theorem select_eq_formula_pictures :
    ([2, 9, 1, 0] : List Int).Nodup ∧
    (∀ l ∈ otherPictures.leaves, ∃ found,
      l.select ⟨pictures, [2, 9, 1, 0].map .int, .standard⟩ = .ok found) ∧
    ∃ found : List Int,
      otherPictures.select ⟨pictures, [2, 9, 1, 0].map .int, .standard⟩ = .ok (found.map .int) ∧
      found.Nodup ∧
      ∀ n, n ∈ found ↔ n ∈ [2, 9, 1, 0] ∧
        otherPictures.Formula (Leaf.TrueOf pictures .standard (.int n)) := by
  have hids : ([2, 9, 1, 0] : List Int).Nodup := by decide
  have hleaves : ∀ l ∈ otherPictures.leaves, ∃ found,
      l.select ⟨pictures, [2, 9, 1, 0].map .int, .standard⟩ = .ok found := by
    simp only [otherPictures, Expr.leaves, List.cons_append, List.nil_append, List.forall_mem_cons]
    exact ⟨⟨_, rfl⟩, ⟨_, rfl⟩, ⟨_, rfl⟩, List.forall_mem_nil _⟩
  exact ⟨hids, hleaves, select_eq_formula pictures .standard hids otherPictures hleaves⟩

/-- Of the ids only the second picture is left; 9 is no node. -/
example : otherPictures.select ⟨pictures, [2, 9, 1, 0].map .int, .standard⟩ = .ok [.int 2] := rfl

end NodeQuery.Query
