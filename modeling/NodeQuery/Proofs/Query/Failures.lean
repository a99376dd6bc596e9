import NodeQuery.Proofs.Query.Truth
/-!
Which failure a query ends with if several things go wrong. An expression fails as the first of its
leaves that fails when it is evaluated alone, whatever the other leaves select. A leaf fails because
of its literals, a key's before its value's, and only then because of a candidate: the first one
that is a node and cannot be looked up (`select_failure`).
-/
namespace NodeQuery

/-- What went wrong, if anything did. -/
def failure? {α : Type} (x : Outcome α) : Option Failure :=
  match x with
  | .ok _ => none
  | .error failure => some failure

section
variable {α β : Type} {x : Outcome α}

theorem failure?_eq_some_iff {failure : Failure} :
    failure? x = some failure ↔ x = .error failure := by
  cases x <;> simp [failure?]

theorem failure?_eq_none_iff : failure? x = none ↔ ∃ a, x = .ok a := by
  cases x <;> simp [failure?]

theorem failure?_map (f : α → β) : failure? (x.map f) = failure? x := by
  cases x <;> rfl

/-- Of two computations in a row the second one is reached only if the first one succeeds. -/
theorem failure?_bind {f : α → Outcome β} {second : Option Failure}
    (h : ∀ a, x = .ok a → failure? (f a) = second) :
    failure? (x >>= f) = (failure? x).or second := by
  cases x with
  | error failure => rfl
  | ok a => exact h a rfl

/-- A computation that is followed by one that cannot fail. -/
theorem failure?_bind_of_none {f : α → Outcome β} (h : ∀ a, x = .ok a → failure? (f a) = none) :
    failure? (x >>= f) = failure? x := by
  rw [failure?_bind h, Option.or_none]

/-- Items are tested in order up to the first failure. -/
theorem failure?_keep (test : α → Outcome Bool) (as : List α) :
    failure? (keep test as) = as.findSome? fun a => failure? (test a) := by
  induction as with
  | nil => rfl
  | cons a rest ih =>
    calc failure? (keep test (a :: rest))
        = (failure? (test a)).or (failure? (keep test rest)) :=
          failure?_bind fun _ _ => failure?_bind_of_none fun _ _ => rfl
      _ = (a :: rest).findSome? fun a => failure? (test a) := by
          rw [ih, List.findSome?_cons]
          cases failure? (test a) <;> rfl

theorem failure?_anyPasses {test : α → Outcome Bool} {as : List α}
    (h : ∀ a ∈ as, failure? (test a) = none) : failure? (anyPasses test as) = none := by
  induction as with
  | nil => rfl
  | cons a rest ih =>
    obtain ⟨ha, hrest⟩ := List.forall_mem_cons.1 h
    rw [anyPasses, failure?_bind_of_none, ha]
    intro answer _
    cases answer with
    | true => rfl
    | false => exact ih hrest

end

/-! ## Names -/

/-- A value is a text. -/
def Json.IsText (value : Json) : Prop :=
  ∃ s : String, value = .text s

/-- All keys are texts, those in nested sets too. -/
def Attributes.TextKeys : Attributes → Prop
  | .nil => True
  | .leaf key _ rest => key.IsText ∧ rest.TextKeys
  | .nest key inner rest => key.IsText ∧ inner.TextKeys ∧ rest.TextKeys

namespace Attributes

theorem isText_joinName {key : Json} (outer : Json) (h : key.IsText) :
    (joinName outer key).IsText := by
  unfold joinName
  split
  · exact ⟨_, rfl⟩
  · exact h

theorem TextKeys.names {a : Attributes} (h : a.TextKeys) (outer : Json) :
    ∀ name ∈ a.names outer, name.IsText := by
  induction a generalizing outer with
  | nil => exact List.forall_mem_nil _
  | leaf key value rest ih =>
    exact List.forall_mem_cons.2 ⟨isText_joinName outer h.1, ih h.2 outer⟩
  | nest key inner rest ihi ihr =>
    rw [Attributes.names, List.forall_mem_append, List.forall_mem_cons]
    exact ⟨ihi h.2.1 _, isText_joinName outer h.1, ihr h.2.2 outer⟩

theorem TextKeys.flatten {a : Attributes} (h : a.TextKeys) (outer : Json) :
    ∀ entry ∈ a.flatten outer, entry.1.IsText := by
  induction a generalizing outer with
  | nil => exact List.forall_mem_nil _
  | leaf key value rest ih =>
    exact List.forall_mem_cons.2 ⟨isText_joinName outer h.1, ih h.2 outer⟩
  | nest key inner rest ihi ihr =>
    rw [Attributes.flatten, List.forall_mem_append]
    exact ⟨ihi h.2.1 _, ihr h.2.2 outer⟩

end Attributes

/-- Any matcher can be compared with a text. -/
theorem Matcher.failure?_acceptsName (m : Matcher) {name : Json} (h : name.IsText) :
    failure? (m.acceptsName name) = none := by
  obtain ⟨s, rfl⟩ := h
  rfl

/-! ## Look-ups -/

/-- What a fault in enumerating the attributes of a node is reported as. -/
def attributeFailure (id : Json) (fault : Fault) : Failure :=
  match fault with
  | .missingKey _ | .badIndex _ | .file .. | .system .. | .wrongType _ | .badValue _ =>
    .query (.attributeLookup id fault)
  | .noMember _ | .other _ => .fault fault

/-- What a fault in reading the content of a node is reported as. -/
def contentFailure (id : Json) (fault : Fault) : Failure :=
  match fault with
  | .file .. | .system .. => .query (.dataUnavailable id fault)
  | .missingKey _ | .badIndex _ | .wrongType _ | .badValue _ | .noMember _ | .other _ =>
    .fault fault

namespace NodeTree

/-- The nodes of a tree are called by texts, and so are their attributes as far as they can be
enumerated. -/
structure NamedByTexts (tree : NodeTree) : Prop where
  name : ∀ id, tree.has id = true → ∃ s : String, tree.name id = .ok (.text s)
  keys : ∀ id attributes, tree.has id = true → tree.attributes id = .ok attributes →
    attributes.TextKeys

variable {tree : NodeTree} {id : Json}

theorem failure?_readAttributes : failure? (tree.readAttributes id) =
    match tree.attributes id with
    | .ok _ => none
    | .error fault => some (attributeFailure id fault) := by
  unfold readAttributes
  cases tree.attributes id with
  | ok attributes => rfl
  | error fault => cases fault <;> rfl

theorem failure?_readData : failure? (tree.readData id) =
    match tree.data id with
    | .ok _ => none
    | .error fault => some (contentFailure id fault) := by
  unfold readData
  cases tree.data id with
  | ok content => rfl
  | error fault => cases fault <;> rfl

end NodeTree

namespace Query

/-- What is wrong with the literals of a leaf, a key before its value. -/
def Leaf.literalFailure? [Host] (settings : Settings) : Leaf → Option Failure
  | .name _ method value => failure? (Matcher.compile settings method value)
  | .attribute key keyMethod value valueMethod =>
    (failure? (Matcher.compile settings keyMethod key)).or
      (failure? (Matcher.compile settings valueMethod value))
  | .data method value => failure? (ContentTest.compile settings method value)

/-- What goes wrong where a leaf looks up a node. A name is always there. -/
def Leaf.lookFailure? (tree : NodeTree) (id : Json) : Leaf → Option Failure
  | .name .name _ _ => none
  | .name .attributeName _ _ | .attribute _ _ _ _ =>
    match tree.attributes id with
    | .ok _ => none
    | .error fault => some (attributeFailure id fault)
  | .data _ _ =>
    match tree.data id with
    | .ok _ => none
    | .error fault => some (contentFailure id fault)

theorem Leaf.failure?_compile [Host] (settings : Settings) (l : Leaf) :
    failure? (l.compile settings) = l.literalFailure? settings := by
  match l with
  | .name .name method value => exact failure?_map _
  | .name .attributeName method value => exact failure?_map _
  | .attribute key keyMethod value valueMethod =>
    exact failure?_bind fun _ _ => failure?_bind_of_none fun _ _ => rfl
  | .data method value => exact failure?_map _

theorem failure?_attributeHolds (key value : Matcher) {attributes : Attributes}
    (h : attributes.TextKeys) : failure? (LeafTest.attributeHolds key value attributes) = none := by
  rw [LeafTest.attributeHolds, failure?_bind_of_none fun _ _ => rfl, failure?_keep,
    List.findSome?_eq_none_iff]
  exact fun entry hentry => key.failure?_acceptsName (h.flatten _ entry hentry)

section
variable {tree : NodeTree} {settings : Settings} {l : Leaf} {test : LeafTest} {id : Json}

/-- Once a leaf is ready, only a look-up can go wrong. -/
theorem failure?_holds [Host] (htexts : tree.NamedByTexts) (hid : tree.has id = true)
    (hcompile : l.compile settings = .ok test) :
    failure? (test.holds tree id) = l.lookFailure? tree id := by
  match l with
  | .name .name method value =>
    obtain ⟨matcher, -, rfl⟩ := Outcome.map_eq_ok_iff.1 hcompile
    obtain ⟨s, hs⟩ := htexts.name id hid
    rw [LeafTest.holds, NodeTree.readName, hs]
    rfl
  | .name .attributeName method value =>
    obtain ⟨matcher, -, rfl⟩ := Outcome.map_eq_ok_iff.1 hcompile
    rw [LeafTest.holds, failure?_bind_of_none, NodeTree.failure?_readAttributes]
    · rfl
    · intro attributes hread
      have hkeys := htexts.keys id attributes hid (readAttributes_eq_ok hread)
      exact failure?_anyPasses fun name hname =>
        matcher.failure?_acceptsName (hkeys.names Attributes.noName name hname)
  | .attribute key keyMethod value valueMethod =>
    obtain ⟨keyMatcher, -, hrest⟩ := Outcome.bind_eq_ok_iff.1 hcompile
    obtain ⟨matcher, -, htest⟩ := Outcome.bind_eq_ok_iff.1 hrest
    cases htest
    rw [LeafTest.holds, failure?_bind_of_none, NodeTree.failure?_readAttributes]
    · rfl
    · intro attributes hread
      have hkeys := htexts.keys id attributes hid (readAttributes_eq_ok hread)
      exact failure?_attributeHolds keyMatcher matcher hkeys
  | .data method value =>
    obtain ⟨test, -, rfl⟩ := Outcome.map_eq_ok_iff.1 hcompile
    rw [LeafTest.holds, failure?_bind_of_none, NodeTree.failure?_readData]
    · rfl
    · intro content _
      cases content <;> rfl

end

/-- Candidates that are no nodes are passed over. -/
theorem findSome?_selects {tree : NodeTree} {test : LeafTest} {l : Leaf} (candidates : List Json)
    (h : ∀ id, tree.has id = true → failure? (test.holds tree id) = l.lookFailure? tree id) :
    (candidates.findSome? fun id => failure? (test.selects tree id)) =
      (candidates.filter tree.has).findSome? fun id => l.lookFailure? tree id := by
  induction candidates with
  | nil => rfl
  | cons id rest ih =>
    rw [List.findSome?_cons, ih, LeafTest.selects]
    by_cases hid : tree.has id = true
    · rw [if_pos hid, h id hid, List.filter_cons_of_pos hid, List.findSome?_cons]
    · rw [if_neg hid, List.filter_cons_of_neg hid]
      rfl

theorem Expr.failure?_select [Host] (context : Context) (e : Expr) :
    failure? (e.select context) = e.leaves.findSome? fun l => failure? (l.select context) := by
  induction e with
  | leaf l =>
    rw [Expr.leaves, List.findSome?_singleton]
    rfl
  | join c left right ihl ihr =>
    rw [Expr.leaves, List.findSome?_append, ← ihl, ← ihr]
    exact failure?_bind fun _ _ => failure?_bind_of_none fun _ _ => rfl
  | group inner ih => exact ih

/-- A leaf fails because of its literals if it can, and else as a look-up of a node does. -/
theorem Leaf.failure?_select [Host] {context : Context} (htexts : context.tree.NamedByTexts)
    (l : Leaf) : failure? (l.select context) = (l.literalFailure? context.settings).or
      ((context.candidates.filter context.tree.has).findSome? fun id =>
        l.lookFailure? context.tree id) := by
  rw [← l.failure?_compile]
  refine failure?_bind fun test hcompile => ?_
  rw [failure?_keep]
  exact findSome?_selects _ fun id hid => failure?_holds htexts hid hcompile

/-- Over a tree whose names and keys are texts, an expression fails if and only if a leaf of it
fails by itself, and as the first such leaf. A leaf fails because of its literals if it can, and else
as the look-up of the first node among the candidates that cannot be looked up. -/
theorem select_failure [Host] (context : Context) (htexts : context.tree.NamedByTexts) (e : Expr) :
    (failure? (e.select context) = e.leaves.findSome? fun l => failure? (l.select context)) ∧
    ∀ l : Leaf, failure? (l.select context) =
      (l.literalFailure? context.settings).or
        ((context.candidates.filter context.tree.has).findSome? fun id =>
          l.lookFailure? context.tree id) :=
  ⟨e.failure?_select context, fun l => l.failure?_select htexts⟩

/-- Two nodes of the same name. The attributes of both cannot be read, for different reasons, and
neither can the content of the first. -/
def unreadable : NodeTree where
  has id := id.same (.int 1) || id.same (.int 2)
  name _ := .ok (.text "a.jpg")
  attributes id := .error (if id.same (.int 1) then .missingKey "exif" else .other "closed")
  data id := if id.same (.int 1) then .error (.system true "refused") else .ok none

theorem namedByTexts_unreadable : unreadable.NamedByTexts where
  name _ _ := ⟨"a.jpg", rfl⟩
  keys _ _ _ h := by cases h

/-- Nothing is called `b.jpg`, but the content is searched all the same. -/
def searchUnreadable : Expr :=
  .join .or
    (.join .and (.leaf (.name .name .fixed "b.jpg")) (.group (.leaf (.data .text "C"))))
    (.leaf (.attribute "make" .fixed "Canon" .fixed))

theorem select_failure_unreadable :
    unreadable.NamedByTexts ∧
    (failure? (searchUnreadable.select ⟨unreadable, [.int 7, .int 2, .int 1], .standard⟩) =
      searchUnreadable.leaves.findSome? fun l =>
        failure? (l.select ⟨unreadable, [.int 7, .int 2, .int 1], .standard⟩)) ∧
    ∀ l : Leaf, failure? (l.select ⟨unreadable, [.int 7, .int 2, .int 1], .standard⟩) =
      (l.literalFailure? .standard).or
        (([.int 7, .int 2, .int 1].filter unreadable.has).findSome? fun id =>
          l.lookFailure? unreadable id) :=
  ⟨namedByTexts_unreadable,
    select_failure ⟨unreadable, [.int 7, .int 2, .int 1], .standard⟩ namedByTexts_unreadable
      searchUnreadable⟩

/-- The second leaf is the first to fail, and it fails at the first of the candidates whose content
cannot be read. -/
example : searchUnreadable.select ⟨unreadable, [.int 7, .int 2, .int 1], .standard⟩ =
    .error (.query (.dataUnavailable (.int 1) (.system true "refused"))) := rfl

end Query
end NodeQuery
