import NodeQuery.Proofs.Query.Failures
/-!
Leaves that search content. Whether the content of a node can be read does not depend on what is
sought in it, so two searches over the same candidates fail at the same node, and one that accepts
more content selects more (`Leaf.select_data_mono`). Over content that can be read a search fails
only because of its literal (`Leaf.failure?_select_data`).
-/
namespace NodeQuery.Query

/-- The content of every node among the candidates can be read, if it has any. -/
def Readable (tree : NodeTree) (candidates : List Json) : Prop :=
  ∀ id ∈ candidates, tree.has id = true → ∃ content, tree.data id = .ok content

section
variable {tree : NodeTree} {id : Json} {test test' : ContentTest}

/-- What goes wrong with a candidate goes wrong in reading its content. -/
theorem failure?_selects_data (tree : NodeTree) (id : Json) (test : ContentTest) :
    failure? ((LeafTest.data test).selects tree id) =
      if tree.has id then failure? (tree.readData id) else none := by
  rw [LeafTest.selects]
  split
  · rw [LeafTest.holds]
    refine failure?_bind_of_none fun content _ => ?_
    cases content <;> rfl
  · rfl

theorem passes_data_iff : passes ((LeafTest.data test).selects tree) id = true ↔
    tree.has id = true ∧ ∃ content, tree.data id = .ok (some content) ∧
      test.accepts content = true := by
  rw [passes_iff, LeafTest.selects]
  split
  · next hid =>
    rw [LeafTest.holds, Outcome.bind_eq_ok_iff, and_iff_right hid]
    constructor
    · rintro ⟨content, hread, haccepts⟩
      cases content with
      | none => cases haccepts
      | some bytes => exact ⟨bytes, readData_eq_ok hread, Except.ok.inj haccepts⟩
    · rintro ⟨bytes, hdata, haccepts⟩
      refine ⟨some bytes, ?_, congrArg Except.ok haccepts⟩
      rw [NodeTree.readData, hdata]
  · next hid =>
    constructor
    · intro h
      cases h
    · intro h
      exact absurd h.1 hid

end

section
variable [Host] {tree : NodeTree} {candidates found : List Json} {settings settings' : Settings}
  {method method' : DataMethod} {literal literal' : String} {test test' : ContentTest}

theorem Leaf.select_data (hcompile : ContentTest.compile settings method literal = .ok test) :
    (Leaf.data method literal).select ⟨tree, candidates, settings⟩ =
      keep ((LeafTest.data test).selects tree) candidates := by
  rw [Leaf.select, Leaf.compile, hcompile]
  rfl

/-- Two searches that accept the same content select the same, or fail alike. -/
theorem Leaf.select_data_congr (hcompile : ContentTest.compile settings method literal = .ok test)
    (hcompile' : ContentTest.compile settings' method' literal' = .ok test')
    (h : ∀ content, test.accepts content = test'.accepts content) :
    (Leaf.data method literal).select ⟨tree, candidates, settings⟩ =
      (Leaf.data method' literal').select ⟨tree, candidates, settings'⟩ := by
  have hselects : (LeafTest.data test).selects tree = (LeafTest.data test').selects tree := by
    funext id
    simp only [LeafTest.selects, LeafTest.holds, h]
  rw [Leaf.select_data hcompile, Leaf.select_data hcompile', hselects]

/-- Of two searches the one that accepts more content selects more, and neither fails without the
other. -/
theorem Leaf.select_data_mono (hcompile : ContentTest.compile settings method literal = .ok test)
    (hcompile' : ContentTest.compile settings' method' literal' = .ok test')
    (h : ∀ content, test.accepts content = true → test'.accepts content = true) :
    (failure? ((Leaf.data method literal).select ⟨tree, candidates, settings⟩) =
      failure? ((Leaf.data method' literal').select ⟨tree, candidates, settings'⟩)) ∧
    ∀ found, (Leaf.data method literal).select ⟨tree, candidates, settings⟩ = .ok found →
      ∃ more, (Leaf.data method' literal').select ⟨tree, candidates, settings'⟩ = .ok more ∧
        found.Sublist more := by
  rw [Leaf.select_data hcompile, Leaf.select_data hcompile']
  have hfailure : failure? (keep ((LeafTest.data test).selects tree) candidates) =
      failure? (keep ((LeafTest.data test').selects tree) candidates) := by
    simp only [failure?_keep, failure?_selects_data]
  refine ⟨hfailure, fun found hfound => ?_⟩
  obtain ⟨more, hmore⟩ := failure?_eq_none_iff.1 (hfailure ▸ failure?_eq_none_iff.2 ⟨found, hfound⟩)
  refine ⟨more, hmore, ?_⟩
  rw [(keep_eq_ok_iff.1 hfound).2, (keep_eq_ok_iff.1 hmore).2]
  refine List.monotone_filter_right _ fun id hid => ?_
  obtain ⟨hnode, content, hdata, haccepts⟩ := passes_data_iff.1 hid
  exact passes_data_iff.2 ⟨hnode, content, hdata, h content haccepts⟩

/-- Over content that can be read a search fails as its literal does, whatever the candidates. -/
theorem Leaf.failure?_select_data (hread : Readable tree candidates) :
    failure? ((Leaf.data method literal).select ⟨tree, candidates, settings⟩) =
      failure? (ContentTest.compile settings method literal) := by
  rw [Leaf.select, failure?_bind_of_none, Leaf.failure?_compile]
  · rfl
  · intro leafTest hcompile
    obtain ⟨test, -, rfl⟩ := Outcome.map_eq_ok_iff.1 hcompile
    rw [failure?_keep, List.findSome?_eq_none_iff]
    intro id hid
    rw [failure?_selects_data]
    split
    · next hnode =>
      obtain ⟨content, hcontent⟩ := hread id hid hnode
      rw [NodeTree.failure?_readData, hcontent]
    · rfl

theorem Leaf.exists_select_data (hread : Readable tree candidates)
    (hcompile : ContentTest.compile settings method literal = .ok test) :
    ∃ found, (Leaf.data method literal).select ⟨tree, candidates, settings⟩ = .ok found := by
  rw [← failure?_eq_none_iff, Leaf.failure?_select_data hread, hcompile]
  rfl

/-- A node with content is selected if its content is accepted. -/
theorem Leaf.mem_select_data {id : Json} {content : Bytes}
    (hfound : (Leaf.data method literal).select ⟨tree, candidates, settings⟩ = .ok found)
    (hcompile : ContentTest.compile settings method literal = .ok test) (hid : id ∈ candidates)
    (hnode : tree.has id = true) (hdata : tree.data id = .ok (some content)) :
    id ∈ found ↔ test.accepts content = true := by
  rw [Leaf.select_data hcompile, keep_eq_ok_iff] at hfound
  rw [hfound.2, List.mem_filter, passes_data_iff, and_iff_right hid, and_iff_right hnode]
  constructor
  · rintro ⟨found, hfound, haccepts⟩
    rw [hdata] at hfound
    cases hfound
    exact haccepts
  · intro haccepts
    exact ⟨content, hdata, haccepts⟩

end
end NodeQuery.Query
