import NodeQuery.Proofs.Attribute.Entries
import NodeQuery.Proofs.Query.Truth
/-!
The two leaves for attributes. One asks for a name alone, the other one for a name and a value. The
latter selects only what the former selects; what it leaves out although it accepts every value are
the nodes of which only nested sets have the name, for these have no value to compare
(`select_attribute_sublist`).
-/
namespace NodeQuery.Query

section
variable {tree : NodeTree} {settings : Settings} {key value : String}
  {method valueMethod : Method} {id : Json} {candidates found named : List Json}

/-- A node with a value that a leaf for names and values asks for has an attribute of that name. -/
theorem Leaf.TrueOf.attributeName [Host]
    (h : (Leaf.attribute key method value valueMethod).TrueOf tree settings id) :
    (Leaf.name .attributeName method key).TrueOf tree settings id := by
  obtain ⟨hid, attributes, hread, entry, hentry, hname, -⟩ := h
  obtain ⟨address, hat⟩ := Attributes.mem_flatten_iff.1 hentry
  exact ⟨hid, attributes, hread, entry.1, Attributes.mem_names_iff.2 ⟨address, _, hat, rfl⟩, hname⟩

/-- A leaf selects a part of what another one selects, in the same order, if it is true of no id
but those of which the other one is. -/
theorem Leaf.select_sublist [Host] {l l' : Leaf}
    (h : l.select ⟨tree, candidates, settings⟩ = .ok found)
    (h' : l'.select ⟨tree, candidates, settings⟩ = .ok named)
    (himp : ∀ id, l.TrueOf tree settings id → l'.TrueOf tree settings id) :
    found.Sublist named := by
  have hsub : ∀ id ∈ found, id ∈ named := by
    intro id hid
    obtain ⟨hcandidate, htrue⟩ := (mem_leaf_select h).1 hid
    exact (mem_leaf_select h').2 ⟨hcandidate, himp id htrue⟩
  obtain ⟨test, -, -, rfl⟩ := Leaf.select_eq_ok_iff.1 h
  obtain ⟨test', -, -, rfl⟩ := Leaf.select_eq_ok_iff.1 h'
  have hboth : candidates.filter (passes (test.selects tree)) =
      (candidates.filter (passes (test'.selects tree))).filter (passes (test.selects tree)) := by
    rw [List.filter_filter]
    refine List.filter_congr fun id hid => ?_
    cases hpass : passes (test.selects tree) id with
    | false => rfl
    | true =>
      have hother := (List.mem_filter.1 (hsub id (List.mem_filter.2 ⟨hid, hpass⟩))).2
      rw [hother]
      rfl
  rw [hboth]
  exact List.filter_sublist

/-- If the value is left open, then a node that lacks the value has nested sets only. -/
theorem Leaf.matching_sets [Host]
    (hopen : ∀ s : String, valueMethod.Matches settings value (.text s))
    (hname : (Leaf.name .attributeName method key).TrueOf tree settings id)
    (hvalue : ¬ (Leaf.attribute key method value valueMethod).TrueOf tree settings id) :
    ∃ attributes, tree.attributes id = .ok attributes ∧
      (∃ address e, attributes.entryAt? Attributes.noName address = some e ∧
        method.Matches settings key e.name) ∧
      ∀ address e, attributes.entryAt? Attributes.noName address = some e →
        method.Matches settings key e.name → e.value = none := by
  obtain ⟨hid, attributes, hread, name, hmem, hmatches⟩ := hname
  obtain ⟨address, e, hat, rfl⟩ := Attributes.mem_names_iff.1 hmem
  refine ⟨attributes, hread, ⟨address, e, hat, hmatches⟩, ?_⟩
  rintro address ⟨name, _ | found⟩ hat hmatches
  · rfl
  · have hentry : (name, found) ∈ attributes.flatten Attributes.noName :=
      Attributes.mem_flatten_iff.2 ⟨address, hat⟩
    exact absurd ⟨hid, attributes, hread, _, hentry, hmatches, hopen found.text⟩ hvalue

end

/-- The names of all attributes are those of the entries, and the values with their names are those
of the entries that have one, in the same order. Every address has its entry once, and a nested set
comes after all entries in it. So a leaf for names and values of attributes selects a part of what
the leaf for their names selects, in the same order; and where it leaves the value open and still
does not select a node that the other one does, all entries of a matching name are nested sets. -/
theorem select_attribute_sublist [Host] :
    (∀ (outer : Json) (a : Attributes),
      a.names outer = (a.entries outer).map (·.2.name) ∧
      a.flatten outer = (a.entries outer).filterMap (fun e => e.2.value.map (e.2.name, ·)) ∧
      (∀ address e, (address, e) ∈ a.entries outer ↔ a.entryAt? outer address = some e) ∧
      (a.entries outer).Pairwise fun earlier later => ¬ earlier.1 <+: later.1) ∧
    ∀ (tree : NodeTree) (settings : Settings) (candidates found named : List Json)
      (key value : String) (method valueMethod : Method),
      (Leaf.attribute key method value valueMethod).select ⟨tree, candidates, settings⟩ =
        .ok found →
      (Leaf.name .attributeName method key).select ⟨tree, candidates, settings⟩ = .ok named →
      found.Sublist named ∧
      ((∀ s : String, valueMethod.Matches settings value (.text s)) →
        ∀ id ∈ named, id ∉ found →
          ∃ attributes, tree.attributes id = .ok attributes ∧
            (∃ address e, attributes.entryAt? Attributes.noName address = some e ∧
              method.Matches settings key e.name) ∧
            ∀ address e, attributes.entryAt? Attributes.noName address = some e →
              method.Matches settings key e.name → e.value = none) := by
  constructor
  · intro outer a
    exact ⟨a.names_eq outer, a.flatten_eq outer, fun _ _ => Attributes.mem_entries_iff,
      a.pairwise_entries outer⟩
  · intro tree settings candidates found named key value method valueMethod hfound hnamed
    refine ⟨Leaf.select_sublist hfound hnamed fun id h => h.attributeName, ?_⟩
    intro hopen id hid hnot
    obtain ⟨hcandidate, hname⟩ := (mem_leaf_select hnamed).1 hid
    exact Leaf.matching_sets hopen hname fun h => hnot ((mem_leaf_select hfound).2 ⟨hcandidate, h⟩)

/-- The first picture has an attribute called exif, which is a nested set. -/
theorem select_attribute_sublist_pictures :
    (Leaf.attribute "exif" .fixed "" .fuzzy).select ⟨pictures, [.int 2, .int 1], .standard⟩ =
      .ok [] ∧
    (Leaf.name .attributeName .fixed "exif").select ⟨pictures, [.int 2, .int 1], .standard⟩ =
      .ok [.int 1] ∧
    (∀ s : String, Method.fuzzy.Matches .standard "" (.text s)) ∧
    ∃ attributes, pictures.attributes (.int 1) = .ok attributes ∧
      ∀ address e, attributes.entryAt? Attributes.noName address = some e →
        Method.fixed.Matches .standard "exif" e.name → e.value = none := by
  have hfound : (Leaf.attribute "exif" .fixed "" .fuzzy).select
      ⟨pictures, [.int 2, .int 1], .standard⟩ = .ok [] := rfl
  have hnamed : (Leaf.name .attributeName .fixed "exif").select
      ⟨pictures, [.int 2, .int 1], .standard⟩ = .ok [.int 1] := rfl
  have hfull : Matcher.reaches (.finite false 1) Settings.standard.threshold = true := by
    decide +kernel
  have hopen : ∀ s : String, Method.fuzzy.Matches .standard "" (.text s) := by
    intro s
    have hscore : Alignment.score "".toList s.toList = .finite false 1 := rfl
    refine ⟨.fuzzy "" Settings.standard.threshold, rfl, ?_⟩
    rw [Matcher.acceptsName, Matcher.accepts, hscore, hfull]
  obtain ⟨-, hleaves⟩ := select_attribute_sublist
  obtain ⟨-, hsets⟩ := hleaves pictures .standard [.int 2, .int 1] [] [.int 1] "exif" "" .fixed
    .fuzzy hfound hnamed
  obtain ⟨attributes, hread, -, hnone⟩ := hsets hopen (.int 1) (by simp) (by simp)
  exact ⟨hfound, hnamed, hopen, attributes, hread, hnone⟩

end NodeQuery.Query
