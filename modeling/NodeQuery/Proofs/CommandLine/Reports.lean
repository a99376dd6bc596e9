import NodeQuery.Proofs.CommandLine.Causes
import NodeQuery.Proofs.Query.Confinement
import NodeQuery.Proofs.Timeline.Restriction
import NodeQuery.Proofs.Tree.Ascent
import NodeQuery.Proofs.Tree.Descent
import NodeQuery.Summary
import NodeQuery.Tree.Search
/-!
What a run of the command can fail with while it reports on its tree. Everything that is looked up
belongs to a node of the tree, since every node that a report names lies below the path of the
arguments. So no look-up leaves the tree: a report fails because of the query, of content, of a
window or of values of another type than is needed (`foreseen_evaluate`, `foreseen_path`).
-/
namespace NodeQuery

/-! ## Look-ups -/

section
variable {t : MemoryTree} {files : Files.Store} {id : Json}

namespace MemoryTree

theorem foreseen_readName (hid : t.has id = true) : Foreseen ((t.view files).readName id) := by
  obtain ⟨node, -, hnode⟩ := exists_node_of_has hid
  have hname : (t.view files).readName id = .ok node.name := by
    simp [NodeTree.readName, view, MemoryTree.name, hnode, Except.map, Except.mapError]
  rw [hname]
  exact .ok trivial

/-- Attributes cannot be read from a time. -/
theorem foreseen_readAttributes (hid : t.has id = true) :
    Foreseen ((t.view files).readAttributes id) := by
  obtain ⟨node, -, hnode⟩ := exists_node_of_has hid
  unfold NodeTree.readAttributes
  cases hslot : node.slot with
  | attributes attributes =>
    have hread : (t.view files).attributes id = .ok attributes := by
      simp [view, MemoryTree.attributes, hnode, hslot, bind, Except.bind, pure, Except.pure]
    rw [hread]
    exact .ok trivial
  | time value =>
    have hread : (t.view files).attributes id = .error (.noMember "a time has no attributes") := by
      simp [view, MemoryTree.attributes, hnode, hslot, bind, Except.bind]
    rw [hread]
    exact .error (.inr (.noMember _))

/-- Content that cannot be read is in a file that cannot be. -/
theorem reported_of_data (hid : t.has id = true) {fault : Fault}
    (h : (t.view files).data id = .error fault) : (Failure.fault fault).Reported := by
  obtain ⟨node, -, hnode⟩ := exists_node_of_has hid
  simp only [view, data, hnode, bind, Except.bind] at h
  split at h
  · cases h
  · cases h
  · next path _ =>
    cases hread : files.read path with
    | ok bytes =>
      rw [hread] at h
      cases h
    | error cause =>
      rw [hread] at h
      obtain rfl : cause = fault := Except.error.inj h
      exact Files.Store.reported_of_read hread

theorem foreseen_readData (hid : t.has id = true) : Foreseen ((t.view files).readData id) := by
  unfold NodeTree.readData
  split
  · exact .ok trivial
  · next fault hdata =>
    have hreported := reported_of_data hid hdata
    cases fault.ofSystem with
    | true => exact .error (.inl (.query _))
    | false => exact .error (.inl hreported)

theorem textsOf_eq_error {names : List Json} {fault : Fault} (h : textsOf names = .error fault) :
    ∃ detail, fault = .wrongType detail := by
  fun_induction textsOf names with
  | case1 => cases h
  | case2 s rest ih =>
    cases hrest : textsOf rest with
    | ok texts =>
      rw [hrest] at h
      cases h
    | error cause =>
      rw [hrest] at h
      cases h
      exact ih hrest
  | case3 =>
    cases h
    exact ⟨_, rfl⟩

/-- A node has a path unless a name on the way to it is no text. -/
theorem foreseen_path (h : t.Linked) (hid : t.has id = true) :
    Foreseen ((t.path id).mapError Failure.fault) := by
  obtain ⟨n, hn⟩ := Option.isSome_iff_exists.1 hid
  obtain ⟨rfl, hlt⟩ := number?_eq_some_iff.1 hn
  obtain ⟨names, hway, -⟩ := h.exists_way hlt
  rw [h.path_eq hlt hway]
  cases htexts : textsOf names.reverse with
  | ok texts => exact .ok trivial
  | error fault =>
    obtain ⟨detail, rfl⟩ := textsOf_eq_error htexts
    exact yields_wrongType _

/-- What lies below a path are nodes. -/
theorem yields_idsBelow (h : t.Linked) (path : Option String) :
    Yields (fun ids => ∀ id ∈ ids, t.has id = true) (t.idsBelow path) := by
  have hhas (n : Nat) : ∀ id ∈ ids (t.below n), t.has id = true := by
    intro id hid
    obtain ⟨m, hm, rfl⟩ := List.mem_map.1 hid
    have hlt : m < t.size := LiesBelow.lt_size ((h.mem_below_iff).1 hm)
    exact Option.isSome_iff_exists.2 ⟨m, number?_eq_some_iff.2 ⟨rfl, hlt⟩⟩
  cases path with
  | none => exact .ok (hhas 0)
  | some path =>
    cases hfind : t.find? path with
    | none =>
      simp only [idsBelow, belowPath?, hfind, Option.map_none]
      exact .error (.inl (.query _))
    | some n =>
      simp only [idsBelow, belowPath?, hfind, Option.map_some]
      exact .ok (hhas n)

end MemoryTree
end

/-! ## Queries -/

section
variable {α : Type} {test : α → Outcome Bool} {as : List α}

theorem foreseen_keep (h : ∀ a ∈ as, Foreseen (test a)) : Foreseen (keep test as) := by
  induction as with
  | nil => exact .ok trivial
  | cons a rest ih =>
    obtain ⟨ha, hrest⟩ := List.forall_mem_cons.1 h
    exact ha.bind fun _ _ => (ih hrest).bind fun _ _ => .ok trivial

theorem foreseen_anyPasses (h : ∀ a ∈ as, Foreseen (test a)) : Foreseen (anyPasses test as) := by
  induction as with
  | nil => exact .ok trivial
  | cons a rest ih =>
    obtain ⟨ha, hrest⟩ := List.forall_mem_cons.1 h
    refine ha.bind fun answer _ => ?_
    cases answer with
    | true => exact .ok trivial
    | false => exact ih hrest

end

theorem Confined.foreseen {α : Type} {x : Outcome α} (h : Confined x) : Foreseen x := by
  rcases h with ⟨a, rfl⟩ | ⟨error, rfl⟩
  · exact .ok trivial
  · exact .error (.inl (.query error))

/-- A pattern is refused by a query, or for flags that exclude each other, or for a count. -/
theorem foreseen_patternFailure (kind : Query.PatternKind) (literal : String) (bytes : Bool)
    (pattern : List Char) (error : Regex.Error) :
    (patternFailure kind literal bytes pattern error).Reported ∨
      (patternFailure kind literal bytes pattern error).Unreported := by
  cases error with
  | fault cause position => exact .inl (.query _)
  | countTooLarge => exact .inr .countTooLarge
  | longCount digits => exact .inl (.badValue rfl)
  | wideAndAsciiFlags => exact .inl (.badValue rfl)
  | localeAndAsciiFlags => exact .inl (.badValue rfl)

theorem Matcher.foreseen_compile [Host] (settings : Settings) (method : Query.Method)
    (literal : String) : Foreseen (Matcher.compile settings method literal) := by
  unfold Matcher.compile
  split
  · exact .ok trivial
  · exact .ok trivial
  · split
    · exact .ok trivial
    · exact .error (foreseen_patternFailure ..)
  · exact .ok trivial

theorem Matcher.foreseen_acceptsName (m : Matcher) (name : Json) :
    Foreseen (m.acceptsName name) := by
  unfold Matcher.acceptsName
  split
  · exact .ok trivial
  · split
    · exact .ok trivial
    · exact yields_wrongType _
    · exact yields_wrongType _
    · split
      · exact .ok trivial
      · exact .error (.inr (.noMember _))

namespace ContentTest
variable [Host]

theorem foreseen_codecOf (name : Json) : Foreseen (codecOf name) := by
  unfold codecOf
  split
  · split
    · exact yields_badValue _
    · split
      · split
        · exact .ok trivial
        · exact .error (.inr (.notText _))
      · exact .error (.inr (.unknownEncoding _))
  · exact yields_wrongType _

theorem foreseen_needle (text : List Char) (name : Json) : Foreseen (needle text name) :=
  (foreseen_codecOf name).bind fun _ _ => foreseen_mapError fun _ _ => .inl (.badValue rfl)

theorem foreseen_needlesAfter (text : List Char) (names : List Json) (found : List Bytes) :
    Foreseen (needlesAfter text found names) := by
  induction names generalizing found with
  | nil => exact .ok trivial
  | cons name rest ih => exact (foreseen_needle text name).bind fun _ _ => ih _

theorem foreseen_compile (settings : Settings) (method : Query.DataMethod) (literal : String) :
    Foreseen (ContentTest.compile settings method literal) := by
  unfold ContentTest.compile
  split
  · exact (foreseen_needlesAfter _ _ _).map fun _ _ => trivial
  · dsimp only
    split
    · exact .ok trivial
    · exact .error (foreseen_patternFailure ..)

end ContentTest

namespace Query

theorem Leaf.foreseen_compile [Host] (settings : Settings) (l : Leaf) :
    Foreseen (l.compile settings) := by
  match l with
  | .name .name _ _ | .name .attributeName _ _ =>
    exact (Matcher.foreseen_compile _ _ _).map fun _ _ => trivial
  | .attribute _ _ _ _ =>
    refine (Matcher.foreseen_compile _ _ _).bind fun _ _ => ?_
    exact (Matcher.foreseen_compile _ _ _).bind fun _ _ => .ok trivial
  | .data _ _ => exact (ContentTest.foreseen_compile _ _ _).map fun _ _ => trivial

section
variable {t : MemoryTree} {files : Files.Store}

theorem foreseen_holds (test : LeafTest) {id : Json} (hid : t.has id = true) :
    Foreseen (test.holds (t.view files) id) := by
  match test with
  | .name matcher =>
    exact (MemoryTree.foreseen_readName hid).bind fun _ _ => matcher.foreseen_acceptsName _
  | .attributeName matcher =>
    refine (MemoryTree.foreseen_readAttributes hid).bind fun _ _ => ?_
    exact foreseen_anyPasses fun name _ => matcher.foreseen_acceptsName name
  | .attribute key value =>
    refine (MemoryTree.foreseen_readAttributes hid).bind fun _ _ => ?_
    have hkeys (entries : List (Json × AttributeValue)) :
        Foreseen (keep (fun entry => key.acceptsName entry.1) entries) :=
      foreseen_keep fun entry _ => key.foreseen_acceptsName entry.1
    exact (hkeys _).bind fun _ _ => .ok trivial
  | .data test =>
    refine (MemoryTree.foreseen_readData hid).bind fun content _ => ?_
    cases content <;> exact .ok trivial

variable [Host]

theorem Leaf.foreseen_select (candidates : List Json) (settings : Settings) (l : Leaf) :
    Foreseen (l.select ⟨t.view files, candidates, settings⟩) := by
  refine (l.foreseen_compile settings).bind fun test _ => foreseen_keep fun id _ => ?_
  unfold LeafTest.selects
  split
  · next hid => exact foreseen_holds test hid
  · exact .ok trivial

theorem Expr.foreseen_select (candidates : List Json) (settings : Settings) (e : Expr) :
    Foreseen (e.select ⟨t.view files, candidates, settings⟩) := by
  induction e with
  | leaf l => exact l.foreseen_select candidates settings
  | join c left right ihl ihr => exact ihl.bind fun _ _ => ihr.bind fun _ _ => .ok trivial
  | group inner ih => exact ih

theorem foreseen_evaluate (candidates : List Json) (query : String) (settings : Settings) :
    Foreseen (evaluate (t.view files) candidates query settings) := by
  refine (confined_parse query).foreseen.bind fun e _ => ?_
  split
  · exact e.foreseen_select _ settings
  · exact yields_wrongType _

end
end Query

/-! ## Reports -/

section
variable {t : MemoryTree} {files : Files.Store}

/-- A query selects nodes. -/
theorem MemoryTree.yields_select [Host] (h : t.Linked) (path : Option String) (query : String)
    (settings : Settings) : Yields (fun found => ∀ id ∈ found, t.has id = true)
      (t.select (t.view files) path query settings) := by
  refine (yields_idsBelow h path).bind fun ids hids => ?_
  refine (Query.foreseen_evaluate ids query settings).strengthen fun found hfound _ id hid => ?_
  obtain ⟨e, -, -, hselect⟩ := Query.evaluate_eq_ok_iff.1 hfound
  have hmem := Query.Expr.select_subset hselect hid
  exact hids id (Selection.additions_subset [] ids hmem)

theorem Summary.foreseen_attributeCount (ids : List Json) :
    Foreseen (attributeCount (t.view files) ids) := by
  induction ids with
  | nil => exact .ok trivial
  | cons id rest ih =>
    unfold attributeCount
    split
    · next hid =>
      exact (MemoryTree.foreseen_readAttributes hid).bind fun _ _ => ih.bind fun _ _ => .ok trivial
    · exact ih

/-- What is found with content are nodes. -/
theorem Summary.yields_dataNodes (ids : List Json) :
    Yields (fun nodes => ∀ id ∈ nodes.found, t.has id = true) (dataNodes (t.view files) ids) := by
  induction ids with
  | nil => exact .ok (List.forall_mem_nil _)
  | cons id rest ih =>
    unfold dataNodes
    split
    · next hid =>
      split
      · refine ih.bind fun more hmore => ?_
        split
        · exact .ok (List.forall_mem_cons.2 ⟨hid, hmore⟩)
        · exact .ok hmore
      · next fault hdata =>
        split
        · exact ih.bind fun more hmore => .ok hmore
        · exact .error (.inl (MemoryTree.reported_of_data hid hdata))
    · exact ih

/-- Times are found among the attributes of nodes. -/
theorem Timeline.yields_times (ids : List Json) :
    Yields (fun entries => ∀ e ∈ entries, t.has e.id = true) (times (t.view files) ids) := by
  induction ids with
  | nil => exact .ok (List.forall_mem_nil _)
  | cons id rest ih =>
    unfold times
    split
    · next hid =>
      refine (MemoryTree.foreseen_readAttributes hid).bind fun attributes _ => ?_
      refine ih.bind fun more hmore => ?_
      refine .ok (List.forall_mem_append.2 ⟨fun e he => ?_, hmore⟩)
      rw [id_of_mem_timesOf he]
      exact hid
    · exact ih

theorem Timeline.mem_of_mem_sorted {w : Window} {entries : List TimelineEntry} {e : TimelineEntry}
    (h : e ∈ sorted w entries) : e ∈ entries :=
  List.mem_of_mem_filter (List.mem_mergeSort.1 h)

/-- The entries of a timeline belong to nodes. -/
theorem MemoryTree.yields_timeline (h : t.Linked) (path : Option String) (window : Window) :
    Yields (fun entries => ∀ e ∈ entries, t.has e.id = true)
      (t.timeline (t.view files) path window) := by
  refine (yields_idsBelow h path).bind fun ids _ => ?_
  unfold Timeline.ofNodes
  split
  · exact (Timeline.yields_times ids).map fun entries hall e he =>
      hall e (Timeline.mem_of_mem_sorted he)
  · exact yields_badValue _

end
end NodeQuery
