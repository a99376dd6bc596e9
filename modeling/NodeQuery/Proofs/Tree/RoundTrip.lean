import NodeQuery.CommandLine.Run
import NodeQuery.Proofs.Tree.Ascent
import NodeQuery.Proofs.Tree.Descent
/-!
From a node to its path and back. A path is made going up and followed going down, and a first name
in it that is the root's counts as the root's. So where siblings have distinct names the path of a
node leads back to the node, with one exception: the nodes within a child of the root that is called
like the root (`find?_path_iff`). The same holds of the paths that a run prints.
-/
namespace NodeQuery.MemoryTree

open CommandLine

/-- All nodes are called by texts that can stand in a path: not empty and without a slash. -/
def NamedForPaths (t : MemoryTree) : Prop :=
  ∀ node ∈ t.nodes, ∃ s : String, node.name = .text s ∧ s ≠ "" ∧ '/' ∉ s.toList

/-- A node lies within a child of the root that has the name of the root. -/
def UnderNamesake (t : MemoryTree) (n : Nat) : Prop :=
  ∃ child, t.IsChild child 0 ∧ t.nameOf? child = t.nameOf? 0 ∧ t.LiesWithin n child

/-! ## Names in a path -/

theorem pathNames_join {texts : List String} (h : ∀ s ∈ texts, s ≠ "" ∧ '/' ∉ s.toList) :
    pathNames ("/" ++ "/".intercalate texts) = texts := by
  have hchars : ("/" ++ "/".intercalate texts).toList =
      '/' :: ['/'].intercalate (texts.map String.toList) := by
    rw [String.toList_append, String.toList_intercalate]
    rfl
  have hsplit : ('/' :: ['/'].intercalate (texts.map String.toList)).splitOn '/' =
      [] :: (['/'].intercalate (texts.map String.toList)).splitOn '/' := by
    rw [← List.nil_append ('/' :: _), List.splitOn_append_cons_self]
    rfl
  have hpieces : ((['/'].intercalate (texts.map String.toList)).splitOn '/').filter (· ≠ []) =
      texts.map String.toList := by
    cases texts with
    | nil => rfl
    | cons s rest =>
      have hfree : ∀ l ∈ (s :: rest).map String.toList, '/' ∉ l := by
        intro l hl
        obtain ⟨name, hname, rfl⟩ := List.mem_map.1 hl
        exact (h name hname).2
      rw [List.splitOn_intercalate '/' hfree (by simp), List.filter_eq_self]
      intro l hl
      obtain ⟨name, hname, rfl⟩ := List.mem_map.1 hl
      simpa using (h name hname).1
  rw [pathNames, hchars, hsplit, List.filter_cons_of_neg (by simp), hpieces, List.map_map]
  simp [Function.comp_def]

section
variable {t : MemoryTree} {n : Nat} {names : List Json}

theorem NamedForPaths.exists_texts (hnames : t.NamedForPaths) {property : Nat → Prop} {first : Nat}
    (hway : t.Way property first names n) :
    ∃ texts : List String, names = texts.map .text ∧ ∀ s ∈ texts, s ≠ "" ∧ '/' ∉ s.toList := by
  induction hway with
  | here n => exact ⟨[], rfl, by simp⟩
  | down _ hname _ _ ih =>
    obtain ⟨texts, rfl, htexts⟩ := ih
    obtain ⟨node, hnode, rfl⟩ := nameOf?_eq_some_iff.1 hname
    obtain ⟨s, hs, hfit⟩ := hnames node (List.mem_of_getElem? hnode)
    exact ⟨s :: texts, by rw [hs, List.map_cons], List.forall_mem_cons.2 ⟨hfit, htexts⟩⟩

/-- A way leads to every node within another one. -/
theorem exists_way_of_liesWithin {first : Nat} (hwithin : t.LiesWithin n first) :
    ∃ names, t.Way (fun _ => True) first names n := by
  induction hwithin with
  | refl => exact ⟨[], .here n⟩
  | tail _ hchild ih =>
    obtain ⟨names, hway⟩ := ih
    obtain ⟨name, hname⟩ := exists_nameOf? (lt_size_of_parentOf? hchild)
    exact ⟨name :: names, .down hchild hname trivial hway⟩

/-- The first name on the way to a node tells whether the node is under a namesake of the root. -/
theorem Linked.underNamesake_iff (h : t.Linked) {property : Nat → Prop}
    (hway : t.Way property 0 names n) : t.UnderNamesake n ↔ names.head? = t.nameOf? 0 := by
  constructor
  · rintro ⟨child, hchild, hsame, hwithin⟩
    obtain ⟨rest, hrest⟩ := exists_way_of_liesWithin hwithin
    obtain ⟨name, hname⟩ := exists_nameOf? (lt_size_of_parentOf? hchild)
    obtain rfl : names = name :: rest := h.way_unique hway (.down hchild hname trivial hrest)
    rw [List.head?_cons, ← hname, hsame]
  · intro hhead
    cases hway with
    | here =>
      obtain ⟨root, hroot⟩ := h.exists_rootName
      rw [hroot] at hhead
      cases hhead
    | @down _ child _ _ _ hchild hname _ hrest =>
      rw [List.head?_cons, ← hname] at hhead
      exact ⟨child, hchild, hhead, hrest.liesWithin⟩

/-! ## Following a path -/

/-- The path of a node consists of texts that can be told apart in it. -/
theorem Linked.exists_path (h : t.Linked) (hnames : t.NamedForPaths) (hn : n < t.size)
    {property : Nat → Prop} (hway : t.Way property 0 names n) :
    ∃ path, t.path (.int n) = .ok path ∧ path ≠ "" ∧ (pathNames path).map Json.text = names := by
  obtain ⟨texts, rfl, htexts⟩ := hnames.exists_texts hway
  refine ⟨"/" ++ "/".intercalate texts, h.path_of_texts hn hway, ?_, ?_⟩
  · intro hempty
    have hlength := congrArg String.toList hempty
    simp at hlength
  · rw [pathNames_join htexts]

/-- A path made of the names on the way to a node leads to the node, unless its first name counts
as the root's. -/
theorem Linked.find?_iff_of_names (h : t.Linked) (hsiblings : t.SiblingsDiffer)
    {property : Nat → Prop} (hway : t.Way property 0 names n) {path : String}
    (hpath : (pathNames path).map Json.text = names) :
    t.find? path = some n ↔ ¬ t.UnderNamesake n := by
  rw [h.find?_eq_some_iff, h.underNamesake_iff hway]
  constructor
  · rintro ⟨others, hother, ⟨hsame, hhead⟩ | ⟨name, -, hlonger⟩⟩
    · rwa [← hpath, hsame]
    · -- the way would have to be longer than itself
      obtain rfl : names = others := h.way_unique hway hother
      have hlength := congrArg List.length (hpath.symm.trans hlonger)
      simp at hlength
  · intro hhead
    refine ⟨names, hway.mono fun _ _ hparent _ => hsiblings.firstOfName hparent, .inl ?_⟩
    exact ⟨hpath, hhead⟩

/-! ## Printed paths -/

/-- The paths of nodes are printed one on a line, in the order of the nodes. -/
theorem run_printNodes (printer : Printer) {pathOf : Nat → String} {ns : List Nat}
    (h : ∀ n ∈ ns, t.path (.int n) = .ok (pathOf n)) (console : Console) :
    (printNodes printer t (ids ns)).run.run console = (.ok (), { console with
      out := console.out ++
        String.join (ns.map fun n => printer.style.highlight (pathOf n) ++ "\n") }) := by
  induction ns generalizing console with
  | nil =>
    rw [List.map_nil, String.join_nil, String.append_empty]
    rfl
  | cons n rest ih =>
    obtain ⟨hn, hrest⟩ := List.forall_mem_cons.1 h
    have hstep : (printNodes printer t (ids (n :: rest))).run.run console =
        (printNodes printer t (ids rest)).run.run
          { console with out := console.out ++ printer.style.highlight (pathOf n) ++ "\n" } := by
      simp only [printNodes, ids, List.map_cons, List.forM_eq_forM, List.forM_cons, hn]
      rfl
    rw [hstep, ih hrest, List.map_cons, String.join_cons]
    simp only [String.append_assoc]

end

/-- Where siblings have distinct names that can stand in a path, every node has a path, and the path
leads back to the node if and only if the node is not under a namesake of the root. If it does,
exactly the nodes below the node are below the path, each once. A run that uses no colours prints
these paths, and takes each of them as it is when it is given one as an argument. -/
theorem find?_path_iff {t : MemoryTree} (h : t.Built) (hsiblings : t.SiblingsDiffer)
    (hnames : t.NamedForPaths) :
    ∃ pathOf : Nat → String,
      (∀ n < t.size, t.path (.int n) = .ok (pathOf n) ∧
        (t.find? (pathOf n) = some n ↔ ¬ t.UnderNamesake n) ∧
        (¬ t.UnderNamesake n → ∃ below, t.belowPath? (some (pathOf n)) = some below ∧
          below.Nodup ∧ ∀ m, m ∈ below ↔ t.LiesBelow m n) ∧
        ∀ args : Arguments, args.path = some (pathOf n) → nonEmptyPath args = some (pathOf n)) ∧
      ∀ (debug : Bool) (ns : List Nat) (console : Console), (∀ n ∈ ns, n < t.size) →
        (printNodes ⟨⟨false⟩, debug⟩ t (ids ns)).run.run console = (.ok (), { console with
          out := console.out ++ String.join (ns.map fun n => pathOf n ++ "\n") }) := by
  have hlinked := h.linked
  have hpaths : ∀ n < t.size, ∃ path, t.path (.int n) = .ok path ∧ path ≠ "" ∧
      (t.find? path = some n ↔ ¬ t.UnderNamesake n) := by
    intro n hn
    obtain ⟨names, hway, -⟩ := hlinked.exists_way hn
    obtain ⟨path, hpath, hne, hnamed⟩ := hlinked.exists_path hnames hn hway
    exact ⟨path, hpath, hne, hlinked.find?_iff_of_names hsiblings hway hnamed⟩
  choose! pathOf hpath hne hfind using hpaths
  refine ⟨pathOf, fun n hn => ⟨hpath n hn, hfind n hn, fun hunder => ?_, fun args hargs => ?_⟩, ?_⟩
  · refine ⟨t.below n, ?_, hlinked.nodup_below n, fun m => hlinked.mem_below_iff⟩
    rw [belowPath?, (hfind n hn).2 hunder, Option.map_some]
  · rw [nonEmptyPath, hargs, Option.filter_some, if_pos (by simpa using hne n hn)]
  · intro debug ns console hns
    rw [run_printNodes ⟨⟨false⟩, debug⟩ (fun n hn => hpath n (hns n hn))]
    simp only [Style.highlight_plain]

/-- The last node of the line is called like the root, but is no child of it. -/
theorem find?_path_iff_line :
    line.Built ∧ line.SiblingsDiffer ∧ line.NamedForPaths ∧ 2 < line.size ∧
    ¬ line.UnderNamesake 2 ∧
    ∃ pathOf : Nat → String, line.path (.int 2) = .ok (pathOf 2) ∧ pathOf 2 = "/a/root" ∧
      line.find? (pathOf 2) = some 2 ∧
      ∃ below, line.belowPath? (some (pathOf 2)) = some below ∧ below.Nodup ∧
        ∀ m, m ∈ below ↔ line.LiesBelow m 2 := by
  have hbuilt : line.Built := ((Built.root _).push (by decide) ..).push (by decide) ..
  have hsiblings : line.SiblingsDiffer := by
    intro n m p hn hm _
    rw [line_parentOf? hn, line_parentOf? hm]
  have hnames : line.NamedForPaths := by
    simp [NamedForPaths, line, ofRoot, MemoryTree.push]
  have hunder : ¬ line.UnderNamesake 2 := by
    rintro ⟨child, hchild, hsame, -⟩
    rw [line_parentOf? hchild] at hsame
    have hnamed : some (Json.text "a") = some (Json.text "root") := hsame
    simp at hnamed
  have hsize : 2 < line.size := by decide
  obtain ⟨pathOf, hpaths, -⟩ := find?_path_iff hbuilt hsiblings hnames
  obtain ⟨hpath, hfind, hbelow, -⟩ := hpaths 2 hsize
  have hpathOf : pathOf 2 = "/a/root" := Except.ok.inj (hpath.symm.trans rfl)
  exact ⟨hbuilt, hsiblings, hnames, hsize, hunder, pathOf, hpath, hpathOf, hfind.2 hunder,
    hbelow hunder⟩

/-- Both paths below a namesake of the root lead elsewhere: that of the namesake to the root, that
of the node below it nowhere. -/
theorem not_find?_path :
    namesake.Built ∧ namesake.SiblingsDiffer ∧ namesake.NamedForPaths ∧
    namesake.path (.int 1) = .ok "/root" ∧ namesake.find? "/root" = some 0 ∧
    namesake.path (.int 2) = .ok "/root/x" ∧ namesake.find? "/root/x" = none := by
  have hparent : ∀ n p, namesake.parentOf? n = some p → n = p + 1 := by
    intro n p h
    rw [namesake, parentOf?_push, parentOf?_push, parentOf?_ofRoot, size_push, size_ofRoot] at h
    grind
  refine ⟨((Built.root _).push (by decide) ..).push (by decide) .., ?_, ?_, rfl, ?_, rfl, ?_⟩
  · intro n m p hn hm _
    rw [hparent n p hn, hparent m p hm]
  · simp [NamedForPaths, namesake, ofRoot, MemoryTree.push]
  · decide
  · decide

end NodeQuery.MemoryTree
