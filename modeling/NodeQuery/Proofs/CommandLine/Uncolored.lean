import NodeQuery.Proofs.CommandLine.Colors
import NodeQuery.Proofs.Number.Numeral
/-!
Results printed without colours. Times, numbers and the words of reports have no escape characters,
so there are none in what is printed if the names of nodes and of attributes and the messages have
none (`Printing.clean`). Then deleting the codes from what is printed with colours, in whatever
order, gives what is printed without (`printEach_uncolored`).
-/
namespace NodeQuery.CommandLine
open Activity

/-! ## Texts without escape characters -/

theorem escapeFree_append_iff {s t : String} :
    EscapeFree (s ++ t) ↔ EscapeFree s ∧ EscapeFree t := by
  rw [EscapeFree, String.toList_append, List.mem_append, not_or, EscapeFree, EscapeFree]

theorem escapeFree_of_isDigit {text : String} (h : ∀ c ∈ text.toList, c.isDigit = true) :
    EscapeFree text := by
  intro hmem
  exact absurd (h _ hmem) (by decide)

theorem escapeFree_toString (n : Nat) : EscapeFree (toString n) :=
  escapeFree_of_isDigit fun _ => Binary64.isDigit_of_mem_toString

theorem escapeFree_intercalate {separator : String} {texts : List String}
    (hseparator : EscapeFree separator) (h : ∀ text ∈ texts, EscapeFree text) :
    EscapeFree (separator.intercalate texts) := by
  induction texts with
  | nil =>
    rw [String.intercalate_nil]
    decide
  | cons text rest ih =>
    obtain ⟨htext, hrest⟩ := List.forall_mem_cons.1 h
    cases rest with
    | nil => rwa [String.intercalate_singleton]
    | cons next rest =>
      rw [String.intercalate_cons_cons, escapeFree_append_iff, escapeFree_append_iff]
      exact ⟨⟨htext, hseparator⟩, ih hrest⟩

/-! ## Times -/

theorem escapeFree_padded (width n : Nat) : EscapeFree (Stamp.padded width n) := by
  refine escapeFree_of_isDigit fun c hc => ?_
  simp only [Stamp.padded, String.toList_ofList, List.mem_append] at hc
  rcases hc with hc | hc
  · rw [List.eq_of_mem_replicate hc]
    rfl
  · exact Binary64.isDigit_of_mem_toString hc

theorem escapeFree_fractionText (microsecond : Nat) :
    EscapeFree (Stamp.fractionText microsecond) := by
  unfold Stamp.fractionText
  split
  · decide
  · exact escapeFree_append_iff.2 ⟨by decide, escapeFree_padded _ _⟩

theorem escapeFree_offsetText (offset : Int) : EscapeFree (Stamp.offsetText offset) := by
  have hsign : EscapeFree (if offset < 0 then "-" else "+") := by split <;> decide
  unfold Stamp.offsetText
  simp only [escapeFree_append_iff]
  refine ⟨⟨⟨⟨⟨hsign, escapeFree_padded _ _⟩, by decide⟩, escapeFree_padded _ _⟩, ?_⟩,
    escapeFree_fractionText _⟩
  split
  · decide
  · exact escapeFree_append_iff.2 ⟨by decide, escapeFree_padded _ _⟩

theorem escapeFree_isoText (t : Stamp) : EscapeFree t.isoText := by
  have hoffset : EscapeFree ((t.offset.map Stamp.offsetText).getD "") := by
    cases t.offset with
    | none => decide
    | some offset => exact escapeFree_offsetText offset
  simp only [Stamp.isoText, Stamp.textWith, escapeFree_append_iff, escapeFree_padded,
    escapeFree_fractionText, hoffset]
  decide

/-! ## Paths and errors -/

/-- The names of nodes have no escape characters. -/
def NamesFree (t : MemoryTree) : Prop :=
  ∀ node ∈ t.nodes, ∀ s, node.name = .text s → EscapeFree s

section
variable {t : MemoryTree} {id : Json}

theorem mem_nodes_of_node {node : Node} (h : t.node id = .ok node) : node ∈ t.nodes := by
  obtain ⟨i, -, h⟩ := Outcome.bind_eq_ok_iff.1 h
  split at h
  · next hfound =>
    cases h
    exact List.mem_of_getElem? hfound
  · cases h

/-- The names on the way up are names of nodes. -/
theorem exists_node_of_namesUp {fuel : Nat} {names : List Json}
    (h : t.namesUp fuel id = .ok names) : ∀ name ∈ names, ∃ node ∈ t.nodes, node.name = name := by
  induction fuel generalizing id names with
  | zero =>
    cases h
    exact List.forall_mem_nil _
  | succ fuel ih =>
    unfold MemoryTree.namesUp at h
    split at h
    · cases h
      exact List.forall_mem_nil _
    · obtain ⟨node, hnode, h⟩ := Outcome.bind_eq_ok_iff.1 h
      have hfirst : ∃ found ∈ t.nodes, found.name = node.name :=
        ⟨node, mem_nodes_of_node hnode, rfl⟩
      split at h
      · obtain ⟨above, hup, h⟩ := Outcome.bind_eq_ok_iff.1 h
        cases h
        exact List.forall_mem_cons.2 ⟨hfirst, ih hup⟩
      · cases h
        exact List.forall_mem_cons.2 ⟨hfirst, List.forall_mem_nil _⟩

theorem eq_map_of_textsOf {names : List Json} {texts : List String}
    (h : MemoryTree.textsOf names = .ok texts) : names = texts.map .text := by
  fun_induction MemoryTree.textsOf names generalizing texts with
  | case1 =>
    cases h
    rfl
  | case2 s rest ih =>
    obtain ⟨more, hrest, rfl⟩ := Outcome.map_eq_ok_iff.1 h
    rw [List.map_cons, ← ih hrest]
  | case3 => cases h

theorem escapeFree_path (h : NamesFree t) {path : String} (hpath : t.path id = .ok path) :
    EscapeFree path := by
  obtain ⟨names, hnames, hpath⟩ := Outcome.bind_eq_ok_iff.1 hpath
  obtain ⟨texts, htexts, hpath⟩ := Outcome.bind_eq_ok_iff.1 hpath
  cases hpath
  refine escapeFree_append_iff.2 ⟨by decide, escapeFree_intercalate (by decide) ?_⟩
  intro text htext
  have hname : Json.text text ∈ names := by
    rw [eq_map_of_textsOf htexts]
    exact List.mem_map_of_mem (List.mem_reverse.1 htext)
  obtain ⟨node, hnode, hsame⟩ := exists_node_of_namesUp hnames _ hname
  exact h node hnode text hsame

end

theorem escapeFree_text {e : QueryError} (h : EscapeFree e.message) : EscapeFree e.text := by
  unfold QueryError.text
  split
  · simp only [escapeFree_append_iff]
    exact ⟨⟨⟨h, by decide⟩, escapeFree_toString _⟩, by decide⟩
  · exact h

theorem escapeFree_label (e : QueryError) :
    EscapeFree (String.ofList (e.label.toList.map Char.toLower)) := by
  cases e <;> simp only [QueryError.label] <;> decide

/-! ## Parts of a run -/

/-- No escape character has been printed. -/
structure Console.EscapeFree (console : Console) : Prop where
  out : CommandLine.EscapeFree console.out
  err : CommandLine.EscapeFree console.err

namespace Activity

/-- A part of a run prints no escape characters, and its result has a property. -/
def Clean {α : Type} (p : α → Prop) (activity : Activity α) : Prop :=
  ∀ before : Console, before.EscapeFree →
    (∀ a, (activity.run.run before).1 = .ok a → p a) ∧ (activity.run.run before).2.EscapeFree

section
variable {α β : Type} {p : α → Prop} {q : β → Prop}

theorem clean_pure {a : α} (h : p a) : Clean p (pure a) := by
  refine fun before hbefore => ⟨fun b hb => ?_, hbefore⟩
  cases hb
  exact h

theorem Clean.bind {activity : Activity α} {f : α → Activity β} (h : Clean p activity)
    (hnext : ∀ a, p a → Clean q (f a)) : Clean q (activity >>= f) := by
  intro before hbefore
  obtain ⟨hresult, hafter⟩ := h before hbefore
  rw [run_bind]
  cases hrun : activity.run.run before with
  | mk outcome after =>
    rw [hrun] at hresult hafter
    cases outcome with
    | ok a => exact hnext a (hresult a rfl) after hafter
    | error failure => exact ⟨nofun, hafter⟩

theorem clean_ofOutcome {x : Outcome α} (h : ∀ a, x = .ok a → p a) : Clean p (ofOutcome x) := by
  intro before hbefore
  cases x with
  | error failure => exact ⟨nofun, hbefore⟩
  | ok a =>
    refine ⟨fun b hb => ?_, hbefore⟩
    cases hb
    exact h a rfl

theorem clean_print {line : String} (h : EscapeFree line) : Clean (fun _ => True) (print line) := by
  refine fun before hbefore => ⟨fun _ _ => trivial, ?_, hbefore.err⟩
  exact escapeFree_append_iff.2 ⟨escapeFree_append_iff.2 ⟨hbefore.out, h⟩, by decide⟩

theorem clean_printError {line : String} (h : EscapeFree line) :
    Clean (fun _ => True) (printError line) := by
  refine fun before hbefore => ⟨fun _ _ => trivial, hbefore.out, ?_⟩
  exact escapeFree_append_iff.2 ⟨escapeFree_append_iff.2 ⟨hbefore.err, h⟩, by decide⟩

theorem clean_forM {items : List α} {f : α → Activity Unit}
    (h : ∀ a ∈ items, Clean (fun _ => True) (f a)) : Clean (fun _ => True) (items.forM f) := by
  induction items with
  | nil => exact clean_pure trivial
  | cons a rest ih =>
    obtain ⟨ha, hrest⟩ := List.forall_mem_cons.1 h
    exact ha.bind fun _ _ => ih hrest

end
end Activity

/-! ## Printing -/

/-- Something to print. -/
inductive Printing where
  | nodes (tree : MemoryTree) (ids : List Json)
  | timeline (tree : MemoryTree) (entries : List TimelineEntry)
  | count (label : String) (n : Nat)
  | success (message : String)
  | failure (error : QueryError)

namespace Printing

/-- Prints a result, a message or an error. -/
def print (printer : Printer) : Printing → Activity Unit
  | nodes tree ids => printNodes printer tree ids
  | timeline tree entries => printTimeline printer tree entries
  | count label n => printCount printer label n
  | success message => Activity.print (printer.style.green message)
  | failure error => (failureLine? printer (.query error)).forM printError

/-- The names and the messages in what is to be printed have no escape characters. -/
def EscapeFree : Printing → Prop
  | nodes tree _ => NamesFree tree
  | timeline tree entries =>
    NamesFree tree ∧ ∀ e ∈ entries, CommandLine.EscapeFree e.name.display
  | count label _ => CommandLine.EscapeFree label
  | success message => CommandLine.EscapeFree message
  | failure error => CommandLine.EscapeFree error.message

theorem tracks (debug : Bool) (item : Printing) :
    Tracks (item.print ⟨.colors, debug⟩) (item.print ⟨.plain, debug⟩) := by
  cases item with
  | nodes tree ids => exact tracks_printNodes debug tree ids
  | timeline tree entries => exact tracks_printTimeline debug tree entries
  | count label n => exact tracks_printCount debug label n
  | success message =>
    exact tracks_print (Style.painted_paint greenCode (by decide) (.refl message))
  | failure error =>
    rcases painted_failureLine? debug (.query error) with ⟨hnone, -⟩ | ⟨line, line', h, h', hline⟩
    · cases hnone
    · simp only [print, h, h']
      exact tracks_printError hline

theorem clean (debug : Bool) {item : Printing} (h : item.EscapeFree) :
    Clean (fun _ => True) (item.print ⟨.plain, debug⟩) := by
  have hpath {tree : MemoryTree} (hnames : NamesFree tree) (id : Json) :
      Clean CommandLine.EscapeFree (ofOutcome ((tree.path id).mapError Failure.fault)) :=
    clean_ofOutcome fun path hpath =>
      escapeFree_path hnames (Outcome.mapError_eq_ok_iff.1 hpath)
  cases item with
  | nodes tree ids =>
    refine clean_forM fun id _ => (hpath h id).bind fun path hfree => clean_print ?_
    rwa [Style.plain, Style.highlight_plain]
  | timeline tree entries =>
    refine clean_forM fun e he => (hpath h.1 e.id).bind fun path hfree => clean_print ?_
    rw [Style.plain, Style.highlight_plain, Style.bold, Style.paint_plain]
    simp only [escapeFree_append_iff]
    exact ⟨⟨⟨⟨escapeFree_isoText _, by decide⟩, h.2 e he⟩, by decide⟩, hfree⟩
  | count label n =>
    refine clean_print ?_
    rw [Style.plain, Style.bold, Style.paint_plain]
    simp only [escapeFree_append_iff]
    exact ⟨⟨h, by decide⟩, escapeFree_toString n⟩
  | success message => exact clean_print h
  | failure error =>
    refine clean_printError ?_
    rw [Style.plain, Style.red, Style.paint_plain]
    simp only [escapeFree_append_iff]
    exact ⟨⟨⟨by decide, escapeFree_label error⟩, by decide⟩, escapeFree_text h⟩

end Printing

/-- Prints one thing after another. A failure ends the printing of what it belongs to, and what
comes next is printed all the same. -/
def printEach (printer : Printer) : List Printing → Console → List (Outcome Unit) × Console
  | [], console => ([], console)
  | item :: items, console =>
    let (outcome, console) := (item.print printer).run.run console
    let (outcomes, console) := printEach printer items console
    (outcome :: outcomes, console)

theorem printEach_painted (debug : Bool) (items : List Printing) {before before' : Console}
    (h : before.Painted before') :
    (printEach ⟨.colors, debug⟩ items before).1 = (printEach ⟨.plain, debug⟩ items before').1 ∧
      (printEach ⟨.colors, debug⟩ items before).2.Painted
        (printEach ⟨.plain, debug⟩ items before').2 := by
  induction items generalizing before before' with
  | nil => exact ⟨rfl, h⟩
  | cons item items ih =>
    obtain ⟨hresult, hafter⟩ := item.tracks debug before before' h
    obtain ⟨hresults, hpainted⟩ := ih hafter
    exact ⟨congrArg₂ List.cons hresult hresults, hpainted⟩

theorem printEach_escapeFree (debug : Bool) {items : List Printing}
    (h : ∀ item ∈ items, item.EscapeFree) {before : Console} (hbefore : before.EscapeFree) :
    (printEach ⟨.plain, debug⟩ items before).2.EscapeFree := by
  induction items generalizing before with
  | nil => exact hbefore
  | cons item items ih =>
    obtain ⟨hitem, hitems⟩ := List.forall_mem_cons.1 h
    exact ih hitems (Printing.clean debug hitem before hbefore).2

/-- The last name of a path is what stands behind its last slash. -/
theorem exists_splitName (path : String) : ∃ parent name, path = parent ++ name ∧
    '/' ∉ name.toList ∧ (parent = "" ∨ ∃ front, parent = front ++ "/") ∧
    Style.splitName path = (parent, name) := by
  refine ⟨_, _, (Style.splitName_append path).symm, ?_, ?_, rfl⟩
  · intro hmem
    simp only [Style.splitName, String.toList_ofList, List.mem_reverse] at hmem
    simpa using List.mem_takeWhile_imp hmem
  · simp only [Style.splitName]
    have hhead := List.head?_dropWhile_not (· ≠ '/') path.toList.reverse
    cases hdrop : path.toList.reverse.dropWhile (· ≠ '/') with
    | nil => exact .inl rfl
    | cons c rest =>
      rw [hdrop] at hhead
      obtain rfl : c = '/' := by simpa using hhead
      refine .inr ⟨String.ofList rest.reverse, ?_⟩
      rw [List.reverse_cons, String.ofList_append]

/-- Whatever is printed, one thing after another, comes to the same ends with colours and without,
and if the names and the messages in it have no escape characters, deleting all codes from what is
printed with colours leaves what is printed without. A path is divided for this after its last
slash, so that its last name can be highlighted, and put together again. -/
theorem printEach_uncolored :
    (∀ (args : Arguments) (items : List Printing) (files : Files.Store),
      (∀ item ∈ items, item.EscapeFree) →
      let colored := printEach args.inColors.printer items { files }
      let plain := printEach args.plain.printer items { files }
      colored.1 = plain.1 ∧ colored.2.files = plain.2.files ∧
        Uncolored colored.2.out plain.2.out ∧ Uncolored colored.2.err plain.2.err) ∧
    ∀ path : String, ∃ parent name, path = parent ++ name ∧ '/' ∉ name.toList ∧
      (parent = "" ∨ ∃ front, parent = front ++ "/") ∧
      (∀ style : Style, style.highlight path = parent ++ style.bold (style.green name)) ∧
      (EscapeFree path → Uncolored (Style.colors.highlight path) path) := by
  constructor
  · intro args items files hfree
    have hempty : Console.Painted { files } { files } := ⟨.refl "", .refl "", rfl⟩
    have hnothing : EscapeFree "" := by decide
    have hclean : Console.EscapeFree { files } := ⟨hnothing, hnothing⟩
    obtain ⟨hresults, hpainted⟩ := printEach_painted args.debug items hempty
    obtain ⟨hout, herr⟩ := printEach_escapeFree args.debug hfree hclean
    exact ⟨hresults, hpainted.files, hpainted.out.uncolored hout, hpainted.err.uncolored herr⟩
  · intro path
    obtain ⟨parent, name, hpath, hname, hparent, hsplit⟩ := exists_splitName path
    refine ⟨parent, name, hpath, hname, hparent, fun style => ?_, fun hfree => ?_⟩
    · rw [Style.highlight, hsplit]
    · have hpainted := Style.painted_highlight path
      rw [Style.plain, Style.highlight_plain] at hpainted
      exact hpainted.uncolored hfree

/-- A photo among documents, below an unnamed root. -/
def documents : MemoryTree :=
  ((MemoryTree.ofRoot (.text "")).push 0 (.text "docs") .nil none).push 1 (.text "a.jpg") .nil none

/-- Something of every kind: nodes, the last of which is not there, a timeline, a number, a message
and errors. -/
def printings : List Printing :=
  [.nodes documents [.int 0, .int 2, .int 7],
    .timeline documents
      [⟨⟨2024, 5, 1, 12, 0, 0, 250000, some 7200000000⟩, .text "exif.date", .int 2⟩],
    .count "attributes" 12, .success "Saved", .failure (.invalidPath "/x"),
    .failure (.malformed .openLiteral 3)]

theorem printEach_uncolored_printings :
    (∀ item ∈ printings, item.EscapeFree) ∧ EscapeFree "/" ∧
      Uncolored (printEach ({} : Arguments).inColors.printer printings { files := .empty }).2.out
        ("/\n/docs/a.jpg\n2024-05-01T12:00:00.250000+02:00\texif.date\t/docs/a.jpg\n" ++
          "attributes: 12\nSaved\n") ∧
      Uncolored (printEach ({} : Arguments).inColors.printer printings { files := .empty }).2.err
        ("Error: invalid_path: Invalid path '/x'\n" ++
          "Error: syntax: Unterminated or empty literal (at position 3)\n") ∧
      Uncolored (Style.colors.highlight "/") "/" := by
  have hnames : documents.nodes.map Node.name = [.text "", .text "docs", .text "a.jpg"] := rfl
  have hdocuments : NamesFree documents := by
    intro node hnode s hs
    have hname : node.name ∈ documents.nodes.map Node.name := List.mem_map_of_mem hnode
    rw [hnames, hs] at hname
    simp only [List.mem_cons, Json.text.injEq, List.not_mem_nil, or_false] at hname
    rcases hname with rfl | rfl | rfl <;> decide
  have hfree : ∀ item ∈ printings, item.EscapeFree := by
    simp only [printings, List.forall_mem_cons, Printing.EscapeFree]
    refine ⟨hdocuments, ⟨hdocuments, ?_, List.forall_mem_nil _⟩, ?_, ?_, ?_, ?_,
      List.forall_mem_nil _⟩ <;> decide +kernel
  have hout : (printEach ({} : Arguments).plain.printer printings { files := .empty }).2.out =
      "/\n/docs/a.jpg\n2024-05-01T12:00:00.250000+02:00\texif.date\t/docs/a.jpg\n" ++
        "attributes: 12\nSaved\n" := by decide +kernel
  have herr : (printEach ({} : Arguments).plain.printer printings { files := .empty }).2.err =
      "Error: invalid_path: Invalid path '/x'\n" ++
        "Error: syntax: Unterminated or empty literal (at position 3)\n" := by decide +kernel
  have hroot : EscapeFree "/" := by decide
  obtain ⟨-, -, huncolored, huncolored'⟩ := printEach_uncolored.1 {} printings .empty hfree
  obtain ⟨_, _, -, -, -, -, hpath⟩ := printEach_uncolored.2 "/"
  rw [← hout, ← herr]
  exact ⟨hfree, hroot, huncolored, huncolored', hpath hroot⟩

end NodeQuery.CommandLine
