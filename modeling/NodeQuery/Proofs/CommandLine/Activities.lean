import NodeQuery.CommandLine.Run
import NodeQuery.Proofs.CommandLine.Reports
/-!
What the parts of a run do. Each part leaves the files as they are and only adds to the output; to
the error output it adds debug messages alone (`Console.Grows`). Parts in a row do so too
(`Activity.Runs.bind`), and with them all reports of a run (`passes_runReports`).
-/
namespace NodeQuery.CommandLine
open Settings

/-! ## Parts of a run -/

/-- Debug messages as they are printed. -/
def debugText (lines : List String) : String :=
  String.join (lines.map fun line => "DEBUG: " ++ line ++ "\n")

/-- A console after a part of a run: the files are as they were, and there is more output. To the
error output nothing but debug messages has been printed, and these only if they are wanted. -/
structure Console.Grows (printer : Printer) (before after : Console) : Prop where
  files : after.files = before.files
  out : ∃ more, after.out = before.out ++ more
  err : ∃ lines, after.err = before.err ++ debugText lines ∧ (printer.debug = false → lines = [])

namespace Console.Grows

variable {printer : Printer} {before between after : Console}

theorem refl (printer : Printer) (console : Console) : console.Grows printer console where
  files := rfl
  out := ⟨"", by simp⟩
  err := ⟨[], by simp [debugText], fun _ => rfl⟩

theorem trans (h : before.Grows printer between) (h' : between.Grows printer after) :
    before.Grows printer after where
  files := h'.files.trans h.files
  out := by
    obtain ⟨first, hfirst⟩ := h.out
    obtain ⟨second, hsecond⟩ := h'.out
    exact ⟨first ++ second, by rw [hsecond, hfirst, String.append_assoc]⟩
  err := by
    obtain ⟨first, hfirst, hquiet⟩ := h.err
    obtain ⟨second, hsecond, hquiet'⟩ := h'.err
    refine ⟨first ++ second, ?_, fun hdebug => by rw [hquiet hdebug, hquiet' hdebug]; rfl⟩
    rw [hsecond, hfirst, String.append_assoc, debugText, debugText, debugText, List.map_append,
      String.join_append]

end Console.Grows

namespace Activity

/-- A part of a run gives a result with a property, or a failure that a run can end with. -/
def Runs {α : Type} (printer : Printer) (p : α → Prop) (activity : Activity α) : Prop :=
  ∀ console, Yields p (activity.run.run console).1 ∧
    console.Grows printer (activity.run.run console).2

section
variable {α β : Type} {printer : Printer} {p : α → Prop} {q : β → Prop} {activity : Activity α}

theorem runs_pure {a : α} (h : p a) : Runs printer p (pure a) :=
  fun console => ⟨.ok h, .refl printer console⟩

theorem run_bind (f : α → Activity β) (console : Console) :
    (activity >>= f).run.run console =
      match activity.run.run console with
      | (.ok a, after) => (f a).run.run after
      | (.error failure, after) => (.error failure, after) := by
  rw [ExceptT.run_bind, StateT.run_bind]
  cases activity.run.run console with
  | mk outcome after => cases outcome <;> rfl

theorem Runs.bind {f : α → Activity β} (h : Runs printer p activity)
    (hf : ∀ a, p a → Runs printer q (f a)) : Runs printer q (activity >>= f) := by
  intro console
  obtain ⟨hyields, hgrows⟩ := h console
  rw [run_bind]
  cases hrun : activity.run.run console with
  | mk outcome after =>
    rw [hrun] at hyields hgrows
    cases hyields with
    | error hfailure => exact ⟨.error hfailure, hgrows⟩
    | half hhalf => exact ⟨.half hhalf, hgrows⟩
    | ok ha =>
      obtain ⟨hrest, hmore⟩ := hf _ ha after
      exact ⟨hrest, hgrows.trans hmore⟩

theorem runs_ofOutcome {x : Outcome α} (h : Yields p x) : Runs printer p (ofOutcome x) := by
  intro console
  cases h with
  | ok ha => exact ⟨.ok ha, .refl printer console⟩
  | error hfailure => exact ⟨.error hfailure, .refl printer console⟩
  | half hhalf => exact ⟨.half hhalf, .refl printer console⟩

/-- Looking at the console changes nothing. -/
theorem runs_get : Runs printer (fun _ => True) (get : Activity Console) :=
  fun console => ⟨.ok trivial, .refl printer console⟩

end

section
variable {α : Type} {printer : Printer}

/-- A part of a run without a result. -/
abbrev Passes (printer : Printer) (activity : Activity Unit) : Prop :=
  Runs printer (fun _ => True) activity

theorem passes_print (line : String) : Passes printer (print line) := by
  intro console
  refine ⟨.ok trivial, rfl, ⟨line ++ "\n", ?_⟩, ⟨[], ?_, fun _ => rfl⟩⟩
  · exact String.append_assoc ..
  · exact (String.append_empty ..).symm

theorem passes_forM {items : List α} {f : α → Activity Unit}
    (h : ∀ a ∈ items, Passes printer (f a)) : Passes printer (items.forM f) := by
  induction items with
  | nil => exact runs_pure trivial
  | cons a rest ih =>
    obtain ⟨ha, hrest⟩ := List.forall_mem_cons.1 h
    exact ha.bind fun _ _ => ih hrest

/-- A part that is left out or not, before the rest. -/
theorem passes_optional {c : Prop} [Decidable c] {first rest : Activity Unit}
    (hfirst : Passes printer first) (hrest : Passes printer rest) :
    Passes printer (if c then first >>= fun _ => rest else rest) := by
  split
  · exact hfirst.bind fun _ _ => hrest
  · exact hrest

theorem passes_debug (lines : List String) : Passes printer (debug printer lines) := by
  unfold debug
  split
  · next hdebug =>
    refine passes_forM fun line _ console => ⟨.ok trivial, rfl, ⟨"", ?_⟩, ⟨[line], ?_, ?_⟩⟩
    · exact (String.append_empty ..).symm
    · show console.err ++ ("DEBUG: " ++ line) ++ "\n" =
        console.err ++ ("" ++ ("DEBUG: " ++ line ++ "\n"))
      rw [String.empty_append, String.append_assoc]
    · intro hquiet
      rw [hquiet] at hdebug
      cases hdebug
  · exact runs_pure trivial

/-- A task that runs into a bound of the machine has printed some of its messages and fails. -/
theorem runs_perform [Limits] {p : α → Prop} {x : Outcome α} (task : Task) (messages : List String)
    (h : Yields p x) : Runs printer p (perform printer task messages x) := by
  have hfailure (limit : Limit) : Yields p (.error limit.failure : Outcome α) :=
    limit.foreseen_failure.strengthen nofun
  unfold perform
  split
  · next limit told _ => exact (passes_debug _).bind fun _ _ => runs_ofOutcome (hfailure limit)
  · exact (passes_debug _).bind fun _ _ => runs_ofOutcome h

end
end Activity

open Activity

/-! ## Reports -/

section
variable {args : Arguments} {printer : Printer} {tree : MemoryTree} {files : Files.Store}

theorem passes_printNodes (h : tree.Linked) {ids : List Json}
    (hids : ∀ id ∈ ids, tree.has id = true) : Passes printer (printNodes printer tree ids) :=
  passes_forM fun id hid =>
    (runs_ofOutcome (MemoryTree.foreseen_path h (hids id hid))).bind fun _ _ => passes_print _

theorem passes_printTimeline (h : tree.Linked) {entries : List TimelineEntry}
    (hentries : ∀ e ∈ entries, tree.has e.id = true) :
    Passes printer (printTimeline printer tree entries) :=
  passes_forM fun e he =>
    (runs_ofOutcome (MemoryTree.foreseen_path h (hentries e he))).bind fun _ _ => passes_print _

theorem passes_runDataNodes (h : tree.Linked) :
    Passes printer (runDataNodes args printer tree (tree.view files)) := by
  refine (runs_ofOutcome (MemoryTree.yields_idsBelow h args.path)).bind fun ids _ => ?_
  refine (runs_ofOutcome (Summary.yields_dataNodes ids)).bind fun nodes hnodes => ?_
  exact (passes_debug _).bind fun _ _ => passes_printNodes h hnodes

theorem foreseen_settingsOf (args : Arguments) (env : Environment) (files : Files.Store) :
    Foreseen (settingsOf args env files) := by
  have hignore (settings : Settings) : Foreseen (if args.ignoreCaseWildcard then
      Settings.check { settings with wildcardCaseSensitive := .bool false } else .ok settings) := by
    split
    · exact foreseen_check _
    · exact .ok trivial
  refine (foreseen_load files env args.config).bind fun settings _ => ?_
  cases args.fuzzyThreshold with
  | none => exact hignore settings
  | some x => exact (foreseen_check _).bind fun settings _ => hignore settings

variable [Limits]

theorem passes_runCount (h : tree.Linked) :
    Passes printer (runCount args printer tree (tree.view files)) := by
  refine (runs_ofOutcome (MemoryTree.yields_idsBelow h args.path)).bind fun ids _ => ?_
  refine (runs_perform _ _ (Summary.foreseen_attributeCount ids)).bind fun _ _ => ?_
  exact passes_print _

theorem passes_runTimeline (h : tree.Linked) (window : Window) :
    Passes printer (runTimeline args printer tree (tree.view files) window) := by
  refine (runs_ofOutcome (MemoryTree.yields_idsBelow h (nonEmptyPath args))).bind fun ids _ => ?_
  refine (runs_perform _ _ (MemoryTree.yields_timeline h (nonEmptyPath args) window)).bind
    fun entries hentries => ?_
  refine (runs_ofOutcome (Timeline.yields_times ids)).bind fun _ _ => ?_
  refine passes_optional (passes_debug _) ?_
  exact (passes_debug _).bind fun _ _ => passes_printTimeline h hentries

variable [Host]

theorem passes_runSelection (h : tree.Linked) (settings : Settings) (query : String) :
    Passes printer (runSelection args printer tree (tree.view files) settings query) := by
  refine (runs_ofOutcome (MemoryTree.yields_idsBelow h (nonEmptyPath args))).bind fun ids _ => ?_
  refine (runs_perform _ _ (MemoryTree.yields_select h (nonEmptyPath args) query settings)).bind
    fun found hfound => ?_
  exact passes_printNodes h hfound

theorem passes_runReports (args : Arguments) (env : Environment) (printer : Printer)
    (treeFile : String) : Passes printer (runReports args env printer treeFile) := by
  refine runs_get.bind fun console _ => ?_
  refine (runs_perform _ _ (foreseen_settingsOf args env console.files)).bind fun settings _ => ?_
  refine (passes_debug _).bind fun _ _ => ?_
  refine (runs_perform _ _ (MemoryTree.yields_load console.files (.ofText treeFile))).bind
    fun tree htree => ?_
  refine (passes_debug _).bind fun _ _ => ?_
  refine passes_optional (passes_runCount htree) ?_
  refine passes_optional (passes_runDataNodes htree) ?_
  have hselection (query : String) : Passes printer
      (if query ≠ "" then runSelection args printer tree (tree.view console.files) settings query
        else pure ()) := by
    split
    · exact passes_runSelection htree settings query
    · exact runs_pure trivial
  cases args.query with
  | none =>
    cases args.timeline with
    | none => exact runs_pure trivial
    | some window => exact (passes_runTimeline htree _).bind fun _ _ => runs_pure trivial
  | some query =>
    cases args.timeline with
    | none => exact hselection query
    | some window => exact (passes_runTimeline htree _).bind fun _ _ => hselection query

end

end NodeQuery.CommandLine
