import NodeQuery.Proofs.CommandLine.Codes
import NodeQuery.Proofs.CommandLine.Ending
/-!
Runs with colours and without. Two runs of the same command that differ in their colours go side by
side: each part of the one does what it does in the other (`Activity.Tracks`), and each line that is
printed is the line of the other run with codes put in (`tracks_print`). So they end alike, and
deleting the codes from what the one prints gives what the other prints, unless that has escape
characters of its own (`runArguments_uncolored`).
-/
namespace NodeQuery.CommandLine
open Activity

/-! ## Styles -/

namespace Style

/-- The style of a run that uses colours. -/
def colors : Style := ⟨true⟩

/-- The style of a run that uses none. -/
def plain : Style := ⟨false⟩

theorem painted_paint (code : String) {text left : String} (hcode : code ∈ codes)
    (h : Painted text left) : Painted (colors.paint code text) (plain.paint code left) := by
  have hreset : Painted resetCode "" := by
    have hmem : resetCode ∈ codes := by decide
    have h := Inserts.word hmem .nil
    rwa [List.append_nil] at h
  have hpainted : Painted (text ++ resetCode) left := by
    have h := h.append hreset
    rwa [String.append_empty] at h
  show Inserts codes (code ++ text ++ resetCode).toList left.toList
  rw [String.append_assoc, String.toList_append]
  exact .word hcode hpainted

theorem painted_highlight (path : String) :
    Painted (colors.highlight path) (plain.highlight path) := by
  have hgreen := painted_paint greenCode (by decide) (Painted.refl (splitName path).2)
  exact (Painted.refl _).append (painted_paint boldCode (by decide) hgreen)

end Style

/-! ## Arguments -/

namespace Arguments
variable (args : Arguments)

/-- The same arguments, with colours. -/
def inColors : Arguments :=
  { args with color := .always }

/-- The same arguments, without colours. -/
def plain : Arguments :=
  { args with color := .never }

theorem printer_inColors : args.inColors.printer = ⟨.colors, args.debug⟩ := rfl

theorem printer_plain : args.plain.printer = ⟨.plain, args.debug⟩ := rfl

end Arguments

/-! ## Two runs -/

/-- A console of a run with colours beside that of a run without. -/
structure Console.Painted (console other : Console) : Prop where
  out : CommandLine.Painted console.out other.out
  err : CommandLine.Painted console.err other.err
  files : console.files = other.files

section
variable {console other : Console} {line line' : String}

theorem Console.Painted.print (h : console.Painted other) (hline : CommandLine.Painted line line') :
    Console.Painted { console with out := console.out ++ line ++ "\n" }
      { other with out := other.out ++ line' ++ "\n" } :=
  ⟨(h.out.append hline).append (.refl "\n"), h.err, h.files⟩

theorem Console.Painted.printError (h : console.Painted other)
    (hline : CommandLine.Painted line line') :
    Console.Painted { console with err := console.err ++ line ++ "\n" }
      { other with err := other.err ++ line' ++ "\n" } :=
  ⟨h.out, (h.err.append hline).append (.refl "\n"), h.files⟩

end

namespace Activity

/-- A part of a run does what another one does, and codes are put into what it prints. -/
def Tracks {α : Type} (activity other : Activity α) : Prop :=
  ∀ before before' : Console, before.Painted before' →
    (activity.run.run before).1 = (other.run.run before').1 ∧
      (activity.run.run before).2.Painted (other.run.run before').2

section
variable {α β : Type} {activity other : Activity α}

theorem tracks_pure (a : α) : Tracks (pure a) (pure a) :=
  fun _ _ h => ⟨rfl, h⟩

theorem Tracks.run (h : Tracks activity other) {before before' : Console}
    (hpainted : before.Painted before') : ∃ outcome after after',
      activity.run.run before = (outcome, after) ∧ other.run.run before' = (outcome, after') ∧
      after.Painted after' := by
  obtain ⟨hresult, hafter⟩ := h before before' hpainted
  refine ⟨_, _, (other.run.run before').2, rfl, ?_, hafter⟩
  exact Prod.ext hresult.symm rfl

theorem Tracks.bind {f g : α → Activity β} (h : Tracks activity other)
    (hnext : ∀ a, Tracks (f a) (g a)) : Tracks (activity >>= f) (other >>= g) := by
  intro before before' hpainted
  obtain ⟨outcome, after, after', hrun, hrun', hafter⟩ := h.run hpainted
  rw [run_bind, run_bind, hrun, hrun']
  cases outcome with
  | ok a => exact hnext a after after' hafter
  | error failure => exact ⟨rfl, hafter⟩

theorem tracks_ofOutcome (x : Outcome α) : Tracks (ofOutcome x) (ofOutcome x) := by
  intro before before' h
  cases x <;> exact ⟨rfl, h⟩

theorem tracks_print {line line' : String} (h : Painted line line') :
    Tracks (print line) (print line') :=
  fun _ _ hpainted => ⟨rfl, hpainted.print h⟩

theorem tracks_printError {line line' : String} (h : Painted line line') :
    Tracks (printError line) (printError line') :=
  fun _ _ hpainted => ⟨rfl, hpainted.printError h⟩

theorem tracks_forM {items : List α} {f g : α → Activity Unit}
    (h : ∀ a ∈ items, Tracks (f a) (g a)) : Tracks (items.forM f) (items.forM g) := by
  induction items with
  | nil => exact tracks_pure ()
  | cons a rest ih =>
    obtain ⟨ha, hrest⟩ := List.forall_mem_cons.1 h
    exact ha.bind fun _ => ih hrest

end
end Activity

/-! ## Printing -/

section
variable (debug : Bool) (tree : MemoryTree)

theorem tracks_printNodes (ids : List Json) :
    Tracks (printNodes ⟨.colors, debug⟩ tree ids) (printNodes ⟨.plain, debug⟩ tree ids) := by
  refine tracks_forM fun id _ => ?_
  exact (tracks_ofOutcome _).bind fun path => tracks_print (Style.painted_highlight path)

theorem tracks_printTimeline (entries : List TimelineEntry) :
    Tracks (printTimeline ⟨.colors, debug⟩ tree entries)
      (printTimeline ⟨.plain, debug⟩ tree entries) := by
  refine tracks_forM fun e _ => (tracks_ofOutcome _).bind fun path => tracks_print ?_
  have hname := Style.painted_paint boldCode (by decide) (Painted.refl e.name.display)
  have hstart := (Painted.refl (e.time.isoText ++ "\t")).append hname
  exact (hstart.append (.refl "\t")).append (Style.painted_highlight path)

theorem tracks_printCount (label : String) (n : Nat) :
    Tracks (printCount ⟨.colors, debug⟩ label n) (printCount ⟨.plain, debug⟩ label n) := by
  have hnumber := Style.painted_paint boldCode (by decide) (Painted.refl (toString n))
  exact tracks_print ((Painted.refl (label ++ ": ")).append hnumber)

/-- A failure is told in one line or in none, with colours and without. -/
theorem painted_failureLine? (failure : Failure) :
    (failureLine? ⟨.colors, debug⟩ failure = none ∧ failureLine? ⟨.plain, debug⟩ failure = none) ∨
    ∃ line line', failureLine? ⟨.colors, debug⟩ failure = some line ∧
      failureLine? ⟨.plain, debug⟩ failure = some line' ∧ Painted line line' := by
  cases failure with
  | query e =>
    have hlabel := Style.painted_paint redCode (by decide)
      (Painted.refl (String.ofList (e.label.toList.map Char.toLower)))
    have hstart := ((Painted.refl "Error: ").append hlabel).append (.refl ": ")
    exact .inr ⟨_, _, rfl, rfl, hstart.append (.refl e.text)⟩
  | _ =>
    simp only [failureLine?]
    split
    · exact .inr ⟨_, _, rfl, rfl, .refl _⟩
    · exact .inl ⟨rfl, rfl⟩

end

/-! ## Runs -/

namespace Activity

/-- What is read from the console are its files, and these are the same in both runs. -/
theorem tracks_get {α : Type} {f g : Console → Activity α}
    (h : ∀ console other : Console, console.files = other.files → Tracks (f console) (g other)) :
    Tracks (get >>= f) (get >>= g) :=
  fun before before' hpainted => h before before' hpainted.files before before' hpainted

theorem tracks_store (files : Files.Store) :
    Tracks (modify fun console => { console with files })
      (modify fun console => { console with files }) :=
  fun _ _ hpainted => ⟨rfl, hpainted.out, hpainted.err, rfl⟩

theorem tracks_debug (wanted : Bool) (lines : List String) :
    Tracks (debug ⟨.colors, wanted⟩ lines) (debug ⟨.plain, wanted⟩ lines) := by
  cases wanted with
  | true => exact tracks_forM fun line _ => tracks_printError (.refl _)
  | false => exact tracks_pure ()

/-- Colours are no matter for what a task runs into. -/
theorem tracks_perform [Limits] {α : Type} (wanted : Bool) (task : Task) (messages : List String)
    (x : Outcome α) : Tracks (perform ⟨.colors, wanted⟩ task messages x)
      (perform ⟨.plain, wanted⟩ task messages x) := by
  unfold perform
  dsimp only
  split
  · exact (tracks_debug wanted _).bind fun _ => tracks_ofOutcome (.error _)
  · exact (tracks_debug wanted _).bind fun _ => tracks_ofOutcome _

/-- A part that is left out or not, before the rest. -/
theorem tracks_optional {c : Prop} [Decidable c] {first first' rest rest' : Activity Unit}
    (hfirst : Tracks first first') (hrest : Tracks rest rest') :
    Tracks (if c then first >>= fun _ => rest else rest)
      (if c then first' >>= fun _ => rest' else rest') := by
  split
  · exact hfirst.bind fun _ => hrest
  · exact hrest

end Activity

section
variable (args : Arguments) (tree : MemoryTree) (view : NodeTree)

theorem tracks_runSetup : Tracks (runSetup args.inColors args.inColors.printer)
    (runSetup args.plain args.plain.printer) := by
  refine (tracks_ofOutcome _).bind fun settings => tracks_get fun console other hfiles => ?_
  rw [hfiles]
  refine (tracks_ofOutcome _).bind fun saved => (tracks_store saved.2).bind fun _ => ?_
  exact tracks_print (Style.painted_paint greenCode (by decide) (.refl _))

theorem tracks_runDataNodes : Tracks (runDataNodes args.inColors args.inColors.printer tree view)
    (runDataNodes args.plain args.plain.printer tree view) := by
  refine (tracks_ofOutcome _).bind fun _ => (tracks_ofOutcome _).bind fun nodes => ?_
  exact (tracks_debug args.debug _).bind fun _ => tracks_printNodes args.debug tree nodes.found

variable [Limits]

theorem tracks_runCount : Tracks (runCount args.inColors args.inColors.printer tree view)
    (runCount args.plain args.plain.printer tree view) :=
  (tracks_ofOutcome _).bind fun _ =>
    (tracks_perform args.debug _ _ _).bind fun _ => tracks_printCount _ _ _

theorem tracks_runTimeline (window : Window) :
    Tracks (runTimeline args.inColors args.inColors.printer tree view window)
      (runTimeline args.plain args.plain.printer tree view window) := by
  refine (tracks_ofOutcome _).bind fun _ => ?_
  refine (tracks_perform args.debug _ _ _).bind fun entries => ?_
  refine (tracks_ofOutcome _).bind fun _ => tracks_optional (tracks_debug args.debug _) ?_
  exact (tracks_debug args.debug _).bind fun _ => tracks_printTimeline args.debug tree entries

variable [Host]

theorem tracks_runSelection (settings : Settings) (query : String) :
    Tracks (runSelection args.inColors args.inColors.printer tree view settings query)
      (runSelection args.plain args.plain.printer tree view settings query) := by
  refine (tracks_ofOutcome _).bind fun _ => ?_
  exact (tracks_perform args.debug _ _ _).bind fun found => tracks_printNodes args.debug tree found

theorem tracks_runReports (env : Settings.Environment) (treeFile : String) :
    Tracks (runReports args.inColors env args.inColors.printer treeFile)
      (runReports args.plain env args.plain.printer treeFile) := by
  refine tracks_get fun console other hfiles => ?_
  rw [hfiles]
  refine (tracks_perform args.debug _ _ _).bind fun settings => ?_
  refine (tracks_debug args.debug _).bind fun _ => ?_
  refine (tracks_perform args.debug _ _ _).bind fun tree => ?_
  refine (tracks_debug args.debug _).bind fun _ => ?_
  refine tracks_optional (tracks_runCount args tree _) ?_
  refine tracks_optional (tracks_runDataNodes args tree _) ?_
  have hselection (query : String) : Tracks
      (if query ≠ "" then runSelection args.inColors args.inColors.printer tree
        (tree.view other.files) settings query else pure ())
      (if query ≠ "" then runSelection args.plain args.plain.printer tree
        (tree.view other.files) settings query else pure ()) := by
    split
    · exact tracks_runSelection args tree _ settings query
    · exact tracks_pure ()
  simp only [Arguments.inColors, Arguments.plain]
  cases args.query with
  | none =>
    cases args.timeline with
    | none => exact tracks_pure ()
    | some window => exact (tracks_runTimeline args tree _ _).bind fun _ => tracks_pure ()
  | some query =>
    cases args.timeline with
    | none => exact hselection query
    | some window => exact (tracks_runTimeline args tree _ _).bind fun _ => hselection query

/-- Colours change nothing in a run but what it prints, and there they only put in codes. -/
theorem runArguments_painted (env : Settings.Environment) {before before' : Console}
    (h : before.Painted before') :
    (runArguments args.inColors env before).ending = (runArguments args.plain env before').ending ∧
      (runArguments args.inColors env before).console.Painted
        (runArguments args.plain env before').console := by
  cases hsetup : args.setup with
  | true =>
    have hcolored : args.inColors.setup = true := hsetup
    have hplain : args.plain.setup = true := hsetup
    obtain ⟨outcome, after, after', hrun, hrun', hafter⟩ := (tracks_runSetup args).run h
    rw [runArguments_of_setup hcolored, runArguments_of_setup hplain, hrun, hrun']
    cases outcome <;> exact ⟨rfl, hafter⟩
  | false =>
    have hcolored : args.inColors.setup = false := hsetup
    have hplain : args.plain.setup = false := hsetup
    by_cases hasks : ∃ treeFile, args.AsksFor treeFile
    · obtain ⟨treeFile, hasks⟩ := hasks
      have hasksColored : args.inColors.AsksFor treeFile := hasks
      have hasksPlain : args.plain.AsksFor treeFile := hasks
      obtain ⟨outcome, after, after', hrun, hrun', hafter⟩ :=
        (tracks_runReports args env treeFile).run h
      rw [runArguments_of_asksFor hcolored hasksColored, runArguments_of_asksFor hplain hasksPlain,
        hrun, hrun']
      cases outcome with
      | ok _ => exact ⟨rfl, hafter⟩
      | error failure =>
        -- both runs fail alike, and tell of it or not
        rw [args.printer_inColors, args.printer_plain]
        dsimp only
        rcases painted_failureLine? args.debug failure with ⟨hnone, hnone'⟩ | ⟨line, line', hline⟩
        · rw [hnone, hnone']
          exact ⟨rfl, hafter⟩
        · obtain ⟨hsome, hsome', hpainted⟩ := hline
          rw [hsome, hsome']
          exact ⟨rfl, hafter.printError hpainted⟩
    · have hnone : ∀ treeFile, ¬ args.inColors.AsksFor treeFile := not_exists.1 hasks
      have hnone' : ∀ treeFile, ¬ args.plain.AsksFor treeFile := not_exists.1 hasks
      rw [runArguments_of_not_asksFor hcolored hnone, runArguments_of_not_asksFor hplain hnone']
      exact ⟨rfl, h.out.append (.refl help), h.err, h.files⟩

/-- Where a run without colours prints no escape characters, deleting all codes from what the same
run prints with colours leaves the same text. -/
theorem runArguments_uncolored (env : Settings.Environment) (files : Files.Store) :
    let colored := runArguments args.inColors env { files }
    let plain := runArguments args.plain env { files }
    colored.ending = plain.ending ∧ colored.console.files = plain.console.files ∧
      (EscapeFree plain.console.out → Uncolored colored.console.out plain.console.out) ∧
      (EscapeFree plain.console.err → Uncolored colored.console.err plain.console.err) := by
  have hempty : Console.Painted { files } { files } := ⟨.refl "", .refl "", rfl⟩
  obtain ⟨hending, hpainted⟩ := runArguments_painted args env hempty
  exact ⟨hending, hpainted.files, hpainted.out.uncolored, hpainted.err.uncolored⟩

end
end NodeQuery.CommandLine
