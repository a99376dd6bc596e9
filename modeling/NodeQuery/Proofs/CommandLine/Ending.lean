import NodeQuery.Proofs.CommandLine.Activities
import NodeQuery.Proofs.CommandLine.Setup
/-!
How a run of the command ends. Reports leave the files as they are and print what they find as they
go; a failure of theirs is told to the user in one line if it is of the query, of the file system or
a bad value. A setup is not treated so: whatever goes wrong in it escapes, and so do the failures of
reports that nobody looks out for (`run_ending`). All this is so on any machine, whatever its
encodings and its bounds.
-/
namespace NodeQuery.CommandLine
open Settings Activity

/-! ## Setups -/

section
variable {args : Arguments} {files : Files.Store}

/-- A setup has a threshold within its bounds, if it has one, and a path that can be written. -/
def Arguments.CanSetUp (args : Arguments) (files : Files.Store) : Prop :=
  (∀ x, args.fuzzyThreshold = some x → IsThreshold (.real x)) ∧
    files.Writable (savePath args.config)

/-- A setup that cannot be done fails before it has written or printed anything. -/
theorem run_runSetup_error (h : ¬ args.CanSetUp files) (printer : Printer) :
    ∃ failure, failure.Reported ∧
      (runSetup args printer).run.run { files } = (.error failure, { files }) := by
  rcases (setupSettings args).check_cases with hcheck | ⟨hnumeric, -⟩ | ⟨detail, hcheck⟩
  · have hthreshold : ∀ x, args.fuzzyThreshold = some x → IsThreshold (.real x) := by
      intro x hx
      have hvalue := (check_eq_ok_iff.1 hcheck).1
      unfold setupSettings at hvalue
      rwa [hx] at hvalue
    -- so it is the path that is refused
    rw [run_runSetup_of_check hcheck, save_eq]
    cases hwrite : files.write (savePath args.config)
        (Text.Utf8.encode (Json.write 0 (setupSettings args).toJson).toList) with
    | ok after => exact absurd ⟨hthreshold, _, after, hwrite⟩ h
    | error fault => exact ⟨.fault fault, Files.Store.reported_of_write hwrite, rfl⟩
  · unfold setupSettings at hnumeric
    cases hvalue : args.fuzzyThreshold <;> rw [hvalue] at hnumeric <;> cases hnumeric
  · refine ⟨.badValue detail, .badValue rfl, ?_⟩
    unfold runSetup
    rw [← setupSettings, hcheck]
    rfl

/-- A setup that can be done is done. -/
theorem run_runSetup_of_canSetUp (h : args.CanSetUp files) (printer : Printer) :
    ∃ console, (runSetup args printer).run.run { files } = (.ok (), console) := by
  obtain ⟨hthreshold, hpath⟩ := h
  obtain ⟨after, hwrite⟩ :=
    hpath.write (Text.Utf8.encode (Json.write 0 (setupSettings args).toJson).toList)
  have hsave : (setupSettings args).save files args.config = .ok (savePath args.config, after) := by
    rw [save_eq, hwrite]
    rfl
  obtain ⟨out, hrun⟩ := run_runSetup { files } (check_setupSettings hthreshold) hsave printer
  exact ⟨_, hrun⟩

end

/-! ## Runs -/

/-- The status that arguments end with if they lead to no run. -/
def Stop.status : Stop → Nat
  | .help | .version => 0
  | .error _ => 2

/-- How the arguments want output to be written. -/
def Arguments.printer (args : Arguments) : Printer :=
  ⟨⟨args.color = .always⟩, args.debug⟩

/-- The arguments ask for reports on a tree. -/
def Arguments.AsksFor (args : Arguments) (treeFile : String) : Prop :=
  args.treeFile = some treeFile ∧ treeFile ≠ "" ∧ hasReport args = true

/-- How a run ends after its reports, given how these ended and what they left. A failure that is
reported makes one line of the error output. What becomes of a run with half a character in a
document is left open. -/
inductive Concludes (printer : Printer) (after : Console) : Outcome Unit → Result → Prop
  | done : Concludes printer after (.ok ()) ⟨after, .exit 0⟩
  | told {failure : Failure} {words : String} (h : failure.Reported)
    (hline : failureLine? printer failure = some ("Error: " ++ words)) :
    Concludes printer after (.error failure)
      ⟨{ after with err := after.err ++ ("Error: " ++ words) ++ "\n" }, .exit 1⟩
  | escaped {failure : Failure} (h : failure.Unreported) (hnot : ¬ failure.Reported) :
    Concludes printer after (.error failure) ⟨after, .escaped failure⟩
  | half {failure : Failure} {result : Result} (h : failure.HalfText) :
    Concludes printer after (.error failure) result

theorem failureLine?_of_reported (printer : Printer) {failure : Failure} (h : failure.Reported) :
    ∃ words, failureLine? printer failure = some ("Error: " ++ words) := by
  unfold failureLine?
  split
  · exact ⟨_, by rw [String.append_assoc, String.append_assoc]⟩
  · next hquery =>
    have hkind : (failure.isSystem || failure.isBadValue) = true := by
      cases h with
      | query error => exact absurd rfl (hquery error)
      | system h => rw [h, Bool.true_or]
      | badValue h => rw [h, Bool.or_true]
    exact ⟨failure.message, by rw [hkind]; rfl⟩

theorem failureLine?_of_unreported (printer : Printer) {failure : Failure}
    (h : failure.Unreported) : failureLine? printer failure = none := by
  cases h <;> rfl

section
variable [Host] [Limits] {args : Arguments} {env : Environment} {files : Files.Store}

theorem runArguments_of_not_asksFor (hsetup : args.setup = false)
    (h : ∀ treeFile, ¬ args.AsksFor treeFile) (console : Console) :
    runArguments args env console = ⟨{ console with out := console.out ++ help }, .exit 1⟩ := by
  unfold runArguments
  rw [hsetup]
  split
  · contradiction
  · split
    · next treeFile hfile hreport =>
      obtain ⟨hsome, hne⟩ := Option.filter_eq_some_iff.1 hfile
      exact absurd ⟨hsome, by simpa using hne, hreport⟩ (h treeFile)
    · rfl

theorem runArguments_of_setup (h : args.setup = true) (console : Console) :
    runArguments args env console =
      match (runSetup args args.printer).run.run console with
      | (.ok _, after) => ⟨after, .exit 0⟩
      | (.error failure, after) => ⟨after, .escaped failure⟩ := by
  unfold runArguments
  rw [h, if_pos rfl]
  rfl

theorem runArguments_of_asksFor (hsetup : args.setup = false) {treeFile : String}
    (h : args.AsksFor treeFile) (console : Console) :
    runArguments args env console =
      match (runReports args env args.printer treeFile).run.run console with
      | (.ok _, after) => ⟨after, .exit 0⟩
      | (.error failure, after) =>
        match failureLine? args.printer failure with
        | some line => ⟨{ after with err := after.err ++ line ++ "\n" }, .exit 1⟩
        | none => ⟨after, .escaped failure⟩ := by
  obtain ⟨hfile, hne, hreport⟩ := h
  have hfound : args.treeFile.filter (· ≠ "") = some treeFile :=
    Option.filter_eq_some_iff.2 ⟨hfile, by simpa using hne⟩
  unfold runArguments
  rw [hsetup, hfound, hreport]
  rfl

theorem runArguments_concludes (hsetup : args.setup = false) {treeFile : String}
    (h : args.AsksFor treeFile) (console : Console) :
    ∃ outcome after,
      (runReports args env args.printer treeFile).run.run console = (outcome, after) ∧
      console.Grows args.printer after ∧
      Concludes args.printer after outcome (runArguments args env console) := by
  obtain ⟨hyields, hgrows⟩ := passes_runReports args env args.printer treeFile console
  rw [runArguments_of_asksFor hsetup h]
  cases hrun : (runReports args env args.printer treeFile).run.run console with
  | mk outcome after =>
    rw [hrun] at hyields hgrows
    refine ⟨outcome, after, rfl, hgrows, ?_⟩
    cases hyields with
    | ok _ => exact .done
    | error hfailure =>
      rcases hfailure with hreported | hunreported
      · obtain ⟨words, hline⟩ := failureLine?_of_reported args.printer hreported
        simp only [hline]
        exact .told hreported hline
      · simp only [failureLine?_of_unreported args.printer hunreported]
        exact .escaped hunreported hunreported.not_reported
    | half hhalf => exact .half hhalf

end

/-- Arguments that lead to no run end with a status. A setup ends with status 0 if it can be done,
and else its failure escapes although it is of a kind that is reported elsewhere. A run without
reports ends with status 1 and the help. Reports leave the files as they are; if they fail in the
query, in the file system or because of a bad value, the run ends with status 1 and one line for the
failure, and any other failure of theirs escapes. -/
theorem run_ending [Host] [Limits] (texts : List String) (env : Environment) (files : Files.Store) :
    (∀ stop, readArguments texts = .error stop →
      ∃ console, run texts env files = ⟨console, .exit stop.status⟩ ∧ console.files = files) ∧
    ∀ args, readArguments texts = .ok args →
      (args.setup = true → args.CanSetUp files → (run texts env files).ending = .exit 0) ∧
      (args.setup = true → ¬ args.CanSetUp files → ∃ failure, failure.Reported ∧
        run texts env files = ⟨{ files }, .escaped failure⟩) ∧
      (args.setup = false → (∀ treeFile, ¬ args.AsksFor treeFile) →
        run texts env files = ⟨{ out := help, files }, .exit 1⟩) ∧
      ∀ treeFile, args.setup = false → args.AsksFor treeFile → ∃ outcome after,
        (runReports args env args.printer treeFile).run.run { files } = (outcome, after) ∧
        Console.Grows args.printer { files } after ∧
        Concludes args.printer after outcome (run texts env files) := by
  refine ⟨fun stop hstop => ?_, fun args hargs => ?_⟩
  · unfold run
    rw [hstop]
    cases stop <;> exact ⟨_, rfl, rfl⟩
  · have hrun : run texts env files = runArguments args env { files } := by
      unfold run
      rw [hargs]
    rw [hrun]
    refine ⟨fun hsetup hcan => ?_, fun hsetup hcannot => ?_, fun hsetup hnone => ?_,
      fun treeFile hsetup hasks => runArguments_concludes hsetup hasks { files }⟩
    · obtain ⟨console, hdone⟩ := run_runSetup_of_canSetUp hcan args.printer
      unfold runArguments
      rw [hsetup, if_pos rfl, ← Arguments.printer, hdone]
    · obtain ⟨failure, hreported, hfail⟩ := run_runSetup_error hcannot args.printer
      refine ⟨failure, hreported, ?_⟩
      unfold runArguments
      rw [hsetup, if_pos rfl, ← Arguments.printer, hfail]
    · rw [runArguments_of_not_asksFor hsetup hnone, String.empty_append]

/-- The arguments of a query over a tree. -/
def asking : Arguments where
  treeFile := some "t.json"
  query := some "name == 'a'"

/-- The file with the tree is not there. -/
theorem run_ending_missing :
    readArguments ["t.json", "name == 'a'"] = .ok asking ∧ asking.AsksFor "t.json" ∧
    ∃ out words, run ["t.json", "name == 'a'"] [] .empty =
      ⟨{ out, err := "Error: " ++ words ++ "\n", files := .empty }, .exit 1⟩ := by
  have hargs : readArguments ["t.json", "name == 'a'"] = .ok asking := rfl
  have hasks : asking.AsksFor "t.json" := ⟨rfl, by decide, rfl⟩
  refine ⟨hargs, hasks, ?_⟩
  obtain ⟨outcome, after, hreports, hgrows, hconcludes⟩ :=
    ((run_ending ["t.json", "name == 'a'"] [] .empty).2 asking hargs).2.2.2 "t.json" rfl hasks
  have hsystem : (failure? ((runReports asking [] asking.printer "t.json").run.run
      { files := .empty }).1).any Failure.isSystem = true := by
    decide +kernel
  rw [hreports] at hsystem
  obtain ⟨lines, herr, hquiet⟩ := hgrows.err
  rw [hquiet rfl] at herr
  have hempty : after.err = "" := herr
  generalize run ["t.json", "name == 'a'"] [] .empty = result at hconcludes ⊢
  cases hconcludes with
  | done => cases hsystem
  | @told failure words _ _ =>
    refine ⟨after.out, words, ?_⟩
    rw [hempty, hgrows.files, String.empty_append]
  | escaped _ hnot => exact absurd (.system hsystem) hnot
  | half hhalf =>
    cases hhalf
    cases hsystem

/-- A failure of a kind escapes at the end of a run. -/
def Ending.escapes (kind : Failure → Bool) : Ending → Bool
  | .escaped failure => kind failure
  | .exit _ => false

/-- A tree whose only node below the root has no name. -/
def nameless : Files.Store :=
  ⟨[(.ofText "t.json", Text.Utf8.encode "\x7b\"children\": [\x7b\x7d]\x7d".toList)], []⟩

/-- A bad value and a failure of the file system escape from a setup, and a missing member from the
reading of a tree. -/
theorem not_converted :
    (run ["--setup", "--fuzzy-threshold", "2"] [] .empty).ending.escapes (fun failure =>
      failure.isBadValue &&
        failure.message == "fuzzy threshold must be between 0 and 1, got 2.0") = true ∧
    (run ["--setup", "--config", "nodir/c.json"] [] .empty).ending.escapes (fun failure =>
      failure.isSystem &&
        failure.message == "[Errno 2] No such file or directory: 'nodir/c.json'") = true ∧
    (run ["t.json", "name == 'a'"] [] nameless).ending.escapes (fun failure =>
      failure.message == "'name'") = true ∧
    ¬ ∀ texts env files, ∃ status, (run texts env files).ending = .exit status := by
  have hvalue : (run ["--setup", "--fuzzy-threshold", "2"] [] .empty).ending.escapes (fun failure =>
      failure.isBadValue &&
        failure.message == "fuzzy threshold must be between 0 and 1, got 2.0") = true := by
    decide +kernel
  refine ⟨hvalue, by decide +kernel, by decide +kernel, fun h => ?_⟩
  obtain ⟨status, hexit⟩ := h ["--setup", "--fuzzy-threshold", "2"] [] .empty
  rw [hexit] at hvalue
  cases hvalue

end NodeQuery.CommandLine
