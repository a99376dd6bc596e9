import NodeQuery.CommandLine.Run
import NodeQuery.Proofs.Query.Evaluation
import NodeQuery.Proofs.Settings.RoundTrip
/-!
Settings that the command stores. Options are read as numbers of double precision
(`readArguments_isDouble`), `runSetup` saves them, and a later run with the file has the settings of
a run with the options (`setup_roundTrip`).
-/
namespace NodeQuery.CommandLine
open Settings Activity

/-! ## Arguments -/

/-- The threshold among the arguments is a number of double precision. -/
def Arguments.IsDouble (args : Arguments) : Prop :=
  ∀ x, args.fuzzyThreshold = some x → x.IsDouble

section
variable {args args' : Arguments} (h : args.IsDouble)
include h

theorem serve_isDouble {key : OptionKey} {values : List String}
    (hserve : serve args key values = .ok args') : args'.IsDouble := by
  unfold serve at hserve
  split at hserve
  case h_1 | h_2 => cases hserve
  case h_4 =>
    obtain ⟨first, -, hserve⟩ := Outcome.bind_eq_ok_iff.1 hserve
    obtain ⟨last, -, hserve⟩ := Outcome.bind_eq_ok_iff.1 hserve
    cases hserve
    exact h
  case h_8 value =>
    split at hserve
    · next hread =>
      cases hserve
      rintro y ⟨⟩
      exact Binary64.ofText?_isDouble hread
    · cases hserve
  case h_10 =>
    split at hserve
    · cases hserve
      exact h
    · cases hserve
  all_goals
    cases hserve
    exact h

theorem serveAll_isDouble {served : List (OptionKey × List String)}
    (hserve : serveAll args served = .ok args') : args'.IsDouble := by
  induction served generalizing args with
  | nil =>
    cases hserve
    exact h
  | cons option served ih =>
    obtain ⟨next, hnext, hrest⟩ := Outcome.bind_eq_ok_iff.1 hserve
    exact ih (serve_isDouble h hnext) hrest

theorem serveWords_isDouble {fuel : ℕ} {filled : Bool} {extras extras' : List String}
    {words : List Word} (hserve : serveWords fuel filled extras args words = .ok (args', extras')) :
    args'.IsDouble := by
  induction fuel generalizing filled extras args words with
  | zero =>
    cases hserve
    exact h
  | succ fuel ih =>
    unfold serveWords at hserve
    split at hserve
    · obtain ⟨r, -, hserve⟩ := Outcome.bind_eq_ok_iff.1 hserve
      obtain ⟨next, hnext, hserve⟩ := Outcome.bind_eq_ok_iff.1 hserve
      exact ih (serveAll_isDouble h hnext) hserve
    · exact ih h hserve
    · cases hserve
      exact h
    · split at hserve
      · exact ih h hserve
      · have hplaced : (takePositionals args words).1.IsDouble := h
        exact ih hplaced hserve

end

/-- A threshold is read as a number of double precision. -/
theorem readArguments_isDouble {texts : List String} {args : Arguments}
    (h : readArguments texts = .ok args) : args.IsDouble := by
  obtain ⟨words, -, h⟩ := Outcome.bind_eq_ok_iff.1 h
  obtain ⟨⟨args', extras⟩, hserve, h⟩ := Outcome.bind_eq_ok_iff.1 h
  have hnone : Arguments.IsDouble {} := fun x hx => by cases hx
  dsimp only at h
  split at h
  · cases h
    exact serveWords_isDouble hnone hserve
  · cases h

/-! ## Setup -/

/-- The settings that a setup with the given arguments stores. -/
def setupSettings (args : Arguments) : Settings :=
  { standard with
    fuzzyThreshold := (args.fuzzyThreshold.map Json.real).getD standard.fuzzyThreshold
    wildcardCaseSensitive := .bool (!args.ignoreCaseWildcard) }

/-- What a setup does once its settings have been saved. -/
def finishSetup (printer : Printer) (saved : Files.Path × Files.Store) : Activity Unit := do
  modify fun c => { c with files := saved.2 }
  print (printer.style.green ("Successfully wrote config to " ++ saved.1.text))

/-- A setup with complete settings saves them. -/
theorem run_runSetup_of_check {args : Arguments}
    (hcheck : (setupSettings args).check = .ok (setupSettings args)) (printer : Printer)
    (console : Console) : (runSetup args printer).run.run console =
      (ofOutcome ((setupSettings args).save console.files args.config) >>=
        finishSetup printer).run.run console := by
  unfold runSetup
  rw [← setupSettings, hcheck]
  rfl

theorem run_runSetup {args : Arguments} (console : Console) {p : Files.Path} {files : Files.Store}
    (hcheck : (setupSettings args).check = .ok (setupSettings args))
    (hsave : (setupSettings args).save console.files args.config = .ok (p, files))
    (printer : Printer) : ∃ out, (runSetup args printer).run.run console =
      (.ok (), { console with out, files }) := by
  refine ⟨console.out ++ printer.style.green ("Successfully wrote config to " ++ p.text) ++ "\n",
    ?_⟩
  rw [run_runSetup_of_check hcheck, hsave]
  rfl

/-! ## Settings of a run -/

section
variable {args : Arguments}

/-- The settings of a setup are complete if its threshold is within the bounds. -/
theorem check_setupSettings (h : ∀ x, args.fuzzyThreshold = some x → IsThreshold (.real x)) :
    (setupSettings args).check = .ok (setupSettings args) := by
  refine check_eq_ok_iff.2 ⟨?_, by simp [setupSettings, standard]⟩
  unfold setupSettings
  cases hthreshold : args.fuzzyThreshold with
  | none => exact isThreshold_standard
  | some x => exact h x hthreshold

theorem wellTyped_setupSettings (h : args.IsDouble) : (setupSettings args).WellTyped where
  threshold := by
    unfold setupSettings
    cases hthreshold : args.fuzzyThreshold with
    | none =>
      intro x hx
      have hx : Binary64.ofDecimal false 8 (-1) = x := Json.real.inj hx
      rw [← hx]
      exact Binary64.ofDecimal_isDouble _ _ _
    | some x =>
      intro y hy
      obtain rfl : x = y := Json.real.inj hy
      exact h x hthreshold
  wildcardCaseSensitive := ⟨_, rfl⟩
  dataIgnoreCase := ⟨_, rfl⟩
  dataDotAll := ⟨_, rfl⟩
  encodings := ⟨["utf-8", "utf-16-le"], rfl⟩

/-- A run with the options and without a file has the settings that a setup stores. -/
theorem settingsOf_options (h : ∀ x, args.fuzzyThreshold = some x → IsThreshold (.real x))
    {env : Environment} {files : Files.Store} {passing : Arguments}
    (hconfig : passing.config = none) (hthreshold : passing.fuzzyThreshold = args.fuzzyThreshold)
    (hignore : passing.ignoreCaseWildcard = args.ignoreCaseWildcard)
    (hnone : find? files env = none) :
    settingsOf passing env files = .ok (setupSettings args) := by
  have hload : load files env none = .ok standard := by
    rw [load, hnone]
    exact ofMembers_nil
  have hcheck (threshold flag : Json) (hvalue : IsThreshold threshold) :
      check { standard with fuzzyThreshold := threshold, wildcardCaseSensitive := flag } =
        .ok { standard with fuzzyThreshold := threshold, wildcardCaseSensitive := flag } :=
    check_eq_ok_iff.2 ⟨hvalue, by simp [standard]⟩
  unfold settingsOf setupSettings
  rw [hconfig, hload, hthreshold, hignore]
  cases hx : args.fuzzyThreshold with
  | none =>
    cases args.ignoreCaseWildcard with
    | true =>
      simp only [bind, Except.bind, if_true, Option.map_none, Option.getD_none, Bool.not_true]
      exact hcheck standard.fuzzyThreshold (.bool false) isThreshold_standard
    | false => rfl
  | some x =>
    have hfirst := hcheck (.real x) standard.wildcardCaseSensitive (h x hx)
    cases args.ignoreCaseWildcard with
    | true =>
      simp only [hfirst, bind, Except.bind]
      exact hcheck _ _ (h x hx)
    | false =>
      simp only [hfirst, bind, Except.bind]
      rfl

/-- A run with nothing but a file has the settings of the file. -/
theorem settingsOf_file {env : Environment} {files : Files.Store} {loading : Arguments}
    {config : String} {loaded : Settings} (hconfig : loading.config = some config)
    (hthreshold : loading.fuzzyThreshold = none) (hignore : loading.ignoreCaseWildcard = false)
    (hload : load files env (some config) = .ok loaded) :
    settingsOf loading env files = .ok loaded := by
  simp [settingsOf, hconfig, hthreshold, hignore, hload, bind, Except.bind]

end

/-- Complete settings that are saved at a writable path are loaded from it with the same dialect. So
a run that is given the file of a setup has the dialect of a run that is given the options of the
setup and finds no file. -/
theorem setup_roundTrip [Host] [Limits] :
    (∀ (s : Settings) (files : Files.Store) (path : Option String), s.check = .ok s →
      s.WellTyped → files.Writable (savePath path) →
      ∃ p after, s.save files path = .ok (p, after) ∧
        ∀ env, ∃ loaded, load after env (some p.text) = .ok loaded ∧ loaded.SameDialect s) ∧
    (∀ (texts : List String) (args : Arguments) (config : String) (env : Environment)
      (files : Files.Store), readArguments texts = .ok args → args.setup = true →
      args.config = some config →
      (∀ x, args.fuzzyThreshold = some x → IsThreshold (.real x)) →
      files.Writable (.ofText config) →
      (run texts env files).ending = .exit 0 ∧
      ∀ (loading passing : Arguments) (env₁ env₂ : Environment) (others : Files.Store),
        loading.config = some config → loading.fuzzyThreshold = none →
        loading.ignoreCaseWildcard = false → passing.config = none →
        passing.fuzzyThreshold = args.fuzzyThreshold →
        passing.ignoreCaseWildcard = args.ignoreCaseWildcard → find? others env₂ = none →
        ∃ loaded passed,
          settingsOf loading env₁ (run texts env files).console.files = .ok loaded ∧
          settingsOf passing env₂ others = .ok passed ∧ loaded.SameDialect passed) := by
  constructor
  · intro s files path hs htyped hpath
    obtain ⟨after, hsave, hload⟩ := load_save hs htyped path hpath
    exact ⟨savePath path, after, hsave, fun env => hload _ env (ofText_savePath path)⟩
  · intro texts args config env files hargs hsetup hconfig hthreshold hpath
    have hcheck := check_setupSettings hthreshold
    have htyped := wellTyped_setupSettings (readArguments_isDouble hargs)
    obtain ⟨after, hsave, hload⟩ := load_save hcheck htyped (some config) hpath
    rw [← hconfig] at hsave
    have hrun : ∃ out, run texts env files = ⟨{ out, files := after }, .exit 0⟩ := by
      obtain ⟨out, hstored⟩ := run_runSetup { files } hcheck hsave
        ⟨⟨args.color = .always⟩, args.debug⟩
      exact ⟨out, by simp only [run, hargs, runArguments, hsetup, if_true, hstored]⟩
    obtain ⟨out, hrun⟩ := hrun
    rw [hrun]
    refine ⟨rfl, ?_⟩
    intro loading passing env₁ env₂ others hfile hbare hplain hnone hvalue hflag hfind
    obtain ⟨loaded, hloaded, hdialect⟩ := hload config env₁ rfl
    exact ⟨loaded, setupSettings args, settingsOf_file hfile hbare hplain hloaded,
      settingsOf_options hthreshold hnone hvalue hflag hfind, hdialect⟩

/-- Settings that differ from the standard ones in all parts but one. -/
def latin : Settings where
  fuzzyThreshold := .real (Binary64.ofDecimal false 25 (-2))
  wildcardCaseSensitive := .bool false
  dataDotAll := .bool false
  encodings := [.text "latin-1", .text "\"é\n𝄞"]

/-- The arguments of a setup. -/
def storing : Arguments where
  config := some "c.json"
  fuzzyThreshold := some (Binary64.ofDecimal false 25 (-2))
  ignoreCaseWildcard := true
  setup := true

theorem setup_roundTrip_latin :
    latin.check = .ok latin ∧ latin.WellTyped ∧
    Files.Store.empty.Writable (savePath (some "c.json")) ∧
    (∃ p after, latin.save .empty (some "c.json") = .ok (p, after) ∧
      ∃ loaded, load after [] (some p.text) = .ok loaded ∧ loaded.SameDialect latin) ∧
    ∃ texts, readArguments texts = .ok storing ∧
      (run texts [] .empty).ending = .exit 0 ∧
      ∃ loaded passed,
        settingsOf { config := some "c.json" } [] (run texts [] .empty).console.files =
          .ok loaded ∧
        settingsOf { storing with config := none } [] .empty = .ok passed ∧
        loaded.SameDialect passed := by
  have hquarter : IsThreshold (.real (Binary64.ofDecimal false 25 (-2))) := by
    have hvalue : (Binary64.ofDecimal false 25 (-2)).toRat? = some (1 / 4) := by decide +kernel
    exact ⟨1 / 4, hvalue, by norm_num, by norm_num⟩
  have hcheck : latin.check = .ok latin := check_eq_ok_iff.2 ⟨hquarter, by simp [latin]⟩
  have htyped : latin.WellTyped :=
    { threshold := by
        intro x hx
        have hx : Binary64.ofDecimal false 25 (-2) = x := Json.real.inj hx
        rw [← hx]
        exact Binary64.ofDecimal_isDouble _ _ _
      wildcardCaseSensitive := ⟨false, rfl⟩
      dataIgnoreCase := ⟨true, rfl⟩
      dataDotAll := ⟨false, rfl⟩
      encodings := ⟨["latin-1", "\"é\n𝄞"], rfl⟩ }
  have hpath : Files.Store.empty.Writable (savePath (some "c.json")) := ⟨[], _, rfl⟩
  have hthreshold : ∀ x, storing.fuzzyThreshold = some x → IsThreshold (.real x) := by
    intro x hx
    have hx : Binary64.ofDecimal false 25 (-2) = x := Option.some.inj hx
    rw [← hx]
    exact hquarter
  have hargs : readArguments ["--setup", "--config", "c.json", "--fuzzy-threshold", "0.25",
      "--ignore-case-wildcard"] = .ok storing := rfl
  obtain ⟨p, after, hsave, hload⟩ :=
    setup_roundTrip.1 latin .empty (some "c.json") hcheck htyped hpath
  obtain ⟨hexit, hdialect⟩ :=
    setup_roundTrip.2 _ storing "c.json" [] .empty hargs rfl rfl hthreshold hpath
  exact ⟨hcheck, htyped, hpath, ⟨p, after, hsave, hload []⟩, _, hargs, hexit,
    hdialect { config := some "c.json" } { storing with config := none } [] [] .empty
      rfl rfl rfl rfl rfl rfl rfl⟩

end NodeQuery.CommandLine
