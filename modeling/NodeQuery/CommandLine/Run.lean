import NodeQuery.CommandLine.Arguments
import NodeQuery.CommandLine.Style
import NodeQuery.Limits
import NodeQuery.Query.Trace
import NodeQuery.Summary
import NodeQuery.Tree.Description
import NodeQuery.Tree.Search
/-!
A run of the command: arguments, environment and files lead to output, a status and perhaps a
written file. Everything that was printed before a failure stays printed.
-/
namespace NodeQuery.CommandLine

/-- What a run has written so far, and the files as it leaves them. -/
structure Console where
  out : String := ""
  err : String := ""
  files : Files.Store

/-- A part of a run, which can fail. -/
abbrev Activity := ExceptT Failure (StateM Console)

/-- What a run writes and how. -/
structure Printer where
  style : Style
  debug : Bool

namespace Activity

/-- Prints a line. -/
def print (line : String) : Activity Unit :=
  modify fun c => { c with out := c.out ++ line ++ "\n" }

/-- Prints a line to the error output. -/
def printError (line : String) : Activity Unit :=
  modify fun c => { c with err := c.err ++ line ++ "\n" }

/-- Prints lines to the error output if they are wanted. -/
def debug (printer : Printer) (lines : List String) : Activity Unit :=
  if printer.debug then lines.forM fun line => printError ("DEBUG: " ++ line) else pure ()

/-- A result that may be a failure. -/
def ofOutcome {α : Type} (outcome : Outcome α) : Activity α :=
  match outcome with
  | .ok a => pure a
  | .error failure => throw failure

/-- Does a task that has messages and an outcome. If it runs into a bound of the machine, it ends
there and then. -/
def perform [Limits] {α : Type} (printer : Printer) (task : Task) (messages : List String)
    (outcome : Outcome α) : Activity α :=
  match Limits.reached? printer.debug task with
  | some (limit, told) => do
    debug printer (messages.take told)
    throw limit.failure
  | none => do
    debug printer messages
    ofOutcome outcome

end Activity

open Activity
variable [Host] [Limits]

/-- Prints the paths of nodes. -/
def printNodes (printer : Printer) (tree : MemoryTree) (ids : List Json) : Activity Unit :=
  ids.forM fun id => do
    let path ← ofOutcome ((tree.path id).mapError Failure.fault)
    print (printer.style.highlight path)

/-- Prints the entries of a timeline: time, attribute and path. -/
def printTimeline (printer : Printer) (tree : MemoryTree) (entries : List TimelineEntry) :
    Activity Unit :=
  entries.forM fun e => do
    let path ← ofOutcome ((tree.path e.id).mapError Failure.fault)
    print (e.time.isoText ++ "\t" ++ printer.style.bold e.name.display ++ "\t" ++
      printer.style.highlight path)

/-- Prints a number with its label. -/
def printCount (printer : Printer) (label : String) (n : Nat) : Activity Unit :=
  print (label ++ ": " ++ printer.style.bold (toString n))

/-- The settings of a run: those of the file with those of the arguments. -/
def settingsOf (args : Arguments) (env : Settings.Environment) (files : Files.Store) :
    Outcome Settings := do
  let settings ← Settings.load files env args.config
  let settings ← match args.fuzzyThreshold with
    | some x => Settings.check { settings with fuzzyThreshold := .real x }
    | none => .ok settings
  if args.ignoreCaseWildcard then
    Settings.check { settings with wildcardCaseSensitive := .bool false }
  else .ok settings

/-- Stores the settings of the arguments. -/
def runSetup (args : Arguments) (printer : Printer) : Activity Unit := do
  let settings ← ofOutcome (Settings.check
    { Settings.standard with
      fuzzyThreshold := (args.fuzzyThreshold.map Json.real).getD Settings.standard.fuzzyThreshold
      wildcardCaseSensitive := .bool (!args.ignoreCaseWildcard) })
  let (path, files) ← ofOutcome (settings.save (← get).files args.config)
  modify fun c => { c with files }
  print (printer.style.green ("Successfully wrote config to " ++ path.text))

/-- Prints the number of attributes. -/
def runCount (args : Arguments) (printer : Printer) (tree : MemoryTree) (view : NodeTree) :
    Activity Unit := do
  let ids ← ofOutcome (tree.idsBelow args.path)
  let count ← perform printer (.count view ids) [] (Summary.attributeCount view ids)
  printCount printer "attributes" count

/-- The message for a node left out because of its content. -/
def skippedText (s : Summary.Skipped) : String :=
  "Skipping node " ++ s.id.quote ++ " with unreadable data: " ++ s.cause.message

/-- Prints the nodes with content. -/
def runDataNodes (args : Arguments) (printer : Printer) (tree : MemoryTree) (view : NodeTree) :
    Activity Unit := do
  let ids ← ofOutcome (tree.idsBelow args.path)
  let nodes ← ofOutcome (Summary.dataNodes view ids)
  debug printer (nodes.skipped.map skippedText)
  printNodes printer tree nodes.found

/-- The path of the arguments, unless it is empty. -/
def nonEmptyPath (args : Arguments) : Option String :=
  args.path.filter (· ≠ "")

/-- Prints the timeline of a window. -/
def runTimeline (args : Arguments) (printer : Printer) (tree : MemoryTree) (view : NodeTree)
    (window : Window) : Activity Unit := do
  let path := nonEmptyPath args
  let ids ← ofOutcome (tree.idsBelow path)
  let entries ← perform printer (.timeline view ids window) [] (tree.timeline view path window)
  let skipped := Timeline.skippedCount window (← ofOutcome (Timeline.times view ids))
  if skipped ≠ 0 then
    debug printer ["Skipped " ++ toString skipped ++
      " datetime attributes not comparable to the window"]
  debug printer ["Timeline has " ++ toString entries.length ++ " entries from " ++
    toString ids.length ++ " nodes"]
  printTimeline printer tree entries

/-- Prints the nodes that a query selects. -/
def runSelection (args : Arguments) (printer : Printer) (tree : MemoryTree) (view : NodeTree)
    (settings : Settings) (query : String) : Activity Unit := do
  let path := nonEmptyPath args
  let ids ← ofOutcome (tree.idsBelow path)
  let found ← perform printer (.query view ids query settings)
    (Query.trace view ids query settings) (tree.select view path query settings)
  printNodes printer tree found

/-- Runs the reports and the query of the arguments. -/
def runReports (args : Arguments) (env : Settings.Environment) (printer : Printer)
    (treeFile : String) : Activity Unit := do
  let files := (← get).files
  let settings ← perform printer (.settings files env args.config) [] (settingsOf args env files)
  debug printer ["Using configuration " ++ settings.inspect]
  let path := Files.Path.ofText treeFile
  let tree ← perform printer (.tree files path) [] (MemoryTree.load files path)
  debug printer ["Loaded tree with " ++ toString tree.size ++ " nodes"]
  let view := tree.view files
  if args.countAttributes then runCount args printer tree view
  if args.dataNodes then runDataNodes args printer tree view
  match args.timeline with
  | some (first, last) => runTimeline args printer tree view ⟨first, last⟩
  | none => pure ()
  match args.query with
  | some query => if query ≠ "" then runSelection args printer tree view settings query
  | none => pure ()

/-- The line that reports a failure, if failures of its kind are reported. -/
def failureLine? (printer : Printer) (failure : Failure) : Option String :=
  match failure with
  | .query e =>
    some ("Error: " ++ printer.style.red (String.ofList (e.label.toList.map Char.toLower)) ++ ": " ++
      e.text)
  | _ =>
    if failure.isSystem || failure.isBadValue then some ("Error: " ++ failure.message) else none

/-- How a run ends: with a status, or with a failure that nobody reports. -/
inductive Ending where
  | exit (status : Nat)
  | escaped (failure : Failure)

/-- The result of a run. -/
structure Result where
  console : Console
  ending : Ending

/-- The arguments ask for something else than help. -/
def hasReport (args : Arguments) : Bool :=
  args.query.any (· ≠ "") || args.timeline.isSome || args.countAttributes || args.dataNodes

/-- Runs the command with arguments that have been understood. -/
def runArguments (args : Arguments) (env : Settings.Environment) (console : Console) : Result :=
  let printer : Printer := ⟨⟨args.color = .always⟩, args.debug⟩
  if args.setup then
    match (runSetup args printer).run.run console with
    | (.ok _, console) => ⟨console, .exit 0⟩
    | (.error failure, console) => ⟨console, .escaped failure⟩
  else
    match args.treeFile.filter (· ≠ ""), hasReport args with
    | some treeFile, true =>
      match (runReports args env printer treeFile).run.run console with
      | (.ok _, console) => ⟨console, .exit 0⟩
      | (.error failure, console) =>
        match failureLine? printer failure with
        | some line => ⟨{ console with err := console.err ++ line ++ "\n" }, .exit 1⟩
        | none => ⟨console, .escaped failure⟩
    | _, _ => ⟨{ console with out := console.out ++ help }, .exit 1⟩

/-- Runs the command. -/
def run (args : List String) (env : Settings.Environment) (files : Files.Store) : Result :=
  match readArguments args with
  | .ok args => runArguments args env { files }
  | .error .help => ⟨{ out := help, files }, .exit 0⟩
  | .error .version => ⟨{ out := versionText, files }, .exit 0⟩
  | .error (.error detail) => ⟨{ err := usageError detail, files }, .exit 2⟩

end NodeQuery.CommandLine
