import NodeQuery.CommandLine.Run
/-!
The command on a real system: the files that a run may need are read first, then the run is worked
out, and what it wrote is put in place.
-/
namespace NodeQuery.CommandLine

/-- The files that a run may look at, apart from the content of nodes. -/
def neededPaths (args : Arguments) (env : Settings.Environment) : List Files.Path :=
  let config := (args.config.map Files.Path.ofText).getD (Settings.fileIn .here)
  Settings.searchPaths env ++ [config.parent, config] ++
    (args.treeFile.map Files.Path.ofText).toList

/-- The files that hold content of a tree. -/
def contentPaths (tree : MemoryTree) : List Files.Path :=
  tree.nodes.filterMap fun node =>
    match node.content with
    | some (.file path) => some path
    | _ => none

/-- Takes what lies at a path into a store. -/
def look (files : Files.Store) (path : Files.Path) : IO Files.Store := do
  try
    let content ← IO.FS.readBinFile path.text
    return files.put path content.toList
  catch
    | .noFileOrDirectory .. => return files
    | _ => return files.addDirectory path

/-- The files that a run of the command needs. -/
def gather (args : List String) (env : Settings.Environment) : IO Files.Store := do
  match readArguments args with
  | .error _ => return .empty
  | .ok args =>
    let files ← (neededPaths args env).foldlM look .empty
    match MemoryTree.load files (.ofText (args.treeFile.getD "")) with
    | .ok tree => (contentPaths tree).foldlM look files
    | .error _ => return files

/-- The variables of the environment that the command knows. -/
def environment : IO Settings.Environment :=
  [Settings.pathVariable, "XDG_CONFIG_HOME", "HOME"].filterMapM fun name => do
    return (← IO.getEnv name).map (name, ·)

end NodeQuery.CommandLine

open NodeQuery CommandLine in
/-- Runs the command. -/
def main (args : List String) : IO UInt32 := do
  let env ← environment
  let files ← gather args env
  let result := run args env files
  for (path, content) in result.console.files.files do
    if files.files.lookup path ≠ some content then
      IO.FS.writeBinFile path.text ⟨content.toArray⟩
  IO.print result.console.out
  IO.eprint result.console.err
  match result.ending with
  | .exit status => return status.toUInt32
  | .escaped failure =>
    IO.eprintln failure.message
    return 1
