import NodeQuery.Files.Store
import NodeQuery.Json.Writer
import NodeQuery.Settings.Basic
/-!
Settings in files. A settings file is a JSON object, and what it leaves out is standard. Without an
explicit path the file is searched for: where a variable of the environment points, in the working
directory, in the user's configuration directories and at last for the whole system. Only what
differs from the standard is written.
-/
namespace NodeQuery.Settings

/-- The variables of the environment. -/
abbrev Environment := List (String × String)

/-- The name of settings files. -/
def fileName : String := ".tap-query-config.json"

/-- The variable that points to a settings file. -/
def pathVariable : String := "TAP_QUERY_CONFIG"

/-- The settings file in a directory. -/
def fileIn (directory : Files.Path) : Files.Path :=
  directory.join (.ofText fileName)

/-- The places where a settings file is searched for, in order. -/
def searchPaths (env : Environment) : List Files.Path :=
  let valueOf (name : String) : String := (env.lookup name).getD ""
  let explicit := valueOf pathVariable
  (if explicit.isEmpty then [] else [Files.Path.ofText explicit]) ++
    [fileIn .here,
     fileIn (.ofText (valueOf "XDG_CONFIG_HOME")),
     fileIn ((Files.Path.ofText (valueOf "HOME")).join (.ofText ".config")),
     fileIn (.ofText "/etc")]

/-- The settings file that is found first. -/
def find? (files : Files.Store) (env : Environment) : Option Files.Path :=
  (searchPaths env).find? files.isFile

/-- Reads a number, from a text too. -/
def numberOf : Json → Outcome Json
  | .int n =>
    match Binary64.ofInt n with
    | .infinite _ => .error .numberTooLarge
    | x => .ok (.real x)
  | .bool b => .ok (.real (Binary64.ofInt (if b then 1 else 0)))
  | .real x => .ok (.real x)
  | .text s =>
    match Binary64.ofText? s with
    | some x => .ok (.real x)
    | none => .error (.badValue ("could not convert string to float: " ++ Text.quoted s))
  | _ => .error (.wrongType "a number is needed")

/-- Reads a list: the characters of a text and the names of an object's members are lists too. -/
def listOf : Json → Outcome (List Json)
  | .list items => .ok items
  | .text s => .ok (s.toList.map fun c => .text (String.ofList [c]))
  | .object members => .ok (members.map fun m => .text m.1)
  | _ => .error (.wrongType "a list is needed")

/-- Reads settings from the members of a JSON object. -/
def ofMembers (path : String) (members : List (String × Json)) : Outcome Settings := do
  let member (name : String) (usual : Json) : Json := (Json.member? name members).getD usual
  let threshold ← numberOf (member "fuzzy-threshold" standard.fuzzyThreshold)
  let encodings ← listOf (member "text-encodings" (.list standard.encodings))
  check
    { fuzzyThreshold := threshold
      wildcardCaseSensitive := member "wildcard-case-sensitive" standard.wildcardCaseSensitive
      dataIgnoreCase := member "data-regex-ignore-case" standard.dataIgnoreCase
      dataDotAll := member "data-regex-dotall" standard.dataDotAll
      encodings, path }

/-- Reads settings from a JSON value. -/
def ofJson (path : String) : Json → Outcome Settings
  | .object members => ofMembers path members
  | _ => .error (.fault (.noMember "settings must be an object"))

/-- Reads settings from the given file or from the file that is found. A path that leads to no file
gives the standard settings. -/
def load (files : Files.Store) (env : Environment) (path : Option String) : Outcome Settings :=
  match (path.map Files.Path.ofText).or (find? files env) with
  | none => ofMembers "" []
  | some p =>
    if files.isFile p then do
      let value ← files.readJson p
      ofJson p.text value
    else ofMembers p.text []

/-- The member for a flag that does not count as true. -/
def flagMember (name : String) (flag : Json) : List (String × Json) :=
  if flag.isTruthy then [] else [(name, .bool false)]

/-- The JSON object that stands for settings. -/
def toJson (s : Settings) : Json :=
  .object
    ((if s.fuzzyThreshold.same standard.fuzzyThreshold then []
      else [("fuzzy-threshold", s.fuzzyThreshold)]) ++
     flagMember "wildcard-case-sensitive" s.wildcardCaseSensitive ++
     flagMember "data-regex-ignore-case" s.dataIgnoreCase ++
     flagMember "data-regex-dotall" s.dataDotAll ++
     (if s.encodings.map Json.identity = standard.encodings.map Json.identity then []
      else [("text-encodings", .list s.encodings)]))

/-- Writes settings into a file, the one in the working directory if no path is given, and gives its
path. -/
def save (files : Files.Store) (path : Option String) (s : Settings) :
    Outcome (Files.Path × Files.Store) := do
  let p := (path.map Files.Path.ofText).getD (fileIn .here)
  let text := Json.write 0 s.toJson
  let files ← (files.write p (Text.Utf8.encode text.toList)).mapError Failure.fault
  return (p, files)

end NodeQuery.Settings
