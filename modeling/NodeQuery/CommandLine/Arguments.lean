import NodeQuery.CommandLine.Help
import NodeQuery.Failure
import NodeQuery.Text.Digit
/-!
The arguments of the command. Each argument is first taken for an option or a plain word; then
options are served in order, and plain words become the tree file and the query. Both of these are
filled at the first place with plain words: what comes later is not understood.
-/
namespace NodeQuery.CommandLine

/-- When output is coloured. -/
inductive ColorMode where
  | auto
  | always
  | never
  deriving DecidableEq, Repr

/-- The arguments of the command. -/
structure Arguments where
  treeFile : Option String := none
  query : Option String := none
  path : Option String := none
  timeline : Option (Stamp × Stamp) := none
  countAttributes : Bool := false
  dataNodes : Bool := false
  config : Option String := none
  fuzzyThreshold : Option Binary64 := none
  ignoreCaseWildcard : Bool := false
  color : ColorMode := .auto
  debug : Bool := false
  setup : Bool := false
  deriving DecidableEq, Repr

/-- An option of the command. -/
inductive OptionKey where
  | help
  | version
  | path
  | timeline
  | countAttributes
  | dataNodes
  | config
  | fuzzyThreshold
  | ignoreCaseWildcard
  | color
  | debug
  | setup
  deriving DecidableEq, Repr

namespace OptionKey

/-- All options, in the order of the help. -/
def all : List OptionKey :=
  [help, version, path, timeline, countAttributes, dataNodes, config, fuzzyThreshold,
    ignoreCaseWildcard, color, debug, setup]

/-- The names of an option. -/
def names : OptionKey → List String
  | help => ["-h", "--help"]
  | version => ["-V", "--version"]
  | path => ["-P", "--path"]
  | timeline => ["--timeline"]
  | countAttributes => ["--count-attributes"]
  | dataNodes => ["--data-nodes"]
  | config => ["--config"]
  | fuzzyThreshold => ["--fuzzy-threshold"]
  | ignoreCaseWildcard => ["--ignore-case-wildcard"]
  | color => ["--color"]
  | debug => ["--debug"]
  | setup => ["--setup"]

/-- The number of values that follow an option. -/
def valueCount : OptionKey → Nat
  | path | config | fuzzyThreshold | color => 1
  | timeline => 2
  | _ => 0

/-- The option with a name. -/
def named? (name : String) : Option OptionKey :=
  all.find? (·.names.contains name)

/-- All names with their options. -/
def allNames : List (String × OptionKey) :=
  all.flatMap fun key => key.names.map fun name => (name, key)

/-- The words for an option in messages. -/
def label (key : OptionKey) : String :=
  "argument " ++ "/".intercalate key.names

end OptionKey

/-- A value written together with the name of its option, and whether an equals sign stands between
them. -/
structure Attached where
  byEquals : Bool
  value : String

/-- What an argument is taken for. -/
inductive Word where
  | plain (text : String)
  /-- The first `--`, after which no argument is an option. -/
  | ending
  | option (key : OptionKey) (name : String) (attached : Option Attached)
  | unknown (text : String)

namespace Word

/-- The text of a word that is no option. -/
def text : Word → String
  | plain text | unknown text => text
  | ending => "--"
  | option _ name _ => name

/-- A word that is taken for an option. -/
def isOption : Word → Bool
  | option .. | unknown _ => true
  | _ => false

end Word

/-- Cuts a text at its first equals sign. -/
def splitEquals (text : String) : String × Option String :=
  let chars := text.toList
  let name := chars.takeWhile (· ≠ '=')
  (String.ofList name,
    if name.length < chars.length then some (String.ofList (chars.drop (name.length + 1)))
    else none)

/-- A text starts with another one. -/
def startsWith (start text : String) : Bool :=
  start.toList.isPrefixOf text.toList

/-- The options that an argument may mean: for a long name all that it begins, for a short one the
option of that letter, the rest being its value. -/
def candidates (text : String) : List Word :=
  match text.toList with
  | '-' :: '-' :: _ =>
    let (name, value) := splitEquals text
    (OptionKey.allNames.filter fun entry => startsWith name entry.1).map fun entry =>
      .option entry.2 entry.1 (value.map (⟨true, ·⟩))
  | '-' :: letter :: rest =>
    OptionKey.allNames.filterMap fun entry =>
      if entry.1 = String.ofList ['-', letter] then
        some (.option entry.2 entry.1 (some ⟨false, String.ofList rest⟩))
      else none
  | _ => []

/-- A negative number: digits, with a point among them or not, after a hyphen. -/
def isNegativeNumber (text : String) : Bool :=
  match text.toList with
  | '-' :: number =>
    let isDigit (c : Char) : Bool := Text.isDigit c.toNat
    match number.dropWhile isDigit with
    | [] => !number.isEmpty
    | '.' :: places => !places.isEmpty && places.all isDigit
    | _ => false
  | _ => false

/-- What is wrong with the arguments. -/
abbrev UsageError := String

/-- What an argument is taken for. -/
def classify (text : String) : Except UsageError Word :=
  if !startsWith "-" text || text = "-" then .ok (.plain text)
  else
    match OptionKey.named? text, splitEquals text with
    | some key, _ => .ok (.option key text none)
    | none, (name, value) =>
      match OptionKey.named? name, value with
      | some key, some value => .ok (.option key name (some ⟨true, value⟩))
      | _, _ =>
        match candidates text with
        | [word] => .ok word
        | [] =>
          if isNegativeNumber text || text.toList.contains ' ' then .ok (.plain text)
          else .ok (.unknown text)
        | words => .error ("ambiguous option: " ++ text ++ " could match " ++
            ", ".intercalate (words.map Word.text))

/-- What the arguments are taken for. -/
def classifyAll : List String → Except UsageError (List Word)
  | [] => .ok []
  | text :: rest =>
    if text = "--" then .ok (.ending :: rest.map .plain)
    else do
      let word ← classify text
      return word :: (← classifyAll rest)

/-- Why the arguments lead to no run of the command. -/
inductive Stop where
  | help
  | version
  | error (detail : UsageError)

/-- An error with an option. -/
def optionError {α : Type} (key : OptionKey) (detail : String) : Except Stop α :=
  .error (.error (key.label ++ ": " ++ detail))

/-- Reads a time, which must have an offset. -/
def readTime (text : String) : Outcome Stamp :=
  match Time.parse text with
  | .error _ => .error (.timeArgument .malformed text)
  | .ok t => if t.isAware then .ok t else .error (.timeArgument .noOffset text)

/-- The colour mode with a name. -/
def ColorMode.named? (name : String) : Option ColorMode :=
  if name = "auto" then some auto
  else if name = "always" then some always
  else if name = "never" then some never
  else none

/-- Serves an option with its values. -/
def serve (args : Arguments) (key : OptionKey) (values : List String) : Except Stop Arguments :=
  match key, values with
  | .help, _ => .error .help
  | .version, _ => .error .version
  | .path, [value] => .ok { args with path := some value }
  | .timeline, [first, last] => do
    let read (text : String) : Except Stop Stamp :=
      match readTime text with
      | .ok t => .ok t
      | .error failure => optionError .timeline failure.message
    let first ← read first
    let last ← read last
    return { args with timeline := some (first, last) }
  | .countAttributes, _ => .ok { args with countAttributes := true }
  | .dataNodes, _ => .ok { args with dataNodes := true }
  | .config, [value] => .ok { args with config := some value }
  | .fuzzyThreshold, [value] =>
    match Binary64.ofText? value with
    | some x => .ok { args with fuzzyThreshold := some x }
    | none => optionError .fuzzyThreshold ("invalid float value: " ++ Text.quoted value)
  | .ignoreCaseWildcard, _ => .ok { args with ignoreCaseWildcard := true }
  | .color, [value] =>
    match ColorMode.named? value with
    | some mode => .ok { args with color := mode }
    | none => optionError .color ("invalid choice: " ++ Text.quoted value ++
        " (choose from 'auto', 'always', 'never')")
  | .debug, _ => .ok { args with debug := true }
  | .setup, _ => .ok { args with setup := true }
  | _, _ => .ok args

/-- Serves options with their values, one after the other. -/
def serveAll (args : Arguments) : List (OptionKey × List String) → Except Stop Arguments
  | [] => .ok args
  | (key, values) :: rest => do
    let args ← serve args key values
    serveAll args rest

/-- An option that lacks values. -/
def lacksValues {α : Type} (key : OptionKey) : Except Stop α :=
  optionError key (if key.valueCount = 1 then "expected one argument"
    else "expected " ++ toString key.valueCount ++ " arguments")

/-- What one argument asks for: options with their values, what is not understood, and the words
that are left. -/
structure Request where
  served : List (OptionKey × List String)
  extras : List String
  rest : List Word

/-- The name of an option of one letter. -/
def isShort (name : String) : Bool :=
  (name.toList.drop 1).head? != some '-'

/-- Finds the values of an option, among them one that is attached to its name. Behind the letter of
an option without values more letters may follow. -/
def request : Nat → OptionKey → String → Option Attached → List Word → Except Stop Request
  | 0, _, _, _, words => .ok ⟨[], [], words⟩
  | fuel + 1, key, name, attached, words =>
    match attached with
    | none =>
      let values := (words.take key.valueCount).filterMap fun
        | .plain text => some text
        | _ => none
      if values.length = key.valueCount then
        .ok ⟨[(key, values)], [], words.drop key.valueCount⟩
      else lacksValues key
    | some ⟨byEquals, value⟩ =>
      let ignored : Except Stop Request :=
        optionError key ("ignored explicit argument " ++ Text.quoted value)
      if key.valueCount = 1 then .ok ⟨[(key, [value])], [], words⟩
      else if key.valueCount ≠ 0 then lacksValues key
      else
        match value.toList with
        | letter :: more =>
          if !isShort name || byEquals || letter = '-' then ignored
          else
            let next := String.ofList ['-', letter]
            match OptionKey.named? next with
            | none => .ok ⟨[(key, [])], ["-" ++ value], words⟩
            | some other => do
              let attached := match more with
                | [] => none
                | '=' :: text => some ⟨true, String.ofList text⟩
                | text => some ⟨false, String.ofList text⟩
              let r ← request fuel other next attached words
              return { r with served := (key, []) :: r.served }
        | [] => ignored

/-- The words for one positional argument, and those after it: at most one plain word, with the
ending before or after it. -/
def splitPositional (words : List Word) : List Word × List Word :=
  let isEnding : Word → Bool
    | .ending => true
    | _ => false
  let before := words.takeWhile isEnding
  let rest := words.dropWhile isEnding
  match rest with
  | .plain text :: rest =>
    (before ++ .plain text :: rest.takeWhile isEnding, rest.dropWhile isEnding)
  | _ => (before, rest)

/-- The value of a positional argument; one `--` does not count. -/
def positionalValue (words : List Word) : Option String :=
  ((words.map Word.text).erase "--").head?

/-- Fills the two positional arguments. -/
def takePositionals (args : Arguments) (words : List Word) : Arguments × List Word :=
  let (first, words) := splitPositional words
  let (second, words) := splitPositional words
  ({ args with treeFile := positionalValue first, query := positionalValue second }, words)

/-- Serves all words. `filled` says whether the positional arguments have had their place, and
`extras` collects what is not understood. -/
def serveWords : Nat → Bool → List String → Arguments → List Word →
    Except Stop (Arguments × List String)
  | 0, _, extras, args, _ => .ok (args, extras)
  | fuel + 1, filled, extras, args, words =>
    match words with
    | .option key name attached :: rest => do
      let r ← request (name.length + (attached.map (·.value.length)).getD 0 + 2) key name attached
        rest
      let args ← serveAll args r.served
      serveWords fuel filled (extras ++ r.extras) args r.rest
    | .unknown text :: rest => serveWords fuel filled (extras ++ [text]) args rest
    | [] => .ok (args, extras)
    | words =>
      if filled then
        serveWords fuel filled
          (extras ++ (words.takeWhile fun w => !w.isOption).map Word.text) args
          (words.dropWhile fun w => !w.isOption)
      else
        let (args, rest) := takePositionals args words
        serveWords fuel true extras args rest

/-- Reads the arguments of the command. -/
def readArguments (texts : List String) : Except Stop Arguments := do
  let words ← (classifyAll texts).mapError Stop.error
  let (args, extras) ← serveWords (2 * words.length + 2) false [] {} words
  if extras.isEmpty then return args
  else .error (.error ("unrecognized arguments: " ++ " ".intercalate extras))

end NodeQuery.CommandLine
