import NodeQuery.Number.Decimal
import NodeQuery.Text.Quoted
/-!
What can be wrong with a regular expression, and the words for it.
-/
namespace NodeQuery.Regex

/-- What is wrong with a pattern. Names and escapes are given as the pattern writes them. -/
inductive Fault where
  | endsInBackslash
  | missing (what : String)
  | openName (closing : Char)
  | badGroupName (name : String)
  | unknownGroupName (name : String)
  | groupNameTaken (name : String) (number first : Nat)
  | badGroupNumber
  | noSuchGroup (number : Nat)
  | openGroup
  | groupOfSameLookBehind
  | incompleteEscape (escape : String)
  | badEscape (escape : String)
  | octalTooLarge (escape : String)
  | unknownCharacterName (name : String)
  | openSet
  | badRange (first last : String)
  | countsOutOfOrder
  | nothingToRepeat
  | repeatedRepetition
  | endOfPattern
  | unknownExtension (text : String)
  | openComment
  | openParenthesis
  | extraParenthesis
  | thirdBranch
  | lateGlobalFlags
  | flagNeedsBytes
  | flagNeedsText
  | flagsExcludeEachOther
  | unknownFlag
  | globalFlagOn
  | globalFlagOff
  | lastingFlagOff
  | flagOnAndOff
  | variableLookBehind
  | farLookBehind
  | repetitionInTemplate (kind : String)
  deriving DecidableEq, Repr

/-- The words for a fault. -/
def Fault.message : Fault → String
  | endsInBackslash => "bad escape (end of pattern)"
  | missing what => "missing " ++ what
  | openName closing => "missing " ++ String.ofList [closing] ++ ", unterminated name"
  | badGroupName name => "bad character in group name " ++ Text.quoted name
  | unknownGroupName name => "unknown group name " ++ Text.quoted name
  | groupNameTaken name number first =>
    "redefinition of group name " ++ Text.quoted name ++ " as group " ++ toString number ++
      "; was group " ++ toString first
  | badGroupNumber => "bad group number"
  | noSuchGroup number => "invalid group reference " ++ toString number
  | openGroup => "cannot refer to an open group"
  | groupOfSameLookBehind => "cannot refer to group defined in the same lookbehind subpattern"
  | incompleteEscape escape => "incomplete escape " ++ escape
  | badEscape escape => "bad escape " ++ escape
  | octalTooLarge escape => "octal escape value " ++ escape ++ " outside of range 0-0o377"
  | unknownCharacterName name => "undefined character name " ++ Text.quoted name
  | openSet => "unterminated character set"
  | badRange first last => "bad character range " ++ first ++ "-" ++ last
  | countsOutOfOrder => "min repeat greater than max repeat"
  | nothingToRepeat => "nothing to repeat"
  | repeatedRepetition => "multiple repeat"
  | endOfPattern => "unexpected end of pattern"
  | unknownExtension text => "unknown extension ?" ++ text
  | openComment => "missing ), unterminated comment"
  | openParenthesis => "missing ), unterminated subpattern"
  | extraParenthesis => "unbalanced parenthesis"
  | thirdBranch => "conditional backref with more than two branches"
  | lateGlobalFlags => "global flags not at the start of the expression"
  | flagNeedsBytes => "bad inline flags: cannot use 'L' flag with a str pattern"
  | flagNeedsText => "bad inline flags: cannot use 'u' flag with a bytes pattern"
  | flagsExcludeEachOther => "bad inline flags: flags 'a', 'u' and 'L' are incompatible"
  | unknownFlag => "unknown flag"
  | globalFlagOn => "bad inline flags: cannot turn on global flag"
  | globalFlagOff => "bad inline flags: cannot turn off global flag"
  | lastingFlagOff => "bad inline flags: cannot turn off flags 'a', 'u' and 'L'"
  | flagOnAndOff => "bad inline flags: flag turned on and off"
  | variableLookBehind => "look-behind requires fixed-width pattern"
  | farLookBehind => "looks too much behind"
  | repetitionInTemplate kind => "internal: unsupported template operator " ++ kind

/-- Why a pattern is no regular expression. All kinds but the first are found by limits and by flags
rather than by the grammar. -/
inductive Error where
  | fault (cause : Fault) (position : Option Nat)
  | countTooLarge
  /-- A count is written with more digits than are read. -/
  | longCount (digits : Nat)
  | wideAndAsciiFlags
  | localeAndAsciiFlags
  deriving DecidableEq, Repr

/-- A place in a pattern by line and column, both counted from 1. -/
def lineAndColumn (pattern : List Char) (position : Nat) : Nat × Nat :=
  let before := pattern.take position
  (before.count '\n' + 1, (before.reverse.takeWhile (· ≠ '\n')).length + 1)

/-- Characters outside ASCII as escapes. -/
def asciiOnly (s : String) : String :=
  String.join (s.toList.map fun c =>
    if c.toNat < 128 then String.ofList [c] else Text.escapeCode c.toNat)

/-- The text of an error in a pattern. In a pattern of bytes the words are ASCII. -/
def Error.message (bytes : Bool) (pattern : List Char) : Error → String
  | .fault cause none => cause.message
  | .fault cause (some position) =>
    let words := if bytes then asciiOnly cause.message else cause.message
    let (line, column) := lineAndColumn pattern position
    words ++ " at position " ++ toString position ++
      (if pattern.contains '\n' then
        " (line " ++ toString line ++ ", column " ++ toString column ++ ")"
      else "")
  | .countTooLarge => "the repetition number is too large"
  | .longCount digits => longNumberText digits
  | .wideAndAsciiFlags => "ASCII and UNICODE flags are incompatible"
  | .localeAndAsciiFlags => "ASCII and LOCALE flags are incompatible"

end NodeQuery.Regex
