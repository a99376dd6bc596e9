import NodeQuery.Failure
import NodeQuery.Json.Identity
/-!
Settings of the matching. Flags are any JSON values and count by whether they count as true; the
fuzzy threshold is a number from 0 to 1, and there is at least one text encoding.
-/
namespace NodeQuery

/-- Settings of the matching, as far as they have been read. -/
structure Settings where
  /-- The least score of a fuzzy match. -/
  fuzzyThreshold : Json := .real (Binary64.ofDecimal false 8 (-1))
  wildcardCaseSensitive : Json := .bool true
  dataIgnoreCase : Json := .bool true
  dataDotAll : Json := .bool true
  /-- The names of the encodings in which content is searched for a text. -/
  encodings : List Json := [.text "utf-8", .text "utf-16-le"]
  /-- Where the settings come from. -/
  path : String := ""
  deriving Inhabited

namespace Settings

/-- The standard settings. -/
def standard : Settings := {}

/-- The threshold as an exact number. -/
def threshold (s : Settings) : Rat :=
  s.fuzzyThreshold.toRat?.getD 0

/-- Settings that are complete and within their bounds. -/
def check (s : Settings) : Outcome Settings :=
  if !s.fuzzyThreshold.isNumeric then .error (.wrongType "the fuzzy threshold must be a number")
  else if !(s.fuzzyThreshold.toRat?.any fun q => 0 ≤ q && q ≤ 1) then
    .error (.badValue ("fuzzy threshold must be between 0 and 1, got " ++ s.fuzzyThreshold.display))
  else if s.encodings.isEmpty then .error (.badValue "at least one text encoding is required")
  else .ok s

/-- Settings in the form of debug messages. -/
def inspect (s : Settings) : String :=
  "MatchConfig(fuzzy_threshold=" ++ s.fuzzyThreshold.quote ++
    ", wildcard_case_sensitive=" ++ s.wildcardCaseSensitive.quote ++
    ", data_regex_ignore_case=" ++ s.dataIgnoreCase.quote ++
    ", data_regex_dotall=" ++ s.dataDotAll.quote ++
    ", text_encodings=" ++ (Json.list s.encodings).quote ++
    ", config_path=" ++ Text.quoted s.path ++ ")"

end Settings
end NodeQuery
