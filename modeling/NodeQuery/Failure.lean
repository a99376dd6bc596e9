import NodeQuery.Json.Reader
import NodeQuery.Query.Error
import NodeQuery.Regex.Fault
import NodeQuery.Text.Base64
import NodeQuery.Text.Encoding
import NodeQuery.Time.Iso
/-!
Everything that can go wrong: the failures of a query, and those of what surrounds it. A command
reports some of them to its user, all query errors, system failures and bad values among them.
-/
namespace NodeQuery

/-- What is wrong with a time given as an argument. -/
inductive TimeArgumentFault where
  | malformed
  | noOffset
  deriving DecidableEq, Repr

/-- What can go wrong. -/
inductive Failure where
  | query (error : QueryError)
  | fault (fault : Fault)
  | encoding (error : Text.Encoding.Error)
  | undecodable (error : Text.Utf8.DecodeError)
  /-- A pattern that is refused for something else than its grammar. -/
  | pattern (error : Regex.Error)
  | json (error : Json.ReadError)
  | base64 (error : Text.Base64.Error)
  | time (error : Time.IsoError)
  | timeArgument (fault : TimeArgumentFault) (text : String)
  /-- A number beyond the greatest double-precision one. -/
  | numberTooLarge
  /-- Nesting without end. -/
  | endless

/-- A result, or what went wrong. -/
abbrev Outcome := Except Failure

namespace Failure

/-- A value of the wrong type. -/
def wrongType (detail : String) : Failure :=
  .fault (.wrongType detail)

/-- A value that is out of its bounds. -/
def badValue (detail : String) : Failure :=
  .fault (.badValue detail)

/-- The failure for a text that is no JSON value. A number that is too long is a bad value. -/
def ofReadError (error : Json.ReadError) : Failure :=
  match error.cause with
  | .longNumber _ => .badValue error.cause.message
  | _ => .json error

/-- The text of a failure. -/
def message : Failure → String
  | query error => error.text
  | fault f => f.message
  | encoding error => error.message
  | undecodable error => error.message
  | pattern error => error.message false []
  | json error => error.message
  | base64 error => error.message
  | time error => error.message
  | timeArgument .malformed text => "invalid ISO 8601 time: " ++ Text.quoted text
  | timeArgument .noOffset text =>
    "time needs a UTC offset, e.g. " ++ text ++ "T00:00:00+00:00: " ++ Text.quoted text
  | numberTooLarge => "int too large to convert to float"
  | endless => "maximum recursion depth exceeded"

/-- A bad value: a text or a number that its reader refuses. -/
def isBadValue : Failure → Bool
  | fault (.badValue _) => true
  | encoding (.refused _) => true
  | json error => error.cause != .loneHalf
  | undecodable _ | base64 _ | time _ => true
  | pattern (.longCount _) | pattern .wideAndAsciiFlags | pattern .localeAndAsciiFlags => true
  | _ => false

/-- A failure of the file system. -/
def isSystem : Failure → Bool
  | fault f => f.ofSystem
  | _ => false

end Failure
end NodeQuery
