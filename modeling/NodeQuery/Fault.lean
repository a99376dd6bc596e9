import NodeQuery.Text.Quoted
/-!
Failures of a look-up: a key or an index that is not there, a value of the wrong type, a file that
cannot be read. Callers treat the kinds differently, so the kind is kept beside the words.
-/
namespace NodeQuery

/-- What is wrong with a file or a directory. -/
inductive FileFault where
  | missing
  | isDirectory
  | notDirectory
  deriving DecidableEq, Repr

/-- The words for a fault, with its number. -/
def FileFault.message : FileFault → String
  | .missing => "[Errno 2] No such file or directory"
  | .isDirectory => "[Errno 21] Is a directory"
  | .notDirectory => "[Errno 20] Not a directory"

/-- A failure of a look-up. -/
inductive Fault where
  | missingKey (key : String)
  | badIndex (detail : String)
  | wrongType (detail : String)
  | noMember (detail : String)
  | badValue (detail : String)
  | file (fault : FileFault) (path : String)
  /-- A failure of the system without a path, refused access being one. -/
  | system (refused : Bool) (detail : String)
  | other (detail : String)
  deriving DecidableEq, Repr

namespace Fault

/-- The text of a failure. -/
def message : Fault → String
  | missingKey key => Text.quoted key
  | badIndex detail | wrongType detail | noMember detail | badValue detail => detail
  | file fault path => fault.message ++ ": " ++ Text.quoted path
  | system _ detail | other detail => detail

/-- A failure of the file system. -/
def ofSystem : Fault → Bool
  | file .. | system .. => true
  | _ => false

/-- A failure that can come from enumerating attributes: a look-up, the file system, a type or a
value. -/
def ofEnumeration : Fault → Bool
  | noMember _ | other _ => false
  | _ => true

end Fault
end NodeQuery
