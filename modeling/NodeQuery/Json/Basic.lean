import NodeQuery.Number.Binary64
/-!
JSON values. Whole numbers and double-precision numbers are told apart by how they are written, and
the members of an object keep their order. Scalars (the values without parts) serve as node ids and
as attribute keys; `identity` says when two of them are the same: numbers by their value, `true` and
`false` as one and zero.
-/
namespace NodeQuery

/-- A JSON value. -/
inductive Json where
  | null
  | bool (value : Bool)
  | int (value : Int)
  | real (value : Binary64)
  | text (value : String)
  | list (items : List Json)
  | object (members : List (String × Json))
  deriving Inhabited

namespace Json

/-- The exact value of a number or truth value. -/
def toRat? : Json → Option Rat
  | .bool b => some (if b then 1 else 0)
  | .int n => some n
  | .real x => x.toRat?
  | _ => none

/-- A number or a truth value. -/
def isNumeric : Json → Bool
  | .bool _ | .int _ | .real _ => true
  | _ => false

/-- A value without parts. -/
def isScalar : Json → Bool
  | .list _ | .object _ => false
  | _ => true

/-- A value that counts as true: anything but null, false, zero and what is empty. -/
def isTruthy : Json → Bool
  | .null => false
  | .bool b => b
  | .int n => n != 0
  | .real x => !x.isZero
  | .text s => !s.isEmpty
  | .list items => !items.isEmpty
  | .object members => !members.isEmpty

/-- A member of an object. -/
def member? (name : String) : List (String × Json) → Option Json :=
  List.lookup name

/-- Adds a member to an object; a name that is there already keeps its place and takes the new
value. -/
def putMember (members : List (String × Json)) (name : String) (value : Json) :
    List (String × Json) :=
  if members.any (·.1 == name) then
    members.map fun m => if m.1 == name then (name, value) else m
  else members ++ [(name, value)]

end Json
end NodeQuery
