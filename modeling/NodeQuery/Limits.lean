import NodeQuery.Settings.File
import NodeQuery.Timeline
import NodeQuery.Query.Evaluation
/-!
Bounds of the machine that a query runs on. Nesting takes stack, whether it is in a document, in a
pattern, in a query or in a value, and a whole number that is too long is not written out. Whether a
task runs into such a bound is up to the machine and to what it is doing already, so it is left open
here: what is proved of a task holds whatever the bounds are.
-/
namespace NodeQuery

/-- A bound that a task can run into. -/
inductive Limit where
  | stack
  /-- The number of digits with which a whole number is written. -/
  | digits
  deriving DecidableEq

/-- The failure of a task that has run into a bound. -/
def Limit.failure : Limit → Failure
  | stack => .endless
  | digits => .badValue ("Exceeds the limit (" ++ toString digitLimit ++ " digits) for integer " ++
      "string conversion; use sys.set_int_max_str_digits() to increase the limit")

/-- What a machine can be set to do, with all that it is done on. -/
inductive Task where
  | settings (files : Files.Store) (env : Settings.Environment) (path : Option String)
  | tree (files : Files.Store) (path : Files.Path)
  | count (tree : NodeTree) (ids : List Json)
  | timeline (tree : NodeTree) (ids : List Json) (window : Window)
  | query (tree : NodeTree) (candidates : List Json) (query : String) (settings : Settings)
  | leaf (context : Query.Context) (leaf : Query.Leaf)

/-- The bounds of a machine. -/
class Limits where
  /-- The bound that a task runs into, if it does, and how many messages it has given before. It can
  depend on whether messages are wanted, since they take stack, too. -/
  reached? (debug : Bool) (task : Task) : Option (Limit × Nat)

/-- A machine without bounds. -/
instance (priority := low) Limits.none : Limits where
  reached? _ _ := .none

/-- A task within the bounds of the machine: its outcome, unless it runs into one of them. -/
def attempt [Limits] {α : Type} (debug : Bool) (task : Task) (outcome : Outcome α) : Outcome α :=
  match Limits.reached? debug task with
  | some (limit, _) => .error limit.failure
  | .none => outcome

end NodeQuery
