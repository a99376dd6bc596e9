import NodeQuery.Query.Evaluation
/-!
What debug messages say about an evaluation: the expression, the size of the task and the result of
each leaf up to the first that fails.
-/
namespace NodeQuery.Query

/-- The number of nodes among candidates that have no content. -/
def withoutContent (context : Context) : Nat :=
  (context.candidates.filter fun id =>
    context.tree.has id &&
      match context.tree.data id with
      | .ok none => true
      | _ => false).length

/-- How many candidates a leaf has selected. -/
def Leaf.report (context : Context) (found : List Json) (leaf : Leaf) : String :=
  let count := " matched " ++ toString found.length ++ " of " ++
    toString context.candidates.length ++ " nodes"
  match leaf with
  | .name axis method value =>
    axis.label ++ " " ++ method.label ++ " " ++ Text.quoted value ++ count
  | .attribute key keyMethod value valueMethod =>
    "attribute " ++ keyMethod.label ++ " " ++ Text.quoted key ++ " == " ++ valueMethod.label ++
      " " ++ Text.quoted value ++ count
  | .data method value =>
    "data " ++ method.label ++ " " ++ Text.quoted value ++ count ++ " (" ++
      toString (withoutContent context) ++ " without data)"

/-- The reports of leaves up to the first that fails. -/
def reports [Host] (context : Context) : List Leaf → List String
  | [] => []
  | leaf :: rest =>
    match leaf.select context with
    | .ok found => leaf.report context found :: reports context rest
    | .error _ => []

/-- The messages of an evaluation. -/
def trace [Host] (tree : NodeTree) (candidates : List Json) (query : String) (settings : Settings) :
    List String :=
  match parse query with
  | .error _ => []
  | .ok expr =>
    let context : Context := ⟨tree, Selection.distinct candidates, settings⟩
    let final := match evaluate tree candidates query settings with
      | .ok found =>
        ["Query " ++ Text.quoted query ++ " matched " ++ toString found.length ++ " nodes"]
      | .error _ => []
    ["Parsed " ++ Text.quoted query ++ " as " ++ expr.inspect,
     "Evaluating " ++ toString expr.leaves.length ++ " leaf queries over " ++
       toString context.candidates.length ++ " candidates"] ++
      reports context expr.leaves ++ final

end NodeQuery.Query
