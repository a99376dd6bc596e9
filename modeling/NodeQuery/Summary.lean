import NodeQuery.Tree.Memory
/-!
Counts over nodes: how many attributes they have, and which of them have content that can be read.
-/
namespace NodeQuery.Summary

/-- The number of values among the attributes of nodes. -/
def attributeCount (tree : NodeTree) : List Json → Outcome Nat
  | [] => .ok 0
  | id :: rest =>
    if tree.has id then do
      let attributes ← tree.readAttributes id
      return (attributes.flatten Attributes.noName).length + (← attributeCount tree rest)
    else attributeCount tree rest

/-- A node left out because of its content. -/
structure Skipped where
  id : Json
  cause : Fault

/-- The nodes with content, and those whose content cannot be read. -/
structure DataNodes where
  found : List Json
  skipped : List Skipped

/-- Looks at the content of nodes. Only failures of the file system leave a node out. -/
def dataNodes (tree : NodeTree) : List Json → Outcome DataNodes
  | [] => .ok ⟨[], []⟩
  | id :: rest =>
    if tree.has id then
      match tree.data id with
      | .ok content => do
        let more ← dataNodes tree rest
        return if content.isSome then { more with found := id :: more.found } else more
      | .error fault =>
        if fault.ofSystem then do
          let more ← dataNodes tree rest
          return { more with skipped := ⟨id, fault⟩ :: more.skipped }
        else .error (.fault fault)
    else dataNodes tree rest

end NodeQuery.Summary
