import NodeQuery.Tree.Memory
/-!
Trees described in JSON. A node is an object with its name and, optionally, attributes, content and
children; nodes are numbered depth first, each before its children. In attributes an object whose
only member is `$datetime` is a time, any other object a nested set. Content is a text, bytes in
base64, or a file.
-/
namespace NodeQuery

namespace Description

/-- The member name that marks a time. -/
def timeTag : String := "$datetime"

/-- The time in an object that has the tag as its only member. -/
def taggedTime? : List (String × Json) → Option Json
  | [(name, value)] => if name = timeTag then some value else none
  | _ => none

/-- Reads a time from its text. -/
def timeOf : Json → Outcome Stamp
  | .text s => (Time.parse s).mapError Failure.time
  | _ => .error (.wrongType "a time must be a text")

/-- A value, or a nested set. -/
inductive Decoded where
  | value (value : AttributeValue)
  | set (inner : Attributes)

/-- A decoded value under its key, before other attributes. -/
def Decoded.under (key : Json) (rest : Attributes) : Decoded → Attributes
  | .value v => .leaf key v rest
  | .set inner => .nest key inner rest

mutual

/-- Reads a value of an attribute. -/
def decodeValue : Json → Outcome Decoded
  | .object members =>
    match taggedTime? members with
    | some stamp => do return .value (.time (← timeOf stamp))
    | none => do return .set (← decodeMembers members)
  | value => .ok (.value (.json value))

/-- Reads the members of an object as attributes. -/
def decodeMembers : List (String × Json) → Outcome Attributes
  | [] => .ok .nil
  | (key, value) :: rest => do
    let first ← decodeValue value
    let more ← decodeMembers rest
    return first.under (.text key) more

end

/-- Entries of a table with arbitrary keys. -/
abbrev Entries := List (Json × Json)

/-- Puts an entry into a table; a key that is there already keeps its place and takes the new
value. -/
def putEntry (entries : Entries) (key value : Json) : Entries :=
  if entries.any (·.1.same key) then
    entries.map fun e => if e.1.same key then (e.1, value) else e
  else entries ++ [(key, value)]

/-- The failure for an item that should be a pair and has another number of parts. -/
def notPair {α : Type} (index parts : Nat) : Outcome α :=
  .error (.badValue ("dictionary update sequence element #" ++ toString index ++ " has length " ++
    toString parts ++ "; 2 is required"))

/-- The key and the value in an item: a list of two, the two characters of a text, or the names of
an object's two members. -/
def pairOf (index : Nat) : Json → Outcome (Json × Json)
  | .list [key, value] =>
    if key.isScalar then .ok (key, value) else .error (.wrongType "a key must be a scalar")
  | .list items => notPair index items.length
  | .text s =>
    match s.toList with
    | [a, b] => .ok (.text (String.ofList [a]), .text (String.ofList [b]))
    | chars => notPair index chars.length
  | .object [a, b] => .ok (.text a.1, .text b.1)
  | .object members => notPair index members.length
  | _ => .error (.wrongType "an item of a table must have parts")

/-- Reads pairs into a table. -/
def tableAfter (entries : Entries) (index : Nat) : List Json → Outcome Entries
  | [] => .ok entries
  | item :: rest => do
    let (key, value) ← pairOf index item
    tableAfter (putEntry entries key value) (index + 1) rest

/-- Reads a table: an object, or a list of pairs. -/
def tableOf : Json → Outcome Entries
  | .object members => .ok (members.map fun m => (.text m.1, m.2))
  | .list items => tableAfter [] 0 items
  | .text s => if s.isEmpty then .ok [] else notPair 0 1
  | _ => .error (.wrongType "attributes must be a table")

/-- Reads the entries of a table as attributes. -/
def decodeEntries : Entries → Outcome Attributes
  | [] => .ok .nil
  | (key, value) :: rest => do
    let first ← decodeValue value
    let more ← decodeEntries rest
    return first.under key more

/-- Reads the attributes of a node. A table that holds nothing but the tag is a time. -/
def slotOf (description : Option Json) : Outcome AttributeSlot := do
  let entries ← tableOf (description.getD (.object []))
  match entries with
  | [(.text name, value)] =>
    if name = timeTag then return .time (← timeOf value)
    else return .attributes (← decodeEntries entries)
  | _ => return .attributes (← decodeEntries entries)

/-- Reads the content of a node; files lie below the given directory. -/
def contentOf (directory : Files.Path) : Json → Outcome (Option Content)
  | .null => .ok none
  | .text s => .ok (some (.bytes (Text.Utf8.encode s.toList)))
  | .object members =>
    match Json.member? "base64" members, Json.member? "file" members with
    | some (.text s), _ =>
      ((Text.Base64.decode s.toList).mapError Failure.base64).map fun bytes => some (.bytes bytes)
    | some _, _ => .error (.wrongType "base64 data must be a text")
    | none, some (.text s) => .ok (some (.file (directory.join (.ofText s))))
    | none, some _ => .error (.wrongType "the path of a file must be a text")
    | none, none =>
      .error (.badValue ("Unsupported data description: " ++ (Json.object members).quote))
  | .list items =>
    if items.any fun item => item.same (.text "base64") || item.same (.text "file") then
      .error (.wrongType "content must be a text or an object")
    else .error (.badValue ("Unsupported data description: " ++ (Json.list items).quote))
  | _ => .error (.wrongType "content must be a text or an object")

mutual

/-- Adds the described node and all below it. -/
def addNode (directory : Files.Path) (parent : Nat) : Json → MemoryTree → Outcome MemoryTree
  | .object members, t => do
    match Json.member? "name" members with
    | none => .error (.fault (.missingKey "name"))
    | some name =>
      match ← slotOf (Json.member? "attributes" members) with
      | .time _ => .error (.wrongType "attributes must be a table")
      | .attributes attributes =>
        let content ← contentOf directory ((Json.member? "data" members).getD .null)
        addBelow directory t.size members (t.push parent name attributes content)
  | _, _ => .error (.wrongType "a node must be an object")

/-- Adds the children among the members of the described node. -/
def addBelow (directory : Files.Path) (parent : Nat) :
    List (String × Json) → MemoryTree → Outcome MemoryTree
  | [], t => .ok t
  | (name, value) :: rest, t =>
    if name = "children" then addChildren directory parent value t
    else addBelow directory parent rest t

/-- Adds the described children. -/
def addChildren (directory : Files.Path) (parent : Nat) : Json → MemoryTree → Outcome MemoryTree
  | .list items, t => addNodes directory parent items t
  | .text s, t => if s.isEmpty then .ok t else .error (.wrongType "a node must be an object")
  | .object [], t => .ok t
  | _, _ => .error (.wrongType "children must be a list")

/-- Adds described nodes one after the other. -/
def addNodes (directory : Files.Path) (parent : Nat) :
    List Json → MemoryTree → Outcome MemoryTree
  | [], t => .ok t
  | node :: rest, t => do
    let t ← addNode directory parent node t
    addNodes directory parent rest t

end

end Description

/-- The tree with a description. The root is called `root` if it has no name. -/
def MemoryTree.ofDescription (directory : Files.Path) : Json → Outcome MemoryTree
  | .object members => do
    let slot ← Description.slotOf (Json.member? "attributes" members)
    let content ← Description.contentOf directory ((Json.member? "data" members).getD .null)
    let name := (Json.member? "name" members).getD (.text "root")
    Description.addBelow directory 0 members ⟨[⟨name, none, slot, content, []⟩]⟩
  | _ => .error (.fault (.noMember "a tree must be an object"))

/-- The tree that a file describes; files of content lie in its directory. -/
def MemoryTree.load (files : Files.Store) (path : Files.Path) : Outcome MemoryTree := do
  let description ← files.readJson path
  MemoryTree.ofDescription path.parent description

end NodeQuery
