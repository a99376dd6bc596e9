import Mathlib.Algebra.GroupWithZero.Nat
import NodeQuery.Proofs.CommandLine.Causes
import NodeQuery.Proofs.Tree.Outline
import NodeQuery.Proofs.Tree.Traversal
/-!
Trees made from descriptions. Adding a described node adds the node itself and then, one after the
other, the nodes of its children (`addNode_eq`). A loop over the descriptions that wait, the next
one last, does the same (`loads_iff`).
-/
namespace NodeQuery

namespace Description

/-- The content that a part of a description stands for: none, the bytes of a text, those that are
written in base64, or a file below the directory. -/
inductive Contains (directory : Files.Path) : Option Json → Option Content → Prop
  | missing : Contains directory none none
  | null : Contains directory (some .null) none
  | text (s : String) :
    Contains directory (some (.text s)) (some (.bytes (Text.Utf8.encode s.toList)))
  | base64 {members : List (String × Json)} {s : String} {bytes : Bytes}
    (h : Json.member? "base64" members = some (.text s))
    (hbytes : Text.Base64.decode s.toList = .ok bytes) :
    Contains directory (some (.object members)) (some (.bytes bytes))
  | file {members : List (String × Json)} {s : String}
    (hbase64 : Json.member? "base64" members = none)
    (h : Json.member? "file" members = some (.text s)) :
    Contains directory (some (.object members)) (some (.file (directory.join (.ofText s))))

/-- What a described node holds by itself. -/
structure Entry where
  name : Json
  attributes : Attributes
  content : Option Content

/-- Reads the name of a node. -/
def nameOf : Json → Outcome Json
  | .object members =>
    match Json.member? "name" members with
    | none => .error (.fault (.missingKey "name"))
    | some name => .ok name
  | _ => .error (.wrongType "a node must be an object")

/-- Reads the attributes of a node below the root. -/
def attributesOf (d : Json) : Outcome Attributes := do
  match ← slotOf (part? "attributes" d) with
  | .time _ => .error (.wrongType "attributes must be a table")
  | .attributes attributes => .ok attributes

/-- Reads what a node below the root holds by itself. -/
def entryOf (directory : Files.Path) (d : Json) : Outcome Entry := do
  let name ← nameOf d
  let attributes ← attributesOf d
  let content ← contentOf directory ((part? "data" d).getD .null)
  return ⟨name, attributes, content⟩

/-- Reads the list of children. -/
def itemsOf (d : Json) : Outcome (List Json) :=
  match part? "children" d with
  | none => .ok []
  | some (.list items) => .ok items
  | some (.text s) => if s.isEmpty then .ok [] else .error (.wrongType "a node must be an object")
  | some (.object []) => .ok []
  | some _ => .error (.wrongType "children must be a list")

section
variable {directory : Files.Path} {d o : Json} {p q : Nat} {t u : MemoryTree} {items : List Json}
  {content : Option Content}

theorem contentOf_eq_ok_iff {data : Option Json} :
    contentOf directory (data.getD .null) = .ok content ↔ Contains directory data content := by
  constructor
  · intro h
    cases data with
    | none =>
      cases h
      exact .missing
    | some data =>
      rw [Option.getD_some] at h
      unfold contentOf at h
      split at h
      · cases h
        exact .null
      · cases h
        exact .text _
      · split at h
        · next s hs =>
          obtain ⟨bytes, hbytes, rfl⟩ := Outcome.map_eq_ok_iff.1 h
          exact .base64 hs (Outcome.mapError_eq_ok_iff.1 hbytes)
        · cases h
        · next s hbase64 hs =>
          cases h
          exact .file hbase64 hs
        · cases h
        · cases h
      · split at h <;> cases h
      · cases h
  · intro h
    cases h with
    | missing => rfl
    | null => rfl
    | text s => rfl
    | @base64 members s bytes hs hbytes =>
      rw [Option.getD_some, contentOf, hs]
      exact Outcome.map_eq_ok_iff.2 ⟨bytes, Outcome.mapError_eq_ok_iff.2 hbytes, rfl⟩
    | file hbase64 hs => rw [Option.getD_some, contentOf, hbase64, hs]

/-! ## One node -/

theorem children_of_itemsOf (h : itemsOf d = .ok items) : items = children d := by
  unfold itemsOf at h
  unfold children
  split at h
  · next hpart =>
    cases h
    rw [hpart]
  · next hpart =>
    cases h
    rw [hpart]
  · next hpart =>
    split at h
    · cases h
      rw [hpart]
    · cases h
  · next hpart =>
    cases h
    rw [hpart]
  · cases h

theorem addChildren_eq (value : Json) (rest : List (String × Json)) :
    addChildren directory p value t = (do
      let items ← itemsOf (.object (("children", value) :: rest))
      addNodes directory p items t) := by
  have hpart : part? "children" (.object (("children", value) :: rest)) = some value := by
    simp [part?, membersOf, Json.member?]
  rw [itemsOf, hpart]
  cases value with
  | list items => rfl
  | text s =>
    rw [addChildren]
    dsimp only
    split <;> rfl
  | object members => cases members <;> rfl
  | null => rfl
  | bool b => rfl
  | int n => rfl
  | real x => rfl

theorem addBelow_eq (members : List (String × Json)) :
    addBelow directory p members t = (do
      let items ← itemsOf (.object members)
      addNodes directory p items t) := by
  induction members with
  | nil => rfl
  | cons member rest ih =>
    obtain ⟨name, value⟩ := member
    rw [addBelow]
    split
    · next hname =>
      rw [hname]
      exact addChildren_eq value rest
    · next hname =>
      have hpart : part? "children" (.object ((name, value) :: rest)) =
          part? "children" (.object rest) := by
        have hne : ("children" == name) = false := beq_false_of_ne (Ne.symm hname)
        simp [part?, membersOf, Json.member?, List.lookup_cons, hne]
      have hitems : itemsOf (.object ((name, value) :: rest)) = itemsOf (.object rest) := by
        unfold itemsOf
        rw [hpart]
      rw [ih, hitems]

/-- A described node is added before its children, and these in a row. -/
theorem addNode_eq (d : Json) :
    addNode directory p d t = (do
      let entry ← entryOf directory d
      let items ← itemsOf d
      addNodes directory t.size items
        (t.push p entry.name entry.attributes entry.content)) := by
  cases d with
  | object members =>
    rw [addNode]
    simp only [entryOf, nameOf, attributesOf, part?, membersOf, addBelow_eq]
    cases Json.member? "name" members with
    | none => rfl
    | some name =>
      cases hslot : slotOf (Json.member? "attributes" members) with
      | error failure => rfl
      | ok slot =>
        cases slot with
        | time stamp => rfl
        | attributes attributes =>
          cases contentOf directory ((Json.member? "data" members).getD .null) with
          | error failure => rfl
          | ok content => rfl
  | _ => rfl

theorem addNode_eq_ok_iff :
    addNode directory p d t = .ok u ↔ ∃ entry items, entryOf directory d = .ok entry ∧
      itemsOf d = .ok items ∧ addNodes directory t.size items
        (t.push p entry.name entry.attributes entry.content) = .ok u := by
  rw [addNode_eq]
  simp only [Outcome.bind_eq_ok_iff]
  exact ⟨fun ⟨entry, hentry, items, hitems, hrest⟩ => ⟨entry, items, hentry, hitems, hrest⟩,
    fun ⟨entry, items, hentry, hitems, hrest⟩ => ⟨entry, hentry, items, hitems, hrest⟩⟩

end

/-! ## A loop over waiting descriptions -/

/-- Adds one node, and gives the descriptions of its children with its number. -/
def enter (directory : Files.Path) (p : Nat) (d : Json) (t : MemoryTree) :
    Outcome (List (Nat × Json) × MemoryTree) := do
  let entry ← entryOf directory d
  let items ← itemsOf d
  return (items.map (t.size, ·), t.push p entry.name entry.attributes entry.content)

/-- The loop over the descriptions that wait, each with the number of the node around it: how it
ends if it starts with a tree. The last one is taken, and its children wait in its place, the first
of them last. -/
inductive Loads (directory : Files.Path) :
    List (Nat × Json) → MemoryTree → Outcome MemoryTree → Prop
  | done (t : MemoryTree) : Loads directory [] t (.ok t)
  | refuse {waiting : List (Nat × Json)} {p : Nat} {d : Json} {t : MemoryTree} {failure : Failure}
    (h : enter directory p d t = .error failure) :
    Loads directory (waiting ++ [(p, d)]) t (.error failure)
  | take {waiting more : List (Nat × Json)} {p : Nat} {d : Json} {t u : MemoryTree}
    {result : Outcome MemoryTree} (h : enter directory p d t = .ok (more, u))
    (hrest : Loads directory (waiting ++ more.reverse) u result) :
    Loads directory (waiting ++ [(p, d)]) t result

/-- Adds described nodes with all below them, one after the other. -/
def addAll (directory : Files.Path) : List (Nat × Json) → MemoryTree → Outcome MemoryTree
  | [], t => .ok t
  | (p, d) :: rest, t => do
    let t ← addNode directory p d t
    addAll directory rest t

section
variable {directory : Files.Path} {waiting : List (Nat × Json)} {t : MemoryTree}
  {result : Outcome MemoryTree}

theorem addAll_append (first last : List (Nat × Json)) (t : MemoryTree) :
    addAll directory (first ++ last) t = addAll directory first t >>= addAll directory last := by
  induction first generalizing t with
  | nil => rfl
  | cons e rest ih =>
    rw [List.cons_append, addAll, addAll]
    cases addNode directory e.1 e.2 t with
    | error failure => rfl
    | ok u => exact ih u

theorem addAll_children (p : Nat) (items : List Json) (t : MemoryTree) :
    addAll directory (items.map (p, ·)) t = addNodes directory p items t := by
  induction items generalizing t with
  | nil => rfl
  | cons d rest ih =>
    rw [List.map_cons, addAll, addNodes]
    exact bind_congr fun u => ih u

/-- A turn of the loop leaves to be added what there was without the node it has added. -/
theorem addNode_eq_enter (p : Nat) (d : Json) (t : MemoryTree) :
    addNode directory p d t = (do
      let (more, u) ← enter directory p d t
      addAll directory more u) := by
  rw [addNode_eq, enter]
  cases entryOf directory d with
  | error failure => rfl
  | ok entry =>
    cases itemsOf d with
    | error failure => rfl
    | ok items => exact (addAll_children t.size items _).symm

theorem Loads.addAll_eq (h : Loads directory waiting t result) :
    addAll directory waiting.reverse t = result := by
  induction h with
  | done t => rfl
  | refuse h =>
    rw [List.reverse_append, List.reverse_singleton, List.singleton_append, addAll,
      addNode_eq_enter, h]
    rfl
  | take h _ ih =>
    rw [List.reverse_append, List.reverse_reverse] at ih
    rw [List.reverse_append, List.reverse_singleton, List.singleton_append, addAll,
      addNode_eq_enter, h, ← ih, addAll_append]
    rfl

theorem sum_sizeOf_lt (items : List Json) : (items.map sizeOf).sum < sizeOf items := by
  induction items with
  | nil => simp
  | cons d rest ih =>
    simp only [List.map_cons, List.sum_cons, List.cons.sizeOf_spec]
    omega

theorem more_of_enter {p : Nat} {d : Json} {more : List (Nat × Json)} {u : MemoryTree}
    (h : enter directory p d t = .ok (more, u)) : more = (children d).map (t.size, ·) := by
  obtain ⟨entry, -, h⟩ := Outcome.bind_eq_ok_iff.1 h
  obtain ⟨items, hitems, h⟩ := Outcome.bind_eq_ok_iff.1 h
  cases h
  rw [children_of_itemsOf hitems]

/-- The loop ends: what waits becomes smaller with every turn. -/
theorem exists_loads (directory : Files.Path) (waiting : List (Nat × Json)) (t : MemoryTree) :
    ∃ result, Loads directory waiting t result := by
  induction hk : (waiting.map fun e => sizeOf e.2).sum using Nat.strongRecOn
    generalizing waiting t with
  | ind k ih =>
    rcases List.eq_nil_or_concat waiting with rfl | ⟨rest, ⟨p, d⟩, rfl⟩
    · exact ⟨_, .done t⟩
    · rw [List.concat_eq_append] at hk ⊢
      cases henter : enter directory p d t with
      | error failure => exact ⟨_, .refuse henter⟩
      | ok found =>
        obtain ⟨more, u⟩ := found
        have hsize : (more.map fun e => sizeOf e.2).sum < sizeOf d := by
          rw [more_of_enter henter, List.map_map]
          exact Nat.lt_of_lt_of_le (sum_sizeOf_lt (children d)) (sizeOf_children_le d)
        have hless : ((rest ++ more.reverse).map fun e => sizeOf e.2).sum < k := by
          rw [← hk, List.map_append, List.map_append, List.sum_append, List.sum_append,
            List.map_reverse, List.sum_reverse, List.map_singleton, List.sum_singleton]
          exact Nat.add_lt_add_left hsize _
        obtain ⟨result, hresult⟩ := ih _ hless _ u rfl
        exact ⟨result, .take henter hresult⟩

/-- The loop ends, and as if the nodes were added with all below them, the last one first. -/
theorem loads_iff : Loads directory waiting t result ↔ addAll directory waiting.reverse t = result := by
  constructor
  · exact Loads.addAll_eq
  · rintro rfl
    obtain ⟨result, hresult⟩ := exists_loads directory waiting t
    rwa [hresult.addAll_eq]

end
end Description
end NodeQuery
