import Mathlib.Data.List.Nodup
import NodeQuery.Proofs.Tree.Ascent
/-!
Requests to add nodes, one after the other, some of which may be refused. A request whose parent is
the number of a node adds one node at the end and changes nothing else but the children of the
parent; every other request is refused and changes nothing (`attempt_eq`, `attempt_refused`). So the
links agree after all requests together (`after_linked`).
-/
namespace NodeQuery.MemoryTree

/-- A request to add a node. -/
structure Addition where
  parent : Json
  name : Json
  attributes : Attributes
  content : Option Content

/-- The answer to a request, and the tree that it leaves. A refused request leaves the tree as it
is. -/
def attempt (t : MemoryTree) (a : Addition) : Except Fault Nat × MemoryTree :=
  match t.add a.parent a.name a.attributes a.content with
  | .ok (n, u) => (.ok n, u)
  | .error fault => (.error fault, t)

/-- The tree after requests in a row. -/
def after (t : MemoryTree) (requests : List Addition) : MemoryTree :=
  requests.foldl (fun t a => (t.attempt a).2) t

/-- All nodes of a tree are in another one, with the same name, parent, attributes and content. -/
def KeptIn (t u : MemoryTree) : Prop :=
  ∀ i < t.size, ∃ children,
    u.nodes[i]? = (t.nodes[i]?).map fun node => { node with children := children }

section
variable {t : MemoryTree} {a : Addition} {p i q : Nat}

/-! ## One request -/

theorem attempt_eq (hp : p < t.size) (ha : a.parent = .int p) :
    t.attempt a = (.ok t.size, t.push p a.name a.attributes a.content) := by
  have hadd : t.add a.parent a.name a.attributes a.content =
      .ok (t.size, t.push p a.name a.attributes a.content) :=
    add_eq_ok_iff.2 ⟨p, hp, ha, rfl, rfl⟩
  rw [attempt, hadd]

/-- What is no number of a node is refused as a parent. -/
theorem attempt_refused (ha : ∀ p < t.size, a.parent ≠ .int p) :
    t.attempt a = (.error (.missingKey ("Unknown parent node " ++ a.parent.quote)), t) := by
  have hnumber : t.number? a.parent = none := by
    refine Option.eq_none_iff_forall_ne_some.2 fun p hp => ?_
    obtain ⟨hparent, hlt⟩ := number?_eq_some_iff.1 hp
    exact ha p hlt hparent
  rw [attempt, add, hnumber]

theorem keptIn_push (name : Json) (attributes : Attributes) (content : Option Content) :
    t.KeptIn (t.push p name attributes content) := by
  intro i hi
  have hnode : t.nodes[i]? = some t.nodes[i] := List.getElem?_eq_getElem hi
  rw [nodes_push, if_neg (Nat.ne_of_lt hi), hnode]
  by_cases hip : i = p
  · exact ⟨t.nodes[i].children ++ [t.size], by simp [hip]⟩
  · exact ⟨t.nodes[i].children, by simp [hip]⟩

theorem nodes_push_size (name : Json) (attributes : Attributes) (content : Option Content) :
    (t.push p name attributes content).nodes[t.size]? =
      some ⟨name, some p, .attributes attributes, content, []⟩ := by
  rw [nodes_push, if_pos rfl]

theorem Built.attempt (h : t.Built) (a : Addition) : (t.attempt a).2.Built := by
  by_cases ha : ∃ p < t.size, a.parent = .int p
  · obtain ⟨p, hp, hparent⟩ := ha
    rw [attempt_eq hp hparent]
    exact h.push hp ..
  · rw [attempt_refused fun p hp hparent => ha ⟨p, hp, hparent⟩]
    exact h

/-! ## All requests -/

theorem Built.after (h : t.Built) (requests : List Addition) : (t.after requests).Built := by
  induction requests generalizing t with
  | nil => exact h
  | cons a rest ih => exact ih (h.attempt a)

/-- A node is once among the children of its parent, and never among those of another node. -/
theorem Linked.count_childrenOf (h : t.Linked) (hparent : t.parentOf? i = some p) (q : Nat) :
    (t.childrenOf q).count i = if q = p then 1 else 0 := by
  by_cases hq : q = p
  · rw [if_pos hq, hq]
    exact List.count_eq_one_of_mem (h.nodup_childrenOf p) ((h.children i p).2 hparent)
  · rw [if_neg hq, List.count_eq_zero]
    intro hi
    have hsame := (h.children i q).1 hi
    rw [hparent, Option.some.injEq] at hsame
    exact hq hsame.symm

end

/-- After any requests on a new tree, refused ones among them: the root has no parent; every other
node has a parent that is older, is once among its children and among no other children; all lists
of children are increasing and hold nodes. A further request under a node adds it at the end and
keeps all nodes there are; any other request is refused, with the parent named, and leaves the tree
as it is. Going up from a node ends at the root, so that every node has a path if the names on its
way are texts. -/
theorem after_linked (root : Json) (requests : List Addition) :
    let t := (ofRoot root).after requests
    (0 < t.size ∧ t.parentOf? 0 = none) ∧
    (∀ i, 0 < i → i < t.size → ∃ p < i, t.parentOf? i = some p ∧
      ∀ q, (t.childrenOf q).count i = if q = p then 1 else 0) ∧
    (∀ q, (t.childrenOf q).Pairwise (· < ·) ∧ ∀ i ∈ t.childrenOf q, i < t.size) ∧
    (∀ a : Addition,
      (∀ p < t.size, a.parent = .int p → ∃ u, t.attempt a = (.ok t.size, u) ∧
        u.size = t.size + 1 ∧ t.KeptIn u ∧
        u.nodes[t.size]? = some ⟨a.name, some p, .attributes a.attributes, a.content, []⟩) ∧
      ((∀ p < t.size, a.parent ≠ .int p) →
        t.attempt a = (.error (.missingKey ("Unknown parent node " ++ a.parent.quote)), t))) ∧
    (∀ i < t.size, ∃ names, t.Way (fun _ => True) 0 names i ∧ names.length ≤ i ∧
      (∀ fuel, names.length ≤ fuel → t.namesUp fuel (.int i) = .ok names.reverse) ∧
      t.path (.int i) =
        (textsOf names.reverse).map fun texts => "/" ++ "/".intercalate texts.reverse) := by
  intro t
  have h : t.Linked := ((Built.root root).after requests).linked
  refine ⟨h.root, ?_, ?_, ?_, ?_⟩
  · intro i hpos hi
    obtain ⟨p, hp, hparent⟩ := h.parent i hpos hi
    exact ⟨p, hp, hparent, h.count_childrenOf hparent⟩
  · exact fun q => ⟨h.increasing q, fun i => h.lt_size_of_mem_childrenOf⟩
  · refine fun a => ⟨fun p hp ha => ⟨_, attempt_eq hp ha, size_push, ?_, ?_⟩, attempt_refused⟩
    · exact keptIn_push a.name a.attributes a.content
    · exact nodes_push_size a.name a.attributes a.content
  · intro i hi
    obtain ⟨names, hway, hlength⟩ := h.exists_way hi
    exact ⟨names, hway, hlength, fun fuel => h.namesUp_eq hway, h.path_eq hi hway⟩

/-- A truth value and a number from the end are no parents, though they are positions. -/
example : ((ofRoot (.text "root")).after
    [⟨.int 0, .text "a", .nil, none⟩, ⟨.bool true, .text "b", .nil, none⟩,
      ⟨.int (-1), .text "c", .nil, none⟩, ⟨.int 1, .text "d", .nil, none⟩]).nodes.map Node.parent =
    [none, some 0, some 1] := by
  decide

end NodeQuery.MemoryTree
