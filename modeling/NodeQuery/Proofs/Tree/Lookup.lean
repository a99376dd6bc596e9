import NodeQuery.Proofs.Tree.Built
/-!
Looking up a path. The names of a path are followed down from the root, at each step to the first of
the nodes of that name, and a first name that is the root's is taken for the root
(`find?_eq_some_iff`). Nothing else is tried: a node below a later one of two siblings of a name is
not found by its path, and neither is a node below a child of the root with the root's name, unless
the path starts with that name twice. Where there are no such nodes, every path that leads to a node
is found (`find?_complete`).
-/
namespace NodeQuery.MemoryTree

/-- The names on the way down from a node to another one, where all nodes after the first have a
property. -/
inductive Way (t : MemoryTree) (property : Nat → Prop) : Nat → List Json → Nat → Prop
  | here (n : Nat) : Way t property n [] n
  | down {n child last : Nat} {name : Json} {names : List Json}
    (hparent : t.parentOf? child = some n) (hname : t.nameOf? child = some name)
    (hchild : property child) (h : Way t property child names last) :
    Way t property n (name :: names) last

/-- A node was added before all other nodes of its name below the same parent. -/
def FirstOfName (t : MemoryTree) (n : Nat) : Prop :=
  ∀ m, t.parentOf? m = t.parentOf? n → t.nameOf? m = t.nameOf? n → n ≤ m

/-- A node is at a path: the names in the path are those on the way down from the root, with or
without the name of the root before them. -/
def AtPath (t : MemoryTree) (path : String) (n : Nat) : Prop :=
  ∃ names, t.Way (fun _ => True) 0 names n ∧
    ((pathNames path).map Json.text = names ∨
      ∃ name, t.nameOf? 0 = some name ∧ (pathNames path).map Json.text = name :: names)

/-- A node is at a path, by a way on which every node is the first of its name, and the first name
in the path counts as the root's if it is. -/
def FirstAtPath (t : MemoryTree) (path : String) (n : Nat) : Prop :=
  ∃ names, t.Way t.FirstOfName 0 names n ∧
    ((pathNames path).map Json.text = names ∧ names.head? ≠ t.nameOf? 0 ∨
      ∃ name, t.nameOf? 0 = some name ∧ (pathNames path).map Json.text = name :: names)

/-- No two nodes below the same parent have the same name. -/
def SiblingsDiffer (t : MemoryTree) : Prop :=
  ∀ n m p, t.parentOf? n = some p → t.parentOf? m = some p → t.nameOf? n = t.nameOf? m → n = m

/-- No child of the root has the name of the root. -/
def RootNameUnique (t : MemoryTree) : Prop :=
  ∀ n, t.parentOf? n = some 0 → t.nameOf? n ≠ t.nameOf? 0

/-! ## Following names -/

/-- In an increasing list the first number with a property is the least one. -/
theorem find?_eq_some_iff_least {ns : List Nat} (h : ns.Pairwise (· < ·)) {p : Nat → Bool}
    {n : Nat} : ns.find? p = some n ↔ n ∈ ns ∧ p n = true ∧ ∀ m ∈ ns, p m = true → n ≤ m := by
  induction ns with
  | nil => simp
  | cons k rest ih =>
    obtain ⟨hk, hrest⟩ := List.pairwise_cons.1 h
    cases hp : p k with
    | true =>
      rw [List.find?_cons_of_pos hp, Option.some.injEq]
      constructor
      · rintro rfl
        refine ⟨List.mem_cons_self, hp, fun m hm _ => ?_⟩
        rcases List.mem_cons.1 hm with rfl | hm
        · exact Nat.le_refl _
        · exact Nat.le_of_lt (hk m hm)
      · rintro ⟨hn, -, hleast⟩
        have hle := hleast k List.mem_cons_self hp
        rcases List.mem_cons.1 hn with rfl | hn
        · rfl
        · exact absurd (hk n hn) (Nat.not_lt.2 hle)
    | false =>
      have hneg : ¬ p k = true := by simp [hp]
      rw [List.find?_cons_of_neg hneg, ih hrest]
      constructor
      · rintro ⟨hn, hpn, hleast⟩
        refine ⟨List.mem_cons_of_mem _ hn, hpn, fun m hm hpm => ?_⟩
        rcases List.mem_cons.1 hm with rfl | hm
        · exact absurd hpm hneg
        · exact hleast m hm hpm
      · rintro ⟨hn, hpn, hleast⟩
        rcases List.mem_cons.1 hn with rfl | hn
        · exact absurd hpn hneg
        · exact ⟨hn, hpn, fun m hm => hleast m (List.mem_cons_of_mem _ hm)⟩

section
variable {t : MemoryTree} {n child last : Nat} {name : String} {names : List String}
  {path : String}

theorem isNamed_iff : t.isNamed name n = true ↔ t.nameOf? n = some (.text name) := by
  unfold isNamed nameOf?
  cases t.nodes[n]? with
  | none => simp
  | some node =>
    obtain ⟨found, parent, slot, content, children⟩ := node
    cases found <;> simp

/-- The child that is taken is the first of its name. -/
theorem Linked.find?_child_iff (h : t.Linked) :
    (t.childrenOf n).find? (t.isNamed name) = some child ↔
      t.parentOf? child = some n ∧ t.nameOf? child = some (.text name) ∧ t.FirstOfName child := by
  rw [find?_eq_some_iff_least (h.increasing n), h.children, isNamed_iff]
  refine and_congr_right fun hparent => and_congr_right fun hname => ?_
  constructor
  · intro hleast m hm hnamed
    exact hleast m ((h.children m n).2 (hm.trans hparent)) (isNamed_iff.2 (hnamed.trans hname))
  · intro hfirst m hm hnamed
    exact hfirst m (((h.children m n).1 hm).trans hparent.symm)
      ((isNamed_iff.1 hnamed).trans hname.symm)

/-- Following names takes the way through first children. -/
theorem Linked.descend_eq_some_iff (h : t.Linked) :
    t.descend n names = some last ↔ t.Way t.FirstOfName n (names.map Json.text) last := by
  induction names generalizing n with
  | nil =>
    rw [descend, Option.some.injEq, List.map_nil]
    constructor
    · rintro rfl
      exact .here n
    · rintro ⟨⟩
      rfl
  | cons name rest ih =>
    rw [descend, List.map_cons]
    constructor
    · intro hdescend
      split at hdescend
      · next child hchild =>
        obtain ⟨hparent, hname, hfirst⟩ := h.find?_child_iff.1 hchild
        exact .down hparent hname hfirst (ih.1 hdescend)
      · cases hdescend
    · rintro (_ | ⟨hparent, hname, hfirst, hway⟩)
      rw [h.find?_child_iff.2 ⟨hparent, hname, hfirst⟩]
      exact ih.2 hway

theorem Linked.exists_rootName (h : t.Linked) : ∃ name, t.nameOf? 0 = some name :=
  ⟨_, by rw [nameOf?, List.getElem?_eq_getElem h.root.1]; rfl⟩

/-- What is found at a path. -/
theorem Linked.find?_eq_some_iff (h : t.Linked) :
    t.find? path = some n ↔ t.FirstAtPath path n := by
  obtain ⟨root, hroot⟩ := h.exists_rootName
  rw [find?, h.descend_eq_some_iff, FirstAtPath, namesBelowRoot, hroot]
  cases pathNames path with
  | nil =>
    constructor
    · exact fun hway => ⟨[], hway, .inl ⟨rfl, by simp⟩⟩
    · rintro ⟨names, hway, ⟨rfl, -⟩ | ⟨name, -, hnames⟩⟩
      · exact hway
      · cases hnames
  | cons name rest =>
    dsimp only
    by_cases hname : t.isNamed name 0 = true
    · have heq : root = .text name := Option.some.inj (hroot.symm.trans (isNamed_iff.1 hname))
      rw [if_pos hname]
      constructor
      · exact fun hway => ⟨_, hway, .inr ⟨root, rfl, by rw [heq, List.map_cons]⟩⟩
      · rintro ⟨names, hway, ⟨rfl, hhead⟩ | ⟨_, -, hnames⟩⟩
        · exact absurd (by simp [heq]) hhead
        · obtain ⟨-, rfl⟩ := List.cons.inj hnames
          exact hway
    · rw [if_neg hname]
      have hne : some (Json.text name) ≠ some root := by
        rw [← hroot]
        exact fun heq => hname (isNamed_iff.2 heq.symm)
      constructor
      · exact fun hway => ⟨_, hway, .inl ⟨rfl, hne⟩⟩
      · rintro ⟨names, hway, ⟨rfl, -⟩ | ⟨other, hother, hnames⟩⟩
        · exact hway
        · rw [hother, (List.cons.inj hnames).1] at hne
          exact absurd rfl hne

/-! ## Completeness -/

theorem Way.mono {p q : Nat → Prop} {names : List Json}
    (hpq : ∀ m above, t.parentOf? m = some above → p m → q m) (h : t.Way p n names last) :
    t.Way q n names last := by
  induction h with
  | here n => exact .here n
  | down hparent hname hchild _ ih => exact .down hparent hname (hpq _ _ hparent hchild) ih

theorem SiblingsDiffer.firstOfName (h : t.SiblingsDiffer) (hparent : t.parentOf? child = some n) :
    t.FirstOfName child := by
  intro m hm hname
  exact Nat.le_of_eq (h child m n hparent (hm.trans hparent) hname.symm)

theorem FirstAtPath.atPath (h : t.FirstAtPath path n) : t.AtPath path n := by
  obtain ⟨names, hway, hnames⟩ := h
  refine ⟨names, hway.mono fun _ _ _ _ => trivial, ?_⟩
  exact hnames.imp And.left id

/-- The first name on a way down from the root is not the root's. -/
theorem Linked.head?_ne_rootName (h : t.Linked) (hroot : t.RootNameUnique) {p : Nat → Prop}
    {names : List Json} (hway : t.Way p 0 names n) : names.head? ≠ t.nameOf? 0 := by
  cases hway with
  | here =>
    obtain ⟨root, hname⟩ := h.exists_rootName
    simp [hname]
  | down hparent hname _ _ =>
    rw [List.head?_cons, ← hname]
    exact hroot _ hparent

/-- Without other nodes of the same name nothing stands in the way. -/
theorem Linked.firstAtPath (h : t.Linked) (hsiblings : t.SiblingsDiffer)
    (hroot : t.RootNameUnique) (hat : t.AtPath path n) : t.FirstAtPath path n := by
  obtain ⟨names, hway, hnames⟩ := hat
  refine ⟨names, hway.mono fun _ _ hparent _ => hsiblings.firstOfName hparent, ?_⟩
  exact hnames.imp (fun heq => ⟨heq, h.head?_ne_rootName hroot hway⟩) id

/-- In a tree made out of a root, what is found at a path is the node at the path on whose way every
node is the first of its name; a path without a node is never found. The other way round a path with
a node is found if no siblings share a name and no child of the root has the root's name. -/
theorem find?_complete (h : t.Built) (path : String) :
    (∀ n, t.find? path = some n ↔ t.FirstAtPath path n) ∧
    ((¬ ∃ n, t.AtPath path n) → t.find? path = none) ∧
    (t.SiblingsDiffer → t.RootNameUnique →
      (t.find? path = none ↔ ¬ ∃ n, t.AtPath path n)) := by
  have hfind : ∀ n, t.find? path = some n ↔ t.FirstAtPath path n :=
    fun n => h.linked.find?_eq_some_iff
  have hnone : (¬ ∃ n, t.AtPath path n) → t.find? path = none := by
    intro hno
    refine Option.eq_none_iff_forall_ne_some.2 fun n hn => hno ⟨n, ?_⟩
    exact ((hfind n).1 hn).atPath
  refine ⟨hfind, hnone, fun hsiblings hroot => ⟨fun hmiss => ?_, hnone⟩⟩
  rintro ⟨n, hn⟩
  rw [(hfind n).2 (h.linked.firstAtPath hsiblings hroot hn)] at hmiss
  cases hmiss

end

/-- A root with a child that has a child. -/
def line : MemoryTree :=
  ((ofRoot (.text "root")).push 0 (.text "a") .nil none).push 1 (.text "root") .nil none

theorem line_parentOf? {n p : Nat} (h : line.parentOf? n = some p) : n = p + 1 := by
  rw [line, parentOf?_push, parentOf?_push, parentOf?_ofRoot, size_push, size_ofRoot] at h
  grind

theorem find?_complete_line :
    line.Built ∧ line.SiblingsDiffer ∧ line.RootNameUnique ∧
    (∀ n, line.find? "/root/a//root" = some n ↔ line.FirstAtPath "/root/a//root" n) ∧
    ((¬ ∃ n, line.AtPath "/root/a//root" n) → line.find? "/root/a//root" = none) ∧
    (line.find? "/root/a//root" = none ↔ ¬ ∃ n, line.AtPath "/root/a//root" n) ∧
    line.find? "/root/a//root" = some 2 := by
  have hbuilt : line.Built := ((Built.root _).push (by decide) ..).push (by decide) ..
  have hsiblings : line.SiblingsDiffer := by
    intro n m p hn hm _
    rw [line_parentOf? hn, line_parentOf? hm]
  have hroot : line.RootNameUnique := by
    intro n hn
    rw [line_parentOf? hn]
    have hname : (ofRoot (.text "root")).nameOf? 0 = some (.text "root") := rfl
    simp [line, nameOf?_push, size_push, size_ofRoot, hname]
  obtain ⟨hfind, hnone, hcomplete⟩ := find?_complete hbuilt "/root/a//root"
  exact ⟨hbuilt, hsiblings, hroot, hfind, hnone, hcomplete hsiblings hroot, by decide⟩

/-- Two children of the root with the same name, and a node below the second one. -/
def twins : MemoryTree :=
  (((ofRoot (.text "root")).push 0 (.text "a") .nil none).push 0 (.text "a") .nil none).push 2
    (.text "b") .nil none

/-- A child of the root with the name of the root, and a node below it. -/
def namesake : MemoryTree :=
  ((ofRoot (.text "root")).push 0 (.text "root") .nil none).push 1 (.text "x") .nil none

/-- Nothing is found at a path that leads to a node by way of a second sibling, or of a child of the
root that is called like the root. -/
theorem not_complete :
    (twins.Built ∧ ¬ (twins.find? "/a/b" = none ↔ ¬ ∃ n, twins.AtPath "/a/b" n)) ∧
    (namesake.Built ∧
      ¬ (namesake.find? "/root/x" = none ↔ ¬ ∃ n, namesake.AtPath "/root/x" n)) := by
  have htwins : twins.Built :=
    (((Built.root _).push (by decide) ..).push (by decide) ..).push (by decide) ..
  have hnamesake : namesake.Built := ((Built.root _).push (by decide) ..).push (by decide) ..
  have hsecond : twins.AtPath "/a/b" 3 := by
    have hb : twins.Way (fun _ => True) 2 [.text "b"] 3 := .down rfl rfl trivial (.here 3)
    exact ⟨_, .down rfl rfl trivial hb, .inl rfl⟩
  have hbelow : namesake.AtPath "/root/x" 2 := by
    have hx : namesake.Way (fun _ => True) 1 [.text "x"] 2 := .down rfl rfl trivial (.here 2)
    exact ⟨_, .down rfl rfl trivial hx, .inl rfl⟩
  refine ⟨⟨htwins, fun h => ?_⟩, hnamesake, fun h => ?_⟩
  · exact h.1 (by decide) ⟨3, hsecond⟩
  · exact h.1 (by decide) ⟨2, hbelow⟩

end NodeQuery.MemoryTree
