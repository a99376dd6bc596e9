import NodeQuery.Proofs.Tree.Lookup
/-!
Going up from a node. In a tree whose links agree every node is at the end of a way down from the
root (`Linked.exists_way`), and going up by parents passes the names on that way, the last one first
(`Linked.namesUp_eq`). So going up comes to an end after as many steps as the way has names, there
is no other way to the node (`Linked.way_unique`), and the path of the node is made of these names
(`Linked.path_eq`).
-/
namespace NodeQuery.MemoryTree

section
variable {t : MemoryTree} {property other : Nat → Prop} {n child last fuel : Nat} {name : Json}
  {names more : List Json}

theorem parentOf?_eq_some_iff :
    t.parentOf? child = some n ↔ ∃ node, t.nodes[child]? = some node ∧ node.parent = some n :=
  Option.bind_eq_some_iff

theorem nameOf?_eq_some_iff :
    t.nameOf? n = some name ↔ ∃ node, t.nodes[n]? = some node ∧ node.name = name :=
  Option.map_eq_some_iff

theorem exists_nameOf? (h : n < t.size) : ∃ name, t.nameOf? n = some name :=
  ⟨_, nameOf?_eq_some_iff.2 ⟨t.nodes[n], List.getElem?_eq_getElem h, rfl⟩⟩

/-! ## Ways -/

/-- A way can be continued at its end. -/
theorem Way.snoc (h : t.Way property n names last) (hparent : t.parentOf? child = some last)
    (hname : t.nameOf? child = some name) (hchild : property child) :
    t.Way property n (names ++ [name]) child := by
  induction h with
  | here n => exact .down hparent hname hchild (.here child)
  | down hfirst hnamed hproperty _ ih => exact .down hfirst hnamed hproperty (ih hparent)

/-- Every node is at the end of a way from the root. Parents come first, so the way is not longer
than the number of the node. -/
theorem Linked.exists_way (h : t.Linked) (hn : n < t.size) :
    ∃ names, t.Way (fun _ => True) 0 names n ∧ names.length ≤ n := by
  induction n using Nat.strongRecOn with
  | ind n ih =>
    rcases Nat.eq_zero_or_pos n with rfl | hpos
    · exact ⟨[], .here 0, Nat.le_refl 0⟩
    · obtain ⟨p, hp, hparent⟩ := h.parent n hpos hn
      obtain ⟨name, hname⟩ := exists_nameOf? hn
      obtain ⟨names, hway, hlength⟩ := ih p hp (Nat.lt_trans hp hn)
      have hsnoc : (names ++ [name]).length = names.length + 1 := List.length_append
      exact ⟨names ++ [name], hway.snoc hparent hname trivial, by omega⟩

/-! ## Names on the way up -/

theorem namesUp_root (fuel : Nat) : t.namesUp fuel (.int 0) = .ok [] := by
  cases fuel <;> rfl

/-- One step up. -/
theorem Linked.namesUp_child (h : t.Linked) (hparent : t.parentOf? child = some n)
    (hname : t.nameOf? child = some name) (fuel : Nat) :
    t.namesUp (fuel + 1) (.int child) = (t.namesUp fuel (.int n)).map (name :: ·) := by
  obtain ⟨node, hnode, hup⟩ := parentOf?_eq_some_iff.1 hparent
  obtain ⟨same, hsame, rfl⟩ := nameOf?_eq_some_iff.1 hname
  obtain rfl : node = same := Option.some.inj (hnode.symm.trans hsame)
  have hstop : ((Json.int child).same .null || (Json.int child).same (.int 0)) = false := by
    have hpos : child ≠ 0 := Nat.ne_zero_of_lt (h.lt_of_parentOf? hparent)
    simp [Json.same, Json.identity, hpos]
  rw [namesUp, hstop, node_of_getElem? hnode]
  simp only [Bool.false_eq_true, if_false, bind, Except.bind, hup]
  cases t.namesUp fuel (.int n) <;> rfl

/-- Going up along a way passes its names from the last to the first. -/
theorem Linked.namesUp_add (h : t.Linked) (hway : t.Way property n names last) (fuel : Nat) :
    t.namesUp (names.length + fuel) (.int last) =
      (t.namesUp fuel (.int n)).map (names.reverse ++ ·) := by
  induction hway generalizing fuel with
  | here n =>
    rw [List.length_nil, Nat.zero_add]
    cases t.namesUp fuel (.int n) <;> rfl
  | @down n child last name rest hparent hname _ _ ih =>
    have hfuel : (name :: rest).length + fuel = rest.length + (fuel + 1) := by
      rw [List.length_cons]
      omega
    rw [hfuel, ih, h.namesUp_child hparent hname]
    cases t.namesUp fuel (.int n) with
    | error fault => rfl
    | ok above => simp [Except.map]

/-- Going up ends at the root, however many more steps are allowed. -/
theorem Linked.namesUp_eq (h : t.Linked) (hway : t.Way property 0 names n)
    (hfuel : names.length ≤ fuel) : t.namesUp fuel (.int n) = .ok names.reverse := by
  obtain ⟨more, rfl⟩ := Nat.exists_eq_add_of_le hfuel
  have hroot : t.namesUp more (.int (0 : Nat)) = .ok [] := namesUp_root more
  rw [h.namesUp_add hway, hroot, Except.map, List.append_nil]

/-- Only one way leads from the root to a node. -/
theorem Linked.way_unique (h : t.Linked) (hway : t.Way property 0 names n)
    (hother : t.Way other 0 more n) : names = more := by
  have hfirst := h.namesUp_eq hway (Nat.le_max_left names.length more.length)
  have hsecond := h.namesUp_eq hother (Nat.le_max_right names.length more.length)
  exact List.reverse_inj.1 (Except.ok.inj (hfirst.symm.trans hsecond))

theorem textsOf_map (texts : List String) : textsOf (texts.map .text) = .ok texts := by
  induction texts with
  | nil => rfl
  | cons s rest ih => rw [List.map_cons, textsOf, ih, Except.map]

theorem Way.lt_size (h : t.Way property n names last) (hn : n < t.size) : last < t.size := by
  induction h with
  | here n => exact hn
  | down hparent _ _ _ ih => exact ih (lt_size_of_parentOf? hparent)

/-- The path of a node is made of the names on its way, if all of them are texts. -/
theorem Linked.path_eq (h : t.Linked) (hn : n < t.size) (hway : t.Way property 0 names n) :
    t.path (.int n) =
      (textsOf names.reverse).map fun texts => "/" ++ "/".intercalate texts.reverse := by
  obtain ⟨same, hsame, hlength⟩ := h.exists_way hn
  obtain rfl : names = same := h.way_unique hway hsame
  have hfuel : names.length ≤ t.size + 1 := by omega
  rw [path, h.namesUp_eq hway hfuel]
  simp only [bind, Except.bind]
  cases textsOf names.reverse <;> rfl

theorem Linked.path_of_texts (h : t.Linked) (hn : n < t.size) {texts : List String}
    (hway : t.Way property 0 (texts.map .text) n) :
    t.path (.int n) = .ok ("/" ++ "/".intercalate texts) := by
  rw [h.path_eq hn hway, ← List.map_reverse, textsOf_map, Except.map, List.reverse_reverse]

end
end NodeQuery.MemoryTree
