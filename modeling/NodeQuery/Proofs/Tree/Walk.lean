import NodeQuery.Proofs.Tree.Ascent
/-!
The walk down a path, step by step. The names in a path are what stands between its slashes, however
many of these there are (`pathNames_eq_iff`). Each name in turn leads to the child of that name that
was added first (`Linked.descend_next`). Going up from the end of the walk passes the
same names, so the path of the node that is found is spelled by them, without the root's name
(`path_of_find?`).
-/
namespace NodeQuery.MemoryTree

/-! ## Names and slashes -/

/-- A text consists of names and slashes. Names are not empty, have no slash in them and do not
touch each other. -/
inductive Spells : List Char → List String → Prop
  | nil : Spells [] []
  | slash {cs names} (h : Spells cs names) : Spells ('/' :: cs) names
  | name {w cs names} (hne : w ≠ []) (hfree : '/' ∉ w) (hend : cs = [] ∨ ∃ rest, cs = '/' :: rest)
    (h : Spells cs names) : Spells (w ++ cs) (String.ofList w :: names)

/-- What stands between slashes. -/
def pieces (cs : List Char) : List (List Char) :=
  (cs.splitOn '/').filter (· ≠ [])

theorem pieces_append_slash (w cs : List Char) :
    pieces (w ++ '/' :: cs) = pieces w ++ pieces cs := by
  unfold pieces
  rw [List.splitOn_append_cons_self, List.filter_append]

theorem pieces_slash (cs : List Char) : pieces ('/' :: cs) = pieces cs :=
  pieces_append_slash [] cs

section
variable {cs w : List Char} {names : List String} {path : String}

theorem pieces_of_free (hne : w ≠ []) (hfree : '/' ∉ w) : pieces w = [w] := by
  unfold pieces
  rw [List.splitOn_eq_singleton hfree]
  simp [hne]

theorem Spells.pieces_eq (h : Spells cs names) : (pieces cs).map String.ofList = names := by
  induction h with
  | nil => rfl
  | slash _ ih => rw [pieces_slash, ih]
  | @name w cs names hne hfree hend _ ih =>
    rcases hend with rfl | ⟨rest, rfl⟩
    · have hnone : [] = names := ih
      rw [List.append_nil, pieces_of_free hne hfree, ← hnone]
      rfl
    · rw [pieces_slash] at ih
      rw [pieces_append_slash, pieces_of_free hne hfree, List.map_append, ih]
      rfl

/-- Every text consists of names and slashes. -/
theorem exists_spells (cs : List Char) : ∃ names, Spells cs names := by
  induction cs with
  | nil => exact ⟨[], .nil⟩
  | cons c rest ih =>
    obtain ⟨names, h⟩ := ih
    by_cases hc : c = '/'
    · subst hc
      exact ⟨names, .slash h⟩
    · have hfree : '/' ∉ [c] := by simpa using Ne.symm hc
      cases h with
      | nil => exact ⟨_, .name (List.cons_ne_nil c []) hfree (.inl rfl) .nil⟩
      | slash h =>
        exact ⟨_, .name (List.cons_ne_nil c []) hfree (.inr ⟨_, rfl⟩) (.slash h)⟩
      | @name w cs names hne hw hend h =>
        -- the character belongs to the name that comes next
        have hlonger : '/' ∉ c :: w := by simpa using ⟨Ne.symm hc, hw⟩
        exact ⟨_, .name (List.cons_ne_nil c w) hlonger hend h⟩

/-- The names in a path are those with which it is spelled. -/
theorem pathNames_eq_iff : pathNames path = names ↔ Spells path.toList names := by
  constructor
  · rintro rfl
    obtain ⟨names, h⟩ := exists_spells path.toList
    have hnames : pathNames path = names := h.pieces_eq
    rwa [hnames]
  · exact Spells.pieces_eq

end

/-! ## Steps of the walk -/

/-- A node is the first child of a node that was added under a name. -/
def IsFirstChild (t : MemoryTree) (parent : Nat) (name : String) (child : Nat) : Prop :=
  t.parentOf? child = some parent ∧ t.nameOf? child = some (.text name) ∧ t.FirstOfName child

section
variable {t : MemoryTree} {n last : Nat} {name : String} {names front rest : List String}
  {path : String}

theorem descend_append (t : MemoryTree) (n : Nat) (front rest : List String) :
    t.descend n (front ++ rest) = (t.descend n front).bind fun m => t.descend m rest := by
  induction front generalizing n with
  | nil => rfl
  | cons name front ih =>
    rw [List.cons_append, descend, descend]
    cases (t.childrenOf n).find? (t.isNamed name) with
    | none => rfl
    | some child => exact ih child

/-- A walk that goes on takes the first child with the next name. -/
theorem Linked.descend_next (h : t.Linked)
    (hwalk : t.descend n (front ++ name :: rest) = some last) :
    ∃ m child, t.descend n front = some m ∧ t.IsFirstChild m name child ∧
      t.descend n (front ++ [name]) = some child := by
  rw [descend_append, Option.bind_eq_some_iff] at hwalk
  obtain ⟨m, hfront, hrest⟩ := hwalk
  rw [descend] at hrest
  cases hchild : (t.childrenOf m).find? (t.isNamed name) with
  | none =>
    rw [hchild] at hrest
    cases hrest
  | some child =>
    refine ⟨m, child, hfront, h.find?_child_iff.1 hchild, ?_⟩
    rw [descend_append, hfront, Option.bind_some, descend, hchild]
    rfl

/-- The root's name is left out if the path starts with it. -/
theorem namesBelowRoot_eq (t : MemoryTree) (path : String) :
    ((pathNames path).head?.map Json.text = t.nameOf? 0 ∧
        t.namesBelowRoot path = (pathNames path).tail) ∨
      ((pathNames path).head?.map Json.text ≠ t.nameOf? 0 ∧
        t.namesBelowRoot path = pathNames path) := by
  unfold namesBelowRoot
  cases pathNames path with
  | nil =>
    by_cases hroot : ([] : List String).head?.map Json.text = t.nameOf? 0
    · exact .inl ⟨hroot, rfl⟩
    · exact .inr ⟨hroot, rfl⟩
  | cons name rest =>
    dsimp only
    by_cases hname : t.isNamed name 0 = true
    · rw [if_pos hname]
      exact .inl ⟨(isNamed_iff.1 hname).symm, rfl⟩
    · rw [if_neg hname]
      exact .inr ⟨fun hroot => hname (isNamed_iff.2 hroot.symm), rfl⟩

/-- What is found at a path has as its own path the names of that path, without the root's name if
it comes first, each after a slash, however the path is spelled. On the walk there each name leads
from a node to the child of that name that was added first. -/
theorem path_of_find? (h : t.Built) (hfind : t.find? path = some n) :
    ∃ names below, Spells path.toList names ∧
      (names.head?.map Json.text = t.nameOf? 0 ∧ below = names.tail ∨
        names.head?.map Json.text ≠ t.nameOf? 0 ∧ below = names) ∧
      t.path (.int n) = .ok ("/" ++ "/".intercalate below) ∧
      t.descend 0 below = some n ∧
      ∀ front name rest, below = front ++ name :: rest →
        ∃ m child, t.descend 0 front = some m ∧ t.IsFirstChild m name child ∧
          t.descend 0 (front ++ [name]) = some child := by
  have hlinked := h.linked
  have hwalk : t.descend 0 (t.namesBelowRoot path) = some n := hfind
  have hway := hlinked.descend_eq_some_iff.1 hwalk
  have hn := hway.lt_size hlinked.root.1
  refine ⟨pathNames path, t.namesBelowRoot path, pathNames_eq_iff.1 rfl, t.namesBelowRoot_eq path,
    hlinked.path_of_texts hn hway, hwalk, ?_⟩
  intro front name rest hbelow
  rw [hbelow] at hwalk
  exact hlinked.descend_next hwalk

end

/-- The path has slashes at both ends, two of them in a row and the name of the root. The first of
the two nodes called `a` is found. -/
theorem path_of_find?_twins :
    twins.Built ∧ twins.find? "/root//a/" = some 1 ∧
    ∃ names below, Spells "/root//a/".toList names ∧
      (names.head?.map Json.text = twins.nameOf? 0 ∧ below = names.tail ∨
        names.head?.map Json.text ≠ twins.nameOf? 0 ∧ below = names) ∧
      twins.path (.int 1) = .ok ("/" ++ "/".intercalate below) ∧
      twins.descend 0 below = some 1 ∧
      ∀ front name rest, below = front ++ name :: rest →
        ∃ m child, twins.descend 0 front = some m ∧ twins.IsFirstChild m name child ∧
          twins.descend 0 (front ++ [name]) = some child := by
  have hbuilt : twins.Built :=
    (((Built.root _).push (by decide) ..).push (by decide) ..).push (by decide) ..
  have hfind : twins.find? "/root//a/" = some 1 := by decide
  exact ⟨hbuilt, hfind, path_of_find? hbuilt hfind⟩

end NodeQuery.MemoryTree
