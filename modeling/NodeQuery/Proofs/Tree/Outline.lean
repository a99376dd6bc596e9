import Mathlib.Data.List.Nodup
import NodeQuery.Tree.Description
/-!
The described nodes of a document. Each has an address: the places of children on the way down to
it. `outline` lists them in the order of the document, an object before those inside it. It has the
described node at every address (`mem_outline_iff`) and is sorted by addresses (`pairwise_outline`),
so that an address has a number, its place in the list (`getElem?_outline_iff`).
-/
namespace NodeQuery.Description

/-- The members of an object; any other value has none. -/
def membersOf : Json → List (String × Json)
  | .object members => members
  | _ => []

/-- The part of a description with a name. -/
def part? (name : String) (d : Json) : Option Json :=
  Json.member? name (membersOf d)

/-- The descriptions of the nodes right below a described node. -/
def children (d : Json) : List Json :=
  match part? "children" d with
  | some (.list items) => items
  | _ => []

theorem sizeOf_lt_of_member? {name : String} {members : List (String × Json)} {value : Json}
    (h : Json.member? name members = some value) : sizeOf value < sizeOf members := by
  induction members with
  | nil => cases h
  | cons member rest ih =>
    obtain ⟨other, found⟩ := member
    rw [Json.member?, List.lookup_cons] at h
    simp only [List.cons.sizeOf_spec, Prod.mk.sizeOf_spec]
    split at h
    · cases h
      omega
    · have hrest := ih h
      omega

theorem sizeOf_children_le (d : Json) : sizeOf (children d) ≤ sizeOf d := by
  unfold children
  split
  · next items h =>
    cases d with
    | object members =>
      have hlt : sizeOf (Json.list items) < sizeOf members := sizeOf_lt_of_member? h
      simp only [Json.list.sizeOf_spec] at hlt
      simp only [Json.object.sizeOf_spec]
      omega
    | _ => cases h
  · cases d <;> simp

theorem sizeOf_lt_of_mem_children {c d : Json} (h : c ∈ children d) : sizeOf c < sizeOf d :=
  Nat.lt_of_lt_of_le (List.sizeOf_lt_of_mem h) (sizeOf_children_le d)

/-- What holds of a description if it holds of the children holds of all descriptions. -/
theorem induction_children {motive : Json → Prop}
    (step : ∀ d, (∀ c ∈ children d, motive c) → motive d) (d : Json) : motive d := by
  induction hk : sizeOf d using Nat.strongRecOn generalizing d with
  | ind k ih =>
    subst hk
    exact step d fun c hc => ih (sizeOf c) (sizeOf_lt_of_mem_children hc) c rfl

mutual

/-- The described nodes with their addresses, in the order of the document. -/
def outline (d : Json) : List (List Nat × Json) :=
  ([], d) :: outlineFrom 0 (children d)
termination_by sizeOf d + 1
decreasing_by exact Nat.lt_succ_of_le (sizeOf_children_le d)

/-- The described nodes of children, the first of which has the given place. -/
def outlineFrom (place : Nat) : List Json → List (List Nat × Json)
  | [] => []
  | c :: rest => (outline c).map (Prod.map (place :: ·) id) ++ outlineFrom (place + 1) rest
termination_by items => sizeOf items
decreasing_by
  · simp only [List.cons.sizeOf_spec]
    have hpos : 0 < sizeOf rest := by
      cases rest with
      | nil => exact Nat.one_pos
      | cons e rest =>
        rw [List.cons.sizeOf_spec]
        omega
    omega
  · simp only [List.cons.sizeOf_spec]
    omega

end

/-- The described node at an address. -/
def at? (d : Json) : List Nat → Option Json
  | [] => some d
  | place :: more =>
    match (children d)[place]? with
    | some c => at? c more
    | none => none

/-- The number of an address: the number of described nodes before it. -/
def number (d : Json) (address : List Nat) : Nat :=
  ((outline d).map Prod.fst).idxOf address

section
variable {d o c : Json} {a b : List Nat} {i k place : Nat} {items : List Json}

theorem outlineFrom_eq_flatMap (place : Nat) (items : List Json) :
    outlineFrom place items =
      (items.zipIdx place).flatMap fun e => (outline e.1).map (Prod.map (e.2 :: ·) id) := by
  induction items generalizing place with
  | nil => rw [outlineFrom]; rfl
  | cons c rest ih => rw [outlineFrom, ih, List.zipIdx_cons, List.flatMap_cons]

/-! ## Addresses -/

theorem mem_outlineFrom_iff :
    (a, o) ∈ outlineFrom 0 items ↔
      ∃ k b c, a = k :: b ∧ items[k]? = some c ∧ (b, o) ∈ outline c := by
  rw [outlineFrom_eq_flatMap, List.mem_flatMap]
  constructor
  · rintro ⟨⟨c, k⟩, hc, hmem⟩
    obtain ⟨⟨b, o⟩, hb, heq⟩ := List.mem_map.1 hmem
    cases heq
    exact ⟨k, b, c, rfl, List.mem_zipIdx_iff_getElem?.1 hc, hb⟩
  · rintro ⟨k, b, c, rfl, hc, hb⟩
    exact ⟨(c, k), List.mem_zipIdx_iff_getElem?.2 hc, List.mem_map.2 ⟨(b, o), hb, rfl⟩⟩

theorem at?_append : at? d (a ++ b) = (at? d a).bind (at? · b) := by
  induction a generalizing d with
  | nil => rfl
  | cons k a ih =>
    rw [List.cons_append, at?, at?]
    cases (children d)[k]? with
    | none => rfl
    | some c => exact ih

/-- The children of a described node are at its address with their places behind it. -/
theorem at?_snoc : at? d (a ++ [k]) = (at? d a).bind fun o => (children o)[k]? := by
  rw [at?_append]
  refine congrArg (at? d a).bind (funext fun o => ?_)
  rw [at?]
  cases (children o)[k]? <;> rfl

/-- The outline has the described nodes at all addresses. -/
theorem mem_outline_iff : (a, o) ∈ outline d ↔ at? d a = some o := by
  induction d using induction_children generalizing a o with
  | step d ih =>
    rw [outline, List.mem_cons, mem_outlineFrom_iff]
    cases a with
    | nil => simp [at?, eq_comm]
    | cons k b =>
      rw [at?]
      cases hc : (children d)[k]? with
      | none => simp [hc]
      | some c => simp [hc, ih c (List.mem_of_getElem? hc)]

/-- Addresses are listed in the order of a dictionary, so that an object comes before those inside
it, and those before its next sibling. -/
theorem pairwise_outline (d : Json) : ((outline d).map Prod.fst).Pairwise (· < ·) := by
  induction d using induction_children with
  | step d ih =>
    rw [outline, List.map_cons, List.pairwise_cons]
    constructor
    · intro a ha
      obtain ⟨⟨a, o⟩, hmem, rfl⟩ := List.mem_map.1 ha
      obtain ⟨k, b, c, rfl, -⟩ := mem_outlineFrom_iff.1 hmem
      exact List.nil_lt_cons k b
    · rw [outlineFrom_eq_flatMap, List.map_flatMap, List.pairwise_flatMap]
      constructor
      · rintro ⟨c, k⟩ hc
        have hchild := ih c (List.mem_of_getElem? (List.mem_zipIdx_iff_getElem?.1 hc))
        rw [List.map_map, List.pairwise_map]
        refine (List.pairwise_map.1 hchild).imp fun {e e'} hlt => ?_
        exact List.cons_lt_cons_iff.2 (.inr ⟨rfl, hlt⟩)
      · -- the places of siblings increase
        have hplaces : ((children d).zipIdx.map Prod.snd).Pairwise (· < ·) := by
          rw [List.zipIdx_map_snd]
          exact List.pairwise_lt_range'
        refine (List.pairwise_map.1 hplaces).imp fun {e e'} hlt => ?_
        intro a ha b hb
        obtain ⟨f, hf, rfl⟩ := List.mem_map.1 ha
        obtain ⟨g, hg, rfl⟩ := List.mem_map.1 hb
        obtain ⟨f, -, rfl⟩ := List.mem_map.1 hf
        obtain ⟨g, -, rfl⟩ := List.mem_map.1 hg
        exact List.cons_lt_cons_iff.2 (.inl hlt)

/-! ## Numbers -/

theorem nodup_outline (d : Json) : ((outline d).map Prod.fst).Nodup :=
  (pairwise_outline d).imp fun h => Std.ne_of_lt h

/-- The number of an address is its place in the outline. -/
theorem getElem?_outline_iff :
    (outline d)[i]? = some (a, o) ↔ at? d a = some o ∧ number d a = i := by
  have hnumber : ∀ j, (outline d)[j]? = some (a, o) → number d a = j := by
    intro j h
    obtain ⟨hj, heq⟩ := List.getElem?_eq_some_iff.1 h
    have hplace := (nodup_outline d).idxOf_getElem j (by simpa using hj)
    rwa [List.getElem_map, heq] at hplace
  constructor
  · exact fun h => ⟨mem_outline_iff.1 (List.mem_of_getElem? h), hnumber i h⟩
  · rintro ⟨hat, rfl⟩
    obtain ⟨j, hj⟩ := List.mem_iff_getElem?.1 (mem_outline_iff.2 hat)
    rwa [hnumber j hj]

/-- Numbers are in the order of addresses. -/
theorem number_lt_number {e : Json} (ha : at? d a = some o) (hb : at? d b = some e)
    (hlt : a < b) : number d a < number d b := by
  obtain ⟨hi, hia⟩ := List.getElem?_eq_some_iff.1 (getElem?_outline_iff.2 ⟨ha, rfl⟩)
  obtain ⟨hj, hjb⟩ := List.getElem?_eq_some_iff.1 (getElem?_outline_iff.2 ⟨hb, rfl⟩)
  have hsorted := List.pairwise_iff_getElem.1 (List.pairwise_map.1 (pairwise_outline d))
  rcases Nat.lt_trichotomy (number d a) (number d b) with h | h | h
  · exact h
  · have hab : (outline d)[number d a] = (outline d)[number d b] := by simp only [h]
    rw [hia, hjb, Prod.mk.injEq] at hab
    exact absurd hab.1 (Std.ne_of_lt hlt)
  · have hba := hsorted (number d b) (number d a) hj hi h
    rw [hia, hjb] at hba
    exact absurd hba (List.lt_asymm hlt)

end
end NodeQuery.Description
