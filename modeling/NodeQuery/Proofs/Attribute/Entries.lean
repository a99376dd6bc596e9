import Mathlib.Data.List.Infix
import NodeQuery.Attribute.Basic
/-!
The entries of nested attributes. An entry is a value or a nested set, and it has an address: the
places of the keys on the way to it. Both traversals of attributes come from one list of all entries
(`names_eq`, `flatten_eq`), which has the entry at every address once (`mem_entries_iff`) and every
nested set after what is in it (`pairwise_entries`).
-/
namespace NodeQuery

/-- An entry of an attribute list: its dotted name and its value, none if it is a nested set. -/
structure AttributeEntry where
  name : Json
  value : Option AttributeValue

namespace Attributes

/-- The entry at an address. The places of keys are counted from 0, that of the outermost key comes
first. -/
def entryAt? (outer : Json) : Attributes → List Nat → Option AttributeEntry
  | leaf key value _, [0] => some ⟨joinName outer key, some value⟩
  | leaf _ _ rest, (place + 1) :: more => entryAt? outer rest (place :: more)
  | nest key _ _, [0] => some ⟨joinName outer key, none⟩
  | nest key inner _, 0 :: place :: more => entryAt? (joinName outer key) inner (place :: more)
  | nest _ _ rest, (place + 1) :: more => entryAt? outer rest (place :: more)
  | _, _ => none

/-- An entry with its address, after one more key. -/
def nextPlace (e : List Nat × AttributeEntry) : List Nat × AttributeEntry :=
  (e.1.modifyHead (· + 1), e.2)

/-- An entry with its address, inside the set of the first key. -/
def inFirst (e : List Nat × AttributeEntry) : List Nat × AttributeEntry :=
  (0 :: e.1, e.2)

/-- All entries with their addresses, every set after what is in it. -/
def entries (outer : Json) : Attributes → List (List Nat × AttributeEntry)
  | nil => []
  | leaf key value rest =>
    ([0], ⟨joinName outer key, some value⟩) :: (entries outer rest).map nextPlace
  | nest key inner rest =>
    (entries (joinName outer key) inner).map inFirst ++
      ([0], ⟨joinName outer key, none⟩) :: (entries outer rest).map nextPlace

/-! ## Names -/

section
variable {outer : Json} {a : Attributes} {e : AttributeEntry} {address : List Nat}
  {l : List (List Nat × AttributeEntry)}

theorem joinName_text {s : String} (hs : s ≠ "") (key : Json) :
    joinName (.text s) key = .text (s ++ "." ++ key.display) :=
  if_pos (by simp [Json.isTruthy, hs])

theorem names_eq (outer : Json) (a : Attributes) :
    a.names outer = (a.entries outer).map (·.2.name) := by
  induction a generalizing outer with
  | nil => rfl
  | leaf key value rest ih =>
    rw [names, entries, List.map_cons, List.map_map, ih]
    rfl
  | nest key inner rest ihinner ihrest =>
    rw [names, entries, List.map_append, List.map_cons, List.map_map, List.map_map, ihinner, ihrest]
    rfl

theorem flatten_eq (outer : Json) (a : Attributes) :
    a.flatten outer = (a.entries outer).filterMap fun e => e.2.value.map (e.2.name, ·) := by
  induction a generalizing outer with
  | nil => rfl
  | leaf key value rest ih =>
    rw [flatten, entries, List.filterMap_cons, List.filterMap_map, ih]
    rfl
  | nest key inner rest ihinner ihrest =>
    rw [flatten, entries, List.filterMap_append, List.filterMap_cons, List.filterMap_map,
      List.filterMap_map, ihinner, ihrest]
    rfl

/-! ## Addresses -/

theorem entryAt?_nil (outer : Json) (a : Attributes) : a.entryAt? outer [] = none := by
  cases a <;> rfl

theorem mem_map_inFirst :
    (address, e) ∈ l.map inFirst ↔ ∃ more, address = 0 :: more ∧ (more, e) ∈ l := by
  simp only [List.mem_map, inFirst, Prod.exists, Prod.mk.injEq]
  constructor
  · rintro ⟨more, e, hmem, rfl, rfl⟩
    exact ⟨more, rfl, hmem⟩
  · rintro ⟨more, rfl, hmem⟩
    exact ⟨more, e, hmem, rfl, rfl⟩

theorem mem_map_nextPlace (hl : ([], e) ∉ l) :
    (address, e) ∈ l.map nextPlace ↔
      ∃ place more, address = (place + 1) :: more ∧ (place :: more, e) ∈ l := by
  simp only [List.mem_map, nextPlace, Prod.exists, Prod.mk.injEq]
  constructor
  · rintro ⟨before, e, hmem, rfl, rfl⟩
    cases before with
    | nil => exact absurd hmem hl
    | cons place more => exact ⟨place, more, rfl, hmem⟩
  · rintro ⟨place, more, rfl, hmem⟩
    exact ⟨place :: more, e, hmem, rfl, rfl⟩

/-- All entries are listed, each with its address. -/
theorem mem_entries_iff : (address, e) ∈ a.entries outer ↔ a.entryAt? outer address = some e := by
  induction a generalizing outer address e with
  | nil => simp [entries, entryAt?]
  | leaf key value rest ih =>
    have hnil : ([], e) ∉ rest.entries outer := by simp [ih, entryAt?_nil]
    rw [entries, List.mem_cons, mem_map_nextPlace hnil]
    match address with
    | [] => simp [entryAt?]
    | [0] => simp [entryAt?, eq_comm]
    | 0 :: _ :: _ => simp [entryAt?]
    | (place + 1) :: more => simp [entryAt?, ih]
  | nest key inner rest ihinner ihrest =>
    have hnil : ([], e) ∉ rest.entries outer := by simp [ihrest, entryAt?_nil]
    rw [entries, List.mem_append, List.mem_cons, mem_map_inFirst, mem_map_nextPlace hnil]
    match address with
    | [] => simp [entryAt?]
    | [0] => simp [entryAt?, ihinner, entryAt?_nil, eq_comm]
    | 0 :: place :: more => simp [entryAt?, ihinner]
    | (place + 1) :: more => simp [entryAt?, ihrest]

/-- What comes after the first key is not in its set. -/
theorem not_prefix_of_mem_map {later : List Nat × AttributeEntry} (h : later ∈ l.map nextPlace)
    (more : List Nat) : ¬ 0 :: more <+: later.1 := by
  obtain ⟨⟨address, e⟩, -, rfl⟩ := List.mem_map.1 h
  cases address with
  | nil => simp [nextPlace]
  | cons place address => simp [nextPlace]

theorem prefix_of_nextPlace {e e' : List Nat × AttributeEntry}
    (h : (nextPlace e).1 <+: (nextPlace e').1) : e.1 <+: e'.1 := by
  obtain ⟨address, entry⟩ := e
  obtain ⟨address', entry'⟩ := e'
  match address, address' with
  | [], _ => exact List.nil_prefix
  | place :: more, [] => simp [nextPlace] at h
  | place :: more, place' :: more' => simpa [nextPlace] using h

/-- No entry comes before one in it. -/
theorem pairwise_entries (outer : Json) (a : Attributes) :
    (a.entries outer).Pairwise fun earlier later => ¬ earlier.1 <+: later.1 := by
  induction a generalizing outer with
  | nil => exact .nil
  | leaf key value rest ih =>
    have hrest := (ih outer).imp (mt prefix_of_nextPlace)
    rw [entries, List.pairwise_cons]
    exact ⟨fun later hlater => not_prefix_of_mem_map hlater [], List.pairwise_map.2 hrest⟩
  | nest key inner rest ihinner ihrest =>
    have hrest := (ihrest outer).imp (mt prefix_of_nextPlace)
    have hinner : ((inner.entries (joinName outer key)).map inFirst).Pairwise
        fun earlier later => ¬ earlier.1 <+: later.1 := by
      refine List.pairwise_map.2 ((ihinner (joinName outer key)).imp ?_)
      simp [inFirst, List.cons_prefix_cons]
    rw [entries, List.pairwise_append, List.pairwise_cons]
    refine ⟨hinner, ⟨fun later hlater => not_prefix_of_mem_map hlater [],
      List.pairwise_map.2 hrest⟩, ?_⟩
    intro earlier hearlier later hlater
    obtain ⟨⟨more, e⟩, hmem, rfl⟩ := List.mem_map.1 hearlier
    rcases List.mem_cons.1 hlater with rfl | hlater
    · -- the address of the set itself is not long enough
      cases more with
      | nil => simp [mem_entries_iff, entryAt?_nil] at hmem
      | cons place more => simp [inFirst, List.cons_prefix_cons]
    · exact not_prefix_of_mem_map hlater more

/-- Values are told by the entries that have one. -/
theorem mem_flatten_iff {entry : Json × AttributeValue} :
    entry ∈ a.flatten outer ↔
      ∃ address, a.entryAt? outer address = some ⟨entry.1, some entry.2⟩ := by
  obtain ⟨name, value⟩ := entry
  simp only [flatten_eq, List.mem_filterMap, Prod.exists, mem_entries_iff]
  constructor
  · rintro ⟨address, ⟨name', found⟩, hat, heq⟩
    cases found with
    | none => cases heq
    | some value' =>
      cases heq
      exact ⟨address, hat⟩
  · rintro ⟨address, hat⟩
    exact ⟨address, _, hat, rfl⟩

theorem mem_names_iff {name : Json} :
    name ∈ a.names outer ↔ ∃ address e, a.entryAt? outer address = some e ∧ e.name = name := by
  simp only [names_eq, List.mem_map, Prod.exists, mem_entries_iff]

end
end Attributes
end NodeQuery
