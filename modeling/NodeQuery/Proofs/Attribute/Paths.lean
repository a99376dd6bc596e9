import NodeQuery.Proofs.Attribute.Entries
import NodeQuery.Proofs.Query.Failures
/-!
Dotted names and the keys that they are made of. Every entry has a path, the keys on the way to it,
and its name joins the keys of the path by points. Empty keys at the beginning of a path leave no
trace in the name (`foldl_joinName_noName`), since a name that is empty so far counts as none; so
the name joins all keys of the path unless an empty key stands before others
(`flatten_names_dotted`).
-/
namespace NodeQuery.Attributes

/-- The keys on the way to an address, and the value there, none for a nested set. -/
def pathAt? : Attributes → List Nat → Option (List Json × Option AttributeValue)
  | leaf key value _, [0] => some ([key], some value)
  | leaf _ _ rest, (place + 1) :: more => pathAt? rest (place :: more)
  | nest key _ _, [0] => some ([key], none)
  | nest key inner _, 0 :: place :: more =>
    (pathAt? inner (place :: more)).map fun found => (key :: found.1, found.2)
  | nest _ _ rest, (place + 1) :: more => pathAt? rest (place :: more)
  | _, _ => none

/-- All keys of a path joined by points. -/
def joined (keys : List Json) : Json :=
  .text (".".intercalate (keys.map Json.display))

/-- The dotted name of a path: its keys joined by points, but for the empty ones at its beginning. -/
def dotted (keys : List Json) : Json :=
  joined (keys.dropWhile fun key => !key.isTruthy)

section
variable {a : Attributes} {outer : Json} {keys : List Json} {address : List Nat}
  {value : Option AttributeValue}

/-! ## Names of paths -/

/-- The name of an entry comes from its path, key by key. -/
theorem entryAt?_eq (a : Attributes) (outer : Json) (address : List Nat) :
    a.entryAt? outer address =
      (a.pathAt? address).map fun found => ⟨found.1.foldl joinName outer, found.2⟩ := by
  induction a generalizing outer address with
  | nil => cases address <;> rfl
  | leaf key value rest ih =>
    match address with
    | [] => rfl
    | [0] => rfl
    | 0 :: _ :: _ => rfl
    | (place + 1) :: more => rw [entryAt?, pathAt?, ih]
  | nest key inner rest ihinner ihrest =>
    match address with
    | [] => rfl
    | [0] => rfl
    | 0 :: place :: more =>
      rw [entryAt?, pathAt?, ihinner, Option.map_map]
      rfl
    | (place + 1) :: more => rw [entryAt?, pathAt?, ihrest]

theorem joined_cons_cons (outer key : Json) (keys : List Json) :
    joined (outer :: key :: keys) = joined (.text (outer.display ++ "." ++ key.display) :: keys) := by
  cases keys with
  | nil => simp [joined, Json.display, String.intercalate_cons_cons]
  | cons next keys => simp [joined, Json.display, String.intercalate_cons_cons, String.append_assoc]

/-- Inside a set with a name that is not empty, all further keys are joined to it. -/
theorem foldl_joinName_text {s : String} (hs : s ≠ "") (keys : List Json) :
    keys.foldl joinName (.text s) = joined (.text s :: keys) := by
  induction keys generalizing s with
  | nil => simp [joined, Json.display]
  | cons key keys ih =>
    have hne : s ++ "." ++ key.display ≠ "" := by simp
    rw [List.foldl_cons, joinName_text hs, ih hne, joined_cons_cons]
    rfl

theorem foldl_joinName_noName (hkeys : ∀ key ∈ keys, key.IsText) :
    keys.foldl joinName noName = dotted keys := by
  induction keys with
  | nil => rfl
  | cons key keys ih =>
    obtain ⟨⟨s, rfl⟩, hrest⟩ := List.forall_mem_cons.1 hkeys
    by_cases hs : s = ""
    · subst hs
      exact ih hrest
    · have htruthy : (Json.text s).isTruthy = true := by simp [Json.isTruthy, hs]
      have hname : joinName noName (.text s) = .text s := rfl
      rw [List.foldl_cons, hname, foldl_joinName_text hs, dotted,
        List.dropWhile_cons_of_neg (by simp [htruthy])]

theorem TextKeys.of_pathAt? (h : a.TextKeys) (hpath : a.pathAt? address = some (keys, value)) :
    ∀ key ∈ keys, key.IsText := by
  induction a generalizing address keys value with
  | nil => cases hpath
  | leaf key found rest ih =>
    match address, hpath with
    | [0], rfl => exact List.forall_mem_singleton.2 h.1
    | (place + 1) :: more, hpath => exact ih h.2 hpath
  | nest key inner rest ihinner ihrest =>
    match address, hpath with
    | [0], rfl => exact List.forall_mem_singleton.2 h.1
    | 0 :: place :: more, hpath =>
      obtain ⟨⟨below, found⟩, hbelow, hfound⟩ := Option.map_eq_some_iff.1 hpath
      cases hfound
      exact List.forall_mem_cons.2 ⟨h.1, ihinner h.2.1 hbelow⟩
    | (place + 1) :: more, hpath => exact ihrest h.2.2 hpath

/-- An entry whose keys are texts has the dotted name of its path. -/
theorem TextKeys.entryAt?_eq_some_iff (h : a.TextKeys) {e : AttributeEntry} :
    a.entryAt? noName address = some e ↔
      ∃ keys, a.pathAt? address = some (keys, e.value) ∧ e.name = dotted keys := by
  rw [entryAt?_eq, Option.map_eq_some_iff]
  constructor
  · rintro ⟨⟨keys, value⟩, hpath, rfl⟩
    exact ⟨keys, hpath, foldl_joinName_noName (h.of_pathAt? hpath)⟩
  · rintro ⟨keys, hpath, hname⟩
    refine ⟨(keys, e.value), hpath, ?_⟩
    rw [foldl_joinName_noName (h.of_pathAt? hpath), ← hname]

theorem length_joined_cons_cons (key next : Json) (keys : List Json) :
    (joined (key :: next :: keys)).display.length =
      key.display.length + 1 + (joined (next :: keys)).display.length := by
  have hpoint : ".".length = 1 := rfl
  change (".".intercalate (key.display :: next.display :: keys.map Json.display)).length = _
  rw [String.intercalate_cons_cons, String.length_append, String.length_append, hpoint]
  rfl

/-- Leaving out empty keys does not make a name longer. -/
theorem length_dotted_le (keys : List Json) :
    (dotted keys).display.length ≤ (joined keys).display.length := by
  induction keys with
  | nil => exact Nat.le_refl _
  | cons key keys ih =>
    rw [dotted, List.dropWhile_cons]
    split
    · refine Nat.le_trans ih ?_
      cases keys with
      | nil => simp [joined, Json.display]
      | cons next keys =>
        rw [length_joined_cons_cons]
        omega
    · exact Nat.le_refl _

/-- Leaving out the empty keys at the beginning changes nothing if and only if there is none or
nothing else. -/
theorem dotted_eq_joined_iff (hkeys : ∀ key ∈ keys, key.IsText) :
    dotted keys = joined keys ↔ (keys.head? = some (.text "") → keys.length = 1) := by
  cases keys with
  | nil => exact iff_of_true rfl nofun
  | cons key keys =>
    obtain ⟨⟨s, rfl⟩, -⟩ := List.forall_mem_cons.1 hkeys
    by_cases hs : s = ""
    · subst hs
      cases keys with
      | nil => exact iff_of_true rfl fun _ => rfl
      | cons next keys =>
        refine iff_of_false (fun heq => ?_) (by simp)
        have hle : (joined (.text "" :: next :: keys)).display.length ≤
            (joined (next :: keys)).display.length := heq ▸ length_dotted_le (next :: keys)
        rw [length_joined_cons_cons] at hle
        omega
    · have htruthy : (Json.text s).isTruthy = true := by simp [Json.isTruthy, hs]
      refine iff_of_true ?_ (by simp [hs])
      rw [dotted, List.dropWhile_cons_of_neg (by simp [htruthy])]

/-! ## Document order -/

theorem nextPlace_lt {e e' : List Nat × AttributeEntry} (h : e.1 < e'.1) :
    (nextPlace e).1 < (nextPlace e').1 := by
  obtain ⟨address, entry⟩ := e
  obtain ⟨address', entry'⟩ := e'
  match address, address' with
  | _, [] => exact absurd h (List.not_lt_nil _)
  | [], _ :: _ => exact List.nil_lt_cons _ _
  | place :: more, place' :: more' =>
    simpa [nextPlace, List.cons_lt_cons_iff] using h

/-- What is in the set of the first key stands before what comes after it. -/
theorem first_lt_of_mem_map {rest : Attributes} {later : List Nat × AttributeEntry}
    (h : later ∈ (rest.entries outer).map nextPlace) (more : List Nat) : 0 :: more < later.1 := by
  obtain ⟨⟨address, e⟩, hmem, rfl⟩ := List.mem_map.1 h
  cases address with
  | nil =>
    rw [mem_entries_iff, entryAt?_nil] at hmem
    cases hmem
  | cons place address => exact List.cons_lt_cons_iff.2 (.inl (Nat.succ_pos place))

/-- A value comes after everything that stands before it. A nested set does not, for it comes after
what is in it. -/
theorem pairwise_entries_lt (outer : Json) (a : Attributes) :
    (a.entries outer).Pairwise fun earlier later =>
      later.2.value.isSome = true → earlier.1 < later.1 := by
  induction a generalizing outer with
  | nil => exact .nil
  | leaf key value rest ih =>
    have hrest := (ih outer).imp fun h hvalue => nextPlace_lt (h hvalue)
    rw [entries, List.pairwise_cons]
    exact ⟨fun later hlater _ => first_lt_of_mem_map hlater [], List.pairwise_map.2 hrest⟩
  | nest key inner rest ihinner ihrest =>
    have hrest := (ihrest outer).imp fun h hvalue => nextPlace_lt (h hvalue)
    have hinner : ((inner.entries (joinName outer key)).map inFirst).Pairwise
        fun earlier later => later.2.value.isSome = true → earlier.1 < later.1 := by
      refine List.pairwise_map.2 ((ihinner (joinName outer key)).imp fun h hvalue => ?_)
      exact List.cons_lt_cons_iff.2 (.inr ⟨rfl, h hvalue⟩)
    rw [entries, List.pairwise_append, List.pairwise_cons]
    refine ⟨hinner, ⟨fun later hlater _ => first_lt_of_mem_map hlater [],
      List.pairwise_map.2 hrest⟩, ?_⟩
    intro earlier hearlier later hlater hvalue
    obtain ⟨e, -, rfl⟩ := List.mem_map.1 hearlier
    rcases List.mem_cons.1 hlater with rfl | hlater
    · cases hvalue
    · exact first_lt_of_mem_map hlater e.1

/-- The addresses of the values, as they are met. -/
def valuePlaces (a : Attributes) : List (List Nat) :=
  (a.entries noName).filterMap fun e => e.2.value.map fun _ => e.1

theorem pairwise_valuePlaces (a : Attributes) : a.valuePlaces.Pairwise (· < ·) := by
  refine List.pairwise_filterMap.2 ((pairwise_entries_lt noName a).imp ?_)
  rintro ⟨address, e⟩ ⟨address', e'⟩ h place hplace place' hplace'
  obtain ⟨_, -, rfl⟩ := Option.map_eq_some_iff.1 hplace
  obtain ⟨_, hvalue, rfl⟩ := Option.map_eq_some_iff.1 hplace'
  exact h (Option.isSome_of_eq_some hvalue)

theorem TextKeys.mem_valuePlaces_iff (h : a.TextKeys) {place : List Nat} :
    place ∈ a.valuePlaces ↔ ∃ keys value, a.pathAt? place = some (keys, some value) := by
  simp only [valuePlaces, List.mem_filterMap, Option.map_eq_some_iff]
  constructor
  · rintro ⟨⟨place, e⟩, he, value, hvalue, rfl⟩
    obtain ⟨keys, hpath, -⟩ := h.entryAt?_eq_some_iff.1 (mem_entries_iff.1 he)
    exact ⟨keys, value, hvalue ▸ hpath⟩
  · rintro ⟨keys, value, hpath⟩
    have hat : a.entryAt? noName place = some ⟨dotted keys, some value⟩ :=
      h.entryAt?_eq_some_iff.2 ⟨keys, hpath, rfl⟩
    exact ⟨(place, _), mem_entries_iff.2 hat, value, rfl, rfl⟩

theorem TextKeys.mem_places_iff (h : a.TextKeys) {place : List Nat} :
    place ∈ (a.entries noName).map (·.1) ↔ ∃ keys value, a.pathAt? place = some (keys, value) := by
  rw [List.mem_map]
  constructor
  · rintro ⟨⟨place, e⟩, he, rfl⟩
    obtain ⟨keys, hpath, -⟩ := h.entryAt?_eq_some_iff.1 (mem_entries_iff.1 he)
    exact ⟨keys, e.value, hpath⟩
  · rintro ⟨keys, value, hpath⟩
    have hat : a.entryAt? noName place = some ⟨dotted keys, value⟩ :=
      h.entryAt?_eq_some_iff.2 ⟨keys, hpath, rfl⟩
    exact ⟨(place, _), mem_entries_iff.2 hat, rfl⟩

end

/-- Values whose keys are texts are listed in document order, that of their addresses, one for each
address of a value, and the names of all entries are listed with those of nested sets after those in
them, one for each address. A name is that of the path to its address: all keys of the path joined
by points, except that empty keys at its beginning are left out. So it is the joined path unless an
empty key stands before others. -/
theorem flatten_names_dotted (a : Attributes) (h : a.TextKeys) :
    (∃ places : List (List Nat), places.Pairwise (· < ·) ∧
      (∀ place, place ∈ places ↔ ∃ keys value, a.pathAt? place = some (keys, some value)) ∧
      List.Forall₂ (fun place pair => ∃ keys, a.pathAt? place = some (keys, some pair.2) ∧
        pair.1 = dotted keys) places (a.flatten noName)) ∧
    (∃ places : List (List Nat), (places.Pairwise fun earlier later => ¬ earlier <+: later) ∧
      (∀ place, place ∈ places ↔ ∃ keys value, a.pathAt? place = some (keys, value)) ∧
      List.Forall₂ (fun place name => ∃ keys value, a.pathAt? place = some (keys, value) ∧
        name = dotted keys) places (a.names noName)) ∧
    ∀ keys, (∀ key ∈ keys, key.IsText) →
      (dotted keys = joined keys ↔ (keys.head? = some (.text "") → keys.length = 1)) := by
  have hentry : ∀ e ∈ a.entries noName, ∃ keys, a.pathAt? e.1 = some (keys, e.2.value) ∧
      e.2.name = dotted keys := fun e he => h.entryAt?_eq_some_iff.1 (mem_entries_iff.1 he)
  refine ⟨⟨a.valuePlaces, a.pairwise_valuePlaces, fun place => h.mem_valuePlaces_iff, ?_⟩,
    ⟨(a.entries noName).map (·.1), List.pairwise_map.2 (a.pairwise_entries noName),
      fun place => h.mem_places_iff, ?_⟩, fun keys hkeys => dotted_eq_joined_iff hkeys⟩
  · rw [flatten_eq, valuePlaces]
    refine List.rel_filterMap (R := fun e e' => e = e' ∧ e ∈ a.entries noName) ?_
      (List.forall₂_same.2 fun e he => ⟨rfl, he⟩)
    rintro ⟨place, name, value⟩ _ ⟨rfl, he⟩
    cases value with
    | none => exact .none
    | some value => exact .some (hentry _ he)
  · rw [names_eq, List.forall₂_map_left_iff, List.forall₂_map_right_iff, List.forall₂_same]
    intro e he
    obtain ⟨keys, hpath, hname⟩ := hentry e he
    exact ⟨keys, e.2.value, hpath, hname⟩

/-- A value below an empty key that stands in a set, and one below an empty key that does not. -/
def unlabelled : Attributes :=
  .nest (.text "exif") (.nest (.text "") (.leaf (.text "lat") (.json (.int 1)) .nil) .nil)
    (.nest (.text "") (.leaf (.text "make") (.json (.int 2)) .nil) .nil)

theorem textKeys_unlabelled : unlabelled.TextKeys :=
  ⟨⟨_, rfl⟩, ⟨⟨_, rfl⟩, ⟨⟨_, rfl⟩, trivial⟩, trivial⟩, ⟨⟨_, rfl⟩, ⟨⟨_, rfl⟩, trivial⟩, trivial⟩⟩

theorem flatten_names_dotted_unlabelled : unlabelled.TextKeys ∧
    unlabelled.flatten noName =
      [(.text "exif..lat", .json (.int 1)), (.text "make", .json (.int 2))] ∧
    ∃ places : List (List Nat), places.Pairwise (· < ·) ∧
      (∀ place, place ∈ places ↔
        ∃ keys value, unlabelled.pathAt? place = some (keys, some value)) ∧
      List.Forall₂ (fun place pair => ∃ keys,
        unlabelled.pathAt? place = some (keys, some pair.2) ∧ pair.1 = dotted keys)
        places (unlabelled.flatten noName) :=
  ⟨textKeys_unlabelled, rfl, (flatten_names_dotted unlabelled textKeys_unlabelled).1⟩

/-- The second value is called as if it stood in no set. -/
theorem not_joined : unlabelled.TextKeys ∧
    ¬ ∃ places : List (List Nat), List.Forall₂ (fun place pair => ∃ keys,
      unlabelled.pathAt? place = some (keys, some pair.2) ∧ pair.1 = joined keys)
      places (unlabelled.flatten noName) := by
  refine ⟨textKeys_unlabelled, ?_⟩
  rintro ⟨places, hplaces⟩
  have hflat : unlabelled.flatten noName =
      [(.text "exif..lat", .json (.int 1)), (.text "make", .json (.int 2))] := rfl
  rw [hflat] at hplaces
  cases hplaces with
  | cons _ hrest =>
    cases hrest with
    | @cons place _ _ _ hsecond =>
      obtain ⟨keys, hpath, hname⟩ := hsecond
      have hplace : place ∈ unlabelled.valuePlaces :=
        textKeys_unlabelled.mem_valuePlaces_iff.2 ⟨keys, _, hpath⟩
      have hvalues : unlabelled.valuePlaces = [[0, 0, 0], [1, 0]] := rfl
      rw [hvalues, List.mem_pair] at hplace
      rcases hplace with rfl | rfl
      · cases hpath
      · cases hpath
        exact absurd (Json.text.inj hname) (by decide)

end NodeQuery.Attributes
