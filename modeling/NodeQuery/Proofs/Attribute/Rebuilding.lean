import Mathlib.Data.List.Nodup
import NodeQuery.Json.Identity
import NodeQuery.Proofs.Attribute.Entries
/-!
Attributes from their dotted names. Split at its points, a dotted name gives the keys of its path
back if no key is empty or has a point in it, and putting every value under the keys of its path
builds the attributes again (`flatten_ofDotted`). The values of a nested set are listed in a row, so
the set is added by the first of them, as the last entry, and filled by the others before the next
entry is added (`putAll_of_ne_nil`). Only nested sets without any value are lost.
-/
namespace NodeQuery.Attributes

/-- The outermost keys. -/
def keys : Attributes → List Json
  | nil => []
  | leaf key _ rest => key :: rest.keys
  | nest key _ rest => key :: rest.keys

/-- A key that is a text, not empty and without a point. -/
def PlainKey (key : Json) : Prop :=
  ∃ s : String, key = .text s ∧ s ≠ "" ∧ '.' ∉ s.toList

/-- All keys are plain, and those of one set differ. -/
def WellKeyed : Attributes → Prop
  | nil => True
  | leaf key _ rest => PlainKey key ∧ key ∉ rest.keys ∧ rest.WellKeyed
  | nest key inner rest => PlainKey key ∧ key ∉ rest.keys ∧ inner.WellKeyed ∧ rest.WellKeyed

/-- There is a value at some depth. -/
def hasValue : Attributes → Bool
  | nil => false
  | leaf _ _ _ => true
  | nest _ inner rest => inner.hasValue || rest.hasValue

/-- The attributes without the nested sets that have no value at any depth. -/
def pruned : Attributes → Attributes
  | nil => nil
  | leaf key value rest => leaf key value rest.pruned
  | nest key inner rest => if inner.hasValue then nest key inner.pruned rest.pruned else rest.pruned

/-- Replaces the entry with a key, or adds one after all others. The new entry is made from the set
under the key, which is empty if there is none, and from the entries after it. -/
def replace (key : String) (entry : Attributes → Attributes → Attributes) :
    Attributes → Attributes
  | nil => entry nil nil
  | leaf k value rest =>
    if k.same (.text key) then entry nil rest else leaf k value (replace key entry rest)
  | nest k inner rest =>
    if k.same (.text key) then entry inner rest else nest k inner (replace key entry rest)

/-- Puts a value under the keys of a path; sets on the way that are not there are added. -/
def put (value : AttributeValue) : List String → Attributes → Attributes
  | [], a => a
  | [key], a => a.replace key fun _ rest => leaf (.text key) value rest
  | key :: next :: path, a =>
    a.replace key fun inner rest => nest (.text key) (put value (next :: path) inner) rest

/-- Puts values under their paths, one after the other. -/
def putAll (values : List (List String × AttributeValue)) (a : Attributes) : Attributes :=
  values.foldl (fun built found => built.put found.2 found.1) a

/-- The keys in a dotted name. -/
def splitName (name : String) : List String :=
  (name.toList.splitOn '.').map String.ofList

/-- The attributes with the given dotted names and values. -/
def ofDotted (pairs : List (String × AttributeValue)) : Attributes :=
  putAll (pairs.map fun pair => (splitName pair.1, pair.2)) nil

/-- A value with its path, in the set with a key. -/
def inSet (key : String) (found : List String × AttributeValue) : List String × AttributeValue :=
  (key :: found.1, found.2)

/-- The values in document order, each with the texts of the keys on the way to it. -/
def paths : Attributes → List (List String × AttributeValue)
  | nil => []
  | leaf key value rest => ([key.display], value) :: rest.paths
  | nest key inner rest => inner.paths.map (inSet key.display) ++ rest.paths

section
variable {a b c inner : Attributes} {key s : String} {path : List String}
  {l : List (List String × AttributeValue)}

/-! ## Lists of attributes -/

theorem append_nil (a : Attributes) : a.append nil = a := by
  induction a with
  | nil => rfl
  | leaf key value rest ih => rw [append, ih]
  | nest key inner rest _ ih => rw [append, ih]

theorem append_assoc (a b c : Attributes) : (a.append b).append c = a.append (b.append c) := by
  induction a with
  | nil => rfl
  | leaf key value rest ih => rw [append, append, append, ih]
  | nest key inner rest _ ih => rw [append, append, append, ih]

theorem keys_append (a b : Attributes) : (a.append b).keys = a.keys ++ b.keys := by
  induction a with
  | nil => rfl
  | leaf key value rest ih => rw [append, keys, keys, ih, List.cons_append]
  | nest key inner rest _ ih => rw [append, keys, keys, ih, List.cons_append]

/-! ## Paths -/

/-- Inside a set with a name, a name is the set's name and the path of the value, joined. -/
theorem flatten_text (hs : s ≠ "") (a : Attributes) :
    a.flatten (.text s) =
      a.paths.map fun found => (.text (".".intercalate (s :: found.1)), found.2) := by
  induction a generalizing s with
  | nil => rfl
  | leaf key value rest ih =>
    rw [flatten, paths, ih hs, joinName_text hs, List.map_cons, String.intercalate_cons_cons,
      String.intercalate_singleton]
  | nest key inner rest ihinner ihrest =>
    rw [flatten, paths, joinName_text hs, ihinner (by simp), ihrest hs, List.map_append,
      List.map_map]
    simp only [Function.comp_def, inSet, String.intercalate_cons_append,
      String.intercalate_cons_cons]

theorem WellKeyed.flatten_noName (h : a.WellKeyed) :
    a.flatten noName = a.paths.map fun found => (.text (".".intercalate found.1), found.2) := by
  induction a with
  | nil => rfl
  | leaf key value rest ih =>
    obtain ⟨⟨s, rfl, -, -⟩, -, hrest⟩ := h
    rw [flatten, paths, ih hrest, List.map_cons, String.intercalate_singleton]
    rfl
  | nest key inner rest _ ih =>
    obtain ⟨⟨s, rfl, hs, -⟩, -, -, hrest⟩ := h
    have hname : joinName noName (.text s) = .text s := rfl
    rw [flatten, paths, ih hrest, hname, flatten_text hs, List.map_append, List.map_map]
    rfl

/-- The keys of a path have no point in them, and the first is an outermost key. -/
theorem WellKeyed.of_mem_paths (h : a.WellKeyed) {found : List String × AttributeValue}
    (hfound : found ∈ a.paths) :
    (∃ key path, found.1 = key :: path ∧ .text key ∈ a.keys) ∧
      ∀ key ∈ found.1, '.' ∉ key.toList := by
  induction a generalizing found with
  | nil => cases hfound
  | leaf key value rest ih =>
    obtain ⟨⟨s, rfl, -, hpoint⟩, -, hrest⟩ := h
    rcases List.mem_cons.1 hfound with rfl | hfound
    · exact ⟨⟨s, [], rfl, List.mem_cons_self⟩, List.forall_mem_singleton.2 hpoint⟩
    · obtain ⟨⟨key, path, hpath, hkey⟩, hpoints⟩ := ih hrest hfound
      exact ⟨⟨key, path, hpath, List.mem_cons_of_mem _ hkey⟩, hpoints⟩
  | nest key inner rest ihinner ihrest =>
    obtain ⟨⟨s, rfl, -, hpoint⟩, -, hinner, hrest⟩ := h
    rcases List.mem_append.1 hfound with hfound | hfound
    · obtain ⟨below, hbelow, rfl⟩ := List.mem_map.1 hfound
      exact ⟨⟨s, below.1, rfl, List.mem_cons_self⟩,
        List.forall_mem_cons.2 ⟨hpoint, (ihinner hinner hbelow).2⟩⟩
    · obtain ⟨⟨key, path, hpath, hkey⟩, hpoints⟩ := ihrest hrest hfound
      exact ⟨⟨key, path, hpath, List.mem_cons_of_mem _ hkey⟩, hpoints⟩

theorem WellKeyed.mem_keys (h : a.WellKeyed) {found : List String × AttributeValue}
    (hfound : found ∈ a.paths) (hpath : found.1 = key :: path) : .text key ∈ a.keys := by
  obtain ⟨⟨first, rest, hfirst, hkey⟩, -⟩ := h.of_mem_paths hfound
  obtain ⟨rfl, rfl⟩ := List.cons.inj (hpath.symm.trans hfirst)
  exact hkey

theorem WellKeyed.path_ne_nil (h : a.WellKeyed) {found : List String × AttributeValue}
    (hfound : found ∈ a.paths) : found.1 ≠ [] := by
  obtain ⟨⟨key, path, hpath, -⟩, -⟩ := h.of_mem_paths hfound
  rw [hpath]
  exact List.cons_ne_nil key path

theorem splitName_intercalate (hne : path ≠ []) (hpoints : ∀ key ∈ path, '.' ∉ key.toList) :
    splitName (".".intercalate path) = path := by
  have hfree : ∀ chars ∈ path.map String.toList, '.' ∉ chars := by
    intro chars hchars
    obtain ⟨key, hkey, rfl⟩ := List.mem_map.1 hchars
    exact hpoints key hkey
  have hpieces : (".".intercalate path).toList.splitOn '.' = path.map String.toList := by
    rw [String.toList_intercalate]
    exact List.splitOn_intercalate '.' hfree (by simpa using hne)
  rw [splitName, hpieces, List.map_map]
  simp [Function.comp_def]

/-- No two values have the same path. -/
theorem WellKeyed.nodup_paths (h : a.WellKeyed) : (a.paths.map (·.1)).Nodup := by
  induction a with
  | nil => exact List.nodup_nil
  | leaf key value rest ih =>
    obtain ⟨⟨s, rfl, -⟩, hfresh, hrest⟩ := h
    refine List.nodup_cons.2 ⟨fun hmem => ?_, ih hrest⟩
    obtain ⟨found, hfound, hpath⟩ := List.mem_map.1 hmem
    exact hfresh (hrest.mem_keys hfound hpath)
  | nest key inner rest ihinner ihrest =>
    obtain ⟨⟨s, rfl, -⟩, hfresh, hinner, hrest⟩ := h
    rw [paths, List.map_append, List.nodup_append, List.map_map]
    refine ⟨?_, ihrest hrest, ?_⟩
    · have hcons : ((inner.paths.map (·.1)).map (s :: ·)).Nodup :=
        List.Pairwise.map (s :: ·) (fun _ _ hne h => hne (List.cons.inj h).2) (ihinner hinner)
      rwa [List.map_map] at hcons
    · intro path hpath path' hpath' heq
      obtain ⟨below, -, rfl⟩ := List.mem_map.1 hpath
      obtain ⟨found, hfound, hsame⟩ := List.mem_map.1 hpath'
      exact hfresh (hrest.mem_keys hfound (hsame.trans heq.symm))

/-! ## Building -/

theorem same_text_iff {k : Json} : k.same (.text key) = true ↔ k = .text key := by
  rw [Json.same_iff]
  constructor
  · intro h
    cases k with
    | text s => rw [Json.Identity.text.inj h]
    | real x =>
      simp only [Json.identity] at h
      split at h <;> cases h
    | _ => cases h
  · rintro rfl
    rfl

/-- A new key is looked for behind all other keys. -/
theorem replace_append {entry : Attributes → Attributes → Attributes}
    (hfresh : .text key ∉ a.keys) (b : Attributes) :
    (a.append b).replace key entry = a.append (b.replace key entry) := by
  induction a with
  | nil => rfl
  | leaf k value rest ih =>
    have hk : k ≠ .text key := (List.ne_of_not_mem_cons hfresh).symm
    rw [append, append, replace, if_neg (mt same_text_iff.1 hk),
      ih (List.not_mem_of_not_mem_cons hfresh)]
  | nest k inner rest _ ih =>
    have hk : k ≠ .text key := (List.ne_of_not_mem_cons hfresh).symm
    rw [append, append, replace, if_neg (mt same_text_iff.1 hk),
      ih (List.not_mem_of_not_mem_cons hfresh)]

theorem put_single (value : AttributeValue) (hfresh : .text key ∉ a.keys) :
    a.put value [key] = a.append (leaf (.text key) value nil) := by
  rw [put, ← append_nil a, replace_append hfresh, append_nil]
  rfl

/-- Values of one nested set fill it, wherever it stands. -/
theorem putAll_nest (hne : ∀ found ∈ l, found.1 ≠ []) (hfresh : .text key ∉ a.keys)
    (inner : Attributes) :
    putAll (l.map (inSet key)) (a.append (nest (.text key) inner nil)) =
      a.append (nest (.text key) (putAll l inner) nil) := by
  induction l generalizing inner with
  | nil => rfl
  | cons found l ih =>
    obtain ⟨hfirst, hrest⟩ := List.forall_mem_cons.1 hne
    obtain ⟨next, path, hpath⟩ := List.exists_cons_of_ne_nil hfirst
    have hput : (a.append (nest (.text key) inner nil)).put found.2 (key :: found.1) =
        a.append (nest (.text key) (inner.put found.2 found.1) nil) := by
      rw [hpath, put, replace_append hfresh, replace, if_pos (Json.same_refl _)]
    calc putAll ((found :: l).map (inSet key)) (a.append (nest (.text key) inner nil))
        = putAll (l.map (inSet key))
            (a.append (nest (.text key) (inner.put found.2 found.1) nil)) := by
          rw [← hput]
          rfl
      _ = a.append (nest (.text key) (putAll (found :: l) inner) nil) := ih hrest _

/-- The first value of a nested set adds the set. -/
theorem putAll_of_ne_nil (hl : l ≠ []) (hne : ∀ found ∈ l, found.1 ≠ [])
    (hfresh : .text key ∉ a.keys) :
    putAll (l.map (inSet key)) a = a.append (nest (.text key) (putAll l nil) nil) := by
  obtain ⟨found, l, rfl⟩ := List.exists_cons_of_ne_nil hl
  obtain ⟨hfirst, hrest⟩ := List.forall_mem_cons.1 hne
  obtain ⟨next, path, hpath⟩ := List.exists_cons_of_ne_nil hfirst
  have hput : a.put found.2 (key :: found.1) =
      a.append (nest (.text key) (nil.put found.2 found.1) nil) := by
    rw [hpath, put, ← append_nil a, replace_append hfresh, append_nil]
    rfl
  calc putAll ((found :: l).map (inSet key)) a
      = putAll (l.map (inSet key)) (a.append (nest (.text key) (nil.put found.2 found.1) nil)) := by
        rw [← hput]
        rfl
    _ = a.append (nest (.text key) (putAll (found :: l) nil) nil) := putAll_nest hrest hfresh _

theorem paths_eq_nil_iff : a.paths = [] ↔ a.hasValue = false := by
  induction a with
  | nil => exact iff_of_true rfl rfl
  | leaf key value rest _ => exact iff_of_false (List.cons_ne_nil _ _) nofun
  | nest key inner rest ihinner ihrest =>
    rw [paths, hasValue, List.append_eq_nil_iff, List.map_eq_nil_iff, ihinner, ihrest,
      Bool.or_eq_false_iff]

/-- The keys after an entry are new behind it, too. -/
theorem not_mem_keys_append {rest : Attributes} {k : Json} (hnew : k ∉ rest.keys)
    (hothers : ∀ key ∈ rest.keys, key ∉ a.keys) {entry : Attributes} (hentry : entry.keys = [k]) :
    ∀ key ∈ rest.keys, key ∉ (a.append entry).keys := by
  intro key hkey hmem
  rw [keys_append, hentry, List.mem_append, List.mem_singleton] at hmem
  rcases hmem with hmem | rfl
  · exact hothers key hkey hmem
  · exact hnew hkey

/-- The values of well-keyed attributes, put one after the other behind attributes with other keys,
build the attributes again, but for the nested sets without a value. -/
theorem WellKeyed.putAll_paths (h : b.WellKeyed) (hfresh : ∀ key ∈ b.keys, key ∉ a.keys) :
    putAll b.paths a = a.append b.pruned := by
  induction b generalizing a with
  | nil => exact (append_nil a).symm
  | leaf key value rest ih =>
    obtain ⟨⟨s, rfl, -⟩, hnew, hrest⟩ := h
    obtain ⟨hs, hothers⟩ := List.forall_mem_cons.1 hfresh
    have hnext : ∀ key ∈ rest.keys, key ∉ (a.append (leaf (.text s) value nil)).keys :=
      not_mem_keys_append hnew hothers rfl
    calc putAll (leaf (.text s) value rest).paths a
        = putAll rest.paths (a.append (leaf (.text s) value nil)) := by
          rw [← put_single value hs]
          rfl
      _ = a.append (leaf (.text s) value rest).pruned := by
          rw [ih hrest hnext, append_assoc]
          rfl
  | nest key inner rest ihinner ihrest =>
    obtain ⟨⟨s, rfl, -⟩, hnew, hinner, hrest⟩ := h
    obtain ⟨hs, hothers⟩ := List.forall_mem_cons.1 hfresh
    by_cases hvalue : inner.hasValue = true
    · have hset : putAll (inner.paths.map (inSet s)) a =
          a.append (nest (.text s) inner.pruned nil) := by
        have hsome : inner.paths ≠ [] := by simp [paths_eq_nil_iff, hvalue]
        rw [putAll_of_ne_nil hsome (fun _ hfound => hinner.path_ne_nil hfound) hs,
          ihinner hinner fun _ _ => List.not_mem_nil]
        rfl
      have hnext : ∀ key ∈ rest.keys, key ∉ (a.append (nest (.text s) inner.pruned nil)).keys :=
        not_mem_keys_append hnew hothers rfl
      calc putAll (nest (.text s) inner rest).paths a
          = putAll rest.paths (putAll (inner.paths.map (inSet s)) a) := List.foldl_append
        _ = a.append (nest (.text s) inner rest).pruned := by
            rw [hset, ihrest hrest hnext, append_assoc, pruned, if_pos hvalue]
            rfl
    · have hnone : inner.paths = [] := paths_eq_nil_iff.2 (Bool.eq_false_iff.2 hvalue)
      rw [paths, hnone, pruned, if_neg hvalue]
      exact ihrest hrest hothers

end

/-- If all keys are plain and those of one set differ, then the dotted names of the values are
distinct texts, and the attributes built from them are the given ones in the same order, without the
nested sets that have no value at any depth. -/
theorem flatten_ofDotted (a : Attributes) (h : a.WellKeyed) :
    ∃ pairs : List (String × AttributeValue),
      a.flatten noName = pairs.map (fun pair => (.text pair.1, pair.2)) ∧
      (pairs.map (·.1)).Nodup ∧ ofDotted pairs = a.pruned := by
  have hsplit : ∀ found ∈ a.paths, splitName (".".intercalate found.1) = found.1 :=
    fun found hfound => splitName_intercalate (h.path_ne_nil hfound) (h.of_mem_paths hfound).2
  refine ⟨a.paths.map fun found => (".".intercalate found.1, found.2), ?_, ?_, ?_⟩
  · rw [h.flatten_noName, List.map_map]
    rfl
  · have hnames : (a.paths.map fun found => splitName (".".intercalate found.1)).Nodup := by
      rw [List.map_congr_left hsplit]
      exact h.nodup_paths
    rw [List.map_map]
    exact List.Nodup.of_map splitName (by rwa [List.map_map])
  · have hpaths : (a.paths.map fun found => (splitName (".".intercalate found.1), found.2)) =
        a.paths := by
      rw [List.map_congr_left fun found hfound => by rw [hsplit found hfound]]
      exact List.map_id _
    rw [ofDotted, List.map_map]
    refine Eq.trans (congrArg (putAll · nil) hpaths) ?_
    exact h.putAll_paths fun _ _ => List.not_mem_nil

/-- Two values in one set, one of them deeper, and sets without values in the set and beside it. -/
def camera : Attributes :=
  .nest (.text "exif")
    (.leaf (.text "make") (.json (.text "Canon"))
      (.nest (.text "notes") (.nest (.text "maker") .nil .nil)
        (.nest (.text "gps") (.leaf (.text "lat") (.json (.int 1)) .nil) .nil)))
    (.nest (.text "tags") .nil (.leaf (.text "size") (.json (.int 3)) .nil))

theorem flatten_ofDotted_camera : camera.WellKeyed ∧
    camera.flatten noName = [(.text "exif.make", .json (.text "Canon")),
      (.text "exif.gps.lat", .json (.int 1)), (.text "size", .json (.int 3))] ∧
    ∃ pairs : List (String × AttributeValue),
      camera.flatten noName = pairs.map (fun pair => (.text pair.1, pair.2)) ∧
      (pairs.map (·.1)).Nodup ∧
      ofDotted pairs =
        .nest (.text "exif")
          (.leaf (.text "make") (.json (.text "Canon"))
            (.nest (.text "gps") (.leaf (.text "lat") (.json (.int 1)) .nil) .nil))
          (.leaf (.text "size") (.json (.int 3)) .nil) := by
  have hkeyed : camera.WellKeyed := by simp [camera, WellKeyed, PlainKey, keys]
  exact ⟨hkeyed, rfl, flatten_ofDotted camera hkeyed⟩

end NodeQuery.Attributes
