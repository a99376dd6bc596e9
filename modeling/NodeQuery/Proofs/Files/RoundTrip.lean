import Mathlib.Data.List.Basic
import NodeQuery.Files.Store
import NodeQuery.Proofs.Json.Ascii
import NodeQuery.Proofs.Text.Utf8
/-!
Files written and read back. The text of a path leads to the path again (`ofText_text`). What is
written to a path is read from it (`read_write`): writing replaces one entry of the store, and the
way to it stays as it was (`follow_put`). So a JSON value is read from the file that holds its text
(`readJson_write`).
-/
namespace NodeQuery.Files

/-! ## Texts of paths -/

namespace Path

/-- A name that a path can have. -/
def IsName (name : String) : Prop :=
  name ≠ "" ∧ name ≠ "." ∧ '/' ∉ name.toList

theorem not_mem_of_mem_splitOn {s piece : List Char} (h : piece ∈ s.splitOn '/') :
    '/' ∉ piece := by
  induction s generalizing piece with
  | nil =>
    obtain rfl : piece = [] := by simpa [List.splitOn_nil] using h
    exact List.not_mem_nil
  | cons c s ih =>
    obtain ⟨first, others, hsplit⟩ := List.exists_cons_of_ne_nil (List.splitOn_ne_nil '/' s)
    rw [List.splitOn_cons_eq_if_modifyHead] at h
    split at h
    · rcases List.mem_cons.1 h with rfl | h
      · exact List.not_mem_nil
      · exact ih h
    · next hc =>
      rw [hsplit, List.modifyHead_cons] at h
      rcases List.mem_cons.1 h with rfl | h
      · have hfirst : '/' ∉ first := ih (hsplit ▸ List.mem_cons_self)
        simp only [List.mem_cons, not_or]
        exact ⟨fun hslash => hc (by simp [← hslash]), hfirst⟩
      · exact ih (hsplit ▸ List.mem_cons_of_mem _ h)

theorem isName_of_mem {text name : String} (h : name ∈ (ofText text).names) : IsName name := by
  simp only [ofText, List.mem_filter, List.mem_map, decide_eq_true_eq] at h
  obtain ⟨⟨piece, hpiece, rfl⟩, hempty, hpoint⟩ := h
  refine ⟨hempty, hpoint, ?_⟩
  rw [String.toList_ofList]
  exact not_mem_of_mem_splitOn hpiece

/-- Names are found again in the text that joins them. -/
theorem names_join {names : List String} (h : ∀ name ∈ names, IsName name) :
    ((("/".intercalate names).toList.splitOn '/').map String.ofList).filter
      (fun name => name ≠ "" ∧ name ≠ ".") = names := by
  cases names with
  | nil => rfl
  | cons name names =>
    have hfree : ∀ l ∈ (name :: names).map String.toList, '/' ∉ l := by
      intro l hl
      obtain ⟨n, hn, rfl⟩ := List.mem_map.1 hl
      exact (h n hn).2.2
    have hpieces : ("/".intercalate (name :: names)).toList.splitOn '/' =
        (name :: names).map String.toList := by
      rw [String.toList_intercalate]
      exact List.splitOn_intercalate '/' hfree (by simp)
    rw [hpieces, List.map_map, List.filter_eq_self.2]
    · simp
    · intro n hn
      have hname := h n (by simpa using hn)
      simpa using ⟨hname.1, hname.2.1⟩

/-- Joined names start with the first of them. -/
theorem head?_join {name : String} (h : IsName name) (names : List String) :
    ("/".intercalate (name :: names)).toList.head? ≠ some '/' := by
  have hne : name.toList ≠ [] := by simpa using h.1
  have hfirst : name.toList.head? ≠ some '/' := fun hhead => h.2.2 (List.mem_of_head? hhead)
  cases names with
  | nil => rwa [String.intercalate_singleton]
  | cons next names =>
    rwa [String.intercalate_cons_cons, String.toList_append, String.toList_append,
      List.append_assoc, List.head?_append_of_ne_nil _ hne]

/-- The root of a text is read from the text of the root, before names that start with none. -/
theorem rootOf_append (root : Root) {s : List Char} (h : s.head? ≠ some '/') :
    Root.ofText (root.text.toList ++ s) = root := by
  cases s with
  | nil => cases root <;> rfl
  | cons c s =>
    have hc : c ≠ '/' := by simpa using h
    cases root with
    | working => simp [Root.text, Root.ofText, hc]
    | slash => simp [Root.text, Root.ofText, hc]
    | doubleSlash => simp [Root.text, Root.ofText, hc]

/-- A root adds empty names alone, which are left out. -/
theorem names_append (root : Root) (s : List Char) :
    (((root.text.toList ++ s).splitOn '/').map String.ofList).filter
      (fun name => name ≠ "" ∧ name ≠ ".") =
    ((s.splitOn '/').map String.ofList).filter fun name => name ≠ "" ∧ name ≠ "." := by
  have hslash (t : List Char) : ('/' :: t).splitOn '/' = [] :: t.splitOn '/' :=
    List.splitOn_append_cons_self [] t
  cases root with
  | working => rfl
  | slash => simp [Root.text, hslash]
  | doubleSlash => simp [Root.text, hslash]

/-- The text of a path leads to the path. -/
theorem ofText_text (text : String) : ofText (ofText text).text = ofText text := by
  have hnames : ∀ name ∈ (ofText text).names, IsName name := fun name hname => isName_of_mem hname
  generalize ofText text = p at hnames ⊢
  obtain ⟨root, names⟩ := p
  have hhead : ("/".intercalate names).toList.head? ≠ some '/' := by
    cases names with
    | nil => simp
    | cons name names => exact head?_join (hnames name List.mem_cons_self) names
  unfold Path.text
  split
  · next hpoint =>
    obtain ⟨rfl, rfl⟩ := hpoint
    rfl
  · rw [ofText, String.toList_append, rootOf_append root hhead, names_append, names_join hnames]

end Path

/-! ## Stores -/

/-- What is found at a place once new content has been put at a target. -/
def Entry.put (target : Path) (content : Bytes) : Entry → Entry
  | .file p old => .file p (if p = target then content else old)
  | .directory p => .directory p

namespace Store

theorem lookup_filter_of_ne {q target : Path} (h : q ≠ target) (files : List (Path × Bytes)) :
    (files.filter fun f => f.1 != target).lookup q = files.lookup q := by
  induction files with
  | nil => rfl
  | cons f files ih =>
    obtain ⟨p, old⟩ := f
    by_cases hp : p = target
    · rw [List.filter_cons_of_neg (by simp [hp]), ih, List.lookup_cons, hp,
        beq_eq_false_iff_ne.2 h]
    · rw [List.filter_cons_of_pos (by simp [hp]), List.lookup_cons, List.lookup_cons, ih]

section
variable {s : Store} {target : Path} (content : Bytes)

theorem lookup_put_of_ne {q : Path} (h : q ≠ target) :
    (s.put target content).files.lookup q = s.files.lookup q := by
  have hlast : ([(target, content)] : List (Path × Bytes)).lookup q = none := by
    rw [List.lookup_cons, beq_eq_false_iff_ne.2 h, List.lookup_nil]
  rw [put, List.lookup_append, lookup_filter_of_ne h, hlast, Option.or_none]

theorem isDirectory_put {q : Path} (h : s.isDirectory q = true) :
    (s.put target content).isDirectory q = true := by
  simp only [isDirectory, put, Bool.or_eq_true, List.any_eq_true, Bool.and_eq_true] at h ⊢
  rcases h with h | ⟨f, hf, hway⟩
  · exact .inl h
  · -- an entry that is replaced keeps its path
    by_cases hreplaced : f.1 = target
    · exact .inr ⟨(target, content), by simp, hreplaced ▸ hway⟩
    · exact .inr ⟨f, by simp [hf, hreplaced], hway⟩

/-- What is put at a place that is no directory changes what is found there and nothing else. -/
theorem follow_put (htarget : s.files.lookup target = none → s.isDirectory target = false)
    {directory : Path} {names : List String} {e : Entry} (h : s.follow directory names = .ok e) :
    (s.put target content).follow directory names = .ok (e.put target content) := by
  fun_induction follow s directory names with
  | case1 =>
    cases h
    rfl
  | case2 directory rest ih => exact ih h
  | case3 directory name rest hname p old hfile hlast =>
    cases h
    have hput : (s.put target content).files.lookup p =
        some (if p = target then content else old) := by
      split
      · next heq => rw [heq, lookup_put]
      · next hne => rw [lookup_put_of_ne content hne, hfile]
    rw [follow.eq_3 _ _ _ _ hname]
    simp only [p] at hput ⊢
    simp only [hput, hlast, if_true, Entry.put]
  | case4 => cases h
  | case5 directory name rest hname p hfile hway ih =>
    have hne : p ≠ target := by
      rintro rfl
      exact absurd hway (by simp [htarget hfile])
    rw [follow.eq_3 _ _ _ _ hname]
    have hput := (lookup_put_of_ne content hne).trans hfile
    have hdirectory : (s.put target content).isDirectory p = true := isDirectory_put content hway
    simp only [p] at hput hdirectory ih h
    simp only [hput, hdirectory, if_true]
    exact ih h
  | case6 => cases h

end

/-- The names on the way to a directory are followed first. -/
theorem follow_append {s : Store} {directory d : Path} {names : List String}
    (h : s.follow directory names = .ok (.directory d)) (more : List String) :
    s.follow directory (names ++ more) = s.follow d more := by
  fun_induction follow s directory names with
  | case1 =>
    cases h
    rfl
  | case2 directory rest ih => exact ih h
  | case3 => cases h
  | case4 => cases h
  | case5 directory name rest hname p hfile hway ih =>
    rw [List.cons_append, follow.eq_3 _ _ _ _ hname]
    simp only [p] at hfile hway ih h
    simp only [hfile, hway, if_true]
    exact ih h
  | case6 => cases h

/-- A file that is found is in the store. -/
theorem lookup_of_follow {s : Store} {directory p : Path} {names : List String} {content : Bytes}
    (h : s.follow directory names = .ok (.file p content)) : s.files.lookup p = some content := by
  fun_induction follow s directory names with
  | case1 => cases h
  | case2 directory rest ih => exact ih h
  | case3 directory name rest hname way old hfile hlast =>
    rw [Except.ok.injEq, Entry.file.injEq] at h
    rw [← h.1, ← h.2]
    exact hfile
  | case4 => cases h
  | case5 directory name rest hname way hfile hway ih => exact ih h
  | case6 => cases h

/-! ## Writing -/

/-- A path to which a file can be written. -/
def Writable (s : Store) (p : Path) : Prop :=
  ∃ content after, s.write p content = .ok after

/-- A name that is missing in a directory is one that something can be put at. -/
theorem follow_missing {s : Store} {directory : Path} {name : String}
    (h : s.follow directory [name] = .error .missing) :
    name ≠ ".." ∧ s.files.lookup (directory.child name) = none ∧
      s.isDirectory (directory.child name) = false := by
  have hname : name ≠ ".." := by
    rintro rfl
    rw [follow, follow] at h
    cases h
  rw [follow.eq_3 _ _ _ _ hname] at h
  cases hlookup : s.files.lookup (directory.child name) with
  | some content => simp [hlookup] at h
  | none =>
    refine ⟨hname, rfl, Bool.eq_false_iff.2 fun hdirectory => ?_⟩
    simp [hlookup, hdirectory, follow] at h

/-- Where a writable path leads does not depend on what is written to it, and the path leads there
afterwards. -/
theorem Writable.exists_target {s : Store} {p : Path} (h : s.Writable p) :
    hasNul p = false ∧ ∃ target, ∀ content, s.write p content = .ok (s.put target content) ∧
      (s.put target content).entry p = .ok (.file target content) := by
  obtain ⟨content, after, h⟩ := h
  unfold write at h
  split at h
  · cases h
  · next hnul =>
    refine ⟨Bool.eq_false_iff.2 hnul, ?_⟩
    split at h
    · next target old hentry =>
      refine ⟨target, fun content => ⟨by simp [write, hnul, hentry], ?_⟩⟩
      have hfile := lookup_of_follow hentry
      rw [entry, follow_put content (fun hnone => by simp [hfile] at hnone) hentry, Entry.put,
        if_pos rfl]
    · cases h
    · next name directory hentry hlast hparent =>
      refine ⟨directory.child name, fun content =>
        ⟨by simp [write, hnul, hentry, hlast, hparent], ?_⟩⟩
      have hparent : s.follow p.start p.parent.names = .ok (.directory directory) := hparent
      have hnames : p.names = p.parent.names ++ [name] :=
        (List.dropLast_append_getLast? name hlast).symm
      rw [entry, hnames, follow_append hparent] at hentry
      obtain ⟨hname, hlookup, hplace⟩ := follow_missing hentry
      have hway := follow_put content (fun _ => hplace) hparent
      rw [entry, hnames, follow_append hway, follow.eq_3 _ _ _ _ hname, lookup_put]
      rfl
    · cases h

/-- What is written to a path is read from it. -/
theorem read_write {s after : Store} {p : Path} {content : Bytes}
    (h : s.write p content = .ok after) : after.isFile p = true ∧ after.read p = .ok content := by
  obtain ⟨hnul, target, hwrite⟩ := Writable.exists_target ⟨content, after, h⟩
  obtain ⟨hput, hentry⟩ := hwrite content
  obtain rfl : s.put target content = after := by
    rw [hput] at h
    exact Except.ok.inj h
  exact ⟨by rw [isFile, hentry], by simp [read, hnul, hentry]⟩

/-- A writable path takes any content. -/
theorem Writable.write {s : Store} {p : Path} (h : s.Writable p) (content : Bytes) :
    ∃ after, s.write p content = .ok after := by
  obtain ⟨-, target, hwrite⟩ := h.exists_target
  exact ⟨s.put target content, (hwrite content).1⟩

/-! ## JSON files -/

theorem plainLineEnds_of_not_mem {text : List Char} (h : '\r' ∉ text) :
    plainLineEnds text = text := by
  induction text with
  | nil => rfl
  | cons c text ih =>
    rw [List.mem_cons, not_or] at h
    rw [plainLineEnds, ih h.2]
    · exact fun _ hc _ => h.1 hc.symm
    · exact fun hc => h.1 hc.symm

/-- A JSON value that is written to a file is read from it. -/
theorem readJson_write {s after : Store} {p : Path} {value : Json} (hvalue : value.Storable)
    (h : s.write p (Text.Utf8.encode (value.write 0).toList) = .ok after) :
    after.readJson p = .ok value := by
  have hlines : plainLineEnds (value.write 0).toList = (value.write 0).toList :=
    plainLineEnds_of_not_mem fun hmem => absurd (Json.isPrinted_write _ hvalue 0 _ hmem) (by decide)
  have htext : after.readText p = .ok (value.write 0).toList := by
    simp only [readText, (read_write h).2, Except.mapError, Text.Utf8.decode_encode, bind,
      Except.bind, pure, Except.pure, hlines]
  simp only [readJson, htext, bind, Except.bind, Json.parse_write hvalue, Except.mapError]

end Store
end NodeQuery.Files
