import Mathlib.Data.List.Perm.Basic
import NodeQuery.CommandLine.Style
/-!
Deleting the codes of colours. Each code starts with an escape character, has no other one and is
not the start of another code (`isPrefix_code_iff`). So where codes have been put into a text
without escape characters, deleting some of them finds these and no others, wherever they stand
(`Inserts.deleteFrom`), and deleting all of them gives the text back, at once or one code after
another (`Painted.uncolored`).
-/
namespace NodeQuery.CommandLine

/-- The codes of coloured output. -/
def codes : List String := [redCode, greenCode, boldCode, resetCode]

/-- A text in which no code starts. -/
def EscapeFree (text : String) : Prop :=
  '\x1b' ∉ text.toList

instance (text : String) : Decidable (EscapeFree text) :=
  inferInstanceAs (Decidable (_ ∉ _))

/-- A word stands at the start of a text. -/
def standsAt (s : List Char) (word : String) : Bool :=
  word.toList.isPrefixOf s

/-- A text without the occurrences of words, found from left to right. The first argument counts the
characters that belong to the word found last. -/
def deleteFrom (words : List String) : Nat → List Char → List Char
  | _, [] => []
  | held + 1, _ :: s => deleteFrom words held s
  | 0, c :: s =>
    match words.find? (standsAt (c :: s)) with
    | some word => deleteFrom words (word.length - 1) s
    | none => c :: deleteFrom words 0 s

/-- A text without the occurrences of words. -/
def delete (words : List String) (text : String) : String :=
  String.ofList (deleteFrom words 0 text.toList)

/-- What is left of a text once all codes have been deleted from it, at once or one after another,
in whatever order. No code occurs in it any more. -/
structure Uncolored (text left : String) : Prop where
  atOnce : ∀ order : List String, order.Perm codes → delete order text = left
  inTurn : ∀ order : List String, order.Perm codes →
    order.foldl (fun rest code => delete [code] rest) text = left
  bare : ∀ code ∈ codes, ¬ code.toList <:+: left.toList

/-! ## Codes -/

theorem standsAt_iff {s : List Char} {word : String} :
    standsAt s word = true ↔ word.toList <+: s :=
  List.isPrefixOf_iff_prefix

theorem exists_code_eq {code : String} (h : code ∈ codes) :
    ∃ w, code.toList = '\x1b' :: w ∧ '\x1b' ∉ w := by
  have hall : ∀ code ∈ codes, code.toList = '\x1b' :: code.toList.tail ∧
      '\x1b' ∉ code.toList.tail := by decide
  exact ⟨_, hall code h⟩

/-- Only one code stands at a place. -/
theorem isPrefix_code_iff {code other : String} (h : code ∈ codes) (hother : other ∈ codes)
    {s : List Char} : other.toList <+: code.toList ++ s ↔ other = code := by
  have hall : ∀ a ∈ codes, ∀ b ∈ codes, a.toList <+: b.toList → a = b := by decide
  constructor
  · intro hprefix
    rcases List.prefix_or_prefix_of_prefix hprefix (List.prefix_append code.toList s) with hp | hp
    · exact hall other hother code h hp
    · exact (hall code h other hother hp).symm
  · rintro rfl
    exact List.prefix_append _ _

/-! ## Deletion -/

section
variable {words : List String} {w s : List Char}

/-- The rest of a word that has been found is passed over. -/
theorem deleteFrom_append (words : List String) (w s : List Char) :
    deleteFrom words w.length (w ++ s) = deleteFrom words 0 s := by
  induction w with
  | nil => rfl
  | cons c w ih => exact ih

/-- What is no escape character is kept. -/
theorem deleteFrom_of_free (hwords : words ⊆ codes) (hw : '\x1b' ∉ w) :
    deleteFrom words 0 (w ++ s) = w ++ deleteFrom words 0 s := by
  induction w with
  | nil => rfl
  | cons c w ih =>
    rw [List.mem_cons, not_or] at hw
    have hnone : words.find? (standsAt (c :: (w ++ s))) = none := by
      rw [List.find?_eq_none]
      intro word hword hstands
      obtain ⟨v, hv, -⟩ := exists_code_eq (hwords hword)
      rw [standsAt_iff, hv, List.cons_prefix_cons] at hstands
      exact hw.1 hstands.1
    rw [List.cons_append, deleteFrom, hnone]
    dsimp only
    rw [ih hw.2, List.cons_append]

/-- A code that is to be deleted is, and another one is kept. -/
theorem deleteFrom_code (hwords : words ⊆ codes) {code : String} (hcode : code ∈ codes) :
    deleteFrom words 0 (code.toList ++ s) =
      if code ∈ words then deleteFrom words 0 s else code.toList ++ deleteFrom words 0 s := by
  obtain ⟨w, hw, hfree⟩ := exists_code_eq hcode
  have hfound : ∀ word ∈ words, standsAt ('\x1b' :: (w ++ s)) word = true ↔ word = code := by
    intro word hword
    rw [standsAt_iff, ← List.cons_append, ← hw]
    exact isPrefix_code_iff hcode (hwords hword)
  split
  · next hmem =>
    have hsome : words.find? (standsAt ('\x1b' :: (w ++ s))) = some code := by
      have hfinds := List.find?_isSome.2 ⟨code, hmem, (hfound code hmem).2 rfl⟩
      obtain ⟨word, hfind⟩ := Option.isSome_iff_exists.1 hfinds
      have hword := List.mem_of_find?_eq_some hfind
      rw [hfind, (hfound word hword).1 (List.find?_some hfind)]
    have hlength : code.length - 1 = w.length := by
      rw [← String.length_toList, hw, List.length_cons, Nat.add_sub_cancel]
    rw [hw, List.cons_append, deleteFrom, hsome]
    dsimp only
    rw [hlength, deleteFrom_append]
  · next hmem =>
    have hnone : words.find? (standsAt ('\x1b' :: (w ++ s))) = none := by
      rw [List.find?_eq_none]
      intro word hword hstands
      rw [(hfound word hword).1 hstands] at hword
      exact hmem hword
    rw [hw, List.cons_append, deleteFrom, hnone]
    dsimp only
    rw [deleteFrom_of_free hwords hfree, List.cons_append]

end

/-! ## Texts with codes put in -/

/-- A text into which words have been put, beside the text as it was. -/
inductive Inserts (words : List String) : List Char → List Char → Prop
  | nil : Inserts words [] []
  | char {c s plain} (h : Inserts words s plain) : Inserts words (c :: s) (c :: plain)
  | word {word s plain} (hword : word ∈ words) (h : Inserts words s plain) :
    Inserts words (word.toList ++ s) plain

section
variable {words others : List String} {s t plain plain' : List Char}

theorem Inserts.append (h : Inserts words s plain) (h' : Inserts words t plain') :
    Inserts words (s ++ t) (plain ++ plain') := by
  induction h with
  | nil => exact h'
  | char _ ih => exact .char ih
  | word hword _ ih =>
    rw [List.append_assoc]
    exact .word hword ih

theorem Inserts.refl (words : List String) (s : List Char) : Inserts words s s := by
  induction s with
  | nil => exact .nil
  | cons c s ih => exact .char ih

theorem Inserts.eq_of_nil (h : Inserts [] s plain) : s = plain := by
  induction h with
  | nil => rfl
  | char _ ih => rw [ih]
  | word hword => cases hword

/-- Deleting some codes leaves the others where they are. -/
theorem Inserts.deleteFrom (h : Inserts words s plain) (hwords : words ⊆ codes)
    (hothers : others ⊆ codes) (hplain : '\x1b' ∉ plain) :
    Inserts (words.filter (· ∉ others)) (deleteFrom others 0 s) plain := by
  induction h with
  | nil => exact .nil
  | @char c s plain _ ih =>
    rw [List.mem_cons, not_or] at hplain
    have hc : '\x1b' ∉ [c] := by simpa using hplain.1
    have hkept := deleteFrom_of_free (s := s) hothers hc
    rw [List.singleton_append, List.singleton_append] at hkept
    rw [hkept]
    exact .char (ih hplain.2)
  | @word word s plain hword _ ih =>
    rw [deleteFrom_code hothers (hwords hword)]
    split
    · exact ih hplain
    · next hmem => exact .word (List.mem_filter.2 ⟨hword, by simpa using hmem⟩) (ih hplain)

end

/-- A text into which codes have been put, beside the text as it was. -/
def Painted (text plain : String) : Prop :=
  Inserts codes text.toList plain.toList

section
variable {words : List String} {text text' plain plain' : String}

theorem Painted.append (h : Painted text plain) (h' : Painted text' plain') :
    Painted (text ++ text') (plain ++ plain') := by
  unfold Painted
  rw [String.toList_append, String.toList_append]
  exact Inserts.append h h'

theorem Painted.refl (text : String) : Painted text text :=
  Inserts.refl codes text.toList

/-- Codes that are deleted one after another leave the text if no other code has been put in. -/
theorem foldl_delete_eq {order : List String} (h : Inserts words text.toList plain.toList)
    (hwords : words ⊆ codes) (horder : order ⊆ codes) (hcover : words ⊆ order)
    (hplain : EscapeFree plain) :
    order.foldl (fun rest code => delete [code] rest) text = plain := by
  -- the codes that are still in the text are among those that are still to be deleted
  induction order generalizing words text with
  | nil =>
    obtain rfl := List.subset_nil.1 hcover
    exact String.toList_inj.1 h.eq_of_nil
  | cons code order ih =>
    obtain ⟨hcode, hrest⟩ := List.cons_subset.1 horder
    have hsingle : [code] ⊆ codes := by simpa using hcode
    have hdeleted : Inserts (words.filter (· ∉ [code])) (delete [code] text).toList
        plain.toList := by
      rw [delete, String.toList_ofList]
      exact h.deleteFrom hwords hsingle hplain
    rw [List.foldl_cons]
    refine ih hdeleted ?_ hrest ?_
    · exact List.Subset.trans (List.filter_subset_self _) hwords
    · intro other hother
      rw [List.mem_filter] at hother
      have hne : other ≠ code := by simpa using hother.2
      exact (List.mem_cons.1 (hcover hother.1)).resolve_left hne

/-- Deleting the codes that have been put into a text without escape characters gives the text
back. -/
theorem Painted.uncolored (h : Painted text plain) (hplain : EscapeFree plain) :
    Uncolored text plain where
  atOnce order horder := by
    have hdeleted := Inserts.deleteFrom h (List.Subset.refl codes) horder.subset hplain
    have hnone : codes.filter (· ∉ order) = [] := by
      rw [List.filter_eq_nil_iff]
      intro code hcode
      simpa using horder.symm.subset hcode
    rw [hnone] at hdeleted
    rw [delete, hdeleted.eq_of_nil, String.ofList_toList]
  inTurn order horder :=
    foldl_delete_eq h (List.Subset.refl codes) horder.subset horder.symm.subset hplain
  bare code hcode hoccurs := by
    -- a code in the text would bring its escape character along
    obtain ⟨w, hw, -⟩ := exists_code_eq hcode
    refine hplain (hoccurs.subset ?_)
    rw [hw]
    exact List.mem_cons_self

end
end NodeQuery.CommandLine
