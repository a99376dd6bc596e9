import NodeQuery.Proofs.Query.Lexing
/-!
Writing tokens as a text: single spaces between them, but none between a method letter or the letter
of an attribute prefix and the literal after it. The text spells the tokens again (`spells_write`),
provided that such letters do stand before literals and that `and` stands before no word `not`.
-/
namespace NodeQuery.Query

/-- The text of a token. -/
def TokenKind.text : TokenKind → List Char
  | .or => ['o', 'r']
  | .and => ['a', 'n', 'd']
  | .andNot => ['a', 'n', 'd', ' ', 'n', 'o', 't']
  | .openParen => ['(']
  | .closeParen => [')']
  | .equals => ['=', '=']
  | .name => ['n', 'a', 'm', 'e']
  | .attributeName => attributeWord ++ ['.', 'n', 'a', 'm', 'e']
  | .data => ['d', 'a', 't', 'a']
  | .attribute letter => attributeWord ++ ':' :: letter.toList
  | .method letter => letter.toList
  | .literal value => '\'' :: value.toList ++ ['\'']
  | .word value => value.toList
  | .last => []

/-- A token is a letter that belongs to the literal after it, or ends in one. -/
def TokenKind.clings : TokenKind → Bool
  | .method _ => true
  | .attribute letter => letter ≠ ""
  | _ => false

/-- What is written between a token and those after it. -/
def gap (k : TokenKind) : List TokenKind → List Char
  | [] => []
  | _ :: _ => if k.clings then [] else [' ']

/-- Tokens as a text. -/
def write : List TokenKind → List Char
  | [] => []
  | k :: ks => k.text ++ (gap k ks ++ write ks)

/-- A token may be followed by another one. -/
structure CanPrecede (k : TokenKind) (next : Option TokenKind) : Prop where
  literal : k.clings = true → ∃ value, next = some (.literal value)
  notNot : k = .and → ∀ word, next = some (.word word) →
    startsWithKeyword ['n', 'o', 't'] word.toList = false

/-- Tokens that a text can have. -/
inductive Writable : List TokenKind → Prop
  | nil : Writable []
  | cons {k ks} (hk : Lexeme k k.text) (hnext : CanPrecede k ks.head?) (h : Writable ks) :
    Writable (k :: ks)

theorem lexeme_connective (c : Connective) : Lexeme c.token c.token.text := by
  cases c with
  | or => exact .or
  | and => exact .and
  | andNot =>
    have hblank : ∀ d ∈ [' '], isBlank d = true := List.forall_mem_singleton.2 rfl
    exact .andNot (by simp) hblank

theorem connective_clings (c : Connective) : c.token.clings = false := by
  cases c <;> rfl

theorem Lexeme.notNot {k : TokenKind} {w s : List Char} (hw : Lexeme k w) (hcut : Cuts k s)
    (hword : ∀ word, k = .word word → startsWithKeyword ['n', 'o', 't'] word.toList = false) :
    startsWithKeyword ['n', 'o', 't'] (w ++ s) = false := by
  cases hw with
  | word hc hv hfree =>
    rw [startsWithKeyword_append rfl hcut.1]
    simpa using hword _ rfl
  | method hc =>
    rcases isMethodLetter_iff.1 hc with rfl | rfl | rfl | rfl | rfl <;>
      simp [startsWithKeyword, rest?]
  | _ => simp [startsWithKeyword, rest?, attributeWord]

theorem Writable.goesOnWithNot {l : TokenKind} {ks : List TokenKind} (h : Writable (l :: ks))
    (hcut : Cuts l (gap l ks ++ write ks))
    (hword : ∀ word, l = .word word → startsWithKeyword ['n', 'o', 't'] word.toList = false) :
    goesOnWithNot (' ' :: write (l :: ks)) = false := by
  cases h with
  | cons hl _ _ =>
    have hnot := hl.notNot hcut hword
    obtain ⟨c, v, htext, hc⟩ := hl.exists_cons
    rw [htext] at hnot
    have hspace : isBlank ' ' = true := by decide
    have hdrop : (' ' :: write (l :: ks)).dropWhile isBlank = write (l :: ks) := by
      simp [write, htext, hspace, hc]
    rw [Query.goesOnWithNot, hdrop, write, htext, hnot, Bool.and_false]

/-- A token that clings to nothing ends before a space, or where the text ends. -/
theorem cuts_of_not_clings {k : TokenKind} {w s : List Char} (hw : Lexeme k w)
    (hclings : k.clings = false) (hs : s = [] ∨ ∃ t, s = ' ' :: t)
    (hnot : k = .and → goesOnWithNot s = false) : Cuts k s := by
  have hedge : atEdge s = true := by
    rcases hs with rfl | ⟨t, rfl⟩ <;> rfl
  have hend : endsWord s = true := by
    rcases hs with rfl | ⟨t, rfl⟩ <;> rfl
  have hquote : s.head? ≠ some '\'' := by
    rcases hs with rfl | ⟨t, rfl⟩ <;> simp
  have hletter : letterAfterColon s = "" := by
    rcases letterAfterColon_cases s with hempty | ⟨c, t, rfl, hc, -⟩
    · exact hempty
    · obtain rfl : c = ' ' := by simpa using hs
      cases hc
  match k with
  | .or | .andNot | .name | .attributeName | .data => exact hedge
  | .and => exact ⟨hedge, hnot rfl⟩
  | .attribute letter =>
    have hempty : letter = "" := by simpa [TokenKind.clings] using hclings
    rw [Cuts, if_pos hempty]
    exact hletter
  | .method _ => cases hclings
  | .word _ => exact ⟨hend, fun _ _ _ => hquote⟩
  | .last => exact absurd rfl hw.ne_last
  | .openParen | .closeParen | .equals | .literal _ => trivial

theorem cuts_of_clings {k : TokenKind} {s : List Char} (hclings : k.clings = true) :
    Cuts k ('\'' :: s) := by
  match k with
  | .method _ => rfl
  | .attribute letter =>
    have hne : letter ≠ "" := by simpa [TokenKind.clings] using hclings
    rw [Cuts, if_neg hne]
    rfl

/-- What is written after a token does not belong to it. -/
theorem Writable.cuts {k : TokenKind} {ks : List TokenKind} (h : Writable (k :: ks)) :
    Cuts k (gap k ks ++ write ks) := by
  induction ks generalizing k with
  | nil =>
    cases h with
    | cons hk hnext _ =>
      have hclings : k.clings = false := by
        by_contra hclings
        obtain ⟨value, hvalue⟩ := hnext.literal (by simpa using hclings)
        cases hvalue
      exact cuts_of_not_clings hk hclings (.inl rfl) fun _ => rfl
  | cons l ks ih =>
    cases h with
    | cons hk hnext hrest =>
      rw [gap]
      cases hclings : k.clings with
      | true =>
        obtain ⟨value, hvalue⟩ := hnext.literal hclings
        obtain rfl : l = .literal value := Option.some.inj hvalue
        exact cuts_of_clings hclings
      | false =>
        refine cuts_of_not_clings hk hclings (.inr ⟨_, rfl⟩) fun hand => ?_
        -- a word after `and` ends where it should, so it is not read as a shorter `not`
        have hword : ∀ word, l = .word word →
            startsWithKeyword ['n', 'o', 't'] word.toList = false := by
          rintro word rfl
          exact hnext.notNot hand word rfl
        exact hrest.goesOnWithNot (ih hrest) hword

theorem spells_write {ks : List TokenKind} (h : Writable ks) : Spells (write ks) ks [] := by
  induction h with
  | nil => exact .nil
  | @cons k ks hk hnext h ih =>
    have hcut := (Writable.cons hk hnext h).cuts
    have hrest : Spells (gap k ks ++ write ks) ks [] := by
      cases ks with
      | nil => exact ih
      | cons l ks =>
        rw [gap]
        split
        · exact ih
        · exact ih.blank (by decide)
    exact hrest.token hk hcut

end NodeQuery.Query
