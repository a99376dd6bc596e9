import NodeQuery.Proofs.Query.Truth
import NodeQuery.Proofs.Query.Writing
/-!
Queries put together as texts. No token goes on into a text that starts at a seam (`Seam`), so a
query can be followed by a connective and a second query in parentheses: the whole is the two
expressions joined (`parse_joinedBy`), and it is evaluated as they are (`evaluate_joinedBy`).
-/
namespace NodeQuery.Query

open Grammar

/-! ## Seams -/

/-- A text into which no token goes on: its start belongs to no word, it does not complete a letter
to one before a literal, and it does not complete `and` to `and not`. -/
structure Seam (t : List Char) : Prop where
  endsWord : endsWord t = true
  notQuote : t.head? ≠ some '\''
  notNot : startsWithKeyword ['n', 'o', 't'] (t.dropWhile isBlank) = false

section
variable {s t : List Char}

theorem Seam.endsWord_append (ht : Seam t) (h : Query.endsWord s = true) :
    Query.endsWord (s ++ t) = true := by
  cases s with
  | nil => exact ht.endsWord
  | cons c s => exact h

theorem Seam.atEdge_append (ht : Seam t) (h : atEdge s = true) : atEdge (s ++ t) = true := by
  cases s with
  | nil => exact atEdge_of_endsWord ht.endsWord
  | cons c s => exact h

theorem Seam.head?_append_ne (ht : Seam t) (h : s.head? ≠ some '\'') :
    (s ++ t).head? ≠ some '\'' := by
  cases s with
  | nil => exact ht.notQuote
  | cons c s => exact h

theorem Seam.goesOnWithNot_append (ht : Seam t) (h : goesOnWithNot s = false) :
    goesOnWithNot (s ++ t) = false := by
  have hsplit := List.takeWhile_append_dropWhile (p := isBlank) (l := s)
  have hstop := head?_dropWhile_any (p := isBlank) (s := s)
  -- either the blanks of `s` run on into `t`, or they stop in `s`
  cases hdrop : s.dropWhile isBlank with
  | nil => simp [goesOnWithNot, List.dropWhile_append, hdrop, ht.notNot]
  | cons c u =>
    rw [hdrop] at hsplit hstop
    have hblank : ∀ d ∈ s.takeWhile isBlank, isBlank d = true :=
      fun d hd => List.mem_takeWhile_imp hd
    have htake := takeWhile_append_of_stop (s := c :: (u ++ t)) hblank hstop
    have hrest := dropWhile_append_of_stop (s := c :: (u ++ t)) hblank hstop
    rw [← List.cons_append, ← List.append_assoc, hsplit] at htake hrest
    have hnot : startsWithKeyword ['n', 'o', 't'] (c :: u ++ t) =
        startsWithKeyword ['n', 'o', 't'] (c :: u) :=
      startsWithKeyword_append rfl ht.endsWord
    rw [goesOnWithNot, htake, hrest, List.cons_append, ← List.cons_append, hnot, ← hdrop]
    exact h

theorem Seam.letterAfterColon_append (ht : Seam t) (h : letterAfterColon s = "") :
    letterAfterColon (s ++ t) = "" := by
  rcases letterAfterColon_cases (s ++ t) with hempty | ⟨c, rest, happend, hc, -⟩
  · exact hempty
  exfalso
  match s with
  | [] =>
    have hend := ht.endsWord
    rw [List.nil_append] at happend
    have hstarts := startsWord_of_isMethodLetter (isMethodLetter_of_isAttributeLetter hc)
    simp [happend, Query.endsWord, continuesWord, isWordChar_of_startsWord hstarts] at hend
  | [d] =>
    obtain ⟨rfl, rfl⟩ := List.cons.inj happend
    exact ht.notQuote rfl
  | d :: e :: s =>
    obtain ⟨rfl, hrest⟩ := List.cons.inj happend
    obtain ⟨rfl, -⟩ := List.cons.inj hrest
    simp [letterAfterColon, hc] at h

/-- A lexeme that ends before some text ends there too if the text is followed by a seam. -/
theorem Seam.cuts_append (ht : Seam t) {kind : TokenKind} (h : Cuts kind s) :
    Cuts kind (s ++ t) := by
  have hquote : s.head? = some '\'' → (s ++ t).head? = some '\'' := by
    intro hs
    rw [List.head?_append, hs, Option.some_or]
  match kind with
  | .or | .andNot | .name | .attributeName | .data => exact ht.atEdge_append h
  | .and => exact ⟨ht.atEdge_append h.1, ht.goesOnWithNot_append h.2⟩
  | .attribute letter =>
    simp only [Cuts] at h ⊢
    split at h
    · next hempty => rw [if_pos hempty]; exact ht.letterAfterColon_append h
    · next hne => rw [if_neg hne]; exact hquote h
  | .method _ => exact hquote h
  | .word _ =>
    exact ⟨ht.endsWord_append h.1, fun c hword hc => ht.head?_append_ne (h.2 c hword hc)⟩
  | .last => exact h
  | .openParen | .closeParen | .equals | .literal _ => trivial

theorem Lexes.append_seam {position : Nat} {s t rest : List Char} {ts : List Token}
    (h : Lexes position s ts rest) (ht : Seam t) : Lexes position (s ++ t) ts (rest ++ t) := by
  induction h with
  | nil => exact .nil
  | blank hc _ ih => exact .blank hc ih
  | token hw hcut _ ih =>
    rw [List.append_assoc]
    exact .token hw (ht.cuts_append hcut) ih

/-- What a text spells, it spells before a seam. -/
theorem Spells.append_seam {ks : List TokenKind} (h : Spells s ks []) (ht : Seam t) :
    Spells (s ++ t) ks t := by
  intro position
  obtain ⟨ts, hts, hkinds⟩ := h position
  exact ⟨ts, hts.append_seam ht, hkinds⟩

end

/-! ## Texts put together -/

/-- The words of a connective. -/
def Connective.words : Connective → String
  | or => "or"
  | and => "and"
  | andNot => "and not"

/-- A query in parentheses. -/
def grouped (query : String) : String :=
  "(" ++ query ++ ")"

/-- A query, a connective and another query in parentheses. -/
def joinedBy (c : Connective) (query other : String) : String :=
  query ++ " " ++ c.words ++ " " ++ grouped other

theorem grouped_toList (query : String) :
    (grouped query).toList = '(' :: (query.toList ++ [')']) := by
  simp [grouped]

theorem seam_closeParen : Seam [')'] :=
  ⟨by decide, by decide, by decide⟩

theorem words_toList (c : Connective) : c.words.toList = c.token.text := by
  cases c <;> rfl

theorem seam_connective (c : Connective) (s : List Char) :
    Seam (' ' :: (c.token.text ++ ' ' :: s)) := by
  refine ⟨rfl, by simp, ?_⟩
  have hspace : isBlank ' ' = true := by decide
  have ha : isBlank 'a' = false := by decide
  have ho : isBlank 'o' = false := by decide
  cases c <;> simp [Connective.token, TokenKind.text, hspace, ha, ho, startsWithKeyword, rest?]

theorem cuts_connective (c : Connective) (s : List Char) : Cuts c.token (' ' :: '(' :: s) :=
  cuts_of_not_clings (lexeme_connective c) (connective_clings c) (.inr ⟨_, rfl⟩) fun _ => rfl

section
variable {query other : String} {e e' : Expr} {ks ls : List TokenKind}

/-- Parentheses around a text spell themselves. -/
theorem Spells.grouped (h : Spells query.toList ks []) :
    Spells (grouped query).toList (.openParen :: ks ++ [.closeParen]) [] := by
  have hclose : Spells [')'] [.closeParen] [] := .token .closeParen trivial .nil
  have hinner := (h.append_seam seam_closeParen).append hclose
  rw [grouped_toList]
  exact hinner.token .openParen trivial

/-- No token goes over from a query into a connective after it. -/
theorem Spells.joinedBy (h : Spells query.toList ks []) (h' : Spells other.toList ls [])
    (c : Connective) :
    Spells (joinedBy c query other).toList (ks ++ c.token :: .openParen :: ls ++ [.closeParen])
      [] := by
  have hspace : isBlank ' ' = true := by decide
  have hother := h'.grouped.blank hspace
  rw [grouped_toList] at hother
  have hwords := (hother.token (lexeme_connective c) (cuts_connective c _)).blank hspace
  have hquery := (h.append_seam (seam_connective c _)).append hwords
  simpa [Query.joinedBy, grouped_toList, words_toList] using hquery

theorem parse_grouped (h : parse query = .ok e) : parse (grouped query) = .ok (.group e) := by
  obtain ⟨d, hd, rfl⟩ := parse_eq_ok_iff.1 h
  refine parse_eq_ok_iff.2 ⟨.chain (.group d) .nil, ?_, rfl⟩
  simpa [Body.tokens, Operand.tokens, Tail.tokens] using hd.grouped

/-- The whole first query becomes the left operand, whatever connectives it has. -/
theorem parse_joinedBy (h : parse query = .ok e) (h' : parse other = .ok e') (c : Connective) :
    parse (joinedBy c query other) = .ok (.join c e (.group e')) := by
  obtain ⟨d, hd, rfl⟩ := parse_eq_ok_iff.1 h
  obtain ⟨d', hd', rfl⟩ := parse_eq_ok_iff.1 h'
  refine parse_eq_ok_iff.2 ⟨d.snoc c (.group d'), ?_, by rw [Body.expr_snoc, Operand.expr]⟩
  simpa [Body.tokens_snoc, Operand.tokens] using hd.joinedBy hd' c

example : parse "name == 'a' or name == 'b' and (name == 'c')" =
    .ok (.join .and (.join .or (.leaf (.name .name .fixed "a")) (.leaf (.name .name .fixed "b")))
      (.group (.leaf (.name .name .fixed "c")))) := rfl

section
variable (tree : NodeTree) (candidates : List Json) (settings : Settings)

/-- Queries put together are evaluated one after the other: their selections are combined, and the
first failure is the failure of the whole. Parentheses around a query change nothing. -/
theorem evaluate_joinedBy [Host] (h : parse query = .ok e) (h' : parse other = .ok e') :
    (∀ c : Connective, evaluate tree candidates (joinedBy c query other) settings = do
      let chosen ← evaluate tree candidates query settings
      let others ← evaluate tree candidates other settings
      return c.combine chosen others) ∧
    evaluate tree candidates (grouped query) settings =
      evaluate tree candidates query settings := by
  rw [evaluate_of_parse tree candidates settings h, evaluate_of_parse tree candidates settings h']
  constructor
  · intro c
    rw [evaluate_of_parse tree candidates settings (parse_joinedBy h h' c)]
    by_cases hscalar : candidates.all Json.isScalar = true
    · rw [if_pos hscalar, if_pos hscalar, if_pos hscalar]
      rfl
    · rw [if_neg hscalar, if_neg hscalar, if_neg hscalar]
      rfl
  · rw [evaluate_of_parse tree candidates settings (parse_grouped h)]
    rfl

end

theorem evaluate_joinedBy_pictures :
    parse "name == 'root' or name == w'*.jpg' " =
      .ok (.join .or (.leaf (.name .name .fixed "root")) (.leaf (.name .name .wildcard "*.jpg"))) ∧
    parse "data == t'C'" = .ok (.leaf (.data .text "C")) ∧
    (∀ c : Connective, evaluate pictures [.int 1, .int 2, .int 0]
        (joinedBy c "name == 'root' or name == w'*.jpg' " "data == t'C'") .standard = do
      let chosen ← evaluate pictures [.int 1, .int 2, .int 0]
        "name == 'root' or name == w'*.jpg' " .standard
      let others ← evaluate pictures [.int 1, .int 2, .int 0] "data == t'C'" .standard
      return c.combine chosen others) ∧
    evaluate pictures [.int 1, .int 2, .int 0] (grouped "name == 'root' or name == w'*.jpg' ")
        .standard =
      evaluate pictures [.int 1, .int 2, .int 0] "name == 'root' or name == w'*.jpg' "
        .standard := by
  have hnames : parse "name == 'root' or name == w'*.jpg' " = .ok (.join .or
      (.leaf (.name .name .fixed "root")) (.leaf (.name .name .wildcard "*.jpg"))) := rfl
  have hdata : parse "data == t'C'" = .ok (.leaf (.data .text "C")) := rfl
  exact ⟨hnames, hdata, evaluate_joinedBy pictures [.int 1, .int 2, .int 0] .standard hnames hdata⟩

end
end NodeQuery.Query
