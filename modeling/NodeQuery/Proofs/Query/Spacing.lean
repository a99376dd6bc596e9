import NodeQuery.Proofs.Query.Writing
import NodeQuery.Query.Evaluation
/-!
Blanks between tokens have no meaning. The tokens of a text can be written with single spaces
between them, and the text that is written has the same tokens again (`tokenize_spaced`). What a
query is read to, and what it is evaluated to, depends on the kinds of its tokens and not on their
places; the places show in errors only (`Alike`).
-/
namespace NodeQuery

/-- Failures that differ at most in the place of the query that they point at. -/
inductive Failure.Alike : Failure → Failure → Prop
  | same (failure : Failure) : Alike failure failure
  | malformed (cause : Query.Malformation) (position position' : Nat) :
    Alike (.query (.malformed cause position)) (.query (.malformed cause position'))
  | unknownAxis (word : String) (position position' : Nat) :
    Alike (.query (.unknownAxis word position)) (.query (.unknownAxis word position'))

/-- Outcomes that are the same up to the place of an error in the query. -/
inductive Alike {α : Type} : Outcome α → Outcome α → Prop
  | ok (a : α) : Alike (.ok a) (.ok a)
  | error {failure failure' : Failure} (h : failure.Alike failure') :
    Alike (.error failure) (.error failure')

theorem Alike.refl {α : Type} (x : Outcome α) : Alike x x :=
  match x with
  | .ok a => .ok a
  | .error failure => .error (.same failure)

theorem Alike.bind {α β : Type} {x y : Outcome α} (h : Alike x y) (f : α → Outcome β) :
    Alike (x >>= f) (y >>= f) := by
  cases h with
  | ok a => exact .refl (f a)
  | error h => exact .error h

namespace Query

/-! ## Reading without places -/

/-- Steps that are the same up to the place of an error in the query. -/
inductive ParseStep.Alike : ParseStep → ParseStep → Prop
  | next (state : ParseState) : Alike (.next state) (.next state)
  | done (expr : Expr) : Alike (.done expr) (.done expr)
  | fail {failure failure' : Failure} (h : failure.Alike failure') :
    Alike (.fail failure) (.fail failure')

namespace ParseState

theorem alike_unexpected (expected : Expected) (k : TokenKind) (p p' : Nat) :
    (unexpected expected ⟨k, p⟩).Alike (unexpected expected ⟨k, p'⟩) :=
  .fail (.malformed _ p p')

theorem alike_onOperand (s : ParseState) (k : TokenKind) (p p' : Nat) :
    (s.onOperand ⟨k, p⟩).Alike (s.onOperand ⟨k, p'⟩) := by
  match k with
  | .openParen | .name | .attributeName | .data => exact .next _
  | .attribute letter =>
    simp only [onOperand]
    split
    · exact .next _
    · exact .fail (.same _)
  | .word word => exact .fail (.unknownAxis word p p')
  | .or | .and | .andNot | .closeParen | .equals | .method _ | .literal _ | .last =>
    exact alike_unexpected .operand _ p p'

theorem alike_onConnective (s : ParseState) (left : Expr) (k : TokenKind) (p p' : Nat) :
    (s.onConnective left ⟨k, p⟩).Alike (s.onConnective left ⟨k, p'⟩) := by
  simp only [onConnective]
  split
  · exact .next _
  · exact .next _
  · exact alike_unexpected .close _ p p'
  · exact .done left
  · exact alike_unexpected .connective _ p p'

/-- What a token leads to does not depend on its place. -/
theorem alike_step (s : ParseState) (k : TokenKind) (p p' : Nat) :
    (s.step ⟨k, p⟩).Alike (s.step ⟨k, p'⟩) := by
  simp only [step]
  split
  · exact alike_onOperand s _ p p'
  · exact .next _
  · exact alike_unexpected .literal _ p p'
  · exact .next _
  · exact alike_unexpected .equals _ p p'
  · split
    · exact .next _
    · exact .fail (.malformed _ p p')
  · exact .next _
  · exact alike_unexpected .literal _ p p'
  · exact .next _
  · exact alike_unexpected .literal _ p p'
  · exact alike_onConnective s _ _ p p'

theorem alike_run (s : ParseState) {ts us : List Token}
    (h : ts.map Token.kind = us.map Token.kind) : (run s ts).Alike (run s us) := by
  induction ts generalizing s us with
  | nil =>
    rw [List.map_eq_nil_iff.1 h.symm]
    exact .next s
  | cons t ts ih =>
    obtain ⟨u, us, rfl, hkind, hkinds⟩ := List.map_eq_cons_iff.1 h.symm
    obtain ⟨k, p⟩ := t
    obtain ⟨k', p'⟩ := u
    obtain rfl : k' = k := hkind
    have hstep := alike_step s k' p p'
    rw [run, run]
    generalize s.step ⟨k', p⟩ = x at hstep ⊢
    generalize s.step ⟨k', p'⟩ = y at hstep ⊢
    cases hstep with
    | next s' => exact ih s' hkinds.symm
    | done e => exact .done e
    | fail hfail => exact .fail hfail

end ParseState

/-- The places of tokens show only in errors. -/
theorem alike_parseTokens {ts us : List Token} (h : ts.map Token.kind = us.map Token.kind) :
    Alike (parseTokens ts) (parseTokens us) := by
  have hlast : ts.getLast?.map Token.kind = us.getLast?.map Token.kind := by
    rw [← List.getLast?_map, ← List.getLast?_map, h]
  have hrun := ParseState.alike_run .initial h
  unfold parseTokens
  cases ht : ts.getLast? with
  | none =>
    rw [ht] at hlast
    rw [Option.map_eq_none_iff.1 hlast.symm]
    exact .refl _
  | some t =>
    rw [ht] at hlast
    obtain ⟨u, hu, hkind⟩ := Option.map_eq_some_iff.1 hlast.symm
    rw [hu]
    dsimp only
    generalize ParseState.run .initial ts = x at hrun ⊢
    generalize ParseState.run .initial us = y at hrun ⊢
    cases hrun with
    | done e => exact .ok e
    | fail hfail => exact .error hfail
    | next s =>
      -- past the end the last token comes again on both sides
      have hagain : (List.replicate (s.outer.length + 4) t).map Token.kind =
          (List.replicate (s.outer.length + 4) u).map Token.kind := by
        rw [List.map_replicate, List.map_replicate, hkind]
      have hrest := s.alike_run hagain
      dsimp only
      generalize s.run (List.replicate (s.outer.length + 4) t) = x at hrest ⊢
      generalize s.run (List.replicate (s.outer.length + 4) u) = y at hrest ⊢
      cases hrest with
      | done e => exact .ok e
      | fail hfail => exact .error hfail
      | next s => exact .refl _

/-! ## Tokens as they stand in a text -/

/-- The first token that is read stands after blanks, and it ends where it is cut. What comes then is
read on from there. -/
theorem Lexes.exists_first {position : Nat} {s rest : List Char} {t : Token} {ts : List Token}
    (h : Lexes position s (t :: ts) rest) : ∃ blanks w after, s = blanks ++ (w ++ after) ∧
      (∀ c ∈ blanks, isBlank c = true) ∧ t.position = position + blanks.length ∧
      Lexeme t.kind w ∧ Cuts t.kind after ∧ Lexes (t.position + w.length) after ts rest := by
  generalize hus : t :: ts = us at h
  induction h with
  | nil => cases hus
  | @blank position c s us rest hc _ ih =>
    obtain ⟨blanks, w, after, rfl, hblanks, hposition, hrest⟩ := ih hus
    refine ⟨c :: blanks, w, after, rfl, List.forall_mem_cons.2 ⟨hc, hblanks⟩, ?_, hrest⟩
    rw [hposition, List.length_cons]
    omega
  | token hw hcut hrest =>
    cases hus
    exact ⟨[], _, _, rfl, List.forall_mem_nil _, rfl, hw, hcut, hrest⟩

/-- A lexeme is the text of its token, but for the blanks in `and not`. -/
theorem Lexeme.eq_text {k : TokenKind} {w : List Char} (h : Lexeme k w) :
    k = .andNot ∨ w = k.text := by
  cases h with
  | andNot => exact .inl rfl
  | _ => exact .inr (by simp [TokenKind.text])

theorem Lexeme.text {k : TokenKind} {w : List Char} (h : Lexeme k w) : Lexeme k k.text := by
  rcases h.eq_text with rfl | rfl
  · exact lexeme_connective .andNot
  · exact h

/-- What starts with a quote is a literal. -/
theorem Lexeme.exists_literal {k : TokenKind} {v : List Char} (h : Lexeme k ('\'' :: v)) :
    ∃ value, k = .literal value := by
  generalize hw : '\'' :: v = w at h
  cases h with
  | literal => exact ⟨_, rfl⟩
  | method hc =>
    cases hw
    cases hc
  | word hc =>
    cases hw
    cases hc
  | _ => cases hw

/-- Where a quote comes next, a literal is read. -/
theorem Lexes.exists_literal {position : Nat} {s : List Char} {ts : List Token}
    (h : Lexes position ('\'' :: s) ts []) :
    ∃ value us, ts = ⟨.literal value, position⟩ :: us := by
  generalize hs : '\'' :: s = text at h
  cases h with
  | nil => cases hs
  | blank hc =>
    cases hs
    cases hc
  | token hw =>
    obtain ⟨c, v, rfl, -⟩ := hw.exists_cons
    cases hs
    obtain ⟨value, rfl⟩ := hw.exists_literal
    exact ⟨value, _, rfl⟩

theorem Cuts.exists_quote {k : TokenKind} {s : List Char} (h : Cuts k s)
    (hclings : k.clings = true) : ∃ rest, s = '\'' :: rest := by
  have hhead : s.head? = some '\'' := by
    match k with
    | .method _ => exact h
    | .attribute letter =>
      have hne : letter ≠ "" := by simpa [TokenKind.clings] using hclings
      rwa [Cuts, if_neg hne] at h
  exact List.head?_eq_some_iff.1 hhead

theorem Lexeme.exists_wordChar {word : String} {w : List Char} (h : Lexeme (.word word) w) :
    ∃ c v, w = c :: v ∧ isWordChar c = true := by
  cases h with
  | word hc => exact ⟨_, _, rfl, isWordChar_of_startsWord hc⟩

/-- After the keyword `and` no word starts with `not`, as the two would be one token. -/
theorem Lexes.notNot {position : Nat} {s rest : List Char} {word : String} {p : Nat}
    {ts : List Token} (h : Lexes position s (⟨.word word, p⟩ :: ts) rest) (hcut : Cuts .and s) :
    startsWithKeyword ['n', 'o', 't'] word.toList = false := by
  obtain ⟨hedge, hnot⟩ := hcut
  obtain ⟨blanks, w, after, rfl, hblanks, -, hw, hend, -⟩ := h.exists_first
  obtain ⟨c, v, hc, hchar⟩ := hw.exists_wordChar
  obtain rfl : w = word.toList := by simpa [TokenKind.text] using hw.eq_text
  have hstop : (word.toList ++ after).head?.any isBlank = false := by
    simp [hc, isBlank_eq_false_of_isWordChar hchar]
  rw [goesOnWithNot, takeWhile_append_of_stop hblanks hstop,
    dropWhile_append_of_stop hblanks hstop, startsWithKeyword_append rfl hend.1] at hnot
  cases blanks with
  | cons b blanks => simpa using hnot
  | nil => simp [hc, atEdge, hchar] at hedge

theorem Lexes.writable {position : Nat} {s : List Char} {ts : List Token}
    (h : Lexes position s ts []) : Writable (ts.map Token.kind) := by
  generalize hrest : [] = rest at h
  induction h with
  | nil => exact .nil
  | blank _ _ ih => exact ih hrest
  | @token position kind w s ts rest hw hcut h ih =>
    subst hrest
    refine .cons hw.text ⟨fun hclings => ?_, ?_⟩ (ih rfl)
    · obtain ⟨after, rfl⟩ := hcut.exists_quote hclings
      obtain ⟨value, us, rfl⟩ := h.exists_literal
      exact ⟨value, rfl⟩
    · rintro rfl word hword
      match ts with
      | [] => cases hword
      | ⟨k, p⟩ :: us =>
        obtain rfl : k = .word word := Option.some.inj hword
        exact h.notNot hcut

/-! ## Spacing -/

/-- The text of a query written with single spaces. The last token stands for the end of a text and
has none itself. -/
def spaced (ts : List Token) : String :=
  String.ofList (write (ts.map Token.kind).dropLast)

theorem exists_tokenize_spaced {query : String} {ts : List Token} (h : tokenize query = .ok ts) :
    ∃ us, tokenize (spaced ts) = .ok us ∧ us.map Token.kind = ts.map Token.kind := by
  obtain ⟨us, hus, rfl⟩ := tokensFrom_eq_ok_iff.1 h
  obtain ⟨vs, hvs, hkinds⟩ := spells_write hus.writable 0
  have htext : (spaced (us ++ [⟨.last, 0 + query.toList.length⟩])).toList =
      write (us.map Token.kind) := by
    simp [spaced]
  rw [← htext] at hvs
  exact ⟨_, hvs.tokensFrom_eq, by simp [hkinds]⟩

/-- Texts with the same tokens are read alike. -/
theorem alike_parse {query other : String} {ts us : List Token} (h : tokenize query = .ok ts)
    (h' : tokenize other = .ok us) (hkinds : us.map Token.kind = ts.map Token.kind) :
    Alike (parse query) (parse other) := by
  rw [parse, h, parse, h']
  exact alike_parseTokens hkinds.symm

/-- Writing the tokens of a text with single spaces and cutting the result gives the tokens back.
All texts with these tokens, that one among them, are read alike and evaluated alike, whatever
blanks stand between their tokens. -/
theorem tokenize_spaced [Host] {query : String} {ts : List Token} (h : tokenize query = .ok ts) :
    (∃ us, tokenize (spaced ts) = .ok us ∧ us.map Token.kind = ts.map Token.kind) ∧
    Alike (parse query) (parse (spaced ts)) ∧
    ∀ other us, tokenize other = .ok us → us.map Token.kind = ts.map Token.kind →
      Alike (parse query) (parse other) ∧
      ∀ tree candidates settings, Alike (evaluate tree candidates query settings)
        (evaluate tree candidates other settings) := by
  obtain ⟨us, hus, hkinds⟩ := exists_tokenize_spaced h
  refine ⟨⟨us, hus, hkinds⟩, alike_parse h hus hkinds, fun other vs hvs hkinds' => ?_⟩
  have halike := alike_parse h hvs hkinds'
  exact ⟨halike, fun tree candidates settings => halike.bind _⟩

/-- A query with no blank more than it needs, and two of them where it needs one. -/
def crowded : String :=
  "(name==w'*.jpg'or attribute:f'k'=='v')and\n\tnot data==t' '"

/-- The tokens of `crowded`. -/
def crowdedTokens : List Token :=
  [⟨.openParen, 0⟩, ⟨.name, 1⟩, ⟨.equals, 5⟩, ⟨.method "w", 7⟩, ⟨.literal "*.jpg", 8⟩, ⟨.or, 15⟩,
    ⟨.attribute "f", 18⟩, ⟨.literal "k", 29⟩, ⟨.equals, 32⟩, ⟨.literal "v", 34⟩, ⟨.closeParen, 37⟩,
    ⟨.andNot, 38⟩, ⟨.data, 47⟩, ⟨.equals, 51⟩, ⟨.method "t", 53⟩, ⟨.literal " ", 54⟩, ⟨.last, 57⟩]

theorem tokenize_spaced_crowded :
    tokenize crowded = .ok crowdedTokens ∧
    (∃ us, tokenize (spaced crowdedTokens) = .ok us ∧
      us.map Token.kind = crowdedTokens.map Token.kind) ∧
    Alike (parse crowded) (parse (spaced crowdedTokens)) ∧
    ∀ other us, tokenize other = .ok us → us.map Token.kind = crowdedTokens.map Token.kind →
      Alike (parse crowded) (parse other) ∧
      ∀ tree candidates settings, Alike (evaluate tree candidates crowded settings)
        (evaluate tree candidates other settings) := by
  have h : tokenize crowded = .ok crowdedTokens := rfl
  exact ⟨h, tokenize_spaced h⟩

example : spaced crowdedTokens =
    "( name == w'*.jpg' or attribute:f'k' == 'v' ) and not data == t' '" := by decide

end Query
end NodeQuery
