import NodeQuery.Proofs.Query.Lexing
/-!
Tokens and the text they come from. The lexer loses nothing: blanks aside, a text that it accepts is
the lexemes of its tokens, each at the position that the token carries, and a text that it refuses
is so up to the position of the error, where no token starts (`tokenize_tiles`).
-/
namespace NodeQuery.Query

/-- A text that starts at a position consists of blanks and of the lexemes of tokens, in order and
each at the position of its token. -/
inductive Tiles : Nat → List Char → List Token → Prop
  | nil {position} : Tiles position [] []
  | blank {position c s ts} (hc : isBlank c = true) (h : Tiles (position + 1) s ts) :
    Tiles position (c :: s) ts
  | token {position kind w s ts} (hw : Lexeme kind w) (h : Tiles (position + w.length) s ts) :
    Tiles position (w ++ s) (⟨kind, position⟩ :: ts)

/-- A token of some kind starts a text, whatever else does. Keywords end at a word edge, a letter
before a literal has the literal's quote after it, and a literal is closed and not empty. -/
inductive StartsToken : List Char → Prop
  | andNot {blanks s} (hne : blanks ≠ []) (hblank : ∀ c ∈ blanks, isBlank c = true)
    (hs : atEdge s = true) : StartsToken ('a' :: 'n' :: 'd' :: (blanks ++ 'n' :: 'o' :: 't' :: s))
  | and {s} (hs : atEdge s = true) : StartsToken ('a' :: 'n' :: 'd' :: s)
  | or {s} (hs : atEdge s = true) : StartsToken ('o' :: 'r' :: s)
  | attributeName {s} (hs : atEdge s = true) :
    StartsToken (attributeWord ++ '.' :: 'n' :: 'a' :: 'm' :: 'e' :: s)
  | attribute {s} : StartsToken (attributeWord ++ ':' :: s)
  | name {s} (hs : atEdge s = true) : StartsToken ('n' :: 'a' :: 'm' :: 'e' :: s)
  | data {s} (hs : atEdge s = true) : StartsToken ('d' :: 'a' :: 't' :: 'a' :: s)
  | equals {s} : StartsToken ('=' :: '=' :: s)
  | openParen {s} : StartsToken ('(' :: s)
  | closeParen {s} : StartsToken (')' :: s)
  | method {c s} (hc : isMethodLetter c = true) : StartsToken (c :: '\'' :: s)
  | literal {value s} (hne : value ≠ []) (hq : '\'' ∉ value) :
    StartsToken ('\'' :: (value ++ '\'' :: s))
  | word {c s} (hc : startsWord c = true) : StartsToken (c :: s)

theorem startsReserved_of_lexeme?_eq_none {s : List Char} (h : lexeme? s = none) :
    startsReserved s = false := by
  unfold lexeme? at h
  grind [startsReserved]

/-- What starts a bare word starts some token. -/
theorem lexeme?_ne_none_of_startsWord {c : Char} {s : List Char} (hc : startsWord c = true) :
    lexeme? (c :: s) ≠ none := by
  intro h
  have hfree := startsReserved_of_lexeme?_eq_none h
  rw [lexeme?_of_not_startsReserved hfree (not_mem_signs_of_startsWord hc), if_pos hc] at h
  split at h <;> cases h

theorem StartsToken.lexeme?_ne_none {s : List Char} (h : StartsToken s) : lexeme? s ≠ none := by
  cases h with
  | equals => exact Option.ne_none_iff_exists'.2 ⟨_, lexeme?_append .equals trivial⟩
  | openParen => exact Option.ne_none_iff_exists'.2 ⟨_, lexeme?_append .openParen trivial⟩
  | closeParen => exact Option.ne_none_iff_exists'.2 ⟨_, lexeme?_append .closeParen trivial⟩
  | @literal value s hne hq =>
    have hlexeme := lexeme?_append (s := s) (.literal hne hq) trivial
    rw [List.append_assoc] at hlexeme
    exact Option.ne_none_iff_exists'.2 ⟨_, hlexeme⟩
  | method hc => exact lexeme?_ne_none_of_startsWord (startsWord_of_isMethodLetter hc)
  | word hc => exact lexeme?_ne_none_of_startsWord hc
  | _ => exact lexeme?_ne_none_of_startsWord rfl

/-! ## Tiles -/

theorem Lexes.exists_tiles {position : Nat} {s rest : List Char} {ts : List Token}
    (h : Lexes position s ts rest) : ∃ read, s = read ++ rest ∧ Tiles position read ts := by
  induction h with
  | nil => exact ⟨[], rfl, .nil⟩
  | blank hc _ ih =>
    obtain ⟨read, rfl, hread⟩ := ih
    exact ⟨_ :: read, rfl, .blank hc hread⟩
  | token hw _ _ ih =>
    obtain ⟨read, rfl, hread⟩ := ih
    exact ⟨_ ++ read, (List.append_assoc ..).symm, .token hw hread⟩

/-- Tokens stand within the text that they tile. -/
theorem Tiles.position_bounds {position : Nat} {s : List Char} {ts : List Token}
    (h : Tiles position s ts) :
    ∀ t ∈ ts, position ≤ t.position ∧ t.position < position + s.length := by
  induction h with
  | nil => exact List.forall_mem_nil _
  | blank _ _ ih =>
    intro t ht
    obtain ⟨hle, hlt⟩ := ih t ht
    rw [List.length_cons]
    omega
  | @token position kind w s ts hw _ ih =>
    obtain ⟨c, v, rfl, -⟩ := hw.exists_cons
    refine List.forall_mem_cons.2 ⟨?_, fun t ht => ?_⟩
    · rw [List.length_append, List.length_cons]
      dsimp only
      omega
    · obtain ⟨hle, hlt⟩ := ih t ht
      rw [List.length_append]
      omega

/-- Each token stands before the next one, and all of them before the end. -/
theorem Tiles.pairwise_position {position : Nat} {s : List Char} {ts : List Token}
    (h : Tiles position s ts) : List.Pairwise (fun t u : Token => t.position < u.position)
      (ts ++ [⟨.last, position + s.length⟩]) := by
  refine List.pairwise_append.2 ⟨?_, List.pairwise_singleton _ _, ?_⟩
  · induction h with
    | nil => exact .nil
    | blank _ _ ih => exact ih
    | @token position kind w s ts hw h ih =>
      obtain ⟨c, v, rfl, -⟩ := hw.exists_cons
      refine List.pairwise_cons.2 ⟨fun t ht => ?_, ih⟩
      have hle := (h.position_bounds t ht).1
      rw [List.length_cons] at hle
      dsimp only
      omega
  · intro t ht u hu
    rw [List.mem_singleton.1 hu]
    exact (h.position_bounds t ht).2

/-- A query is either cut into tokens, which tile its text at increasing positions and end with one
for the end of the text, or it is malformed at a place that is not blank and starts no token, and
tokens tile the text before that place. -/
theorem tokenize_tiles (query : String) :
    (∃ ts, tokenize query = .ok (ts ++ [⟨.last, query.length⟩]) ∧ (∀ t ∈ ts, t.kind ≠ .last) ∧
      List.Pairwise (fun t u : Token => t.position < u.position)
        (ts ++ [⟨.last, query.length⟩]) ∧
      Tiles 0 query.toList ts) ∨
    ∃ read c after ts, query.toList = read ++ c :: after ∧ Tiles 0 read ts ∧
      isBlank c = false ∧ ¬ StartsToken (c :: after) ∧
      tokenize query = .error (.malformed
        (if c = '\'' then .openLiteral else .unexpectedCharacter c) read.length) := by
  obtain ⟨ts, rest, hts, hstop⟩ := exists_lexes 0 query.toList
  obtain ⟨read, hsplit, htiles⟩ := hts.exists_tiles
  cases rest with
  | nil =>
    rw [List.append_nil] at hsplit
    subst hsplit
    have hlength : query.length = 0 + query.toList.length := (Nat.zero_add _).symm
    rw [hlength]
    exact .inl ⟨ts, hts.tokensFrom_eq, hts.ne_last, htiles.pairwise_position, htiles⟩
  | cons c after =>
    obtain ⟨hc, hlexeme⟩ := hstop c after rfl
    obtain ⟨read', hsplit', hrun⟩ := hts.exists_tokensFrom_eq
    obtain rfl : read = read' := List.append_cancel_right (hsplit.symm.trans hsplit')
    refine .inr ⟨read, c, after, ts, hsplit, htiles, hc, fun h => h.lexeme?_ne_none hlexeme, ?_⟩
    rw [tokenize, hrun, tokensFrom_eq_error hc hlexeme, Nat.zero_add]
    rfl

/-- A single equals sign starts no token. -/
example : tokenize "name ='a'" = .error (.malformed (.unexpectedCharacter '=') 5) := rfl

end NodeQuery.Query
