import NodeQuery.Proofs.Query.Lexing
/-!
The literals of a query and the quotes in its text. Splitting a text at its quotes gives pieces
outside of literals and pieces inside of them by turns, so the literals of an accepted query are the
pieces at odd places, in order, each once and as it is (`literals_of_parse`). A text whose last
quote is not closed is no query.
-/
namespace NodeQuery.Query

open Grammar

/-! ## Pieces between quotes -/

/-- The items at odd places, the first item being at place 0. -/
def oddItems {α : Type} : List α → List α
  | [] => []
  | [_] => []
  | _ :: b :: rest => b :: oddItems rest

theorem oddItems_modifyHead {α : Type} (f : α → α) (items : List α) :
    oddItems (items.modifyHead f) = oddItems items := by
  match items with
  | [] | [_] | _ :: _ :: _ => rfl

/-- The pieces inside of quotes: those at odd places when a text is split at every quote. -/
def quotedPieces (s : List Char) : List (List Char) :=
  oddItems (s.splitOn '\'')

/-- What stands before the first quote belongs to no such piece. -/
theorem quotedPieces_append {w : List Char} (s : List Char) (hw : '\'' ∉ w) :
    quotedPieces (w ++ s) = quotedPieces s := by
  induction w with
  | nil => rfl
  | cons c w ih =>
    rw [List.mem_cons, not_or] at hw
    obtain ⟨hc, hrest⟩ := hw
    have hsplit : (c :: (w ++ s)).splitOn '\'' = ((w ++ s).splitOn '\'').modifyHead (c :: ·) := by
      rw [List.splitOn, List.splitOnP_cons_eq_if_modifyHead, if_neg (by simpa using Ne.symm hc)]
      rfl
    rw [List.cons_append, quotedPieces, hsplit, oddItems_modifyHead]
    exact ih hrest

theorem quotedPieces_literal {value : List Char} (s : List Char) (hvalue : '\'' ∉ value) :
    quotedPieces ('\'' :: value ++ '\'' :: s) = value :: quotedPieces s := by
  have hsplit : ('\'' :: value ++ '\'' :: s).splitOn '\'' = [] :: value :: s.splitOn '\'' := by
    have hfree : ∀ c ∈ value, (c == '\'') = false := by
      intro c hc
      simpa using ne_of_mem_of_not_mem hc hvalue
    rw [List.splitOn, List.splitOnP_append_cons _ _ (by simp),
      List.splitOnP_cons_eq_if_modifyHead, if_pos (by simp), List.splitOnP_eq_singleton hfree]
    rfl
  rw [quotedPieces, hsplit]
  rfl

/-! ## Literals among tokens -/

/-- The text of a literal. -/
def TokenKind.literal? : TokenKind → Option String
  | .literal value => some value
  | _ => none

/-- Quotes stand in literals only, around their texts. -/
theorem Lexeme.quote_cases {k : TokenKind} {w : List Char} (h : Lexeme k w) :
    (k.literal? = none ∧ '\'' ∉ w) ∨
    ∃ value, k.literal? = some (String.ofList value) ∧ '\'' ∉ value ∧
      w = '\'' :: value ++ ['\''] := by
  have hblank : isBlank '\'' = false := by decide
  have hcontinues : continuesWord '\'' = false := by decide
  cases h with
  | literal hne hq => exact .inr ⟨_, rfl, hq, rfl⟩
  | andNot hne hblanks =>
    refine .inl ⟨rfl, fun hq => ?_⟩
    simp at hq
    rw [hblanks _ hq] at hblank
    cases hblank
  | attributeLetter hc =>
    refine .inl ⟨rfl, fun hq => ?_⟩
    simp [attributeWord] at hq
    subst hq
    cases hc
  | method hc =>
    refine .inl ⟨rfl, fun hq => ?_⟩
    obtain rfl := List.mem_singleton.1 hq
    cases hc
  | word hc hv =>
    refine .inl ⟨rfl, fun hq => ?_⟩
    rcases List.mem_cons.1 hq with rfl | hq
    · cases hc
    · rw [hv _ hq] at hcontinues
      cases hcontinues
  | _ => exact .inl ⟨rfl, by decide⟩

/-- The literals that are read from a text are its pieces between quotes. -/
theorem Lexes.literals_eq {position : Nat} {s : List Char} {ts : List Token}
    (h : Lexes position s ts []) :
    (ts.map Token.kind).filterMap TokenKind.literal? = (quotedPieces s).map String.ofList := by
  generalize hrest : [] = rest at h
  induction h with
  | nil =>
    subst hrest
    rfl
  | @blank position c s ts rest hc _ ih =>
    have hq : '\'' ∉ [c] := by
      intro hq
      obtain rfl := List.mem_singleton.1 hq
      cases hc
    rw [ih hrest, ← List.singleton_append, quotedPieces_append s hq]
  | @token position kind w s ts rest hw _ _ ih =>
    rw [List.map_cons]
    rcases hw.quote_cases with ⟨hnone, hq⟩ | ⟨value, hsome, hq, rfl⟩
    · rw [List.filterMap_cons_none hnone, ih hrest, quotedPieces_append s hq]
    · rw [List.filterMap_cons_some hsome, ih hrest, List.append_assoc, List.singleton_append,
        quotedPieces_literal s hq, List.map_cons]

/-- Every literal has two quotes, and there are no others. -/
theorem Lexes.count_quote {position : Nat} {s : List Char} {ts : List Token}
    (h : Lexes position s ts []) :
    s.count '\'' = 2 * ((ts.map Token.kind).filterMap TokenKind.literal?).length := by
  generalize hrest : [] = rest at h
  induction h with
  | nil =>
    subst hrest
    rfl
  | @blank position c s ts rest hc _ ih =>
    have hne : c ≠ '\'' := by
      rintro rfl
      cases hc
    rw [List.count_cons_of_ne hne, ih hrest]
  | @token position kind w s ts rest hw _ _ ih =>
    rw [List.map_cons, List.count_append, ih hrest]
    rcases hw.quote_cases with ⟨hnone, hq⟩ | ⟨value, hsome, hq, rfl⟩
    · rw [List.filterMap_cons_none hnone, List.count_eq_zero.2 hq, Nat.zero_add]
    · rw [List.filterMap_cons_some hsome, List.length_cons, List.count_append,
        List.count_cons_self, List.count_eq_zero.2 hq, List.count_singleton_self]
      omega

/-! ## Literals of a derivation -/

namespace Grammar

theorem filterMap_literal?_methodTokens (letter : Option String) :
    (methodTokens letter).filterMap TokenKind.literal? = [] := by
  cases letter <;> rfl

theorem Connective.literal?_token (c : Connective) : c.token.literal? = none := by
  cases c <;> rfl

/-- The literals among the tokens of a leaf are those of the leaf, a key before its value. -/
theorem LeafForm.literals_eq (form : LeafForm) :
    form.tokens.filterMap TokenKind.literal? = form.leaf.literals := by
  match form with
  | .name axis method value =>
    have haxis : axis.token.literal? = none := by cases axis <;> rfl
    rw [LeafForm.tokens, List.cons_append, List.filterMap_cons_none haxis]
    simp [List.filterMap_cons, filterMap_literal?_methodTokens, TokenKind.literal?, LeafForm.leaf,
      Leaf.literals]
  | .attribute keyMethod key method value =>
    simp [LeafForm.tokens, List.filterMap_cons, filterMap_literal?_methodTokens,
      TokenKind.literal?, LeafForm.leaf, Leaf.literals]
  | .data method value =>
    simp [LeafForm.tokens, List.filterMap_cons, filterMap_literal?_methodTokens,
      TokenKind.literal?, LeafForm.leaf, Leaf.literals]

mutual

theorem Operand.literals_eq (operand : Operand) :
    operand.tokens.filterMap TokenKind.literal? = operand.expr.leaves.flatMap Leaf.literals := by
  match operand with
  | .leaf form =>
    rw [Operand.tokens, form.literals_eq, Operand.expr, Expr.leaves, List.flatMap_singleton]
  | .group body =>
    simp [Operand.tokens, List.filterMap_cons, Operand.expr, Expr.leaves, TokenKind.literal?,
      body.literals_eq]

theorem Body.literals_eq (body : Body) :
    body.tokens.filterMap TokenKind.literal? = body.expr.leaves.flatMap Leaf.literals := by
  match body with
  | .chain first rest =>
    rw [Body.tokens, List.filterMap_append, first.literals_eq, Body.expr,
      rest.literals_fold first.expr]

/-- A chain adds the literals of its operands to those of the expression on its left. -/
theorem Tail.literals_fold (rest : Tail) (left : Expr) :
    (rest.fold left).leaves.flatMap Leaf.literals =
      left.leaves.flatMap Leaf.literals ++ rest.tokens.filterMap TokenKind.literal? := by
  match rest with
  | .nil => simp [Tail.fold, Tail.tokens]
  | .cons c operand rest =>
    rw [Tail.fold, rest.literals_fold, Expr.leaves, List.flatMap_append, ← operand.literals_eq,
      Tail.tokens, List.cons_append, List.filterMap_cons_none (Connective.literal?_token c),
      List.filterMap_append, List.append_assoc]

end

end Grammar

/-! ## The literals of a query -/

/-- The literals of an accepted query, in the order of its leaves, are the pieces at odd places of
its text split at every quote. A text with an odd number of quotes is malformed. -/
theorem literals_of_parse (query : String) :
    (∀ e, parse query = .ok e → e.leaves.flatMap Leaf.literals =
      (oddItems (query.toList.splitOn '\'')).map String.ofList) ∧
    (query.toList.count '\'' % 2 = 1 →
      ∃ cause position, parse query = .error (.query (.malformed cause position))) := by
  constructor
  · intro e h
    obtain ⟨d, hd, rfl⟩ := parse_eq_ok_iff.1 h
    obtain ⟨ts, hts, hkinds⟩ := hd 0
    rw [← d.literals_eq, ← hkinds]
    exact hts.literals_eq
  · intro hodd
    rcases tokensFrom_cases 0 query.toList with ⟨ts, hts⟩ | ⟨c, place, hstop⟩
    · have hcount := hts.count_quote
      omega
    · exact ⟨_, place, by rw [parse, tokenize, hstop]; rfl⟩

/-- A query whose literals look like parts of queries. -/
def masked : String :=
  "attribute:w' or '== 'x)\\\n'and not (name== r'and not' or data =='(\t)')"

/-- What `masked` is read to. -/
def maskedExpr : Expr :=
  .join .andNot (.leaf (.attribute " or " .wildcard "x)\\\n" .fixed))
    (.group (.join .or (.leaf (.name .name .regex "and not")) (.leaf (.data .regex "(\t)"))))

theorem literals_of_parse_masked :
    parse masked = .ok maskedExpr ∧
    maskedExpr.leaves.flatMap Leaf.literals =
      (oddItems (masked.toList.splitOn '\'')).map String.ofList ∧
    "name == 'a' or 'b".toList.count '\'' % 2 = 1 ∧
    ∃ cause position, parse "name == 'a' or 'b" = .error (.query (.malformed cause position)) := by
  have hmasked : parse masked = .ok maskedExpr := rfl
  have hodd : "name == 'a' or 'b".toList.count '\'' % 2 = 1 := by decide
  exact ⟨hmasked, (literals_of_parse masked).1 maskedExpr hmasked, hodd,
    (literals_of_parse "name == 'a' or 'b").2 hodd⟩

end NodeQuery.Query
