import NodeQuery.Proofs.Query.Writing
/-!
Writing expressions as queries. An expression is written with all its methods and with parentheses
where it has groups (`Expr.render`). Reading the query gives the expression back if and only if it
is one that a query can express, and these are the expressions that queries are read to
(`parse_render_iff`).
-/
namespace NodeQuery.Query

open Grammar

/-- A text that can stand in a literal. -/
def Quotable (value : String) : Prop :=
  value ≠ "" ∧ '\'' ∉ value.toList

instance : DecidablePred Quotable :=
  fun _ => inferInstanceAs (Decidable (_ ∧ _))

namespace Expr

/-- An expression has a connective at its root. -/
def isJoin : Expr → Bool
  | join _ _ _ => true
  | _ => false

/-- An expression that a query can express: its connectives join to the left, and its literals can
be quoted. -/
def Expressible : Expr → Prop
  | .leaf l => ∀ value ∈ l.literals, Quotable value
  | .join _ left right => left.Expressible ∧ right.Expressible ∧ right.isJoin = false
  | .group inner => inner.Expressible

def decideExpressible : (e : Expr) → Decidable e.Expressible
  | .leaf l => inferInstanceAs (Decidable (∀ value ∈ l.literals, Quotable value))
  | .join _ left right =>
    @instDecidableAnd _ _ left.decideExpressible
      (@instDecidableAnd _ _ right.decideExpressible (inferInstanceAs (Decidable (_ = _))))
  | .group inner => inner.decideExpressible

instance : DecidablePred Expressible := decideExpressible

end Expr

/-- A leaf as it is written with its methods. -/
def Leaf.form : Leaf → LeafForm
  | .name axis method value => .name axis (some method) value
  | .attribute key keyMethod value valueMethod =>
    .attribute (some keyMethod) key (some valueMethod) value
  | .data method value => .data (some method) value

/-- The tokens of an expression. -/
def Expr.tokens : Expr → List TokenKind
  | .leaf l => l.form.tokens
  | .join c left right => left.tokens ++ c.token :: right.tokens
  | .group inner => .openParen :: inner.tokens ++ [.closeParen]

/-- An expression as a query. -/
def Expr.render (e : Expr) : String :=
  String.ofList (write e.tokens)

theorem Leaf.form_leaf (l : Leaf) : l.form.leaf = l := by
  cases l <;> rfl

/-! ## From an expression to a query -/

theorem exists_body_of_operand (operand : Operand) :
    ∃ d : Body, d.tokens = operand.tokens ∧ d.expr = operand.expr :=
  ⟨.chain operand .nil, by rw [Body.tokens, Tail.tokens, List.append_nil], rfl⟩

/-- An expression has a derivation, as an operand if there is no connective at its root. -/
theorem Expr.exists_derivation {e : Expr} (h : e.Expressible) :
    (∃ d : Body, d.tokens = e.tokens ∧ d.expr = e) ∧
    (e.isJoin = false → ∃ operand : Operand, operand.tokens = e.tokens ∧ operand.expr = e) := by
  induction e with
  | leaf l =>
    have hexpr : (Operand.leaf l.form).expr = .leaf l := by rw [Operand.expr, l.form_leaf]
    obtain ⟨d, htokens, hd⟩ := exists_body_of_operand (.leaf l.form)
    exact ⟨⟨d, htokens, hd.trans hexpr⟩, fun _ => ⟨.leaf l.form, rfl, hexpr⟩⟩
  | join c left right ihl ihr =>
    obtain ⟨hl, hr, hright⟩ := h
    -- only an operand can be put last, which is why a join must not stand on the right
    obtain ⟨d, hdtokens, hd⟩ := (ihl hl).1
    obtain ⟨operand, htokens, hoperand⟩ := (ihr hr).2 hright
    refine ⟨⟨d.snoc c operand, ?_, ?_⟩, fun hjoin => by cases hjoin⟩
    · rw [Body.tokens_snoc, hdtokens, htokens, Expr.tokens]
    · rw [Body.expr_snoc, hd, hoperand]
  | group inner ih =>
    obtain ⟨d, hdtokens, hd⟩ := (ih h).1
    have htokens : (Operand.group d).tokens = (Expr.group inner).tokens := by
      rw [Operand.tokens, Expr.tokens, hdtokens]
    have hexpr : (Operand.group d).expr = .group inner := by rw [Operand.expr, hd]
    obtain ⟨body, hbodytokens, hbody⟩ := exists_body_of_operand (.group d)
    exact ⟨⟨body, hbodytokens.trans htokens, hbody.trans hexpr⟩, fun _ => ⟨_, htokens, hexpr⟩⟩

section
variable {rest : List TokenKind}

theorem canPrecede_of_not_clings {k : TokenKind} {next : Option TokenKind}
    (hclings : k.clings = false) (hand : k ≠ .and) : CanPrecede k next := by
  refine ⟨fun h => ?_, fun h => absurd h hand⟩
  rw [hclings] at h
  cases h

theorem writable_cons {k : TokenKind} (hk : Lexeme k k.text) (hclings : k.clings = false)
    (hand : k ≠ .and) (hrest : Writable rest) : Writable (k :: rest) :=
  .cons hk (canPrecede_of_not_clings hclings hand) hrest

theorem writable_literal {value : String} (h : Quotable value) (hrest : Writable rest) :
    Writable (.literal value :: rest) := by
  have hk : Lexeme (.literal value) (TokenKind.literal value).text := by
    have hne : value.toList ≠ [] := by simpa using h.1
    have hlexeme := Lexeme.literal hne h.2
    rwa [String.ofList_toList] at hlexeme
  exact writable_cons hk rfl (by simp) hrest

/-- A token that clings to a literal, with the literal. -/
theorem writable_clinging {k : TokenKind} {value : String} (hk : Lexeme k k.text) (hand : k ≠ .and)
    (h : Quotable value) (hrest : Writable rest) : Writable (k :: .literal value :: rest) :=
  .cons hk ⟨fun _ => ⟨value, rfl⟩, fun hk' => absurd hk' hand⟩ (writable_literal h hrest)

theorem Method.exists_letter (m : Method) :
    ∃ c, isAttributeLetter c = true ∧ m.letter = String.ofList [c] := by
  cases m with
  | fixed => exact ⟨'u', rfl, rfl⟩
  | wildcard => exact ⟨'w', rfl, rfl⟩
  | regex => exact ⟨'r', rfl, rfl⟩
  | fuzzy => exact ⟨'f', rfl, rfl⟩

theorem lexeme_method (m : Method) : Lexeme (.method m.letter) m.letter.toList := by
  obtain ⟨c, hc, hletter⟩ := m.exists_letter
  rw [hletter, String.toList_ofList]
  exact .method (isMethodLetter_of_isAttributeLetter hc)

theorem lexeme_attribute (m : Method) :
    Lexeme (.attribute m.letter) (TokenKind.attribute m.letter).text := by
  obtain ⟨c, hc, hletter⟩ := m.exists_letter
  rw [hletter, TokenKind.text, String.toList_ofList]
  exact .attributeLetter hc

theorem lexeme_dataMethod (m : DataMethod) : Lexeme (.method m.letter) m.letter.toList := by
  cases m with
  | text => exact .method (c := 't') rfl
  | regex => exact .method (c := 'r') rfl

theorem writable_leaf {l : Leaf} (h : ∀ value ∈ l.literals, Quotable value)
    (hrest : Writable rest) : Writable (l.form.tokens ++ rest) := by
  match l with
  | .name axis m value =>
    have hvalue : Quotable value := h value (by simp [Leaf.literals])
    have htest := writable_clinging (lexeme_method m) (by simp) hvalue hrest
    have hequals := writable_cons .equals rfl (by simp) htest
    cases axis with
    | name => exact writable_cons .name rfl (by simp [Axis.token]) hequals
    | attributeName => exact writable_cons .attributeName rfl (by simp [Axis.token]) hequals
  | .attribute key keyMethod value m =>
    have hkey : Quotable key := h key (by simp [Leaf.literals])
    have hvalue : Quotable value := h value (by simp [Leaf.literals])
    have htest := writable_clinging (lexeme_method m) (by simp) hvalue hrest
    have hequals := writable_cons .equals rfl (by simp) htest
    exact writable_clinging (lexeme_attribute keyMethod) (by simp) hkey hequals
  | .data m value =>
    have hvalue : Quotable value := h value (by simp [Leaf.literals])
    have htest := writable_clinging (lexeme_dataMethod m) (by simp) hvalue hrest
    have hequals := writable_cons .equals rfl (by simp) htest
    exact writable_cons .data rfl (by simp) hequals

theorem head?_tokens_ne_word (e : Expr) (word : String) :
    (e.tokens ++ rest).head? ≠ some (.word word) := by
  induction e generalizing rest with
  | leaf l =>
    match l with
    | .name axis _ _ => cases axis <;> simp [Expr.tokens, Leaf.form, LeafForm.tokens, Axis.token]
    | .attribute _ _ _ _ => simp [Expr.tokens, Leaf.form, LeafForm.tokens]
    | .data _ _ => simp [Expr.tokens, Leaf.form, LeafForm.tokens]
  | join c left right ihl _ =>
    rw [Expr.tokens, List.append_assoc]
    exact ihl
  | group inner _ => simp [Expr.tokens]

theorem writable_connective (c : Connective) {e : Expr} (h : Writable (e.tokens ++ rest)) :
    Writable (c.token :: (e.tokens ++ rest)) := by
  refine .cons (lexeme_connective c) ⟨fun hclings => ?_, fun _ word hword => ?_⟩ h
  · rw [connective_clings] at hclings
    cases hclings
  · exact absurd hword (head?_tokens_ne_word e word)

/-- The tokens of an expression can be written. -/
theorem writable_tokens {e : Expr} (h : e.Expressible) (hrest : Writable rest) :
    Writable (e.tokens ++ rest) := by
  induction e generalizing rest with
  | leaf l => exact writable_leaf h hrest
  | join c left right ihl ihr =>
    obtain ⟨hl, hr, -⟩ := h
    rw [Expr.tokens, List.append_assoc]
    exact ihl hl (writable_connective c (ihr hr hrest))
  | group inner ih =>
    have hclose := writable_cons .closeParen rfl (by simp) hrest
    have hinner := writable_cons .openParen rfl (by simp) (ih h hclose)
    simpa [Expr.tokens] using hinner

end

/-! ## From a query to an expression -/

/-- All literals among some tokens can be quoted. -/
def Quoted (ks : List TokenKind) : Prop :=
  ∀ value, .literal value ∈ ks → Quotable value

theorem Spells.quoted {s rest : List Char} {ks : List TokenKind} (h : Spells s ks rest) :
    Quoted ks := by
  intro value hvalue
  obtain ⟨w, hw⟩ := h.exists_lexeme _ hvalue
  generalize hk : TokenKind.literal value = k at hw
  cases hw with
  | literal hne hq =>
    cases hk
    exact ⟨by simpa using hne, by simpa using hq⟩
  | _ => cases hk

namespace Grammar

theorem LeafForm.mem_tokens {form : LeafForm} {value : String} (h : value ∈ form.leaf.literals) :
    .literal value ∈ form.tokens := by
  match form with
  | .name _ _ _ =>
    obtain rfl := List.mem_singleton.1 h
    simp [LeafForm.tokens]
  | .attribute _ _ _ _ =>
    simp only [LeafForm.leaf, Leaf.literals, List.mem_cons, List.not_mem_nil, or_false] at h
    rcases h with rfl | rfl <;> simp [LeafForm.tokens]
  | .data _ _ =>
    obtain rfl := List.mem_singleton.1 h
    simp [LeafForm.tokens]

theorem Operand.isJoin_expr (operand : Operand) : operand.expr.isJoin = false := by
  cases operand <;> rfl

mutual

theorem Operand.expressible (operand : Operand) (h : Quoted operand.tokens) :
    operand.expr.Expressible := by
  match operand with
  | .leaf form => exact fun value hvalue => h value (LeafForm.mem_tokens hvalue)
  | .group body =>
    have hbody : Quoted body.tokens := by
      intro value hvalue
      exact h value (by simp [Operand.tokens, hvalue])
    exact body.expressible hbody

theorem Body.expressible (body : Body) (h : Quoted body.tokens) : body.expr.Expressible := by
  match body with
  | .chain first rest =>
    have hfirst : first.expr.Expressible :=
      first.expressible fun value hvalue => h value (List.mem_append_left _ hvalue)
    exact rest.expressible hfirst fun value hvalue => h value (List.mem_append_right _ hvalue)

theorem Tail.expressible (rest : Tail) {left : Expr} (hleft : left.Expressible)
    (h : Quoted rest.tokens) : (rest.fold left).Expressible := by
  match rest with
  | .nil => exact hleft
  | .cons c operand rest =>
    have hoperand : operand.expr.Expressible :=
      operand.expressible fun value hvalue => h value (by simp [Tail.tokens, hvalue])
    have hjoin : (Expr.join c left operand.expr).Expressible :=
      ⟨hleft, hoperand, operand.isJoin_expr⟩
    exact rest.expressible hjoin fun value hvalue => h value (by simp [Tail.tokens, hvalue])

end

end Grammar

/-! ## The round trip -/

theorem expressible_of_parse {query : String} {e : Expr} (h : parse query = .ok e) :
    e.Expressible := by
  obtain ⟨d, hd, rfl⟩ := parse_eq_ok_iff.1 h
  exact d.expressible hd.quoted

theorem parse_render {e : Expr} (h : e.Expressible) : parse e.render = .ok e := by
  obtain ⟨d, htokens, hd⟩ := (Expr.exists_derivation h).1
  have hspells := spells_write (writable_tokens h .nil)
  rw [List.append_nil, ← htokens] at hspells
  refine parse_eq_ok_iff.2 ⟨d, ?_, hd⟩
  rwa [Expr.render, String.toList_ofList, ← htokens]

/-- An expression is read back from its query if and only if some query is read to it, and these are
the expressions that a query can express. So reading and writing an accepted query changes nothing
when it is done again. -/
theorem parse_render_iff (e : Expr) :
    (parse e.render = .ok e ↔ e.Expressible) ∧
    ((∃ query, parse query = .ok e) ↔ e.Expressible) ∧
    ∀ query, parse query = .ok e → parse e.render = .ok e := by
  refine ⟨⟨expressible_of_parse, parse_render⟩, ⟨?_, fun h => ⟨e.render, parse_render h⟩⟩, ?_⟩
  · rintro ⟨query, h⟩
    exact expressible_of_parse h
  · intro query h
    exact parse_render (expressible_of_parse h)

/-- An expression whose literals look like parts of queries. -/
def disguised : Expr :=
  .join .and (.join .or (.leaf (.data .text "(and\nnot)")) (.leaf (.name .name .regex " == w")))
    (.group (.leaf (.attribute "or name" .fuzzy ")" .fixed)))

theorem parse_render_iff_disguised :
    (parse disguised.render = .ok disguised ↔ disguised.Expressible) ∧
    ((∃ query, parse query = .ok disguised) ↔ disguised.Expressible) ∧
    (∀ query, parse query = .ok disguised → parse disguised.render = .ok disguised) ∧
    disguised.Expressible :=
  have h := parse_render_iff disguised
  ⟨h.1, h.2.1, h.2.2, by decide⟩

example : (Expr.join .andNot (.leaf (.name .attributeName .regex "a b"))
    (.group (.leaf (.attribute "k" .fuzzy "v" .fixed)))).render =
      "attribute.name == r'a b' and not ( attribute:f'k' == u'v' )" := by decide

end NodeQuery.Query
