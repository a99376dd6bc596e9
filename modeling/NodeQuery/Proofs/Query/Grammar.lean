import Mathlib.Data.Option.Basic
import NodeQuery.Query.Parser
/-!
The grammar of queries, as derivations. A body is an operand and any number of connectives with an
operand each, an operand is a leaf or a body in parentheses, and a leaf may leave its method out. A
derivation yields tokens and has an expression, in which a chain is folded to the left. The grammar
is unambiguous: the tokens determine the derivation (`Body.eq_of_tokens`).
-/
namespace NodeQuery.Query

/-- The letter of a method. -/
def Method.letter : Method → String
  | fixed => "u"
  | wildcard => "w"
  | regex => "r"
  | fuzzy => "f"

/-- The letter of a method. -/
def DataMethod.letter : DataMethod → String
  | text => "t"
  | regex => "r"

theorem Method.ofLetter?_eq_some_iff {letter : String} {m : Method} :
    Method.ofLetter? letter = some m ↔ letter = m.letter := by
  constructor
  · intro h
    unfold Method.ofLetter? at h
    grind [Method.letter]
  · rintro rfl
    cases m <;> rfl

theorem DataMethod.ofLetter?_eq_some_iff {letter : String} {m : DataMethod} :
    DataMethod.ofLetter? letter = some m ↔ letter = m.letter := by
  constructor
  · intro h
    unfold DataMethod.ofLetter? at h
    grind [DataMethod.letter]
  · rintro rfl
    cases m <;> rfl

theorem Method.letter_injective : Function.Injective Method.letter := by
  intro m n h
  have hm := Method.ofLetter?_eq_some_iff.2 h
  rw [Method.ofLetter?_eq_some_iff.2 rfl] at hm
  exact Option.some.inj hm

theorem DataMethod.letter_injective : Function.Injective DataMethod.letter := by
  intro m n h
  have hm := DataMethod.ofLetter?_eq_some_iff.2 h
  rw [DataMethod.ofLetter?_eq_some_iff.2 rfl] at hm
  exact Option.some.inj hm

/-- The token of an axis. -/
def Axis.token : Axis → TokenKind
  | name => .name
  | attributeName => .attributeName

theorem Axis.token_injective : Function.Injective Axis.token := by
  intro a b h
  cases a <;> cases b <;> first | rfl | cases h

/-- The token of a connective. -/
def Connective.token : Connective → TokenKind
  | or => .or
  | and => .and
  | andNot => .andNot

theorem connective?_eq_some_iff {k : TokenKind} {c : Connective} :
    ParseState.connective? k = some c ↔ k = c.token := by
  cases c <;> cases k <;> simp [ParseState.connective?, Connective.token]

theorem Connective.token_injective : Function.Injective Connective.token := by
  intro c d h
  have hc := connective?_eq_some_iff.2 h
  rw [connective?_eq_some_iff.2 rfl] at hc
  exact Option.some.inj hc

namespace Grammar

/-- A leaf as it is written. -/
inductive LeafForm where
  | name (axis : Axis) (method : Option Method) (value : String)
  | attribute (keyMethod : Option Method) (key : String) (method : Option Method) (value : String)
  | data (method : Option DataMethod) (value : String)

mutual

inductive Operand where
  | leaf (form : LeafForm)
  | group (body : Body)

inductive Body where
  | chain (first : Operand) (rest : Tail)

/-- Any number of connectives, each with an operand. -/
inductive Tail where
  | nil
  | cons (connective : Connective) (operand : Operand) (rest : Tail)

end

/-! ## Tokens -/

/-- The letter in an attribute prefix, nothing if the method is left out. -/
def keyLetter (method : Option Method) : String :=
  (method.map Method.letter).getD ""

def methodTokens (letter : Option String) : List TokenKind :=
  (letter.map .method).toList

/-- The tokens that a leaf yields. -/
def LeafForm.tokens : LeafForm → List TokenKind
  | name axis method value =>
    axis.token :: .equals :: methodTokens (method.map Method.letter) ++ [.literal value]
  | .attribute keyMethod key method value =>
    .attribute (keyLetter keyMethod) :: .literal key :: .equals ::
      methodTokens (method.map Method.letter) ++ [.literal value]
  | data method value =>
    .data :: .equals :: methodTokens (method.map DataMethod.letter) ++ [.literal value]

mutual

/-- The tokens that an operand yields. -/
def Operand.tokens : Operand → List TokenKind
  | .leaf form => form.tokens
  | .group body => .openParen :: body.tokens ++ [.closeParen]

/-- The tokens that a body yields. -/
def Body.tokens : Body → List TokenKind
  | .chain first rest => first.tokens ++ rest.tokens

/-- The tokens that connectives with their operands yield. -/
def Tail.tokens : Tail → List TokenKind
  | .nil => []
  | .cons c operand rest => c.token :: operand.tokens ++ rest.tokens

end

/-! ## Expressions -/

/-- The leaf that is meant; a missing method stands for `fixed`, and for `regex` over content. -/
def LeafForm.leaf : LeafForm → Leaf
  | name axis method value => .name axis (method.getD .fixed) value
  | .attribute keyMethod key method value =>
    .attribute key (keyMethod.getD .fixed) value (method.getD .fixed)
  | data method value => .data (method.getD .regex) value

mutual

/-- The expression of an operand. -/
def Operand.expr : Operand → Expr
  | .leaf form => .leaf form.leaf
  | .group body => .group body.expr

/-- The expression of a body. -/
def Body.expr : Body → Expr
  | .chain first rest => rest.fold first.expr

/-- Connectives with their operands folded to the left, onto an expression. -/
def Tail.fold (left : Expr) : Tail → Expr
  | .nil => left
  | .cons c operand rest => rest.fold (.join c left operand.expr)

end

/-! ## A body and one more operand -/

/-- A connective and an operand put last. -/
def Tail.snoc : Tail → Connective → Operand → Tail
  | .nil, c, operand => .cons c operand .nil
  | .cons d first rest, c, operand => .cons d first (rest.snoc c operand)

/-- A connective and an operand put last. -/
def Body.snoc : Body → Connective → Operand → Body
  | .chain first rest, c, operand => .chain first (rest.snoc c operand)

theorem Tail.tokens_snoc (rest : Tail) (c : Connective) (operand : Operand) :
    (rest.snoc c operand).tokens = rest.tokens ++ c.token :: operand.tokens := by
  match rest with
  | .nil => simp [Tail.snoc, Tail.tokens]
  | .cons d first rest => simp [Tail.snoc, Tail.tokens, rest.tokens_snoc c operand]

theorem Tail.fold_snoc (rest : Tail) (left : Expr) (c : Connective) (operand : Operand) :
    (rest.snoc c operand).fold left = .join c (rest.fold left) operand.expr := by
  match rest with
  | .nil => rfl
  | .cons d first rest =>
    simp only [Tail.snoc, Tail.fold]
    exact rest.fold_snoc _ c operand

theorem Body.tokens_snoc (body : Body) (c : Connective) (operand : Operand) :
    (body.snoc c operand).tokens = body.tokens ++ c.token :: operand.tokens := by
  match body with
  | .chain first rest => simp [Body.snoc, Body.tokens, Tail.tokens_snoc]

theorem Body.expr_snoc (body : Body) (c : Connective) (operand : Operand) :
    (body.snoc c operand).expr = .join c body.expr operand.expr := by
  match body with
  | .chain first rest => simp [Body.snoc, Body.expr, Tail.fold_snoc]

/-! ## Unambiguity -/

/-- No connective comes next. -/
def Stops (s : List TokenKind) : Prop :=
  s.head?.bind ParseState.connective? = none

theorem stops_nil : Stops [] := rfl

theorem stops_closeParen (s : List TokenKind) : Stops (.closeParen :: s) := rfl

theorem not_stops_token (c : Connective) (s : List TokenKind) : ¬ Stops (c.token :: s) := by
  cases c <;> simp [Stops, Connective.token, ParseState.connective?]

theorem methodTokens_append_inj {a b : Option String} {v w : String} {s t : List TokenKind}
    (h : methodTokens a ++ .literal v :: s = methodTokens b ++ .literal w :: t) :
    a = b ∧ v = w ∧ s = t := by
  cases a <;> cases b <;> simp_all [methodTokens]

theorem keyLetter_injective {m n : Option Method} (h : keyLetter m = keyLetter n) : m = n := by
  cases m with
  | none =>
    cases n with
    | none => rfl
    | some n => cases n <;> simp [keyLetter, Method.letter] at h
  | some m =>
    cases n with
    | none => cases m <;> simp [keyLetter, Method.letter] at h
    | some n => exact congrArg some (Method.letter_injective h)

/-- The tokens of a leaf determine it, whatever follows them. -/
theorem LeafForm.eq_of_append {a b : LeafForm} {s t : List TokenKind}
    (h : a.tokens ++ s = b.tokens ++ t) : a = b ∧ s = t := by
  match a, b with
  | .name axis method value, .name axis' method' value' =>
    simp only [LeafForm.tokens, List.cons_append, List.append_assoc, List.cons.injEq,
      List.nil_append, true_and] at h
    obtain ⟨haxis, hrest⟩ := h
    obtain ⟨hmethod, rfl, rfl⟩ := methodTokens_append_inj hrest
    obtain rfl := Option.map_injective Method.letter_injective hmethod
    obtain rfl := Axis.token_injective haxis
    exact ⟨rfl, rfl⟩
  | .attribute keyMethod key method value, .attribute keyMethod' key' method' value' =>
    simp only [LeafForm.tokens, List.cons_append, List.append_assoc, List.cons.injEq,
      List.nil_append, true_and, TokenKind.attribute.injEq, TokenKind.literal.injEq] at h
    obtain ⟨hkey, rfl, hrest⟩ := h
    obtain rfl := keyLetter_injective hkey
    obtain ⟨hmethod, rfl, rfl⟩ := methodTokens_append_inj hrest
    obtain rfl := Option.map_injective Method.letter_injective hmethod
    exact ⟨rfl, rfl⟩
  | .data method value, .data method' value' =>
    simp only [LeafForm.tokens, List.cons_append, List.append_assoc, List.cons.injEq,
      List.nil_append, true_and] at h
    obtain ⟨hmethod, rfl, rfl⟩ := methodTokens_append_inj h
    obtain rfl := Option.map_injective DataMethod.letter_injective hmethod
    exact ⟨rfl, rfl⟩
  | .name axis .., .attribute .. | .name axis .., .data .. =>
    cases axis <;> simp [LeafForm.tokens, Axis.token] at h
  | .attribute .., .name axis .. | .data .., .name axis .. =>
    cases axis <;> simp [LeafForm.tokens, Axis.token] at h
  | .attribute .., .data .. | .data .., .attribute .. => simp [LeafForm.tokens] at h

/-- No leaf starts with a parenthesis. -/
theorem LeafForm.append_ne_openParen (form : LeafForm) {s t : List TokenKind} :
    form.tokens ++ s ≠ .openParen :: t := by
  match form with
  | .name axis method value => cases axis <;> simp [LeafForm.tokens, Axis.token]
  | .attribute keyMethod key method value => simp [LeafForm.tokens]
  | .data method value => simp [LeafForm.tokens]

mutual

theorem Operand.eq_of_append (a b : Operand) {s t : List TokenKind}
    (h : a.tokens ++ s = b.tokens ++ t) : a = b ∧ s = t := by
  match a, b with
  | .leaf f, .leaf g =>
    obtain ⟨rfl, rfl⟩ := LeafForm.eq_of_append h
    exact ⟨rfl, rfl⟩
  | .leaf f, .group body => exact absurd h (LeafForm.append_ne_openParen f)
  | .group body, .leaf g => exact absurd h.symm (LeafForm.append_ne_openParen g)
  | .group body, .group body' =>
    simp only [Operand.tokens, List.cons_append, List.append_assoc, List.cons.injEq, true_and,
      List.nil_append] at h
    obtain ⟨rfl, hst⟩ := Body.eq_of_append body body' (stops_closeParen s) (stops_closeParen t) h
    exact ⟨rfl, (List.cons.inj hst).2⟩

theorem Body.eq_of_append (a b : Body) {s t : List TokenKind} (hs : Stops s) (ht : Stops t)
    (h : a.tokens ++ s = b.tokens ++ t) : a = b ∧ s = t := by
  match a, b with
  | .chain first rest, .chain first' rest' =>
    simp only [Body.tokens, List.append_assoc] at h
    obtain ⟨rfl, hrest⟩ := Operand.eq_of_append first first' h
    obtain ⟨rfl, rfl⟩ := Tail.eq_of_append rest rest' hs ht hrest
    exact ⟨rfl, rfl⟩

theorem Tail.eq_of_append (a b : Tail) {s t : List TokenKind} (hs : Stops s) (ht : Stops t)
    (h : a.tokens ++ s = b.tokens ++ t) : a = b ∧ s = t := by
  match a, b with
  | .nil, .nil => exact ⟨rfl, h⟩
  | .nil, .cons c operand rest =>
    simp only [Tail.tokens, List.nil_append, List.cons_append] at h
    rw [h] at hs
    exact absurd hs (not_stops_token c _)
  | .cons c operand rest, .nil =>
    simp only [Tail.tokens, List.nil_append, List.cons_append] at h
    rw [← h] at ht
    exact absurd ht (not_stops_token c _)
  | .cons c operand rest, .cons c' operand' rest' =>
    simp only [Tail.tokens, List.cons_append, List.append_assoc, List.cons.injEq] at h
    obtain ⟨hc, h⟩ := h
    obtain rfl := Connective.token_injective hc
    obtain ⟨rfl, hrest⟩ := Operand.eq_of_append operand operand' h
    obtain ⟨rfl, rfl⟩ := Tail.eq_of_append rest rest' hs ht hrest
    exact ⟨rfl, rfl⟩

end

/-- A body is determined by its tokens. -/
theorem Body.eq_of_tokens {a b : Body} (h : a.tokens = b.tokens) : a = b := by
  have happend : a.tokens ++ [] = b.tokens ++ [] := by rw [h]
  exact (Body.eq_of_append a b stops_nil stops_nil happend).1

end Grammar
end NodeQuery.Query
