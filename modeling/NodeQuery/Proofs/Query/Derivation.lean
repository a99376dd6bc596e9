import NodeQuery.Proofs.Query.Reading
/-!
Reading tokens is deriving them. What has been read is given by the state (`Reads`): for each open
parenthesis a body up to a connective, then a part of an operand or a whole body. So an accepted
list of tokens has a derivation (`exists_body_of_leads`). The other way round, the tokens of a derivation
lead to its expression (`Body.leads`).
-/
namespace NodeQuery.Query

open Grammar ParseState

/-! ## What has been read -/

/-- The tokens of a waiting operand and its connective. -/
inductive WaitingTokens : Waiting → List TokenKind → Prop
  | none : WaitingTokens none []
  | some (body : Body) (c : Connective) :
    WaitingTokens (some (body.expr, c)) (body.tokens ++ [c.token])

/-- The tokens of what waits around the open parentheses. -/
inductive OuterTokens : List Waiting → List TokenKind → Prop
  | nil : OuterTokens [] []
  | cons {w outer before inner} (ho : OuterTokens outer before) (hw : WaitingTokens w inner) :
    OuterTokens (w :: outer) (before ++ inner ++ [.openParen])

/-- The tokens of a head. -/
inductive HeadTokens : Head → List TokenKind → Prop
  | name (axis : Axis) : HeadTokens (.name axis) [axis.token]
  | keyed (method : Option Method) (key : String) :
    HeadTokens (.attribute key (method.getD .fixed)) [.attribute (keyLetter method), .literal key]
  | data : HeadTokens .data [.data]

/-- The tokens of an operand that is not complete. -/
inductive PartTokens : Expects → List TokenKind → Prop
  | operand : PartTokens .operand []
  | key (method : Option Method) :
    PartTokens (.key (method.getD .fixed)) [.attribute (keyLetter method)]
  | equals {head hs} (h : HeadTokens head hs) : PartTokens (.equals head) hs
  | value {head hs} (h : HeadTokens head hs) : PartTokens (.value head) (hs ++ [.equals])
  | literal {head hs letter slot} (h : HeadTokens head hs)
    (hslot : head.withLetter? letter = some slot) :
    PartTokens (.literal slot) (hs ++ [.equals, .method letter])

/-- Which tokens have been read when a state is reached: those around the open parentheses, then
either a waiting operand and a part of the next one, or a whole body. -/
inductive Reads : ParseState → List TokenKind → Prop
  | part {w outer expects before inner ks} (ho : OuterTokens outer before)
    (hw : WaitingTokens w inner) (hp : PartTokens expects ks) :
    Reads ⟨w, outer, expects⟩ (before ++ inner ++ ks)
  | whole {outer before} (ho : OuterTokens outer before) (body : Body) :
    Reads ⟨none, outer, .connective body.expr⟩ (before ++ body.tokens)

theorem HeadTokens.exists_form {head : Head} {hs : List TokenKind} (h : HeadTokens head hs)
    (value : String) : ∃ form : LeafForm, form.tokens = hs ++ [.equals, .literal value] ∧
      form.leaf = head.standard.fill value := by
  cases h with
  | name axis => exact ⟨.name axis none value, rfl, rfl⟩
  | keyed method key => exact ⟨.attribute method key none value, rfl, rfl⟩
  | data => exact ⟨.data none value, rfl, rfl⟩

theorem HeadTokens.exists_form_method {head : Head} {hs : List TokenKind} (h : HeadTokens head hs)
    {letter : String} {slot : Slot} (hslot : head.withLetter? letter = some slot)
    (value : String) :
    ∃ form : LeafForm, form.tokens = hs ++ [.equals, .method letter, .literal value] ∧
      form.leaf = slot.fill value := by
  cases h with
  | name axis =>
    obtain ⟨m, hm, rfl⟩ := Option.map_eq_some_iff.1 hslot
    obtain rfl := Method.ofLetter?_eq_some_iff.1 hm
    exact ⟨.name axis (some m) value, rfl, rfl⟩
  | keyed method key =>
    obtain ⟨m, hm, rfl⟩ := Option.map_eq_some_iff.1 hslot
    obtain rfl := Method.ofLetter?_eq_some_iff.1 hm
    exact ⟨.attribute method key (some m) value, rfl, rfl⟩
  | data =>
    obtain ⟨m, hm, rfl⟩ := Option.map_eq_some_iff.1 hslot
    obtain rfl := DataMethod.ofLetter?_eq_some_iff.1 hm
    exact ⟨.data (some m) value, rfl, rfl⟩

/-- A complete operand joins what waits for it, and the whole is a body. -/
theorem Reads.operand {w : Waiting} {outer : List Waiting} {before inner : List TokenKind}
    (ho : OuterTokens outer before) (hw : WaitingTokens w inner) (operand : Operand) :
    Reads ⟨none, outer, .connective (joined w operand.expr)⟩
      (before ++ inner ++ operand.tokens) := by
  cases hw with
  | none =>
    have h := Reads.whole ho (.chain operand .nil)
    simpa [Body.tokens, Tail.tokens, Body.expr, Tail.fold, joined] using h
  | some body c =>
    have h := Reads.whole ho (body.snoc c operand)
    rw [Body.expr_snoc, Body.tokens_snoc] at h
    simpa [joined] using h

/-- What a move reads is added to what has been read. -/
theorem Reads.move {s s' : ParseState} {k : TokenKind} {read : List TokenKind} (h : Reads s read)
    (hmove : Moves s k s') : Reads s' (read ++ [k]) := by
  cases h with
  | whole ho body =>
    cases hmove with
    | connective c =>
      have h := Reads.part ho (.some body c) .operand
      simpa using h
    | closeParen =>
      cases ho with
      | cons ho hw =>
        have h := Reads.operand ho hw (.group body)
        simpa [Operand.tokens, Operand.expr] using h
  | part ho hw hp =>
    cases hmove with
    | openParen =>
      cases hp
      have h := Reads.part (ho.cons hw) .none .operand
      simpa using h
    | axis axis =>
      cases hp
      rw [List.append_assoc]
      exact .part ho hw (.equals (.name axis))
    | attributePrefix method =>
      cases hp
      rw [List.append_assoc]
      exact .part ho hw (.key method)
    | data =>
      cases hp
      rw [List.append_assoc]
      exact .part ho hw (.equals .data)
    | key =>
      cases hp with
      | key method =>
        rw [List.append_assoc]
        exact .part ho hw (.equals (.keyed method _))
    | equals =>
      cases hp with
      | equals hhead =>
        rw [List.append_assoc]
        exact .part ho hw (.value hhead)
    | method hslot =>
      cases hp with
      | value hhead =>
        have h := Reads.part ho hw (.literal hhead hslot)
        simpa using h
    | value =>
      cases hp with
      | value hhead =>
        obtain ⟨form, htokens, hleaf⟩ := hhead.exists_form _
        have h := Reads.operand ho hw (.leaf form)
        rw [Operand.expr, Operand.tokens, htokens, hleaf] at h
        simpa using h
    | literal =>
      cases hp with
      | literal hhead hslot =>
        obtain ⟨form, htokens, hleaf⟩ := hhead.exists_form_method hslot _
        have h := Reads.operand ho hw (.leaf form)
        rw [Operand.expr, Operand.tokens, htokens, hleaf] at h
        simpa using h
    | connective => cases hp
    | closeParen => cases hp

theorem Reads.leads {s s' : ParseState} {read ks : List TokenKind} (h : Reads s read)
    (hleads : Leads s ks s') : Reads s' (read ++ ks) := by
  induction hleads generalizing read with
  | nil =>
    rw [List.append_nil]
    exact h
  | cons first _ ih =>
    have h' := ih (h.move first)
    rwa [List.append_assoc] at h'

theorem reads_initial : Reads .initial [] :=
  .part .nil .none .operand

/-- Tokens that lead to a whole expression have a derivation. -/
theorem exists_body_of_leads {ks : List TokenKind} {s : ParseState} {e : Expr}
    (h : Leads .initial ks s) (houter : s.outer = []) (hexpects : s.expects = .connective e) :
    ∃ body : Body, body.tokens = ks ∧ body.expr = e := by
  have hreads := reads_initial.leads h
  rw [List.nil_append] at hreads
  cases hreads with
  | part ho hw hp =>
    cases hexpects
    cases hp
  | whole ho body =>
    cases houter
    cases ho
    exact ⟨body, rfl, Expects.connective.inj hexpects⟩

/-! ## Reading a derivation -/

namespace Grammar

theorem LeafForm.leads (form : LeafForm) (w : Waiting) (outer : List Waiting) :
    Leads ⟨w, outer, .operand⟩ form.tokens
      ⟨none, outer, .connective (joined w (.leaf form.leaf))⟩ := by
  match form with
  | .name axis none value => exact .cons (.axis axis) (.cons .equals (.single .value))
  | .name axis (some m) value =>
    have hslot : (Head.name axis).withLetter? m.letter = some (.name axis m) := by
      cases m <;> rfl
    exact .cons (.axis axis) (.cons .equals (.cons (.method hslot) (.single .literal)))
  | .attribute keyMethod key none value =>
    exact .cons (.attributePrefix keyMethod) (.cons .key (.cons .equals (.single .value)))
  | .attribute keyMethod key (some m) value =>
    have hslot : (Head.attribute key (keyMethod.getD .fixed)).withLetter? m.letter =
        some (.attribute key (keyMethod.getD .fixed) m) := by
      cases m <;> rfl
    exact .cons (.attributePrefix keyMethod)
      (.cons .key (.cons .equals (.cons (.method hslot) (.single .literal))))
  | .data none value => exact .cons .data (.cons .equals (.single .value))
  | .data (some m) value =>
    have hslot : Head.data.withLetter? m.letter = some (.data m) := by cases m <;> rfl
    exact .cons .data (.cons .equals (.cons (.method hslot) (.single .literal)))

mutual

theorem Operand.leads (operand : Operand) (w : Waiting) (outer : List Waiting) :
    Leads ⟨w, outer, .operand⟩ operand.tokens
      ⟨none, outer, .connective (joined w operand.expr)⟩ := by
  match operand with
  | .leaf form => exact form.leads w outer
  | .group body =>
    exact .cons .openParen ((body.leads (w :: outer)).append (.single .closeParen))

theorem Body.leads (body : Body) (outer : List Waiting) :
    Leads ⟨none, outer, .operand⟩ body.tokens ⟨none, outer, .connective body.expr⟩ := by
  match body with
  | .chain first rest => exact (first.leads none outer).append (rest.leads first.expr outer)

theorem Tail.leads (rest : Tail) (left : Expr) (outer : List Waiting) :
    Leads ⟨none, outer, .connective left⟩ rest.tokens
      ⟨none, outer, .connective (rest.fold left)⟩ := by
  match rest with
  | .nil => exact .nil
  | .cons c operand rest =>
    exact .cons (.connective c) ((operand.leads (some (left, c)) outer).append
      (rest.leads (.join c left operand.expr) outer))

end

end Grammar

/-! ## Acceptance -/

/-- A query is refused for its form or for an unknown axis. -/
def Refused (outcome : Outcome Expr) : Prop :=
  (∃ cause place, outcome = .error (.query (.malformed cause place))) ∨
  ∃ word place, outcome = .error (.query (.unknownAxis word place))

section
variable {body : List Token} {position : Nat}

/-- A list of tokens with its end token is accepted if it is derived, with the expression of the
derivation. -/
theorem parseTokens_eq_ok_iff_exists_body (hbody : ∀ t ∈ body, t.kind ≠ .last) {e : Expr} :
    parseTokens (body ++ [⟨.last, position⟩]) = .ok e ↔
      ∃ d : Body, d.tokens = body.map Token.kind ∧ d.expr = e := by
  rw [parseTokens_eq_ok_iff hbody]
  constructor
  · rintro ⟨s, hleads, houter, hexpects⟩
    exact exists_body_of_leads hleads houter hexpects
  · rintro ⟨d, htokens, rfl⟩
    have hleads := d.leads []
    rw [htokens] at hleads
    exact ⟨_, hleads, rfl, rfl⟩

/-- Tokens that are not accepted fail on their form or on an unknown axis. -/
theorem parseTokens_error (hbody : ∀ t ∈ body, t.kind ≠ .last)
    (hletters : ∀ t ∈ body, ∀ letter, t.kind = .attribute letter →
      letter ∈ ["", "u", "w", "r", "f"])
    (h : ∀ e, parseTokens (body ++ [⟨.last, position⟩]) ≠ .ok e) :
    Refused (parseTokens (body ++ [⟨.last, position⟩])) := by
  rcases @parseTokens_cases body position hbody with
    ⟨e, -, -, -, -, hok⟩ | ⟨failure, s, t, ht, hstep, herror⟩
  · exact absurd hok (h e)
  · rw [herror]
    rcases step_eq_fail hstep with ⟨cause, rfl⟩ | ⟨word, rfl⟩ | ⟨letter, hk, hnone⟩
    · exact .inl ⟨cause, t.position, rfl⟩
    · exact .inr ⟨word, t.position, rfl⟩
    · have hmem : t ∈ body := by
        rcases List.mem_append.1 ht with hmem | hmem
        · exact hmem
        · rw [List.mem_singleton.1 hmem] at hk
          cases hk
      have hletter := hletters t hmem letter hk
      simp only [List.mem_cons, List.not_mem_nil, or_false] at hletter
      rcases hletter with rfl | rfl | rfl | rfl | rfl <;> exact absurd hnone (by decide)

/-- Reading decides the grammar. A list of tokens with its end token is read to the expression of
its one derivation; without a derivation it is malformed or names an unknown axis. -/
theorem parseTokens_iff_derivation (hbody : ∀ t ∈ body, t.kind ≠ .last)
    (hletters : ∀ t ∈ body, ∀ letter, t.kind = .attribute letter →
      letter ∈ ["", "u", "w", "r", "f"]) :
    (∀ e, parseTokens (body ++ [⟨.last, position⟩]) = .ok e ↔
      ∃ d : Body, d.tokens = body.map Token.kind ∧ d.expr = e) ∧
    (∀ d d' : Body, d.tokens = body.map Token.kind → d'.tokens = body.map Token.kind → d = d') ∧
    ((¬ ∃ d : Body, d.tokens = body.map Token.kind) →
      Refused (parseTokens (body ++ [⟨.last, position⟩]))) := by
  refine ⟨fun e => parseTokens_eq_ok_iff_exists_body hbody, ?_, ?_⟩
  · intro d d' hd hd'
    exact Body.eq_of_tokens (hd.trans hd'.symm)
  · intro hnone
    refine parseTokens_error hbody hletters fun e hok => hnone ?_
    obtain ⟨d, hd, -⟩ := (parseTokens_eq_ok_iff_exists_body hbody).1 hok
    exact ⟨d, hd⟩

end

/-- The tokens of `name == 'a' or (attribute:w'k' == f'v') and data == 'd'`. -/
def chainTokens : List Token :=
  [⟨.name, 0⟩, ⟨.equals, 5⟩, ⟨.literal "a", 8⟩, ⟨.or, 12⟩, ⟨.openParen, 15⟩, ⟨.attribute "w", 16⟩,
    ⟨.literal "k", 27⟩, ⟨.equals, 31⟩, ⟨.method "f", 34⟩, ⟨.literal "v", 35⟩, ⟨.closeParen, 38⟩,
    ⟨.and, 40⟩, ⟨.data, 44⟩, ⟨.equals, 49⟩, ⟨.literal "d", 52⟩]

theorem parseTokens_iff_derivation_chain :
    (∀ t ∈ chainTokens, t.kind ≠ .last) ∧
    (∀ t ∈ chainTokens, ∀ letter, t.kind = .attribute letter →
      letter ∈ ["", "u", "w", "r", "f"]) ∧
    (∀ e, parseTokens (chainTokens ++ [⟨.last, 55⟩]) = .ok e ↔
      ∃ d : Body, d.tokens = chainTokens.map Token.kind ∧ d.expr = e) ∧
    (∀ d d' : Body, d.tokens = chainTokens.map Token.kind →
      d'.tokens = chainTokens.map Token.kind → d = d') ∧
    ((¬ ∃ d : Body, d.tokens = chainTokens.map Token.kind) →
      Refused (parseTokens (chainTokens ++ [⟨.last, 55⟩]))) := by
  have hbody : ∀ t ∈ chainTokens, t.kind ≠ .last := by decide
  have hletters : ∀ t ∈ chainTokens, ∀ letter, t.kind = .attribute letter →
      letter ∈ ["", "u", "w", "r", "f"] := by
    simp [chainTokens]
  exact ⟨hbody, hletters, parseTokens_iff_derivation hbody hletters⟩

end NodeQuery.Query
