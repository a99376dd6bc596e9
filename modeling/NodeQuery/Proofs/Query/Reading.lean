import NodeQuery.Proofs.Query.Grammar
/-!
The reading of tokens as a transition system. A step that leads on is one of `Moves`
(`step_eq_next_iff`), the other steps end the reading (`step_eq_done_iff`) or fail (`step_eq_fail`).
A list of tokens with its end token is accepted if its moves lead to an expression outside of all
parentheses (`parseTokens_eq_ok_iff`).
-/
namespace NodeQuery.Query

open Grammar

namespace ParseState

theorem methodOfLetter?_eq_some_iff {letter : String} {m : Method} :
    methodOfLetter? letter = some m ↔
      ∃ method : Option Method, letter = keyLetter method ∧ m = method.getD .fixed := by
  unfold methodOfLetter?
  constructor
  · intro h
    split at h
    · next hempty => exact ⟨none, hempty, (Option.some.inj h).symm⟩
    · exact ⟨some m, Method.ofLetter?_eq_some_iff.1 h, rfl⟩
  · rintro ⟨method, rfl, rfl⟩
    cases method with
    | none => rfl
    | some m => cases m <;> rfl

/-! ## Steps -/

/-- The steps that lead on, with the token that each reads. -/
inductive Moves : ParseState → TokenKind → ParseState → Prop
  | openParen {w outer} : Moves ⟨w, outer, .operand⟩ .openParen ⟨none, w :: outer, .operand⟩
  | axis {w outer} (axis : Axis) :
    Moves ⟨w, outer, .operand⟩ axis.token ⟨w, outer, .equals (.name axis)⟩
  | attributePrefix {w outer} (method : Option Method) :
    Moves ⟨w, outer, .operand⟩ (.attribute (keyLetter method))
      ⟨w, outer, .key (method.getD .fixed)⟩
  | data {w outer} : Moves ⟨w, outer, .operand⟩ .data ⟨w, outer, .equals .data⟩
  | key {w outer method key} :
    Moves ⟨w, outer, .key method⟩ (.literal key) ⟨w, outer, .equals (.attribute key method)⟩
  | equals {w outer head} : Moves ⟨w, outer, .equals head⟩ .equals ⟨w, outer, .value head⟩
  | method {w outer head letter slot} (h : head.withLetter? letter = some slot) :
    Moves ⟨w, outer, .value head⟩ (.method letter) ⟨w, outer, .literal slot⟩
  | value {w outer head value} :
    Moves ⟨w, outer, .value head⟩ (.literal value)
      ⟨none, outer, .connective (joined w (.leaf (head.standard.fill value)))⟩
  | literal {w outer slot value} :
    Moves ⟨w, outer, .literal slot⟩ (.literal value)
      ⟨none, outer, .connective (joined w (.leaf (slot.fill value)))⟩
  | connective {w outer left} (c : Connective) :
    Moves ⟨w, outer, .connective left⟩ c.token ⟨some (left, c), outer, .operand⟩
  | closeParen {w w' outer left} :
    Moves ⟨w', w :: outer, .connective left⟩ .closeParen
      ⟨none, outer, .connective (joined w (.group left))⟩

theorem onOperand_eq_next {w : Waiting} {outer : List Waiting} {t : Token} {s' : ParseState}
    (h : onOperand ⟨w, outer, .operand⟩ t = .next s') : Moves ⟨w, outer, .operand⟩ t.kind s' := by
  unfold onOperand at h
  split at h
  · next hk => rw [hk]; cases h; exact .openParen
  · next hk => rw [hk]; cases h; exact .axis .name
  · next hk => rw [hk]; cases h; exact .axis .attributeName
  · next hk => rw [hk]; cases h; exact .data
  · next letter hk =>
    rw [hk]
    split at h
    · next m hm =>
      obtain ⟨method, rfl, rfl⟩ := methodOfLetter?_eq_some_iff.1 hm
      cases h
      exact .attributePrefix method
    · cases h
  · cases h
  · cases h

theorem onConnective_eq_next {w : Waiting} {outer : List Waiting} {left : Expr} {t : Token}
    {s' : ParseState} (h : onConnective ⟨w, outer, .connective left⟩ left t = .next s') :
    Moves ⟨w, outer, .connective left⟩ t.kind s' := by
  unfold onConnective at h
  split at h
  · next c hc =>
    rw [connective?_eq_some_iff.1 hc]
    cases h
    exact .connective c
  · next houter hk =>
    rw [hk]
    cases houter
    cases h
    exact .closeParen
  · cases h
  · cases h
  · cases h

theorem step_eq_next_iff {s s' : ParseState} {t : Token} :
    s.step t = .next s' ↔ Moves s t.kind s' := by
  constructor
  · intro h
    obtain ⟨w, outer, expects⟩ := s
    unfold step at h
    split at h
    · next he => cases he; exact onOperand_eq_next h
    · next he hk => rw [hk]; cases he; cases h; exact .key
    · cases h
    · next he hk => rw [hk]; cases he; cases h; exact .equals
    · cases h
    · next head letter he hk =>
      rw [hk]
      split at h
      · next slot hslot => cases he; cases h; exact .method hslot
      · cases h
    · next he hk => rw [hk]; cases he; cases h; exact .value
    · cases h
    · next he hk => rw [hk]; cases he; cases h; exact .literal
    · cases h
    · next he => cases he; exact onConnective_eq_next h
  · intro h
    obtain ⟨k, position⟩ := t
    cases h with
    | axis axis => cases axis <;> rfl
    | attributePrefix method =>
      simp [step, onOperand, methodOfLetter?_eq_some_iff.2 ⟨method, rfl, rfl⟩]
    | method hslot => simp [step, hslot]
    | connective c => cases c <;> rfl
    | _ => rfl

theorem Moves.ne_last {s s' : ParseState} {k : TokenKind} (h : Moves s k s') : k ≠ .last := by
  cases h with
  | axis axis => cases axis <;> simp [Axis.token]
  | connective c => cases c <;> simp [Connective.token]
  | _ => simp

theorem onOperand_ne_done {s : ParseState} {t : Token} {e : Expr} : s.onOperand t ≠ .done e := by
  intro h
  unfold onOperand at h
  split at h <;> try cases h
  split at h <;> cases h

theorem onConnective_eq_done {s : ParseState} {left e : Expr} {t : Token}
    (h : s.onConnective left t = .done e) : s.outer = [] ∧ left = e ∧ t.kind = .last := by
  unfold onConnective at h
  split at h <;> try cases h
  next houter hk => exact ⟨houter, rfl, hk⟩

theorem step_eq_done_iff {s : ParseState} {t : Token} {e : Expr} :
    s.step t = .done e ↔ s.outer = [] ∧ s.expects = .connective e ∧ t.kind = .last := by
  constructor
  · intro h
    unfold step at h
    split at h
    · exact absurd h onOperand_ne_done
    · cases h
    · cases h
    · cases h
    · cases h
    · split at h <;> cases h
    · cases h
    · cases h
    · cases h
    · cases h
    · next left hexpects =>
      obtain ⟨houter, rfl, hk⟩ := onConnective_eq_done h
      exact ⟨houter, hexpects, hk⟩
  · rintro ⟨houter, hexpects, hk⟩
    simp [step, hexpects, onConnective, houter, hk, connective?]

/-- How a step fails at a token: on the form of the query, on a word that is no axis, or on an
attribute prefix with a letter that is no method. -/
def FailsAt (t : Token) (failure : Failure) : Prop :=
  (∃ cause, failure = .query (.malformed cause t.position)) ∨
  (∃ word, failure = .query (.unknownAxis word t.position)) ∨
  ∃ letter, t.kind = .attribute letter ∧ methodOfLetter? letter = none

theorem failsAt_unexpected {expected : Expected} {t : Token} {failure : Failure}
    (h : unexpected expected t = .fail failure) : FailsAt t failure := by
  cases h
  exact .inl ⟨_, rfl⟩

theorem onOperand_eq_fail {s : ParseState} {t : Token} {failure : Failure}
    (h : s.onOperand t = .fail failure) : FailsAt t failure := by
  unfold onOperand at h
  split at h
  · cases h
  · cases h
  · cases h
  · cases h
  · next letter hk =>
    split at h
    · cases h
    · next hnone => exact .inr (.inr ⟨letter, hk, hnone⟩)
  · next word _ =>
    cases h
    exact .inr (.inl ⟨word, rfl⟩)
  · exact failsAt_unexpected h

theorem onConnective_eq_fail {s : ParseState} {left : Expr} {t : Token} {failure : Failure}
    (h : s.onConnective left t = .fail failure) : FailsAt t failure := by
  unfold onConnective at h
  split at h
  · cases h
  · cases h
  · exact failsAt_unexpected h
  · cases h
  · exact failsAt_unexpected h

theorem step_eq_fail {s : ParseState} {t : Token} {failure : Failure}
    (h : s.step t = .fail failure) : FailsAt t failure := by
  unfold step at h
  split at h
  · exact onOperand_eq_fail h
  · cases h
  · exact failsAt_unexpected h
  · cases h
  · exact failsAt_unexpected h
  · split at h
    · cases h
    · cases h
      exact .inl ⟨_, rfl⟩
  · cases h
  · exact failsAt_unexpected h
  · cases h
  · exact failsAt_unexpected h
  · exact onConnective_eq_fail h

/-! ## Runs -/

/-- The runs that lead on, with the tokens that they read. -/
inductive Leads : ParseState → List TokenKind → ParseState → Prop
  | nil {s} : Leads s [] s
  | cons {s s' s'' k ks} (first : Moves s k s') (rest : Leads s' ks s'') : Leads s (k :: ks) s''

theorem Leads.single {s s' : ParseState} {k : TokenKind} (h : Moves s k s') : Leads s [k] s' :=
  .cons h .nil

theorem Leads.append {s s' s'' : ParseState} {ks ls : List TokenKind} (h : Leads s ks s')
    (h' : Leads s' ls s'') : Leads s (ks ++ ls) s'' := by
  induction h with
  | nil => exact h'
  | cons first _ ih => exact .cons first (ih h')

theorem Leads.ne_last {s s' : ParseState} {ks : List TokenKind} (h : Leads s ks s') :
    .last ∉ ks := by
  induction h with
  | nil => simp
  | cons first _ ih =>
    rw [List.mem_cons, not_or]
    exact ⟨first.ne_last.symm, ih⟩

theorem Leads.run_eq {s s' : ParseState} {ks : List TokenKind} (h : Leads s ks s')
    {ts : List Token} (hts : ts.map Token.kind = ks) (rest : List Token) :
    run s (ts ++ rest) = run s' rest := by
  induction h generalizing ts with
  | nil =>
    rw [List.map_eq_nil_iff.1 hts]
    rfl
  | cons first _ ih =>
    obtain ⟨t, us, rfl, rfl, hus⟩ := List.map_eq_cons_iff.1 hts
    rw [List.cons_append, run, step_eq_next_iff.2 first]
    exact ih hus

/-- A run leads on to the end of the tokens, or to a token at which it comes to an outcome. -/
theorem run_cases (s : ParseState) (ts : List Token) :
    (∃ s', Leads s (ts.map Token.kind) s' ∧ run s ts = .next s') ∨
    ∃ front t rest s', ts = front ++ t :: rest ∧ Leads s (front.map Token.kind) s' ∧
      run s ts = s'.step t ∧ ∀ s'', s'.step t ≠ .next s'' := by
  induction ts generalizing s with
  | nil => exact .inl ⟨s, .nil, rfl⟩
  | cons t ts ih =>
    cases hstep : s.step t with
    | next s' =>
      have hmove := step_eq_next_iff.1 hstep
      have hrun : run s (t :: ts) = run s' ts := by rw [run, hstep]
      rw [hrun]
      rcases ih s' with ⟨s'', hleads, hnext⟩ | ⟨front, u, rest, s'', rfl, hleads, hrest⟩
      · exact .inl ⟨s'', .cons hmove hleads, hnext⟩
      · exact .inr ⟨t :: front, u, rest, s'', rfl, .cons hmove hleads, hrest⟩
    | _ =>
      refine .inr ⟨[], t, ts, s, rfl, .nil, ?_, ?_⟩
      · rw [run, hstep]
      · simp [hstep]

/-! ## Tokens with their end -/

section
variable {body : List Token} {position : Nat}

/-- Tokens that end where their end token is are read to an expression, or a step fails. -/
theorem parseTokens_cases (hbody : ∀ t ∈ body, t.kind ≠ .last) :
    (∃ e s, Leads .initial (body.map Token.kind) s ∧ s.outer = [] ∧ s.expects = .connective e ∧
      parseTokens (body ++ [⟨.last, position⟩]) = .ok e) ∨
    ∃ failure, ∃ s : ParseState, ∃ t ∈ body ++ [⟨.last, position⟩], s.step t = .fail failure ∧
      parseTokens (body ++ [⟨.last, position⟩]) = .error failure := by
  unfold parseTokens
  rw [List.getLast?_concat]
  dsimp only
  rcases run_cases .initial (body ++ [⟨.last, position⟩]) with
    ⟨s', hleads, -⟩ | ⟨front, t, rest, s', hsplit, hleads, hrun, hstop⟩
  · simp at hleads
    exact absurd (by simp) hleads.ne_last
  · rw [hrun]
    cases hstep : s'.step t with
    | next s'' => exact absurd hstep (hstop s'')
    | done e =>
      obtain ⟨houter, hexpects, hlast⟩ := step_eq_done_iff.1 hstep
      obtain rfl : body = front := by
        rcases List.eq_nil_or_concat rest with rfl | ⟨more, u, rfl⟩
        · exact (List.append_inj' hsplit rfl).1
        · rw [List.concat_eq_append, ← List.cons_append, ← List.append_assoc] at hsplit
          have hmem : t ∈ body := by
            rw [(List.append_inj' hsplit rfl).1]
            simp
          exact absurd hlast (hbody t hmem)
      exact .inl ⟨e, s', hleads, houter, hexpects, rfl⟩
    | fail failure =>
      refine .inr ⟨failure, s', t, ?_, hstep, rfl⟩
      rw [hsplit]
      simp

theorem parseTokens_eq_ok_iff (hbody : ∀ t ∈ body, t.kind ≠ .last) {e : Expr} :
    parseTokens (body ++ [⟨.last, position⟩]) = .ok e ↔
      ∃ s, Leads .initial (body.map Token.kind) s ∧ s.outer = [] ∧ s.expects = .connective e := by
  constructor
  · intro h
    rcases parseTokens_cases hbody with
      ⟨e', s, hleads, houter, hexpects, hok⟩ | ⟨_, _, _, _, _, herr⟩
    · rw [hok] at h
      cases h
      exact ⟨s, hleads, houter, hexpects⟩
    · rw [herr] at h
      cases h
  · rintro ⟨s, hleads, houter, hexpects⟩
    have hrun : run .initial (body ++ [⟨.last, position⟩]) = .done e := by
      rw [hleads.run_eq rfl, run, step_eq_done_iff.2 ⟨houter, hexpects, rfl⟩]
    rw [parseTokens, List.getLast?_concat, hrun]

end

end ParseState
end NodeQuery.Query
