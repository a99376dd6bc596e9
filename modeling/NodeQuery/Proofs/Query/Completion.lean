import Mathlib.Order.Bounds.Defs
import NodeQuery.Proofs.Query.Derivation
/-!
Where the reading of tokens fails. Whatever state a reading is in, some tokens lead from there to a
whole expression (`exists_leads_whole`), so the tokens before a failure can always be completed. The
token at which a step fails cannot be mended by anything that follows it (`parseTokens_of_fail`). So
the place of an error is that of the first token with which no accepted list goes on, and the error
is an unknown axis if and only if that token is a word where an operand may start
(`parseTokens_error_place`).
-/
namespace NodeQuery.Query

open Grammar

/-- The letter that a token carries, if it does, is one that a text can have there. -/
def LetterKnown : TokenKind → Prop
  | .attribute letter => letter ∈ ["", "u", "w", "r", "f"]
  | .method letter => letter ∈ ["u", "w", "r", "f", "t"]
  | _ => True

/-- The outcome of a reading that ends with a step. -/
def ParseStep.outcome : ParseStep → Outcome Expr
  | .done e => .ok e
  | .fail failure => .error failure
  | .next _ => .error .endless

namespace ParseState

/-! ## Completing what has been read -/

/-- A parenthesis for each open one leads to the end of all of them. -/
theorem exists_leads_outside (w : Waiting) (outer : List Waiting) (left : Expr) :
    ∃ w' e, Leads ⟨w, outer, .connective left⟩ (List.replicate outer.length .closeParen)
      ⟨w', [], .connective e⟩ := by
  induction outer generalizing w left with
  | nil => exact ⟨w, left, .nil⟩
  | cons v outer ih =>
    obtain ⟨w', e, hrest⟩ := ih none (joined v (.group left))
    exact ⟨w', e, .cons .closeParen hrest⟩

/-- A leaf that has been begun can be finished. -/
theorem exists_leads_connective (s : ParseState) :
    ∃ ks w outer left, Leads s ks ⟨w, outer, .connective left⟩ ∧ ∀ k ∈ ks, LetterKnown k := by
  obtain ⟨w, outer, expects⟩ := s
  cases expects with
  | operand =>
    refine ⟨[.name, .equals, .literal ""], _, _, _,
      .cons (.axis .name) (.cons .equals (.single .value)), ?_⟩
    simp [LetterKnown]
  | key method =>
    refine ⟨[.literal "", .equals, .literal ""], _, _, _,
      .cons .key (.cons .equals (.single .value)), ?_⟩
    simp [LetterKnown]
  | equals head =>
    refine ⟨[.equals, .literal ""], _, _, _, .cons .equals (.single .value), ?_⟩
    simp [LetterKnown]
  | value head => exact ⟨[.literal ""], _, _, _, .single .value, by simp [LetterKnown]⟩
  | literal slot => exact ⟨[.literal ""], _, _, _, .single .literal, by simp [LetterKnown]⟩
  | connective left => exact ⟨[], w, outer, left, .nil, by simp⟩

/-- No state is a dead end. -/
theorem exists_leads_whole (s : ParseState) :
    ∃ ks w e, Leads s ks ⟨w, [], .connective e⟩ ∧ ∀ k ∈ ks, LetterKnown k := by
  obtain ⟨ks, w, outer, left, hleaf, hks⟩ := exists_leads_connective s
  obtain ⟨w', e, hclose⟩ := exists_leads_outside w outer left
  refine ⟨_, w', e, hleaf.append hclose, ?_⟩
  intro k hk
  rcases List.mem_append.1 hk with hk | hk
  · exact hks k hk
  · rw [List.eq_of_mem_replicate hk]
    simp [LetterKnown]

/-! ## Failing steps -/

/-- The tokens with which an operand starts. -/
def OpensOperand : TokenKind → Prop
  | .openParen | .name | .attributeName | .data | .attribute _ => True
  | _ => False

section
variable {s s' : ParseState} {t : Token} {k : TokenKind} {word : String} {failure : Failure}
  {front : List Token} {position : Nat}

theorem Moves.opensOperand_iff (h : Moves s k s') : OpensOperand k ↔ s.expects = .operand := by
  cases h with
  | axis axis => cases axis <;> simp [OpensOperand, Axis.token]
  | connective c => cases c <;> simp [OpensOperand, Connective.token]
  | _ => simp [OpensOperand]

theorem onConnective_ne_unknownAxis {left : Expr} :
    s.onConnective left t ≠ .fail (.query (.unknownAxis word position)) := by
  intro h
  unfold onConnective at h
  split at h <;> cases h

/-- A word is taken for an axis only where an operand may start. -/
theorem step_eq_unknownAxis (h : s.step t = .fail (.query (.unknownAxis word position))) :
    s.expects = .operand ∧ t.kind = .word word := by
  unfold step at h
  split at h
  · next hexpects =>
    refine ⟨hexpects, ?_⟩
    unfold onOperand at h
    split at h
    · cases h
    · cases h
    · cases h
    · cases h
    · split at h <;> cases h
    · next hk =>
      cases h
      exact hk
    · cases h
  · cases h
  · cases h
  · cases h
  · cases h
  · split at h <;> cases h
  · cases h
  · cases h
  · cases h
  · cases h
  · exact absurd h onConnective_ne_unknownAxis

/-- A reading that stops within its tokens has the outcome of its last step. -/
theorem parseTokens_of_run {tokens : List Token} (hne : tokens ≠ [])
    (hstop : ∀ s, run .initial tokens ≠ .next s) :
    parseTokens tokens = (run .initial tokens).outcome := by
  rw [parseTokens, List.getLast?_eq_some_getLast hne]
  cases hrun : run .initial tokens with
  | next s => exact absurd hrun (hstop s)
  | _ => rfl

/-- The step at which a reading stops decides the outcome. What follows does not matter. -/
theorem parseTokens_of_stop (hleads : Leads .initial (front.map Token.kind) s)
    (hstop : ∀ s', s.step t ≠ .next s') (more : List Token) :
    parseTokens (front ++ t :: more) = (s.step t).outcome := by
  have hrun : run .initial (front ++ t :: more) = s.step t := by
    rw [hleads.run_eq rfl, run]
    cases hstep : s.step t with
    | next s' => exact absurd hstep (hstop s')
    | _ => rfl
  rw [← hrun] at hstop ⊢
  exact parseTokens_of_run (by simp) hstop

theorem parseTokens_of_fail (hleads : Leads .initial (front.map Token.kind) s)
    (hfail : s.step t = .fail failure) (more : List Token) :
    parseTokens (front ++ t :: more) = .error failure := by
  rw [parseTokens_of_stop hleads (by simp [hfail]), hfail]
  rfl

end
end ParseState

open ParseState

/-! ## Accepted lists -/

/-- A list of tokens as it comes from a text: its end token is the last one and the only one, and
its letters are known. -/
structure Proper (tokens : List Token) : Prop where
  ended : ∃ body position, tokens = body ++ [⟨.last, position⟩] ∧ ∀ t ∈ body, t.kind ≠ .last
  letter : ∀ t ∈ tokens, LetterKnown t.kind

/-- Some accepted list starts with the tokens. -/
def Completable (front : List Token) : Prop :=
  ∃ more e, Proper (front ++ more) ∧ parseTokens (front ++ more) = .ok e

/-- An operand may start after the tokens: some accepted list goes on with one. -/
def OperandMayFollow (front : List Token) : Prop :=
  ∃ (operand : Operand) (ts : List Token), ts.map Token.kind = operand.tokens ∧
    Completable (front ++ ts)

section
variable {front tokens : List Token} {s : ParseState} {t : Token} {failure : Failure}

theorem Completable.of_append {more : List Token} (h : Completable (front ++ more)) :
    Completable front := by
  obtain ⟨rest, e, hproper, hok⟩ := h
  rw [List.append_assoc] at hproper hok
  exact ⟨more ++ rest, e, hproper, hok⟩

/-- Tokens that lead on can be completed. -/
theorem completable_of_leads (hletter : ∀ t ∈ front, LetterKnown t.kind)
    (hleads : Leads .initial (front.map Token.kind) s) : Completable front := by
  obtain ⟨ks, w, e, hrest, hks⟩ := exists_leads_whole s
  have hkinds : (front ++ ks.map fun k => (⟨k, 0⟩ : Token)).map Token.kind =
      front.map Token.kind ++ ks := by
    simp [Function.comp_def]
  have hall := hleads.append hrest
  rw [← hkinds] at hall
  have hbody : ∀ t ∈ front ++ ks.map fun k => (⟨k, 0⟩ : Token), t.kind ≠ .last := by
    intro t ht hlast
    apply hall.ne_last
    rw [← hlast]
    exact List.mem_map_of_mem ht
  refine ⟨ks.map (fun k => ⟨k, 0⟩) ++ [⟨.last, 0⟩], e,
    ⟨⟨_, 0, (List.append_assoc ..).symm, hbody⟩, ?_⟩, ?_⟩
  · intro t ht
    simp only [List.mem_append, List.mem_map, List.mem_singleton] at ht
    rcases ht with ht | ⟨k, hk, rfl⟩ | rfl
    · exact hletter t ht
    · exact hks k hk
    · trivial
  · rw [← List.append_assoc]
    exact (parseTokens_eq_ok_iff hbody).2 ⟨_, hall, rfl, rfl⟩

/-- Whether an operand may start is told by the state. -/
theorem operandMayFollow_iff (hletter : ∀ t ∈ front, LetterKnown t.kind)
    (hleads : Leads .initial (front.map Token.kind) s) :
    OperandMayFollow front ↔ s.expects = .operand := by
  constructor
  · rintro ⟨operand, ts, hts, more, e, hproper, hok⟩
    have hoperand := operand.leads none []
    rw [← hts] at hoperand
    cases ts with
    | nil =>
      -- an operand has tokens, for it changes the state
      cases hoperand
    | cons t ts =>
      rw [List.map_cons] at hoperand
      cases hoperand with
      | cons hfirst _ =>
        have hopens := hfirst.opensOperand_iff.2 rfl
        cases hstep : s.step t with
        | next s' => exact (step_eq_next_iff.1 hstep).opensOperand_iff.1 hopens
        | done e' =>
          obtain ⟨-, -, hlast⟩ := step_eq_done_iff.1 hstep
          rw [hlast] at hopens
          exact hopens.elim
        | fail failure =>
          rw [List.append_assoc, List.cons_append, parseTokens_of_fail hleads hstep] at hok
          cases hok
  · intro hexpects
    obtain ⟨w, outer, expects⟩ := s
    obtain rfl : expects = .operand := hexpects
    let operand : Operand := .leaf (.name .name none "")
    let ts : List Token := operand.tokens.map fun k => ⟨k, 0⟩
    have hts : ts.map Token.kind = operand.tokens := by simp [ts, Function.comp_def]
    refine ⟨operand, ts, hts, ?_⟩
    have hall := hleads.append (operand.leads w outer)
    rw [← hts, ← List.map_append] at hall
    refine completable_of_leads (fun t ht => ?_) hall
    rcases List.mem_append.1 ht with ht | ht
    · exact hletter t ht
    · obtain ⟨k, hk, rfl⟩ := List.mem_map.1 ht
      have hall : ∀ k ∈ operand.tokens, LetterKnown k := by
        simp [operand, Operand.tokens, LeafForm.tokens, methodTokens, Axis.token, LetterKnown]
      exact hall k hk

/-- How a step fails at a token whose letter is known. -/
theorem step_eq_fail_cases (hletter : LetterKnown t.kind) (hfail : s.step t = .fail failure) :
    (∃ word, t.kind = .word word ∧ s.expects = .operand ∧
      failure = .query (.unknownAxis word t.position)) ∨
    ¬ ((∃ word, t.kind = .word word) ∧ s.expects = .operand) ∧
      ∃ cause, failure = .query (.malformed cause t.position) := by
  by_cases hword : (∃ word, t.kind = .word word) ∧ s.expects = .operand
  · obtain ⟨⟨word, hk⟩, hexpects⟩ := hword
    have hstep : s.step t = .fail (.query (.unknownAxis word t.position)) := by
      simp [step, onOperand, hexpects, hk]
    rw [hstep, ParseStep.fail.injEq] at hfail
    exact .inl ⟨word, hk, hexpects, hfail.symm⟩
  · refine .inr ⟨hword, ?_⟩
    rcases step_eq_fail hfail with hcause | ⟨word, rfl⟩ | ⟨letter, hk, hnone⟩
    · exact hcause
    · obtain ⟨hexpects, hk⟩ := step_eq_unknownAxis hfail
      exact absurd ⟨⟨word, hk⟩, hexpects⟩ hword
    · rw [hk] at hletter
      simp only [LetterKnown, List.mem_cons, List.not_mem_nil, or_false] at hletter
      rcases hletter with rfl | rfl | rfl | rfl | rfl <;> exact absurd hnone (by decide)

/-- Tokens that are not accepted lead on up to one at which a step fails. -/
theorem Proper.exists_fail (h : Proper tokens) (hfail : parseTokens tokens = .error failure) :
    ∃ front t rest s, tokens = front ++ t :: rest ∧ Leads .initial (front.map Token.kind) s ∧
      s.step t = .fail failure := by
  obtain ⟨body, position, rfl, hbody⟩ := h.ended
  rcases run_cases .initial (body ++ [⟨.last, position⟩]) with
    ⟨s, hleads, -⟩ | ⟨front, t, rest, s, hsplit, hleads, -, hstop⟩
  · -- nothing leads beyond the end token
    exact absurd (by simp) hleads.ne_last
  · refine ⟨front, t, rest, s, hsplit, hleads, ?_⟩
    cases hstep : s.step t with
    | next s' => exact absurd hstep (hstop s')
    | done e =>
      rw [hsplit, parseTokens_of_stop hleads hstop, hstep] at hfail
      cases hfail
    | fail cause =>
      rw [hsplit, parseTokens_of_fail hleads hstep] at hfail
      cases hfail
      rfl

end

/-- Proper tokens that are not accepted fail at the first token with which no accepted list starts:
what stands before it can be completed, and with it nothing can, not even by tokens that are not
proper. The error has the place of this token. It is an unknown axis if the token is a word and an
operand may start there, and a malformation otherwise. -/
theorem parseTokens_error_place {tokens : List Token} (h : Proper tokens) {failure : Failure}
    (hfail : parseTokens tokens = .error failure) :
    ∃ i t, tokens[i]? = some t ∧ IsLeast {j | ¬ Completable (tokens.take (j + 1))} i ∧
      (∀ more e, parseTokens (tokens.take (i + 1) ++ more) ≠ .ok e) ∧
      ((∃ word, t.kind = .word word ∧ OperandMayFollow (tokens.take i) ∧
          failure = .query (.unknownAxis word t.position)) ∨
        ¬ ((∃ word, t.kind = .word word) ∧ OperandMayFollow (tokens.take i)) ∧
          ∃ cause, failure = .query (.malformed cause t.position)) := by
  obtain ⟨front, t, rest, s, rfl, hleads, hstep⟩ := h.exists_fail hfail
  have hletter : ∀ u ∈ front, LetterKnown u.kind :=
    fun u hu => h.letter u (List.mem_append_left _ hu)
  have hbefore : (front ++ t :: rest).take front.length = front := List.take_left
  have hthrough : (front ++ t :: rest).take (front.length + 1) = front ++ [t] := by
    rw [List.take_length_add_append]
    rfl
  have hdead : ∀ more e, parseTokens (front ++ [t] ++ more) ≠ .ok e := by
    intro more e hok
    rw [List.append_assoc, List.cons_append, List.nil_append, parseTokens_of_fail hleads hstep]
      at hok
    cases hok
  refine ⟨front.length, t, by simp, ⟨?_, ?_⟩, ?_, ?_⟩
  · show ¬ Completable ((front ++ t :: rest).take (front.length + 1))
    rw [hthrough]
    rintro ⟨more, e, -, hok⟩
    exact hdead more e hok
  · intro j hj
    by_contra hlt
    apply hj
    have htake : (front ++ t :: rest).take (j + 1) = front.take (j + 1) :=
      List.take_append_of_le_length (by omega)
    have hfront : Completable (front.take (j + 1) ++ front.drop (j + 1)) := by
      rw [List.take_append_drop]
      exact completable_of_leads hletter hleads
    rw [htake]
    exact hfront.of_append
  · rwa [hthrough]
  · rw [hbefore, operandMayFollow_iff hletter hleads]
    exact step_eq_fail_cases (h.letter t (by simp)) hstep

/-- The tokens of `(data == t'd' or size == 'a')`. -/
def sizeTokens : List Token :=
  [⟨.openParen, 0⟩, ⟨.data, 1⟩, ⟨.equals, 6⟩, ⟨.method "t", 9⟩, ⟨.literal "d", 10⟩, ⟨.or, 14⟩,
    ⟨.word "size", 17⟩, ⟨.equals, 22⟩, ⟨.literal "a", 25⟩, ⟨.closeParen, 28⟩, ⟨.last, 29⟩]

theorem parseTokens_error_place_size :
    Proper sizeTokens ∧ parseTokens sizeTokens = .error (.query (.unknownAxis "size" 17)) ∧
    ∃ i t, sizeTokens[i]? = some t ∧ IsLeast {j | ¬ Completable (sizeTokens.take (j + 1))} i ∧
      (∀ more e, parseTokens (sizeTokens.take (i + 1) ++ more) ≠ .ok e) ∧
      ((∃ word, t.kind = .word word ∧ OperandMayFollow (sizeTokens.take i) ∧
          Failure.query (.unknownAxis "size" 17) = .query (.unknownAxis word t.position)) ∨
        ¬ ((∃ word, t.kind = .word word) ∧ OperandMayFollow (sizeTokens.take i)) ∧
          ∃ cause, Failure.query (.unknownAxis "size" 17) =
            .query (.malformed cause t.position)) := by
  have hproper : Proper sizeTokens :=
    { ended := ⟨sizeTokens.dropLast, 29, rfl, by decide⟩
      letter := by simp [sizeTokens, LetterKnown] }
  have hfail : parseTokens sizeTokens = .error (.query (.unknownAxis "size" 17)) := rfl
  exact ⟨hproper, hfail, parseTokens_error_place hproper hfail⟩

/-- The letter of a method that the axis does not know has its own place. -/
example : parseTokens [⟨.name, 0⟩, ⟨.equals, 5⟩, ⟨.method "t", 8⟩, ⟨.literal "a", 9⟩, ⟨.last, 12⟩] =
    .error (.query (.malformed (.methodNotAllowed "t" ["f", "r", "u", "w"]) 8)) := rfl

end NodeQuery.Query
