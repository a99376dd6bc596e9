import NodeQuery.Proofs.Query.Completion
/-!
The end token stops the reading. There a reading is done, or something else is expected
(`step_last`), so no step leads on over an end token, whatever letters and texts the tokens before
it carry. A run comes to its outcome at the first end token at the latest, and what follows this
token is never looked at (`parseTokens_throughEnd`).
-/
namespace NodeQuery.Query

/-- The failure is about a letter. The token of such a letter has been passed when it is refused. -/
def refusesLetter : Failure → Bool
  | .query (.malformed (.methodNotAllowed ..) _) | .fault (.missingKey _) => true
  | _ => false

/-- The place of the first end token. -/
def endPlace (tokens : List Token) : Nat :=
  tokens.findIdx fun t => t.kind = .last

namespace ParseState

/-- The number of tokens that a run passes. The token at which it stops is not passed, unless its
letter is refused. -/
def passed : ParseState → List Token → Nat
  | _, [] => 0
  | s, t :: rest =>
    match s.step t with
    | .next s' => s'.passed rest + 1
    | .done _ => 0
    | .fail failure => if refusesLetter failure then 1 else 0

section
variable {s s' : ParseState} {t : Token}

/-! ## Steps -/

/-- An end token ends the reading, or it stands where something else is expected. -/
theorem step_last (s : ParseState) (h : t.kind = .last) :
    (∃ e, s.step t = .done e) ∨ ∃ expected, s.step t = unexpected expected t := by
  obtain ⟨w, outer, expects⟩ := s
  cases expects with
  | operand => exact .inr ⟨.operand, by simp [step, onOperand, h]⟩
  | key method => exact .inr ⟨.literal, by simp [step, h]⟩
  | equals head => exact .inr ⟨.equals, by simp [step, h]⟩
  | value head => exact .inr ⟨.literal, by simp [step, h]⟩
  | literal slot => exact .inr ⟨.literal, by simp [step, h]⟩
  | connective left =>
    cases outer with
    | nil => exact .inl ⟨left, by simp [step, onConnective, connective?, h]⟩
    | cons v outer => exact .inr ⟨.close, by simp [step, onConnective, connective?, h]⟩

theorem step_ne_next_of_last (h : t.kind = .last) : s.step t ≠ .next s' := by
  intro hstep
  exact (step_eq_next_iff.1 hstep).ne_last h

/-- A step fails because of its token and never because the reading has no end. -/
theorem step_ne_endless : s.step t ≠ .fail .endless := by
  intro h
  rcases step_eq_fail h with ⟨cause, hcause⟩ | ⟨word, hword⟩ | ⟨letter, hk, hnone⟩
  · cases hcause
  · cases hword
  · obtain ⟨w, outer, expects⟩ := s
    cases expects with
    | connective left => cases outer <;> simp [step, onConnective, unexpected, connective?, hk] at h
    | _ => simp [step, onOperand, unexpected, hk, hnone] at h

/-! ## Runs -/

theorem run_ne_endless (s : ParseState) (ts : List Token) : s.run ts ≠ .fail .endless := by
  rcases run_cases s ts with ⟨s', -, hnext⟩ | ⟨front, t, rest, s', -, -, hrun, -⟩
  · rw [hnext]
    simp
  · rw [hrun]
    exact step_ne_endless

section
variable (s : ParseState) (front more : List Token)

/-- What follows an end token does not matter. -/
theorem run_append_last (h : t.kind = .last) :
    s.run (front ++ t :: more) = s.run (front ++ [t]) := by
  induction front generalizing s with
  | nil =>
    rw [List.nil_append, List.nil_append, run, run]
    cases hstep : s.step t with
    | next s' => exact absurd hstep (step_ne_next_of_last h)
    | _ => rfl
  | cons u front ih =>
    rw [List.cons_append, List.cons_append, run, run]
    cases s.step u with
    | next s' => exact ih s'
    | _ => rfl

/-- No run leads on over an end token. -/
theorem run_ne_next_of_last (h : t.kind = .last) : s.run (front ++ t :: more) ≠ .next s' := by
  intro hrun
  rcases run_cases s (front ++ t :: more) with ⟨_, hleads, -⟩ | ⟨_, u, _, s'', -, -, hstep, hstop⟩
  · apply hleads.ne_last
    rw [← h]
    exact List.mem_map_of_mem (by simp)
  · exact hstop s' (hstep.symm.trans hrun)

/-- An end token is not passed. -/
theorem passed_le_of_last (h : t.kind = .last) : s.passed (front ++ t :: more) ≤ front.length := by
  induction front generalizing s with
  | nil =>
    rw [List.nil_append, passed]
    rcases step_last s h with ⟨e, hstep⟩ | ⟨expected, hstep⟩
    · rw [hstep]
      exact Nat.le_refl 0
    · rw [hstep]
      exact Nat.le_refl 0
  | cons u front ih =>
    rw [List.cons_append, passed, List.length_cons]
    cases s.step u with
    | next s' => exact Nat.succ_le_succ (ih s')
    | done e => exact Nat.zero_le _
    | fail failure =>
      dsimp only
      split <;> omega

end
end
end ParseState

open ParseState

/-- Tokens up to the first end token, that token and what follows it. -/
theorem exists_split_endPlace {tokens : List Token} (h : ∃ t ∈ tokens, t.kind = .last) :
    ∃ front t more, tokens = front ++ t :: more ∧ t.kind = .last ∧
      front.length = endPlace tokens := by
  have hlt : endPlace tokens < tokens.length := by
    rw [endPlace, List.findIdx_lt_length]
    simpa using h
  have hkind : tokens[endPlace tokens].kind = .last :=
    of_decide_eq_true (List.findIdx_getElem (w := hlt))
  refine ⟨tokens.take (endPlace tokens), tokens[endPlace tokens],
    tokens.drop (endPlace tokens + 1), ?_, hkind, ?_⟩
  · rw [List.getElem_cons_drop, List.take_append_drop]
  · rw [List.length_take]
    omega

/-- Tokens with an end token are read to an outcome within the tokens: the run stops there, not for
want of an end, and it does not pass the first end token. The outcome is that of the tokens up to
the first end token. -/
theorem parseTokens_throughEnd (tokens : List Token) (h : ∃ t ∈ tokens, t.kind = .last) :
    (∀ s, run .initial tokens ≠ .next s) ∧ parseTokens tokens ≠ .error .endless ∧
    passed .initial tokens ≤ endPlace tokens ∧
    parseTokens tokens = parseTokens (tokens.take (endPlace tokens + 1)) := by
  obtain ⟨front, t, more, hsplit, hlast, hlength⟩ := exists_split_endPlace h
  have hcut : tokens.take (endPlace tokens + 1) = front ++ [t] := by
    rw [← hlength, hsplit, List.take_length_add_append]
    rfl
  have hstop : ∀ s, run .initial tokens ≠ .next s := by
    intro s
    rw [hsplit]
    exact run_ne_next_of_last .initial front more hlast
  have houtcome : parseTokens tokens = (run .initial tokens).outcome :=
    parseTokens_of_run (by simp [hsplit]) hstop
  refine ⟨hstop, ?_, ?_, ?_⟩
  · rw [houtcome]
    cases hrun : run .initial tokens with
    | next s => exact absurd hrun (hstop s)
    | done e => simp [ParseStep.outcome]
    | fail failure =>
      rw [ParseStep.outcome, ne_eq, Except.error.injEq]
      rintro rfl
      exact run_ne_endless .initial tokens hrun
  · rw [← hlength, hsplit]
    exact passed_le_of_last .initial front more hlast
  · rw [hcut, houtcome, hsplit, run_append_last .initial front more hlast]
    refine (parseTokens_of_run (by simp) fun s => ?_).symm
    exact run_ne_next_of_last .initial front [] hlast

/-- An open parenthesis is left open by the first end token, and closed behind it. -/
def openTokens : List Token :=
  [⟨.openParen, 0⟩, ⟨.attribute "", 1⟩, ⟨.literal "", 11⟩, ⟨.equals, 14⟩, ⟨.literal "b", 17⟩,
    ⟨.last, 20⟩, ⟨.closeParen, 20⟩, ⟨.last, 21⟩, ⟨.and, 22⟩, ⟨.method "zz", 23⟩]

theorem parseTokens_throughEnd_openTokens :
    (∃ t ∈ openTokens, t.kind = .last) ∧
    (∀ s, run .initial openTokens ≠ .next s) ∧ parseTokens openTokens ≠ .error .endless ∧
    passed .initial openTokens ≤ 5 ∧
    parseTokens openTokens = parseTokens
      [⟨.openParen, 0⟩, ⟨.attribute "", 1⟩, ⟨.literal "", 11⟩, ⟨.equals, 14⟩, ⟨.literal "b", 17⟩,
        ⟨.last, 20⟩] := by
  have hlast : ∃ t ∈ openTokens, t.kind = .last := ⟨⟨.last, 20⟩, by decide, rfl⟩
  exact ⟨hlast, parseTokens_throughEnd openTokens hlast⟩

/-- The error stands at the first end token, and a letter before it is refused first. -/
example : parseTokens openTokens = .error (.query (.malformed (.unexpectedToken .close .last) 20)) ∧
    passed .initial [⟨.data, 0⟩, ⟨.equals, 5⟩, ⟨.method "f", 8⟩, ⟨.last, 9⟩] = 3 := ⟨rfl, rfl⟩

end NodeQuery.Query
