import NodeQuery.Proofs.Query.Derivation
import NodeQuery.Proofs.Query.Lexeme
/-!
Cutting a text into tokens, as a relation between the text, the tokens read from its start and the
text that is left (`Lexes`). A cut is made with what is left in view, so texts can be put together
only where the second one leaves the last cut as it is. The lexer finds exactly the tokens that read
a text to its end (`tokensFrom_eq_ok_iff`), and a text is accepted if these tokens have a derivation
(`parse_eq_ok_iff`).
-/
namespace NodeQuery.Query

open Grammar

/-! ## Tokens of a text -/

/-- A lexeme is not empty and does not start with a blank. -/
theorem Lexeme.exists_cons {kind : TokenKind} {w : List Char} (h : Lexeme kind w) :
    ∃ c v, w = c :: v ∧ isBlank c = false := by
  cases h with
  | word hc _ _ =>
    exact ⟨_, _, rfl, isBlank_eq_false_of_isWordChar (isWordChar_of_startsWord hc)⟩
  | method hc =>
    have hstarts := startsWord_of_isMethodLetter hc
    exact ⟨_, _, rfl, isBlank_eq_false_of_isWordChar (isWordChar_of_startsWord hstarts)⟩
  | _ => exact ⟨_, _, rfl, by decide⟩

theorem Lexeme.ne_last {kind : TokenKind} {w : List Char} (h : Lexeme kind w) : kind ≠ .last := by
  cases h <;> simp

/-- The tokens that are read from the start of a text at a position, and the text that is left. -/
inductive Lexes : Nat → List Char → List Token → List Char → Prop
  | nil {position s} : Lexes position s [] s
  | blank {position c s ts rest} (hc : isBlank c = true) (h : Lexes (position + 1) s ts rest) :
    Lexes position (c :: s) ts rest
  | token {position kind w s ts rest} (hw : Lexeme kind w) (hcut : Cuts kind s)
    (h : Lexes (position + w.length) s ts rest) :
    Lexes position (w ++ s) (⟨kind, position⟩ :: ts) rest

theorem Lexes.exists_lexeme {position : Nat} {s rest : List Char} {ts : List Token}
    (h : Lexes position s ts rest) : ∀ t ∈ ts, ∃ w, Lexeme t.kind w := by
  induction h with
  | nil => simp
  | blank _ _ ih => exact ih
  | token hw _ _ ih => exact List.forall_mem_cons.2 ⟨⟨_, hw⟩, ih⟩

theorem Lexes.ne_last {position : Nat} {s rest : List Char} {ts : List Token}
    (h : Lexes position s ts rest) : ∀ t ∈ ts, t.kind ≠ .last := by
  intro t ht
  obtain ⟨w, hw⟩ := h.exists_lexeme t ht
  exact hw.ne_last

/-- The kinds of the tokens that are read from the start of a text, wherever it stands. -/
def Spells (s : List Char) (ks : List TokenKind) (rest : List Char) : Prop :=
  ∀ position, ∃ ts, Lexes position s ts rest ∧ ts.map Token.kind = ks

namespace Spells
variable {s rest : List Char} {ks : List TokenKind}

theorem nil : Spells s [] s :=
  fun _ => ⟨[], .nil, rfl⟩

theorem blank {c : Char} (hc : isBlank c = true) (h : Spells s ks rest) :
    Spells (c :: s) ks rest := by
  intro position
  obtain ⟨ts, hts, hkinds⟩ := h (position + 1)
  exact ⟨ts, .blank hc hts, hkinds⟩

theorem token {kind : TokenKind} {w : List Char} (hw : Lexeme kind w) (hcut : Cuts kind s)
    (h : Spells s ks rest) : Spells (w ++ s) (kind :: ks) rest := by
  intro position
  obtain ⟨ts, hts, hkinds⟩ := h (position + w.length)
  exact ⟨⟨kind, position⟩ :: ts, .token hw hcut hts, by rw [List.map_cons, hkinds]⟩

theorem exists_lexeme (h : Spells s ks rest) : ∀ k ∈ ks, ∃ w, Lexeme k w := by
  obtain ⟨ts, hts, rfl⟩ := h 0
  intro k hk
  obtain ⟨t, ht, rfl⟩ := List.mem_map.1 hk
  exact hts.exists_lexeme t ht

end Spells

theorem Lexes.append_spells {position : Nat} {s t rest : List Char} {ts : List Token}
    {ls : List TokenKind} (h : Lexes position s ts t) (h' : Spells t ls rest) :
    Spells s (ts.map Token.kind ++ ls) rest := by
  induction h with
  | nil => exact h'
  | blank hc _ ih => exact (ih h').blank hc
  | token hw hcut _ ih => exact (ih h').token hw hcut

/-- What a text spells does not depend on where it stands. -/
theorem Lexes.spells {position : Nat} {s rest : List Char} {ts : List Token}
    (h : Lexes position s ts rest) : Spells s (ts.map Token.kind) rest := by
  have happend := h.append_spells .nil
  rwa [List.append_nil] at happend

/-- What is left can be read on. -/
theorem Spells.append {s t rest : List Char} {ks ls : List TokenKind} (h : Spells s ks t)
    (h' : Spells t ls rest) : Spells s (ks ++ ls) rest := by
  obtain ⟨ts, hts, rfl⟩ := h 0
  exact hts.append_spells h'

/-! ## The lexer -/

/-- The rest of a lexeme is passed over. -/
theorem tokensFrom_append (position : Nat) (w s : List Char) :
    tokensFrom w.length position (w ++ s) = tokensFrom 0 (position + w.length) s := by
  induction w generalizing position with
  | nil => rfl
  | cons c w ih =>
    rw [List.length_cons, List.cons_append, tokensFrom, ih, Nat.add_right_comm, Nat.add_assoc]

theorem tokensFrom_blank {position : Nat} {c : Char} {s : List Char} (hc : isBlank c = true) :
    tokensFrom 0 position (c :: s) = tokensFrom 0 (position + 1) s := by
  rw [tokensFrom, if_pos hc]

theorem tokensFrom_lexeme {position : Nat} {kind : TokenKind} {w s : List Char}
    (hw : Lexeme kind w) (hcut : Cuts kind s) :
    tokensFrom 0 position (w ++ s) =
      (tokensFrom 0 (position + w.length) s).map (⟨kind, position⟩ :: ·) := by
  have hlexeme := lexeme?_append hw hcut
  obtain ⟨c, v, rfl, hc⟩ := hw.exists_cons
  rw [List.cons_append] at hlexeme ⊢
  rw [tokensFrom, hc, hlexeme]
  dsimp only
  rw [List.length_cons, Nat.add_sub_cancel, tokensFrom_append, Nat.add_assoc, Nat.add_comm 1]
  simp

/-- The lexer finds the tokens that are read from the start of a text, and then those of what is
left. -/
theorem Lexes.exists_tokensFrom_eq {position : Nat} {s rest : List Char} {ts : List Token}
    (h : Lexes position s ts rest) : ∃ read, s = read ++ rest ∧
      tokensFrom 0 position s = (tokensFrom 0 (position + read.length) rest).map (ts ++ ·) := by
  induction h with
  | @nil position s =>
    refine ⟨[], rfl, ?_⟩
    rw [List.length_nil, Nat.add_zero]
    cases tokensFrom 0 position s <;> rfl
  | @blank position c s ts rest hc _ ih =>
    obtain ⟨read, rfl, hread⟩ := ih
    refine ⟨c :: read, rfl, ?_⟩
    rw [tokensFrom_blank hc, hread, List.length_cons, Nat.add_assoc, Nat.add_comm 1]
  | @token position kind w s ts rest hw hcut _ ih =>
    obtain ⟨read, rfl, hread⟩ := ih
    refine ⟨w ++ read, (List.append_assoc ..).symm, ?_⟩
    rw [tokensFrom_lexeme hw hcut, hread, List.length_append, Nat.add_assoc]
    cases tokensFrom 0 (position + (w.length + read.length)) rest <;> rfl

theorem Lexes.tokensFrom_eq {position : Nat} {s : List Char} {ts : List Token}
    (h : Lexes position s ts []) :
    tokensFrom 0 position s = .ok (ts ++ [⟨.last, position + s.length⟩]) := by
  obtain ⟨read, rfl, hread⟩ := h.exists_tokensFrom_eq
  rw [hread, List.append_nil]
  rfl

/-- Every text can be read up to its end or to a place where no token starts. -/
theorem exists_lexes (position : Nat) (s : List Char) : ∃ ts rest, Lexes position s ts rest ∧
    ∀ c after, rest = c :: after → isBlank c = false ∧ lexeme? (c :: after) = none := by
  induction hn : s.length using Nat.strong_induction_on generalizing position s with
  | _ n ih =>
    subst hn
    cases s with
    | nil => exact ⟨[], [], .nil, fun c after h => by cases h⟩
    | cons c s =>
      by_cases hc : isBlank c = true
      · obtain ⟨ts, rest, hts, hstop⟩ := ih s.length (by simp) (position + 1) s rfl
        exact ⟨ts, rest, .blank hc hts, hstop⟩
      · cases hlexeme : lexeme? (c :: s) with
        | none =>
          refine ⟨[], c :: s, .nil, fun d after h => ?_⟩
          cases h
          exact ⟨Bool.eq_false_iff.2 hc, hlexeme⟩
        | some found =>
          obtain ⟨kind, size⟩ := found
          obtain ⟨w, t, hsplit, rfl, hw, hcut⟩ := lexeme?_eq_some_iff.1 hlexeme
          -- a lexeme is not empty, so what is left after it is shorter
          have hshort : t.length < (c :: s).length := by
            obtain ⟨d, v, rfl, -⟩ := hw.exists_cons
            rw [hsplit, List.length_append, List.length_cons]
            omega
          obtain ⟨ts, rest, hts, hstop⟩ := ih t.length hshort (position + w.length) t rfl
          rw [hsplit]
          exact ⟨_, rest, .token hw hcut hts, hstop⟩

/-- The lexer stops where no token starts. -/
theorem tokensFrom_eq_error {position : Nat} {c : Char} {s : List Char} (hc : isBlank c = false)
    (hlexeme : lexeme? (c :: s) = none) :
    tokensFrom 0 position (c :: s) = .error (lexError c position) := by
  simp [tokensFrom, hc, hlexeme]

/-- A text is cut into tokens to its end, or the lexer stops at a character. -/
theorem tokensFrom_cases (position : Nat) (s : List Char) :
    (∃ ts, Lexes position s ts []) ∨
    ∃ c place, tokensFrom 0 position s = .error (lexError c place) := by
  obtain ⟨ts, rest, hts, hstop⟩ := exists_lexes position s
  cases rest with
  | nil => exact .inl ⟨ts, hts⟩
  | cons c after =>
    obtain ⟨hc, hlexeme⟩ := hstop c after rfl
    obtain ⟨read, -, hread⟩ := hts.exists_tokensFrom_eq
    rw [tokensFrom_eq_error hc hlexeme] at hread
    exact .inr ⟨c, _, hread⟩

/-- The tokens that the lexer finds read the text to its end. -/
theorem exists_lexes_of_tokensFrom (position : Nat) (s : List Char) {ts : List Token}
    (h : tokensFrom 0 position s = .ok ts) : ∃ us, Lexes position s us [] := by
  rcases tokensFrom_cases position s with hlexes | ⟨c, place, hstop⟩
  · exact hlexes
  · rw [hstop] at h
    cases h

/-- The lexer succeeds if some tokens read the text to its end, and then it finds these tokens. -/
theorem tokensFrom_eq_ok_iff {position : Nat} {s : List Char} {ts : List Token} :
    tokensFrom 0 position s = .ok ts ↔
      ∃ us, Lexes position s us [] ∧ ts = us ++ [⟨.last, position + s.length⟩] := by
  constructor
  · intro h
    obtain ⟨us, hus⟩ := exists_lexes_of_tokensFrom position s h
    rw [hus.tokensFrom_eq] at h
    exact ⟨us, hus, (Except.ok.inj h).symm⟩
  · rintro ⟨us, hus, rfl⟩
    exact hus.tokensFrom_eq

/-- A query is read to an expression if its text spells a derivation of the expression. -/
theorem parse_eq_ok_iff {query : String} {e : Expr} :
    parse query = .ok e ↔ ∃ d : Body, Spells query.toList d.tokens [] ∧ d.expr = e := by
  constructor
  · intro h
    unfold parse at h
    split at h
    · next ts hts =>
      obtain ⟨us, hus, rfl⟩ := tokensFrom_eq_ok_iff.1 hts
      obtain ⟨d, hd, rfl⟩ := (parseTokens_eq_ok_iff_exists_body hus.ne_last).1 h
      have hspells := hus.spells
      rw [← hd] at hspells
      exact ⟨d, hspells, rfl⟩
    · cases h
  · rintro ⟨d, hd, rfl⟩
    obtain ⟨us, hus, hkinds⟩ := hd 0
    rw [parse, tokenize, hus.tokensFrom_eq]
    exact (parseTokens_eq_ok_iff_exists_body hus.ne_last).2 ⟨d, hkinds.symm, rfl⟩

end NodeQuery.Query
