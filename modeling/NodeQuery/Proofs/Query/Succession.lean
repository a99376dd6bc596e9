import NodeQuery.Proofs.Query.Spacing
/-!
Which token comes next. A cut is made with a look at what follows, and the next cut finds there what
has been seen: a letter that was cut off before a quote has the literal of that quote behind it, and
`and` is not cut off where blanks and `not` come next (`tokenize_succession`). Any token is found by
passing the tokens before it (`Lexes.exists_at`), and then what is read next is found behind it.
-/
namespace NodeQuery.Query

section
variable {position : Nat} {s rest : List Char} {t u : Token} {before after : List Token}

/-- Any token is cut off at its position. -/
theorem Lexes.exists_at (h : Lexes position s (before ++ t :: after) rest) :
    ∃ read w s', s = read ++ (w ++ s') ∧ t.position = position + read.length ∧
      Lexeme t.kind w ∧ Cuts t.kind s' ∧ Lexes (t.position + w.length) s' after rest := by
  induction before generalizing position s with
  | nil =>
    obtain ⟨blanks, w, s', hs, -, hposition, hrest⟩ := h.exists_first
    exact ⟨blanks, w, s', hs, hposition, hrest⟩
  | cons b before ih =>
    obtain ⟨blanks, v, s', rfl, -, hfirst, -, -, hlexes⟩ := h.exists_first
    obtain ⟨read, w, s'', rfl, hposition, hrest⟩ := ih hlexes
    refine ⟨blanks ++ (v ++ read), w, s'', by simp only [List.append_assoc], ?_, hrest⟩
    rw [hposition, hfirst, List.length_append, List.length_append]
    omega

/-- Where `and` is cut off, the word `not` does not come next. -/
theorem Lexes.kind_ne_not (h : Lexes position s (u :: after) rest) (hcut : Cuts .and s) :
    u.kind ≠ .word "not" := by
  obtain ⟨kind, place⟩ := u
  rintro rfl
  have hkeyword : startsWithKeyword ['n', 'o', 't'] "not".toList = true := by decide
  exact absurd (hkeyword.symm.trans (h.notNot hcut)) (by decide)

/-- A token before the end token, with what follows it. -/
theorem exists_of_append_last {us : List Token} {place : Nat} (ht : t.kind ≠ .last)
    (h : us ++ [⟨.last, place⟩] = before ++ t :: after) :
    ∃ more, us = before ++ t :: more ∧ after = more ++ [⟨.last, place⟩] := by
  rcases List.eq_nil_or_concat after with rfl | ⟨more, u, rfl⟩
  · obtain ⟨-, hlast⟩ := List.append_inj' h rfl
    obtain rfl := List.singleton_inj.1 hlast
    exact absurd rfl ht
  · rw [List.concat_eq_append, ← List.cons_append, ← List.append_assoc] at h
    obtain ⟨hus, hlast⟩ := List.append_inj' h rfl
    exact ⟨more, hus, by rw [List.concat_eq_append, hlast]⟩

end

/-- In the tokens of a text, each token that clings to a literal, be it for the letter of a method or
of an attribute prefix, is followed by a literal. The literal starts where the lexeme of the letter's
token ends. And no token for `and` is followed by the bare word `not`. -/
theorem tokenize_succession {query : String} {ts : List Token} (h : tokenize query = .ok ts) :
    (∀ before t after, ts = before ++ t :: after → t.kind.clings = true →
      ∃ size value more, lexeme? (query.toList.drop t.position) = some (t.kind, size) ∧
        after = ⟨.literal value, t.position + size⟩ :: more) ∧
    ∀ before t u after, ts = before ++ t :: u :: after → t.kind = .and →
      u.kind ≠ .word "not" := by
  obtain ⟨us, hus, rfl⟩ := tokensFrom_eq_ok_iff.1 h
  constructor
  · intro before t after hsplit hclings
    have hlast : t.kind ≠ .last := by
      intro hlast
      rw [hlast] at hclings
      cases hclings
    obtain ⟨rest, rfl, rfl⟩ := exists_of_append_last hlast hsplit
    obtain ⟨read, w, s', hs, hposition, hw, hcut, hlexes⟩ := hus.exists_at
    have hdrop : query.toList.drop t.position = w ++ s' := by
      rw [hs, hposition, Nat.zero_add, List.drop_left]
    obtain ⟨quoted, rfl⟩ := hcut.exists_quote hclings
    obtain ⟨value, more, rfl⟩ := hlexes.exists_literal
    refine ⟨w.length, value, _, ?_, List.cons_append⟩
    rw [hdrop]
    exact lexeme?_append hw hcut
  · intro before t u after hsplit hk hnot
    have hlast : t.kind ≠ .last := by simp [hk]
    obtain ⟨rest, rfl, hafter⟩ := exists_of_append_last hlast hsplit
    obtain ⟨read, w, s', -, -, -, hcut, hlexes⟩ := hus.exists_at
    rw [hk] at hcut
    cases rest with
    | nil =>
      -- the end token is no word
      cases hafter
      cases hnot
    | cons v rest =>
      obtain rfl : u = v := (List.cons.inj hafter).1
      exact hlexes.kind_ne_not hcut hnot

/-- The tokens of a text with a letter of each kind and with `and` before another word. -/
theorem tokenize_succession_photos :
    ∃ ts, tokenize "attribute:w'a*' == f'b' and nothing" = .ok ts ∧
    (∀ before t after, ts = before ++ t :: after → t.kind.clings = true →
      ∃ size value more,
        lexeme? ("attribute:w'a*' == f'b' and nothing".toList.drop t.position) =
          some (t.kind, size) ∧
        after = ⟨.literal value, t.position + size⟩ :: more) ∧
    ∀ before t u after, ts = before ++ t :: u :: after → t.kind = .and →
      u.kind ≠ .word "not" := by
  have h : tokenize "attribute:w'a*' == f'b' and nothing" = .ok
      [⟨.attribute "w", 0⟩, ⟨.literal "a*", 11⟩, ⟨.equals, 16⟩, ⟨.method "f", 19⟩,
        ⟨.literal "b", 20⟩, ⟨.and, 24⟩, ⟨.word "nothing", 28⟩, ⟨.last, 35⟩] := rfl
  exact ⟨_, h, tokenize_succession h⟩

end NodeQuery.Query
