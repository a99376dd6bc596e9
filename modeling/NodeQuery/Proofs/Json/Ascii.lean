import NodeQuery.Proofs.Json.RoundTrip
/-!
JSON text is written in printed ASCII and line feeds alone (`isPrinted_write`), so neither the
encoding of a file nor its line ends can change it.
-/
namespace NodeQuery.Json
open Binary64

/-- A line feed or a printed character of ASCII. -/
def IsPrinted (c : Char) : Prop :=
  c = '\n' ∨ 32 ≤ c.toNat ∧ c.toNat < 127

instance (c : Char) : Decidable (IsPrinted c) :=
  inferInstanceAs (Decidable (_ ∨ _))

/-- Printed words are recognized character by character. -/
theorem isPrinted_of_all {word : List Char} (h : word.all (IsPrinted ·) = true) :
    ∀ c ∈ word, IsPrinted c := by
  simpa using h

theorem isPrinted_of_isDigit {c : Char} (h : c.isDigit = true) : IsPrinted c := by
  have hbounds : 48 ≤ c.toNat ∧ c.toNat ≤ 57 := by
    simpa [Char.isDigit, Char.le_def, UInt32.le_iff_toNat_le] using h
  exact .inr (by omega)

theorem isPrinted_digitChar {n : ℕ} (h : n < 16) : IsPrinted n.digitChar := by
  revert n
  decide

/-! ## Numbers -/

theorem isPrinted_exponent (x : Numeral) : ∀ c ∈ x.exponent, IsPrinted c := by
  cases hpower : x.power with
  | none => simp [Numeral.exponent, hpower]
  | some e =>
    obtain ⟨digits, -, hdigits, -, htext⟩ := exponentText_eq e
    have hsign : IsPrinted (if e < 0 then '-' else '+') := by split <;> decide
    rw [Numeral.exponent, hpower, Option.elim_some, htext]
    rintro c (_ | ⟨_, _ | ⟨_, hc⟩⟩)
    · decide
    · exact hsign
    · exact isPrinted_of_isDigit (hdigits c hc)

theorem isPrinted_numeral {negative : Bool} {x : Numeral} (hvalid : x.Valid) :
    ∀ c ∈ signChars negative ++ x.chars, IsPrinted c := by
  have hfraction : ∀ c ∈ x.fraction, IsPrinted c := by
    unfold Numeral.fraction
    split
    · simp
    · rintro c (_ | ⟨_, hc⟩)
      · decide
      · exact isPrinted_of_isDigit (hvalid.isDigit_places c hc)
  intro c hc
  simp only [Numeral.chars, List.mem_append] at hc
  rcases hc with hc | hc | hc | hc
  · cases negative with
    | true =>
      obtain rfl : c = '-' := by simpa [signChars] using hc
      decide
    | false => simp [signChars] at hc
  · exact isPrinted_of_isDigit (hvalid.isDigit_whole c hc)
  · exact hfraction c hc
  · exact isPrinted_exponent x c hc

/-! ## Texts -/

theorem isPrinted_unitEscape {code : ℕ} (h : code < 0x10000) :
    ∀ c ∈ (unitEscape code).toList, IsPrinted c := by
  have hdigit (n : ℕ) : IsPrinted (n % 16).digitChar :=
    isPrinted_digitChar (Nat.mod_lt _ (by decide))
  have hfirst : IsPrinted (code / 16 / 16 / 16).digitChar := isPrinted_digitChar (by omega)
  rw [unitEscape, String.toList_append, hex_four h]
  simp only [List.mem_append, List.mem_cons, List.not_mem_nil, or_false]
  rintro c (hc | rfl | rfl | rfl | rfl)
  · exact isPrinted_of_all (by decide) c hc
  · exact hfirst
  all_goals exact hdigit _

theorem isPrinted_writeChar (c : Char) : ∀ d ∈ (writeChar c).toList, IsPrinted d := by
  have hvalid : c.toNat < 0xD800 ∨ 0xDFFF < c.toNat ∧ c.toNat < 0x110000 := c.valid
  unfold writeChar
  split
  case h_8 =>
    dsimp only
    split
    · next hplain =>
      intro d hd
      obtain rfl : d = c := by simpa using hd
      exact .inr hplain
    · split
      · exact isPrinted_unitEscape ‹_›
      · rw [String.toList_append]
        intro d hd
        rcases List.mem_append.1 hd with hd | hd
        · exact isPrinted_unitEscape (by omega) d hd
        · exact isPrinted_unitEscape (by omega) d hd
  all_goals exact isPrinted_of_all (by decide)

theorem isPrinted_writeText (s : String) : ∀ c ∈ (writeText s).toList, IsPrinted c := by
  rw [writeText_toList]
  rintro c (_ | ⟨_, hc⟩)
  · decide
  · rcases List.mem_append.1 hc with hc | hc
    · obtain ⟨d, -, hd⟩ := List.mem_flatMap.1 hc
      exact isPrinted_writeChar d c hd
    · obtain rfl : c = '"' := by simpa using hc
      decide

/-! ## Values -/

theorem isPrinted_lineStart (depth : ℕ) : ∀ c ∈ (lineStart depth).toList, IsPrinted c := by
  intro c hc
  rcases mem_lineStart hc with rfl | rfl <;> decide

theorem isPrinted_linesText (depth : ℕ) {lines : List String}
    (h : ∀ line ∈ lines, ∀ c ∈ line.toList, IsPrinted c) :
    ∀ c ∈ linesText depth lines, IsPrinted c := by
  induction lines with
  | nil => simp [linesText]
  | cons line lines ih =>
    have hline := h line List.mem_cons_self
    have hlines := ih fun l hl => h l (List.mem_cons_of_mem _ hl)
    cases lines with
    | nil =>
      rw [linesText_singleton]
      exact hline
    | cons next more =>
      rw [linesText_cons_cons]
      simp only [List.mem_append, List.mem_cons]
      rintro c (hc | rfl | hc | hc)
      · exact hline c hc
      · decide
      · exact isPrinted_lineStart depth c hc
      · exact hlines c hc

theorem isPrinted_writeReal {x : Binary64} (h : x.IsDouble) :
    ∀ c ∈ (writeReal x).toList, IsPrinted c := by
  cases x with
  | nan => exact isPrinted_of_all (by decide)
  | infinite negative => cases negative <;> exact isPrinted_of_all (by decide)
  | finite negative q =>
    obtain ⟨x, hvalid, htext, -⟩ := exists_numeral_real h negative
    rw [htext]
    exact isPrinted_numeral hvalid

/-- The parts of a value between brackets are printed if its lines are. -/
theorem isPrinted_block {opening closing : Char} (hopening : IsPrinted opening)
    (hclosing : IsPrinted closing) (depth : ℕ) {lines : List String}
    (h : ∀ line ∈ lines, ∀ c ∈ line.toList, IsPrinted c) :
    ∀ c ∈ opening :: ((lineStart (depth + 1)).toList ++
      (linesText (depth + 1) lines ++ ((lineStart depth).toList ++ [closing]))), IsPrinted c := by
  simp only [List.mem_cons, List.mem_append, List.not_mem_nil, or_false]
  rintro c (rfl | hc | hc | hc | rfl)
  · exact hopening
  · exact isPrinted_lineStart _ c hc
  · exact isPrinted_linesText _ h c hc
  · exact isPrinted_lineStart _ c hc
  · exact hclosing

mutual

theorem isPrinted_write : (value : Json) → value.Storable → (depth : ℕ) →
    ∀ c ∈ (value.write depth).toList, IsPrinted c
  | .null, _, _ => by
    rw [write]
    exact isPrinted_of_all (by decide)
  | .bool b, _, _ => by
    rw [write]
    cases b <;> exact isPrinted_of_all (by decide)
  | .int n, _, _ => by
    obtain ⟨negative, x, hvalid, htext, -⟩ := exists_numeral_int n
    rw [write, htext]
    exact isPrinted_numeral hvalid
  | .real x, h, _ => by
    rw [write]
    exact isPrinted_writeReal h
  | .text s, _, _ => by
    rw [write]
    exact isPrinted_writeText s
  | .list [], _, _ => by
    rw [write]
    exact isPrinted_of_all (by decide)
  | .list (item :: items), h, depth => by
    rw [write_list]
    exact isPrinted_block (by decide) (by decide) depth
      (isPrinted_writeItems (item :: items) h (depth + 1))
  | .object [], _, _ => by
    rw [write]
    exact isPrinted_of_all (by decide)
  | .object (member :: members), h, depth => by
    rw [write_object]
    exact isPrinted_block (by decide) (by decide) depth
      (isPrinted_writeMembers (member :: members) h.2 (depth + 1))

theorem isPrinted_writeItems : (items : List Json) → StorableItems items → (depth : ℕ) →
    ∀ line ∈ writeItems depth items, ∀ c ∈ line.toList, IsPrinted c
  | [], _, _ => by simp [writeItems]
  | item :: items, h, depth => by
    rw [writeItems]
    rintro line (_ | ⟨_, hline⟩)
    · exact isPrinted_write item h.1 depth
    · exact isPrinted_writeItems items h.2 depth line hline

theorem isPrinted_writeMembers : (members : List (String × Json)) → StorableMembers members →
    (depth : ℕ) → ∀ line ∈ writeMembers depth members, ∀ c ∈ line.toList, IsPrinted c
  | [], _, _ => by simp [writeMembers]
  | (name, value) :: members, h, depth => by
    rw [writeMembers]
    rintro line (_ | ⟨_, hline⟩)
    · simp only [String.toList_append, List.mem_append]
      rintro c ((hc | hc) | hc)
      · exact isPrinted_writeText name c hc
      · exact isPrinted_of_all (by decide) c hc
      · exact isPrinted_write value h.1 depth c hc
    · exact isPrinted_writeMembers members h.2 depth line hline

end

end NodeQuery.Json
