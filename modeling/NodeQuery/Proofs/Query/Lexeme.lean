import Mathlib.Data.List.TakeWhile
import Mathlib.Tactic.IntervalCases
import NodeQuery.Query.Lexer
/-!
Where a token is cut off. Each kind of token has its lexemes (`Lexeme`), and a lexeme is taken if
what follows it does not belong to it (`Cuts`). The lexer takes exactly these
(`lexeme?_eq_some_iff`).
-/
namespace NodeQuery.Query

/-! ## Characters -/

theorem isWord_eq_false_of_isBlank {code : Nat} (h : Text.isBlank code = true) :
    Text.isWord code = false := by
  obtain ⟨r, hr, hfirst, hlast⟩ := Text.exists_range_of_inRanges h
  simp only [Text.blankRanges, List.mem_cons, List.not_mem_nil, or_false] at hr
  rcases hr with rfl | rfl | rfl | rfl | rfl | rfl | rfl | rfl | rfl | rfl <;>
    (dsimp only at hfirst hlast; interval_cases code <;> decide +kernel)

theorem isBlank_eq_false_of_isWordChar {c : Char} (h : isWordChar c = true) :
    isBlank c = false := by
  cases hblank : isBlank c with
  | false => rfl
  | true =>
    have hword : isWordChar c = false := isWord_eq_false_of_isBlank hblank
    rw [h] at hword
    cases hword

theorem isWordChar_of_startsWord {c : Char} (h : startsWord c = true) : isWordChar c = true := by
  simp only [startsWord, Bool.or_eq_true, beq_iff_eq] at h
  rcases h with hletter | rfl
  · have hascii : c.toNat < 128 := by
      simp [Text.isAsciiLetter] at hletter
      omega
    rw [isWordChar, Text.isWord_eq_isAsciiWord hascii]
    simp [Text.isAsciiWord, hletter]
  · decide

theorem not_mem_signs_of_startsWord {c : Char} (h : startsWord c = true) :
    c ∉ ['=', '(', ')', '\''] := by
  intro hmem
  simp only [List.mem_cons, List.not_mem_nil, or_false] at hmem
  rcases hmem with rfl | rfl | rfl | rfl <;> cases h

theorem isMethodLetter_iff {c : Char} :
    isMethodLetter c = true ↔ c = 'u' ∨ c = 'w' ∨ c = 'r' ∨ c = 'f' ∨ c = 't' := by
  simp [isMethodLetter, isAttributeLetter, or_assoc]

theorem startsWord_of_isMethodLetter {c : Char} (h : isMethodLetter c = true) :
    startsWord c = true := by
  rcases isMethodLetter_iff.1 h with rfl | rfl | rfl | rfl | rfl <;> rfl

theorem isMethodLetter_of_isAttributeLetter {c : Char} (h : isAttributeLetter c = true) :
    isMethodLetter c = true := by
  rw [isMethodLetter, h, Bool.true_or]

/-! ## Beginnings -/

section
variable {p : Char → Bool} {w s : List Char}

theorem takeWhile_append_of_stop (hw : ∀ c ∈ w, p c = true) (hs : s.head?.any p = false) :
    (w ++ s).takeWhile p = w := by
  rw [List.takeWhile_append_of_pos hw]
  cases s with
  | nil => simp
  | cons c s =>
    have hc : p c = false := by simpa using hs
    simp [hc]

theorem dropWhile_append_of_stop (hw : ∀ c ∈ w, p c = true) (hs : s.head?.any p = false) :
    (w ++ s).dropWhile p = s := by
  rw [List.dropWhile_append_of_pos hw]
  cases s with
  | nil => rfl
  | cons c s =>
    have hc : p c = false := by simpa using hs
    simp [hc]

theorem head?_dropWhile_any : (s.dropWhile p).head?.any p = false := by
  have hhead := List.head?_dropWhile_not p s
  cases hdrop : (s.dropWhile p).head? with
  | none => rfl
  | some c => simpa [hdrop] using hhead

end

theorem rest?_eq_some_iff {word s rest : List Char} :
    rest? word s = some rest ↔ s = word ++ rest := by
  induction word generalizing s with
  | nil => simp [rest?, eq_comm]
  | cons c word ih =>
    cases s with
    | nil => simp [rest?]
    | cons d s =>
      by_cases hcd : c = d
      · simp [rest?, hcd, ih]
      · simp [rest?, hcd, eq_comm]

theorem startsWithKeyword_iff {word s : List Char} :
    startsWithKeyword word s = true ↔ ∃ rest, s = word ++ rest ∧ atEdge rest = true := by
  simp [startsWithKeyword, Option.any_eq_true, rest?_eq_some_iff]

/-- Blanks come next, and then the keyword `not`. -/
def goesOnWithNot (s : List Char) : Bool :=
  !(s.takeWhile isBlank).isEmpty && startsWithKeyword ['n', 'o', 't'] (s.dropWhile isBlank)

theorem literalValue?_eq_some_iff {s value : List Char} :
    literalValue? s = some value ↔
      ∃ rest, s = '\'' :: value ++ '\'' :: rest ∧ value ≠ [] ∧ '\'' ∉ value := by
  constructor
  · intro h
    unfold literalValue? at h
    split at h
    · next s =>
      dsimp only at h
      split at h
      · next hcond =>
        cases h
        simp only [Bool.and_eq_true, Bool.not_eq_true', decide_eq_true_eq] at hcond
        obtain ⟨hne, hlength⟩ := hcond
        have hsplit := List.takeWhile_append_dropWhile (p := (· ≠ '\'')) (l := s)
        have hstop := head?_dropWhile_any (p := (· ≠ '\'')) (s := s)
        cases hdrop : s.dropWhile (· ≠ '\'') with
        | nil =>
          rw [hdrop, List.append_nil] at hsplit
          rw [hsplit] at hlength
          exact absurd hlength (Nat.lt_irrefl _)
        | cons c rest =>
          rw [hdrop] at hsplit hstop
          obtain rfl : c = '\'' := by simpa using hstop
          refine ⟨rest, by rw [List.cons_append, hsplit], by simpa using hne, fun hq => ?_⟩
          have hnot := List.mem_takeWhile_imp hq
          simp at hnot
      · cases h
    · cases h
  · rintro ⟨rest, rfl, hne, hq⟩
    have hvalue : (value ++ '\'' :: rest).takeWhile (· ≠ '\'') = value := by
      refine takeWhile_append_of_stop (fun c hc => ?_) (by simp)
      simpa using ne_of_mem_of_not_mem hc hq
    simp only [literalValue?, List.cons_append, hvalue]
    simp [hne]

/-- A word is no keyword and starts with none. -/
def startsReserved (s : List Char) : Bool :=
  startsWithKeyword ['a', 'n', 'd'] s || startsWithKeyword ['o', 'r'] s ||
    startsWithKeyword (attributeWord ++ ['.', 'n', 'a', 'm', 'e']) s ||
    (rest? (attributeWord ++ [':']) s).isSome ||
    startsWithKeyword ['n', 'a', 'm', 'e'] s || startsWithKeyword ['d', 'a', 't', 'a'] s

/-- A bare word ends here. -/
def endsWord (s : List Char) : Bool :=
  !(s.head?.any continuesWord)

theorem atEdge_of_endsWord {s : List Char} (h : endsWord s = true) : atEdge s = true := by
  cases s with
  | nil => rfl
  | cons c s =>
    have hc : continuesWord c = false := by simpa [endsWord] using h
    simp only [continuesWord, Bool.or_eq_false_iff] at hc
    simp [atEdge, hc.1.1]

theorem rest?_append {word v s : List Char} (hword : word.all continuesWord = true)
    (hs : endsWord s = true) : rest? word (v ++ s) = (rest? word v).map (· ++ s) := by
  induction word generalizing v with
  | nil => simp [rest?]
  | cons c word ih =>
    cases v with
    | nil =>
      cases s with
      | nil => simp [rest?]
      | cons d s =>
        have hcd : c ≠ d := by
          rintro rfl
          rw [List.all_cons, Bool.and_eq_true] at hword
          simp [endsWord, hword.1] at hs
        simp [rest?, hcd]
    | cons d v =>
      rw [List.all_cons, Bool.and_eq_true] at hword
      by_cases hcd : c = d
      · simp [rest?, hcd, ih hword.2]
      · simp [rest?, hcd]

theorem startsWithKeyword_append {word v s : List Char}
    (hword : word.all continuesWord = true) (hs : endsWord s = true) :
    startsWithKeyword word (v ++ s) = startsWithKeyword word v := by
  have hedge : ∀ u, atEdge (u ++ s) = atEdge u := by
    intro u
    cases u with
    | nil => exact atEdge_of_endsWord hs
    | cons c u => rfl
  rw [startsWithKeyword, startsWithKeyword, rest?_append hword hs]
  cases rest? word v with
  | none => rfl
  | some u => simp [hedge]

/-- Whether a bare word is reserved does not depend on what follows it. -/
theorem startsReserved_append {v s : List Char} (hs : endsWord s = true) :
    startsReserved (v ++ s) = startsReserved v := by
  simp only [startsReserved]
  rw [startsWithKeyword_append rfl hs, startsWithKeyword_append rfl hs,
    startsWithKeyword_append rfl hs, startsWithKeyword_append rfl hs,
    startsWithKeyword_append rfl hs, rest?_append rfl hs, Option.isSome_map]

/-! ## Lexemes -/

/-- The texts of each kind of token. -/
inductive Lexeme : TokenKind → List Char → Prop
  | or : Lexeme .or ['o', 'r']
  | and : Lexeme .and ['a', 'n', 'd']
  | andNot {blanks : List Char} (hne : blanks ≠ []) (hblank : ∀ c ∈ blanks, isBlank c = true) :
    Lexeme .andNot (['a', 'n', 'd'] ++ blanks ++ ['n', 'o', 't'])
  | openParen : Lexeme .openParen ['(']
  | closeParen : Lexeme .closeParen [')']
  | equals : Lexeme .equals ['=', '=']
  | name : Lexeme .name ['n', 'a', 'm', 'e']
  | attributeName : Lexeme .attributeName (attributeWord ++ ['.', 'n', 'a', 'm', 'e'])
  | data : Lexeme .data ['d', 'a', 't', 'a']
  | attributePlain : Lexeme (.attribute "") (attributeWord ++ [':'])
  | attributeLetter {c : Char} (hc : isAttributeLetter c = true) :
    Lexeme (.attribute (String.ofList [c])) (attributeWord ++ [':', c])
  | method {c : Char} (hc : isMethodLetter c = true) : Lexeme (.method (String.ofList [c])) [c]
  | literal {value : List Char} (hne : value ≠ []) (hq : '\'' ∉ value) :
    Lexeme (.literal (String.ofList value)) ('\'' :: value ++ ['\''])
  | word {c : Char} {v : List Char} (hc : startsWord c = true)
    (hv : ∀ d ∈ v, continuesWord d = true) (hfree : startsReserved (c :: v) = false) :
    Lexeme (.word (String.ofList (c :: v))) (c :: v)

/-- A lexeme of a kind ends here: nothing of what follows belongs to it, and a letter before a
literal stands before one. -/
def Cuts : TokenKind → List Char → Prop
  | .or, s | .andNot, s | .name, s | .attributeName, s | .data, s => atEdge s = true
  | .and, s => atEdge s = true ∧ goesOnWithNot s = false
  | .attribute letter, s =>
    if letter = "" then letterAfterColon s = "" else s.head? = some '\''
  | .method _, s => s.head? = some '\''
  | .word word, s => endsWord s = true ∧
      ∀ c, word = String.ofList [c] → isMethodLetter c = true → s.head? ≠ some '\''
  | .last, _ => False
  | _, _ => True

/-- Blanks and the keyword `not` are found wherever the blanks end. -/
theorem goesOnWithNot_blanks {blanks s : List Char} (hne : blanks ≠ [])
    (hblank : ∀ c ∈ blanks, isBlank c = true) (hs : atEdge s = true) :
    goesOnWithNot (blanks ++ 'n' :: 'o' :: 't' :: s) = true := by
  have hn : ('n' :: 'o' :: 't' :: s).head?.any isBlank = false := rfl
  have htake := takeWhile_append_of_stop hblank hn
  have hdrop := dropWhile_append_of_stop hblank hn
  simp [goesOnWithNot, htake, hdrop, hne, startsWithKeyword, rest?, hs]

theorem andNotLength?_and (s : List Char) : andNotLength? ('a' :: 'n' :: 'd' :: s) =
    if goesOnWithNot s = true then some (3 + (s.takeWhile isBlank).length + 3) else none := by
  simp [andNotLength?, rest?, goesOnWithNot]

/-- The text `and not` starts with the keyword `and`. -/
theorem andNotLength?_eq_none {s : List Char}
    (h : startsWithKeyword ['a', 'n', 'd'] s = false) : andNotLength? s = none := by
  cases hrest : rest? ['a', 'n', 'd'] s with
  | none => simp [andNotLength?, hrest]
  | some t =>
    obtain rfl := rest?_eq_some_iff.1 hrest
    have hedge : atEdge t = false := by simpa [startsWithKeyword, rest?] using h
    have hblank : t.takeWhile isBlank = [] := by
      cases t with
      | nil => rfl
      | cons c t =>
        have hword : isWordChar c = true := by simpa [atEdge] using hedge
        simp [isBlank_eq_false_of_isWordChar hword]
    exact (andNotLength?_and t).trans (by simp [goesOnWithNot, hblank])

/-- What is neither reserved nor a sign nor a literal is a method letter or a bare word. -/
theorem lexeme?_of_not_startsReserved {c : Char} {s : List Char}
    (h : startsReserved (c :: s) = false) (hc : c ∉ ['=', '(', ')', '\'']) :
    lexeme? (c :: s) =
      if isMethodLetter c && s.head? = some '\'' then some (.method (String.ofList [c]), 1)
      else if startsWord c then
        some (.word (String.ofList (c :: s.takeWhile continuesWord)),
          (c :: s.takeWhile continuesWord).length)
      else none := by
  simp only [startsReserved, Bool.or_eq_false_iff] at h
  obtain ⟨⟨⟨⟨⟨hand, hor⟩, hattribute⟩, hprefix⟩, hname⟩, hdata⟩ := h
  simp only [List.mem_cons, List.not_mem_nil, or_false, not_or] at hc
  obtain ⟨hequals, hopen, hclose, hquote⟩ := hc
  have hliteral : literalValue? (c :: s) = none := by simp [literalValue?, hquote]
  rw [Option.isSome_eq_false_iff, Option.isNone_iff_eq_none] at hprefix
  simp [lexeme?, andNotLength?_eq_none hand, hand, hor, hattribute, hprefix, hname, hdata,
    hliteral, hequals, hopen, hclose]

theorem lexeme?_append {kind : TokenKind} {w s : List Char} (hw : Lexeme kind w)
    (hs : Cuts kind s) : lexeme? (w ++ s) = some (kind, w.length) := by
  cases hw with
  | or =>
    have hedge : atEdge s = true := hs
    simp [lexeme?, andNotLength?, rest?, startsWithKeyword, hedge]
  | and =>
    obtain ⟨hedge, hnot⟩ := hs
    simp [lexeme?, andNotLength?_and, hnot, startsWithKeyword, rest?, hedge]
  | andNot hne hblank =>
    rename_i blanks
    have hedge : atEdge s = true := hs
    have hn : ('n' :: 'o' :: 't' :: s).head?.any isBlank = false := rfl
    have h := andNotLength?_and (blanks ++ 'n' :: 'o' :: 't' :: s)
    rw [if_pos (goesOnWithNot_blanks hne hblank hedge), takeWhile_append_of_stop hblank hn] at h
    simp [lexeme?, h]
    omega
  | openParen => simp [lexeme?, andNotLength?, startsWithKeyword, rest?, attributeWord]
  | closeParen => simp [lexeme?, andNotLength?, startsWithKeyword, rest?, attributeWord]
  | equals => simp [lexeme?, andNotLength?, startsWithKeyword, rest?, attributeWord]
  | name =>
    have hedge : atEdge s = true := hs
    simp [lexeme?, andNotLength?, startsWithKeyword, rest?, attributeWord, hedge]
  | attributeName =>
    have hedge : atEdge s = true := hs
    simp [lexeme?, andNotLength?, startsWithKeyword, rest?, attributeWord, hedge]
  | data =>
    have hedge : atEdge s = true := hs
    simp [lexeme?, andNotLength?, startsWithKeyword, rest?, attributeWord, hedge]
  | attributePlain =>
    have hletter : letterAfterColon s = "" := by simpa [Cuts] using hs
    simp [lexeme?, andNotLength?, startsWithKeyword, rest?, attributeWord, hletter]
  | attributeLetter hc =>
    have hquote : s.head? = some '\'' := by simpa [Cuts] using hs
    obtain ⟨rest, rfl⟩ := List.head?_eq_some_iff.1 hquote
    simp [lexeme?, andNotLength?, startsWithKeyword, rest?, attributeWord, letterAfterColon, hc]
  | method hc =>
    rename_i c
    have hquote : s.head? = some '\'' := hs
    have hfree : startsReserved (c :: s) = false ∧ c ∉ ['=', '(', ')', '\''] := by
      rcases isMethodLetter_iff.1 hc with rfl | rfl | rfl | rfl | rfl <;>
        simp [startsReserved, startsWithKeyword, rest?, attributeWord]
    rw [List.singleton_append, lexeme?_of_not_startsReserved hfree.1 hfree.2]
    simp [hc, hquote]
  | literal hne hq =>
    rename_i value
    have hvalue : literalValue? ('\'' :: (value ++ '\'' :: s)) = some value :=
      literalValue?_eq_some_iff.2 ⟨s, rfl, hne, hq⟩
    simp [lexeme?, andNotLength?, startsWithKeyword, rest?, attributeWord, hvalue]
  | word hc hv hfree =>
    rename_i c v
    obtain ⟨hend, hmethod⟩ := hs
    have hsign := not_mem_signs_of_startsWord hc
    have hreserved : startsReserved (c :: (v ++ s)) = false := by
      rw [← List.cons_append, startsReserved_append hend, hfree]
    have hquote : ¬ (isMethodLetter c = true ∧ (v ++ s).head? = some '\'') := by
      rintro ⟨hletter, hhead⟩
      cases v with
      | nil => exact hmethod c rfl hletter hhead
      | cons d v =>
        obtain rfl : d = '\'' := by simpa using hhead
        exact absurd (hv _ List.mem_cons_self) (by decide)
    have hstop : s.head?.any continuesWord = false := by simpa [endsWord] using hend
    rw [List.cons_append, lexeme?_of_not_startsReserved hreserved hsign,
      takeWhile_append_of_stop hv hstop, if_neg (by simpa using hquote), if_pos hc]

theorem andNotLength?_eq_some {s : List Char} {n : Nat} (h : andNotLength? s = some n) :
    ∃ w rest, s = w ++ rest ∧ n = w.length ∧ Lexeme .andNot w ∧ Cuts .andNot rest := by
  cases hrest : rest? ['a', 'n', 'd'] s with
  | none => simp [andNotLength?, hrest] at h
  | some t =>
    obtain rfl := rest?_eq_some_iff.1 hrest
    rw [List.cons_append, List.cons_append, List.cons_append, List.nil_append,
      andNotLength?_and] at h
    split at h
    · next hnot =>
      simp only [goesOnWithNot, Bool.and_eq_true, Bool.not_eq_true', List.isEmpty_eq_false_iff]
        at hnot
      obtain ⟨rest, hdrop, hedge⟩ := startsWithKeyword_iff.1 hnot.2
      refine ⟨_, rest, ?_, ?_, .andNot hnot.1 fun c hc => List.mem_takeWhile_imp hc, hedge⟩
      · rw [List.append_assoc, List.append_assoc, ← hdrop, List.takeWhile_append_dropWhile]
      · simp [← Option.some.inj h]
        omega
    · cases h

theorem letterAfterColon_cases (s : List Char) :
    letterAfterColon s = "" ∨ ∃ c rest, s = c :: '\'' :: rest ∧ isAttributeLetter c = true ∧
      letterAfterColon s = String.ofList [c] := by
  unfold letterAfterColon
  split
  · next c rest =>
    split
    · next hc => exact .inr ⟨c, rest, rfl, hc, rfl⟩
    · exact .inl rfl
  · exact .inl rfl

/-- A bare word is as long as it can be, so it ends there. -/
theorem exists_word {c : Char} {s : List Char} (hc : startsWord c = true)
    (hfree : startsReserved (c :: s) = false)
    (hquote : isMethodLetter c = true → s.head? ≠ some '\'') :
    ∃ rest, c :: s = (c :: s.takeWhile continuesWord) ++ rest ∧
      Lexeme (.word (String.ofList (c :: s.takeWhile continuesWord)))
        (c :: s.takeWhile continuesWord) ∧
      Cuts (.word (String.ofList (c :: s.takeWhile continuesWord))) rest := by
  have hsplit : c :: s = (c :: s.takeWhile continuesWord) ++ s.dropWhile continuesWord := by
    rw [List.cons_append, List.takeWhile_append_dropWhile]
  have hend : endsWord (s.dropWhile continuesWord) = true := by
    rw [endsWord, head?_dropWhile_any, Bool.not_false]
  refine ⟨s.dropWhile continuesWord, hsplit, .word hc (fun d hd => List.mem_takeWhile_imp hd) ?_,
    hend, ?_⟩
  · rw [hsplit, startsReserved_append hend] at hfree
    exact hfree
  · intro d hd hletter
    obtain ⟨rfl, htake⟩ : c = d ∧ s.takeWhile continuesWord = [] := by
      simpa using String.ofList_injective hd
    have hdrop := List.takeWhile_append_dropWhile (p := continuesWord) (l := s)
    rw [htake, List.nil_append] at hdrop
    rw [hdrop]
    exact hquote hletter

/-- A lexeme that is taken is a lexeme of its kind and ends there. -/
theorem lexeme?_eq_some {s : List Char} {kind : TokenKind} {n : Nat}
    (h : lexeme? s = some (kind, n)) :
    ∃ w rest, s = w ++ rest ∧ n = w.length ∧ Lexeme kind w ∧ Cuts kind rest := by
  unfold lexeme? at h
  split at h
  · next hsome =>
    cases h
    exact andNotLength?_eq_some hsome
  next hnone =>
  split at h
  · next hand =>
    cases h
    obtain ⟨rest, rfl, hedge⟩ := startsWithKeyword_iff.1 hand
    refine ⟨_, rest, rfl, rfl, .and, hedge, ?_⟩
    by_contra hnot
    simp [andNotLength?_and, hnot] at hnone
  next hand =>
  split at h
  · next hor =>
    cases h
    obtain ⟨rest, rfl, hedge⟩ := startsWithKeyword_iff.1 hor
    exact ⟨_, rest, rfl, rfl, .or, hedge⟩
  next hor =>
  split at h
  · next hname =>
    cases h
    obtain ⟨rest, rfl, hedge⟩ := startsWithKeyword_iff.1 hname
    exact ⟨_, rest, rfl, rfl, .attributeName, hedge⟩
  next hattribute =>
  split at h
  · next rest hrest =>
    cases h
    obtain rfl := rest?_eq_some_iff.1 hrest
    rcases letterAfterColon_cases rest with hletter | ⟨c, rest, rfl, hc, hletter⟩
    · rw [hletter]
      exact ⟨_, rest, rfl, rfl, .attributePlain, by simpa [Cuts] using hletter⟩
    · rw [hletter]
      refine ⟨_, '\'' :: rest, ?_, ?_, .attributeLetter hc, ?_⟩
      · simp
      · simp [attributeWord]
      · simp [Cuts]
  next hprefix =>
  split at h
  · next hname =>
    cases h
    obtain ⟨rest, rfl, hedge⟩ := startsWithKeyword_iff.1 hname
    exact ⟨_, rest, rfl, rfl, .name, hedge⟩
  next hname =>
  split at h
  · next hdata =>
    cases h
    obtain ⟨rest, rfl, hedge⟩ := startsWithKeyword_iff.1 hdata
    exact ⟨_, rest, rfl, rfl, .data, hedge⟩
  next hdata =>
  split at h
  · cases h
    exact ⟨_, _, rfl, rfl, .equals, trivial⟩
  · cases h
    exact ⟨_, _, rfl, rfl, .openParen, trivial⟩
  · cases h
    exact ⟨_, _, rfl, rfl, .closeParen, trivial⟩
  split at h
  · next hvalue =>
    cases h
    obtain ⟨rest, rfl, hne, hq⟩ := literalValue?_eq_some_iff.1 hvalue
    refine ⟨_, rest, ?_, ?_, .literal hne hq, trivial⟩
    · simp
    · simp
  · next c rest _ _ _ _ =>
    split at h
    · next hmethod =>
      cases h
      simp only [Bool.and_eq_true, decide_eq_true_eq] at hmethod
      exact ⟨[c], rest, rfl, rfl, .method hmethod.1, hmethod.2⟩
    next hmethod =>
    split at h
    · next hc =>
      cases h
      have hfree : startsReserved (c :: rest) = false := by
        simp [startsReserved, hand, hor, hattribute, hprefix, hname, hdata]
      have hquote : isMethodLetter c = true → rest.head? ≠ some '\'' := by simpa using hmethod
      obtain ⟨rest', hsplit, hword, hcuts⟩ := exists_word hc hfree hquote
      exact ⟨_, rest', hsplit, rfl, hword, hcuts⟩
    · cases h
  · cases h

/-- The lexer takes a lexeme where it ends, and nothing else. -/
theorem lexeme?_eq_some_iff {s : List Char} {kind : TokenKind} {n : Nat} :
    lexeme? s = some (kind, n) ↔
      ∃ w rest, s = w ++ rest ∧ n = w.length ∧ Lexeme kind w ∧ Cuts kind rest := by
  constructor
  · exact lexeme?_eq_some
  · rintro ⟨w, rest, rfl, rfl, hw, hcuts⟩
    exact lexeme?_append hw hcuts

end NodeQuery.Query
