import Mathlib.Data.List.Forall2
import NodeQuery.Proofs.Match.Compiled
import NodeQuery.Proofs.Text.Case
import NodeQuery.Regex.Parser
/-!
Patterns of characters that stand for themselves. Such a pattern is read as its characters, one
after the other (`parse_plain`), since every round of the reading takes one of them and adds one
part. It is found where each of its characters stands for what is there (`search_singles_iff`), so
with regard to case where the pattern itself stands (`occurs_exact_iff`).
-/
namespace NodeQuery.Regex
open Wildcard

/-- The characters that do not stand for themselves. -/
def signs : List Char :=
  ['.', '^', '$', '*', '+', '?', '\x7b', '[', '\\', '|', '(', ')']

/-- A character that stands for itself. Closing brackets and braces do where none is open. -/
def IsPlain (c : Char) : Prop :=
  c ∉ signs

instance (c : Char) : Decidable (IsPlain c) :=
  inferInstanceAs (Decidable (c ∉ signs))

/-! ## Reading -/

/-- The reader at a place of a plain pattern, before the given characters. -/
def Reader.before (place : Nat) (s : List Char) : Reader :=
  ⟨s.head?.map .plain, place, s.tail⟩

theorem Reader.start_plain {s : List Char} (hplain : ∀ c ∈ s, IsPlain c) (place : Nat) :
    Reader.start place s = .ok (.before place s) := by
  cases s with
  | nil => rfl
  | cons c s =>
    have hc : c ≠ '\\' := by
      rintro rfl
      exact hplain _ List.mem_cons_self (by decide)
    rw [Reader.start]
    · rfl
    · rintro rfl
      exact absurd rfl hc
    · rintro _ _ rfl
      exact absurd rfl hc

theorem contains_eq_false_of_subset {flags known : List Flag} {flag : Flag}
    (hflags : flags ⊆ known) (hflag : flag ∉ known) : flags.contains flag = false := by
  rw [List.contains_eq_mem, decide_eq_false_iff_not]
  exact fun h => hflag (hflags h)

/-- How case counts for the characters of a pattern with the given flags. -/
def plainRule (bytes : Bool) (flags : List Flag) : Text.CaseRule :=
  if flags.contains .ignoreCase then (if bytes then .ascii else .unicode) else .exact

/-- The part for a character that stands for itself. -/
def plainPart (bytes : Bool) (flags : List Flag) (c : Char) : Part :=
  .unit (.single (plainRule bytes flags) c.toNat)

namespace Progress
variable {p : Progress}

theorem singleRule_eq (hflags : p.flags ⊆ [.ignoreCase, .dotAll]) :
    p.singleRule = plainRule p.bytes p.flags := by
  have hlocale : p.flags.contains .locale = false :=
    contains_eq_false_of_subset hflags (by decide)
  have hascii : p.flags.contains .ascii = false :=
    contains_eq_false_of_subset hflags (by decide)
  unfold singleRule rule plainRule
  rw [hlocale, hascii]
  cases p.flags.contains .ignoreCase <;> cases p.bytes <;> rfl

theorem item_plain [Host] {c : Char} (hc : IsPlain c) (hflags : p.flags ⊆ [.ignoreCase, .dotAll])
    (place : Nat) : p.item place (.plain c) = .ok (p.push (plainPart p.bytes p.flags c)) := by
  have hverbose : p.flags.contains .verbose = false :=
    contains_eq_false_of_subset hflags (by decide)
  rw [plainPart, ← singleRule_eq hflags]
  unfold item
  rw [hverbose]
  simp only [Bool.false_and, Bool.false_eq_true, if_false]
  split
  case h_10 => rfl
  all_goals exact absurd (by decide) hc

/-- One round of the reading takes one character. -/
theorem run_succ_plain [Host] {c : Char} {s : List Char} (hc : IsPlain c)
    (hplain : ∀ c ∈ s, IsPlain c) {place : Nat} (hreader : p.reader = .before place (c :: s))
    (hflags : p.flags ⊆ [.ignoreCase, .dotAll]) (fuel : Nat) :
    p.run (fuel + 1) =
      ({ p with reader := .before (place + 1) s }.push (plainPart p.bytes p.flags c)).run fuel := by
  have hadvance : p.reader.advance = .ok (.before (place + 1) s) := by
    rw [hreader]
    exact Reader.start_plain hplain _
  have hitem := item_plain (p := { p with reader := .before (place + 1) s }) hc hflags p.reader.place
  have hnext : p.reader.next = some (.plain c) := by rw [hreader]; rfl
  rw [run, hnext]
  split
  · next hnone => cases hnone
  · next hbar =>
    cases hbar
    exact absurd (by decide) hc
  · next hclose =>
    cases hclose
    exact absurd (by decide) hc
  · next symbol _ _ hsymbol =>
    obtain rfl := Option.some.inj hsymbol
    rw [hadvance]
    show (item _ _ _ >>= run fuel) = _
    rw [hitem]
    rfl

/-- The reading of a plain pattern ends with its characters behind what has been read before. -/
theorem run_plain [Host] {s : List Char} (hplain : ∀ c ∈ s, IsPlain c) {place fuel : Nat}
    (hfuel : s.length ≤ fuel) (hreader : p.reader = .before place s) (hframes : p.frames = [])
    (hflags : p.flags ⊆ [.ignoreCase, .dotAll]) :
    p.run fuel = { p with
      reader := .before (place + s.length) []
      items := (s.map (plainPart p.bytes p.flags)).reverse ++ p.items }.finish := by
  induction s generalizing p place fuel with
  | nil =>
    have hsame : { p with reader := .before (place + 0) [], items := [] ++ p.items } = p := by
      rw [Nat.add_zero, ← hreader, List.nil_append]
    have hnext : p.reader.next = none := by rw [hreader]; rfl
    show _ = finish { p with reader := .before (place + 0) [], items := [] ++ p.items }
    rw [hsame]
    cases fuel with
    | zero => rfl
    | succ fuel => rw [run, hnext, hframes]
  | cons c s ih =>
    obtain ⟨hc, hplain⟩ := List.forall_mem_cons.1 hplain
    obtain ⟨fuel, rfl⟩ := Nat.exists_eq_succ_of_ne_zero (Nat.ne_zero_of_lt hfuel)
    have hrest := @ih ({ p with reader := .before (place + 1) s }.push
      (plainPart p.bytes p.flags c)) hplain (place + 1) fuel (Nat.le_of_succ_le_succ hfuel) rfl
      hframes hflags
    rw [run_succ_plain hc hplain hreader hflags, hrest]
    simp only [push, List.map_cons, List.reverse_cons, List.append_assoc, List.singleton_append,
      List.length_cons, Nat.add_assoc, Nat.add_comm 1]

/-- Nothing is wrong at the end of a plain pattern. -/
theorem finish_plain {parts : List Part} (hreader : p.reader.next = none)
    (hflags : p.flags ⊆ [.ignoreCase, .dotAll]) (hbranches : p.branches = [])
    (hconditions : p.conditions = []) (hitems : p.items = parts.reverse)
    (hparts : ∀ part ∈ parts, part.fault = none) :
    p.finish = .ok (sequence (parts.map Part.regex)) := by
  have hascii : p.flags.contains .ascii = false :=
    contains_eq_false_of_subset hflags (by decide)
  have hfinished : p.finished = .sequence parts := by
    rw [finished, hbranches, hitems, List.reverse_reverse]
  have hfault : p.finished.fault = none := by
    rw [hfinished]
    exact List.findSome?_eq_none_iff.2 hparts
  rw [finish, hascii, hreader, hconditions, hfault, hfinished]
  rfl

end Progress

/-- A plain pattern is read as its characters, one after the other. -/
theorem parse_plain [Host] {pattern : List Char} (hplain : ∀ c ∈ pattern, IsPlain c) (bytes : Bool)
    {flags : List Flag} (hflags : flags ⊆ [.ignoreCase, .dotAll]) :
    parse bytes flags pattern = .ok (sequence ((pattern.map fun c =>
      Text.CharSet.single (plainRule bytes flags) c.toNat).map .unit)) := by
  rw [parse, Reader.start_plain hplain 0]
  show Progress.run _ _ = _
  rw [Progress.run_plain hplain (Nat.le_succ _) rfl rfl hflags,
    @Progress.finish_plain _ (pattern.map (plainPart bytes flags)) rfl hflags rfl rfl
      (List.append_nil _)]
  · rw [List.map_map, List.map_map]
    rfl
  · simp [plainPart, Part.unit]

/-! ## Searching -/

section
variable {chunk : List Text.CharSet} {codes text : List Nat} {rule : Text.CaseRule}

/-- A chunk is found at any place where it begins. -/
theorem search_chunk_iff : (sequence (chunk.map .unit)).search text = true ↔
    ∃ n, begins chunk (text.drop n) = true := by
  have hmatches : ∀ n, matchesAt text.toArray (sequence (chunk.map .unit)) n = true ↔
      begins chunk (text.drop n) = true := by
    intro n
    rw [matchesAt, step_chunk]
    show (if begins chunk (text.drop n) = true then _ else _ : Option State).isSome = true ↔ _
    split
    · next h => simp only [Option.isSome_some, h]
    · next h => simp only [Option.isSome_none, Bool.false_eq_true, h]
  simp only [search, List.any_eq_true, List.mem_range, hmatches]
  constructor
  · rintro ⟨n, -, hbegins⟩
    exact ⟨n, hbegins⟩
  · rintro ⟨n, hbegins⟩
    -- behind the end of the text nothing is left, as at its end
    by_cases hn : n < text.toArray.size + 1
    · exact ⟨n, hn, hbegins⟩
    · refine ⟨text.toArray.size, Nat.lt_succ_self _, ?_⟩
      rw [List.size_toArray] at hn ⊢
      rwa [List.drop_eq_nil_of_le (by omega), ← List.drop_length] at hbegins

theorem begins_singles_iff : begins (codes.map (.single rule)) text = true ↔
    ∃ part, List.Forall₂ rule.StandsFor codes part ∧ part <+: text := by
  induction codes generalizing text with
  | nil => exact iff_of_true rfl ⟨[], .nil, List.nil_prefix⟩
  | cons code codes ih =>
    cases text with
    | nil =>
      refine iff_of_false Bool.false_ne_true ?_
      rintro ⟨part, hpart, hprefix⟩
      obtain rfl := List.prefix_nil.1 hprefix
      cases hpart
    | cons c text =>
      rw [List.map_cons, begins, Bool.and_eq_true, ih, Text.has_single]
      constructor
      · rintro ⟨hcode, part, hpart, hprefix⟩
        exact ⟨c :: part, .cons hcode hpart, List.cons_prefix_cons.2 ⟨rfl, hprefix⟩⟩
      · rintro ⟨part, hpart, hprefix⟩
        cases hpart with
        | cons hcode hpart =>
          obtain ⟨rfl, hrest⟩ := List.cons_prefix_cons.1 hprefix
          exact ⟨hcode, _, hpart, hrest⟩

/-- A text has a part for whose code points the given characters stand. -/
def Occurs (rule : Text.CaseRule) (codes text : List Nat) : Prop :=
  ∃ part, List.Forall₂ rule.StandsFor codes part ∧ part <:+: text

/-- With regard to case characters stand for themselves alone. -/
theorem occurs_exact_iff : Occurs .exact codes text ↔ codes <:+: text := by
  have hsame : List.Forall₂ Text.CaseRule.exact.StandsFor = Eq := List.forall₂_eq_eq_eq
  simp only [Occurs, hsame, exists_eq_left']

theorem occurs_of_infix (h : codes <:+: text) : Occurs rule codes text :=
  ⟨codes, List.forall₂_same.2 fun code _ => rule.standsFor_refl code, h⟩

/-- Characters one after the other are found where each of them stands for what is there. -/
theorem search_singles_iff :
    (sequence ((codes.map (Text.CharSet.single rule)).map .unit)).search text = true ↔
      Occurs rule codes text := by
  simp only [search_chunk_iff, begins_singles_iff, Occurs]
  constructor
  · rintro ⟨n, part, hpart, hprefix⟩
    exact ⟨part, hpart, hprefix.isInfix.trans (List.drop_suffix n text).isInfix⟩
  · rintro ⟨part, hpart, hinfix⟩
    obtain ⟨rest, hprefix, hsuffix⟩ := List.infix_iff_prefix_suffix.1 hinfix
    rw [List.suffix_iff_eq_drop.1 hsuffix] at hprefix
    exact ⟨_, part, hpart, hprefix⟩

end

/-- A plain pattern is no failure, and is found where its characters occur. -/
theorem exists_parse_plain [Host] {pattern : List Char} (hplain : ∀ c ∈ pattern, IsPlain c)
    (bytes : Bool) {flags : List Flag} (hflags : flags ⊆ [.ignoreCase, .dotAll]) :
    ∃ regex, parse bytes flags pattern = .ok regex ∧ ∀ text, regex.search text = true ↔
      Occurs (plainRule bytes flags) (pattern.map Char.toNat) text := by
  refine ⟨_, parse_plain hplain bytes hflags, fun text => ?_⟩
  rw [← search_singles_iff, List.map_map (f := Char.toNat)]
  rfl

end NodeQuery.Regex
