import NodeQuery.Text.Blank
import NodeQuery.Text.Digit
import NodeQuery.Text.Lowercase
import NodeQuery.Text.Word
/-!
Sets of characters, as patterns write them: ranges of code points and named classes, possibly
negated, with or without regard to case. Without regard to case a range holds a character if it
holds any of its case variants; a class never depends on case.
-/
namespace NodeQuery.Text

/-- How far letters that differ in case are taken for one. -/
inductive CaseRule where
  | exact
  | ascii
  /-- A set holds a character if it holds its small or its capital ASCII form, the negated set
  likewise. -/
  | asciiForms
  | unicode
  deriving DecidableEq, Repr

namespace CaseRule

/-- The capital of a small ASCII letter, any other code point itself. -/
def asciiCapital (code : Nat) : Nat :=
  if 97 ≤ code && code ≤ 122 then code - 32 else code

/-- The code points that a rule takes for the same letter. -/
def variants (rule : CaseRule) (code : Nat) : List Nat :=
  match rule with
  | .exact => [code]
  | .ascii | .asciiForms => [asciiLowerCode code, asciiCapital (asciiLowerCode code)]
  | .unicode =>
    let small := lowerCode code
    (small :: kinOf small).flatMap fun letter => letter :: capitalsOf letter

/-- Two single code points are the same letter when repeated. -/
def agree (rule : CaseRule) (a b : Nat) : Bool :=
  match rule with
  | .exact => a == b
  | .ascii | .asciiForms => asciiLowerCode a == asciiLowerCode b
  | .unicode => lowerCode a == lowerCode b

end CaseRule

/-- A named class of characters. -/
inductive CharClass where
  | digit
  | blank
  | word
  deriving DecidableEq, Repr

/-- A class holds a code point. Classes are those of ASCII unless they are wide. -/
def CharClass.has (kind : CharClass) (wide : Bool) (code : Nat) : Bool :=
  match kind, wide with
  | .digit, true => isDigit code
  | .digit, false => isAsciiDigit code
  | .blank, true => isBlank code
  | .blank, false => isAsciiBlank code
  | .word, true => isWord code
  | .word, false => isAsciiWord code

/-- A part of a set. -/
inductive CharRange where
  | code (code : Nat)
  | codes (first last : Nat)
  | named (kind : CharClass) (negated wide : Bool)
  deriving DecidableEq, Repr

/-- A part of a set holds a code point. -/
def CharRange.has (rule : CaseRule) (code : Nat) : CharRange → Bool
  | .code c => (rule.variants code).contains c
  | .codes first last => (rule.variants code).any fun c => first ≤ c && c ≤ last
  | .named kind negated wide => kind.has wide code != negated

/-- A part that is a single capital beyond the first plane. -/
def CharRange.isHighCapital : CharRange → Bool
  | .code c => 0xFFFF < c && lowerCode c != c
  | _ => false

/-- A set of characters. -/
structure CharSet where
  rule : CaseRule
  negated : Bool
  ranges : List CharRange
  deriving DecidableEq, Repr

namespace CharSet

/-- The set of one character. -/
def single (rule : CaseRule) (code : Nat) : CharSet :=
  ⟨rule, false, [.code code]⟩

/-- The set with the given parts. Without regard to case a single capital beyond the first plane
stands for nothing among other parts. -/
def ofParts (rule : CaseRule) (negated : Bool) (parts : List CharRange) : CharSet :=
  ⟨rule, negated, if rule = .unicode ∧ parts.eraseDups.length ≠ 1 then
    parts.filter (!·.isHighCapital) else parts⟩

/-- The set of all characters. -/
def all : CharSet :=
  ⟨.exact, true, []⟩

/-- The set of all characters but the line feed. -/
def allButLineFeed : CharSet :=
  ⟨.exact, true, [.code 10]⟩

/-- A set holds a code point. -/
def has (set : CharSet) (code : Nat) : Bool :=
  let plain (rule : CaseRule) (c : Nat) : Bool := (set.ranges.any (·.has rule c)) != set.negated
  match set.rule with
  | .asciiForms => (CaseRule.ascii.variants code).any (plain .exact)
  | rule => plain rule code

/-- With regard to case a single character is matched by itself alone. -/
theorem has_single_exact {code c : Nat} : (single .exact code).has c = true ↔ c = code := by
  simp [single, has, CharRange.has, CaseRule.variants, eq_comm]

end CharSet
end NodeQuery.Text
