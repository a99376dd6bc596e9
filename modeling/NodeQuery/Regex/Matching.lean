import NodeQuery.Regex.Basic
/-!
Matching by backtracking. `Regex.step` tries the ways to match from a state in order and hands each
to a continuation until one succeeds; so the order of the ways, on which groups and atomic parts
depend, is the order of the tries. An optional repetition does not start again where it last
started, hence `size + 2` rounds are enough for a text of that size.
-/
namespace NodeQuery.Regex

/-- A place in the text, and where groups last started and ended, the latest first. -/
structure State where
  position : Nat
  starts : List (Nat × Nat)
  ends : List (Nat × Nat)

/-- The text of a group, if the group has matched: its start and its end. -/
def State.span? (s : State) (number : Nat) : Option (Nat × Nat) :=
  match s.starts.lookup number, s.ends.lookup number with
  | some first, some last => if first ≤ last then some (first, last) else none
  | _, _ => none

/-- Tries ways to match from a state until one satisfies what follows. -/
abbrev Step := State → (State → Option State) → Option State

/-- A word character stands at a place. -/
def wordAt (wide : Bool) (text : Array Nat) (position : Nat) : Bool :=
  (text[position]?).any (Text.CharClass.word.has wide)

/-- An anchor holds at a place. In an empty text there is no word edge, and no place that is none. -/
def Anchor.holds (text : Array Nat) (position : Nat) : Anchor → Bool
  | .textStart => position == 0
  | .lineStart => position == 0 || text[position - 1]? == some 10
  | .textEnd => position == text.size
  | .lastEnd => position == text.size ||
      (position + 1 == text.size && text[position]? == some 10)
  | .lineEnd => position == text.size || text[position]? == some 10
  | .wordEdge negated wide =>
    let before := position != 0 && wordAt wide text (position - 1)
    !text.isEmpty && (before != wordAt wide text position) != negated

/-- Tries one step after another, the given number of times. -/
def times (step : Step) : Nat → Step
  | 0 => fun s k => k s
  | n + 1 => fun s k => step s fun t => times step n t k

/-- A further round may start: rounds are left, and the last one did not start here. -/
def mayRepeat (left last : Option Nat) (s : State) : Bool :=
  left != some 0 && last != some s.position

/-- As many rounds as possible first. -/
def greedyRounds (step : Step) : Nat → Option Nat → Option Nat → Step
  | 0, _, _ => fun s k => k s
  | fuel + 1, left, last => fun s k =>
    if mayRepeat left last s then
      match step s (fun t => greedyRounds step fuel (left.map (· - 1)) (some s.position) t k) with
      | some result => some result
      | none => k s
    else k s

/-- As few rounds as possible first. -/
def lazyRounds (step : Step) : Nat → Option Nat → Option Nat → Step
  | 0, _, _ => fun s k => k s
  | fuel + 1, left, last => fun s k =>
    match k s with
    | some result => some result
    | none =>
      if mayRepeat left last s then
        step s fun t => lazyRounds step fuel (left.map (· - 1)) (some s.position) t k
      else none

/-- The given number of rounds, each in its first way. -/
def fixedRounds (step : Step) : Nat → State → Option State
  | 0, s => some s
  | n + 1, s => (step s some).bind (fixedRounds step n)

/-- As many rounds as possible, each in its first way. -/
def possessiveRounds (step : Step) : Nat → Option Nat → Option Nat → State → State
  | 0, _, _, s => s
  | fuel + 1, left, last, s =>
    if mayRepeat left last s then
      match step s some with
      | some t => possessiveRounds step fuel (left.map (· - 1)) (some s.position) t
      | none => s
    else s

/-- A repetition of a step. -/
def repetition (fuel : Nat) (greed : Greed) (least : Nat) (most : Option Nat) (step : Step) :
    Step :=
  let left := most.map (· - least)
  match greed with
  | .greedy => fun s k => times step least s fun t => greedyRounds step fuel left none t k
  | .lazy => fun s k => times step least s fun t => lazyRounds step fuel left none t k
  | .possessive => fun s k =>
    (fixedRounds step least s).bind fun t => k (possessiveRounds step fuel left none t)

/-- The text from `first` to `last` stands once more at a place. -/
def repeatsAt (rule : Text.CaseRule) (text : Array Nat) (first last position : Nat) : Bool :=
  (List.range (last - first)).all fun i =>
    match text[first + i]?, text[position + i]? with
    | some a, some b => rule.agree a b
    | _, _ => false

/-- The ways in which a regular expression matches. -/
def step (text : Array Nat) : Regex → Step
  | .empty => fun s k => k s
  | .unit set => fun s k =>
    match text[s.position]? with
    | some code => if set.has code then k { s with position := s.position + 1 } else none
    | none => none
  | .anchor kind => fun s k => if kind.holds text s.position then k s else none
  | .seq first second => fun s k => step text first s fun t => step text second t k
  | .alt first second => fun s k =>
    match step text first s k with
    | some result => some result
    | none => step text second s k
  | .repeated greed least most body => repetition (text.size + 2) greed least most (step text body)
  | .group number body => fun s k =>
    step text body { s with starts := (number, s.position) :: s.starts } fun t =>
      k { t with ends := (number, t.position) :: t.ends }
  | .atomic body => fun s k => (step text body s some).bind k
  | .look negated back body => fun s k =>
    let found := if s.position < back then none
      else step text body { s with position := s.position - back } some
    if negated then (if found.isSome then none else k s)
    else found.bind fun t => k { t with position := s.position }
  | .repeatGroup rule number => fun s k =>
    match s.span? number with
    | some (first, last) =>
      if repeatsAt rule text first last s.position then
        k { s with position := s.position + (last - first) }
      else none
    | none => none
  | .conditional number yes no => fun s k =>
    if (s.span? number).isSome then step text yes s k else step text no s k

/-- A regular expression matches from a place. -/
def matchesAt (text : Array Nat) (r : Regex) (position : Nat) : Bool :=
  (step text r ⟨position, [], []⟩ some).isSome

/-- A regular expression matches somewhere in a text of code points. -/
def search (r : Regex) (text : List Nat) : Bool :=
  let codes := text.toArray
  (List.range (codes.size + 1)).any (matchesAt codes r)

end NodeQuery.Regex
