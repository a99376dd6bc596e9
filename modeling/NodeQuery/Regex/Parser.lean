import NodeQuery.Number.Decimal
import NodeQuery.Regex.Basic
import NodeQuery.Regex.Reader
/-!
Reading a pattern as a regular expression, in text or in bytes. One pass over the symbols keeps the
parts of the innermost open group and a frame for every group around it. Flags hold from where they
are written to the end of their group, and are used up here: the result depends on none.

Two faults wait until the grammar is satisfied: a look-behind without fixed width, and what flags
exclude. Each part carries the first such fault in it.
-/
namespace NodeQuery.Regex

/-- A flag of a pattern. -/
inductive Flag where
  | ignoreCase
  | locale
  | multiline
  | dotAll
  | verbose
  | ascii
  | template
  | wide
  deriving DecidableEq, Repr

namespace Flag

/-- The flag with a letter. -/
def ofLetter? : Char → Option Flag
  | 'i' => some ignoreCase
  | 'L' => some locale
  | 'm' => some multiline
  | 's' => some dotAll
  | 'x' => some verbose
  | 'a' => some ascii
  | 't' => some template
  | 'u' => some wide
  | _ => none

/-- The flags that choose which characters the classes know; they exclude each other. -/
def choosesClasses (f : Flag) : Bool :=
  f == ascii || f == locale || f == wide

/-- The flags that hold when some are turned on and some off inside a group. -/
def combine (flags on off : List Flag) : List Flag :=
  let kept := if on.any choosesClasses then flags.filter (!choosesClasses ·) else flags
  (kept ++ on).filter (!off.contains ·)

end Flag

/-- The least and the greatest number of characters that a part can use up. -/
structure Width where
  least : Nat
  most : Nat
  deriving DecidableEq, Repr

namespace Width

/-- The bound at which widths stop to grow. -/
def limit : Nat := Nat.pow 2 64

/-- A width within the bound. -/
def cap (w : Width) : Width :=
  ⟨min w.least limit, min w.most limit⟩

/-- The width of parts one after the other. -/
def sum (ws : List Width) : Width :=
  cap ⟨(ws.map least).foldr (· + ·) 0, (ws.map most).foldr (· + ·) 0⟩

/-- The width of one of several parts. -/
def choice : List Width → Width
  | [] => ⟨0, 0⟩
  | w :: rest => ⟨rest.foldl (fun n v => min n v.least) w.least,
      rest.foldl (fun n v => max n v.most) w.most⟩

/-- The width of a repetition. -/
def times (w : Width) (least : Nat) (most : Option Nat) : Width :=
  cap ⟨least * w.least, match most with
    | some n => n * w.most
    | none => if w.most = 0 then 0 else limit⟩

end Width

/-- Whether a part may be repeated. -/
inductive PartKind where
  | item
  | anchor
  | repetition
  deriving DecidableEq

/-- A part of a pattern that has been read. -/
structure Part where
  regex : Regex
  kind : PartKind
  width : Width
  fault : Option Fault

namespace Part

/-- A part that uses up one character of a set. -/
def unit (set : Text.CharSet) : Part :=
  ⟨.unit set, .item, ⟨1, 1⟩, none⟩

/-- A part that is a condition on its place. -/
def anchor (kind : Anchor) : Part :=
  ⟨.anchor kind, .anchor, ⟨0, 0⟩, none⟩

/-- Parts one after the other. -/
def sequence (parts : List Part) : Part :=
  ⟨Regex.sequence (parts.map regex), .item, Width.sum (parts.map width), parts.findSome? fault⟩

/-- One of several parts. -/
def choice (parts : List Part) : Part :=
  ⟨Regex.choice (parts.map regex), .item, Width.choice (parts.map width), parts.findSome? fault⟩

end Part

/-- What an open group will become. -/
inductive GroupKind where
  | plain
  | capture (number : Nat)
  | atomic
  | lookAhead (negated : Bool)
  /-- A look-behind, with the number of the first group that stood in the look-behind around it. -/
  | lookBehind (negated : Bool) (outerLimit : Option Nat)
  /-- A condition on a group, with its first way once that has been read. -/
  | conditional (number : Nat) (yes : Option Part)

/-- An open group and what was being read around it. -/
structure Frame where
  kind : GroupKind
  opened : Nat
  flags : List Flag
  branches : List Part
  items : List Part

/-- The state of the reading. Finished alternatives and items stand in reverse. -/
structure Progress where
  reader : Reader
  bytes : Bool
  flags : List Flag
  branches : List Part
  items : List Part
  frames : List Frame
  /-- The widths of the groups by number, from 1; an open group has none. -/
  groups : List (Option Width)
  names : List (String × Nat)
  /-- Groups on which a condition was put by number, with the place of the first condition. -/
  conditions : List (Nat × Nat)
  /-- Inside a look-behind, the number of the first group opened in it. -/
  limit : Option Nat

namespace Progress
variable [Host]

/-- How case counts at this place. -/
def rule (s : Progress) : Text.CaseRule :=
  if !s.flags.contains .ignoreCase then .exact
  else if s.flags.contains .locale then .asciiForms
  else if s.bytes || s.flags.contains .ascii then .ascii
  else .unicode

/-- Classes know all scripts at this place. -/
def wide (s : Progress) : Bool :=
  !s.bytes && !s.flags.contains .ascii

/-- How case counts for a single character. -/
def singleRule (s : Progress) : Text.CaseRule :=
  match s.rule with
  | .asciiForms => .ascii
  | rule => rule

/-- Adds a part. -/
def push (s : Progress) (part : Part) : Progress :=
  { s with items := part :: s.items }

/-- Adds a character that stands for itself. -/
def pushCode (s : Progress) (code : Nat) : Progress :=
  s.push (.unit (.single s.singleRule code))

/-- What has been read of the innermost open group, as one part. -/
def finished (s : Progress) : Part :=
  match s.branches with
  | [] => .sequence s.items.reverse
  | branches => .choice (Part.sequence s.items.reverse :: branches).reverse

/-- The number that the next group gets. -/
def nextGroup (s : Progress) : Nat :=
  s.groups.length + 1

/-- A group with a number has been closed. -/
def isClosed (s : Progress) (number : Nat) : Bool :=
  number != 0 && ((s.groups[number - 1]?).getD none).isSome

/-- The width of a closed group. -/
def groupWidth (s : Progress) (number : Nat) : Width :=
  (((s.groups[number - 1]?).getD none)).getD ⟨0, 0⟩

/-- Inside a look-behind only groups closed before it may be used. -/
def checkLookBehind (s : Progress) (number : Nat) : Result Unit :=
  match s.limit with
  | none => return ()
  | some limit =>
    if !s.isClosed number then refuse .openGroup s.reader.place
    else if limit ≤ number then refuse .groupOfSameLookBehind s.reader.place
    else return ()

/-- Adds the text of a closed group once more. -/
def pushGroup (s : Progress) (number : Nat) : Result Progress := do
  s.checkLookBehind number
  return s.push ⟨.repeatGroup s.singleRule number, .item, s.groupWidth number, none⟩

/-- Reads a reference to a group, or a character by its code to base eight, after a backslash and
the first digit. -/
def numberEscape (s : Progress) (first : Char) : Result Progress := do
  let (second, r) ← s.reader.takeWhile Char.isDigit 1
  let (third, r') ← if isOctal first && second.all isOctal && !second.isEmpty
    then r.takeWhile isOctal 1 else .ok ([], r)
  if !third.isEmpty then
    let (code, r) ← octalCode (first :: (second ++ third)) r'
    return { s with reader := r }.pushCode code
  else
    let digits := first :: second
    let number := digitsToBase 10 digits
    let s := { s with reader := r }
    if number < s.nextGroup then
      if s.isClosed number then s.pushGroup number
      else refuse .openGroup (r.place - (digits.length + 1))
    else refuse (.noSuchGroup number) (r.place - digits.length)

/-- Reads an escape outside a set, after its first symbol. -/
def escape (s : Progress) (c : Char) : Result Progress :=
  match c with
  | 'A' => return s.push (.anchor .textStart)
  | 'Z' => return s.push (.anchor .textEnd)
  | 'b' => return s.push (.anchor (.wordEdge false s.wide))
  | 'B' => return s.push (.anchor (.wordEdge true s.wide))
  | '0' => do
    let (digits, r) ← s.reader.takeWhile isOctal 2
    return { s with reader := r }.pushCode (digitsToBase 8 digits)
  | c =>
    match classLetter? c, controlCode? c, codeEscape? (!s.bytes) c s.reader with
    | some (kind, negated), _, _ =>
      return s.push (.unit ⟨.exact, false, [.named kind negated s.wide]⟩)
    | _, some code, _ => return s.pushCode code
    | _, _, some result => do
      let (code, r) ← result
      return { s with reader := r }.pushCode code
    | _, _, _ =>
      if c.isDigit then s.numberEscape c
      else do
        let (code, r) ← selfEscape c s.reader
        return { s with reader := r }.pushCode code

/-- Reads one item of a set from its first symbol. -/
def setItem (bytes : Bool) (symbol : Symbol) (r : Reader) : Result (SetItem × Reader) :=
  match symbol with
  | .plain c => return (.code c.toNat, r)
  | .escaped c => setEscape (!bytes) c r

/-- An item of a set as a range. -/
def rangeOf (wide : Bool) : SetItem → Text.CharRange
  | .code c => .code c
  | .named kind negated => .named kind negated wide

/-- The range between two items. -/
def rangeBetween? : SetItem → SetItem → Option Text.CharRange
  | .code first, .code last => if first ≤ last then some (.codes first last) else none
  | _, _ => none

/-- Reads the items of a set up to its closing bracket; `opened` is the place of the opening one. A
bracket that comes first stands for itself. -/
def setRanges (bytes wide : Bool) (opened : Nat) :
    Nat → List Text.CharRange → Reader → Result (List Text.CharRange × Reader)
  | 0, _, _ => refuse .openSet opened
  | fuel + 1, before, r => do
    let after ← r.advance
    match r.next with
    | none => refuse .openSet opened
    | some symbol =>
      if symbol = .plain ']' ∧ !before.isEmpty then return (before, after)
      else
        let (item, r) ← setItem bytes symbol after
        let (dash, r) ← r.take? '-'
        if !dash then setRanges bytes wide opened fuel (before ++ [rangeOf wide item]) r
        else
          let after ← r.advance
          match r.next with
          | none => refuse .openSet opened
          | some (.plain ']') => return (before ++ [rangeOf wide item, .code 45], after)
          | some other =>
            let (last, r) ← setItem bytes other after
            match rangeBetween? item last with
            | some range => setRanges bytes wide opened fuel (before ++ [range]) r
            | none =>
              let size := symbol.size + 1 + other.size
              refuse (.badRange symbol.text other.text) (r.place - size)

/-- Reads a set after its opening bracket. -/
def set (s : Progress) (opened : Nat) : Result Progress := do
  let (negated, r) ← s.reader.take? '^'
  let (ranges, r) ← setRanges s.bytes s.wide opened (r.left + 1) [] r
  let rule := if ranges.eraseDups.length = 1 then s.singleRule else s.rule
  return { s with reader := r }.push (.unit (.ofParts rule negated ranges))

/-- The name of a repetition in messages. -/
def greedName : Greed → String
  | .greedy => "MAX_REPEAT"
  | .lazy => "MIN_REPEAT"
  | .possessive => "POSSESSIVE_REPEAT"

/-- Repeats the last item; `place` is the place of the repetition sign. -/
def repeatLast (s : Progress) (place least : Nat) (most : Option Nat) : Result Progress :=
  match s.items with
  | [] => refuse .nothingToRepeat place
  | item :: before => do
    if item.kind = .anchor then refuse .nothingToRepeat place
    if item.kind = .repetition then refuse .repeatedRepetition place
    let (few, r) ← s.reader.take? '?'
    let (firm, r) ← if few then .ok (false, r) else r.take? '+'
    let greed := if few then .lazy else if firm then .possessive else .greedy
    let fault := if s.flags.contains .template then some (.repetitionInTemplate (greedName greed))
      else item.fault
    let part := ⟨.repeated greed least most item.regex, .repetition, item.width.times least most,
      fault⟩
    return { s with reader := r, items := part :: before }

/-- The first count that is too large. -/
def countLimit : Nat := 4294967295

/-- Reads a count, given as digits, if there are any. -/
def count? (digits : List Char) : Result (Option Nat) :=
  if digits.isEmpty then return none
  else if digitLimit < digits.length then .error (.longCount digits.length)
  else
    let n := digitsToBase 10 digits
    if countLimit ≤ n then .error .countTooLarge else return some n

/-- Reads the counts of a repetition after an opening brace. A brace that starts no counts stands
for itself. -/
def counts (s : Progress) (place : Nat) : Result Progress := do
  let brace := s.pushCode 0x7B
  if s.reader.sees '\x7d' then return brace
  let (low, r) ← s.reader.takeWhile Char.isDigit s.reader.left
  let (comma, r) ← r.take? ','
  let (high, r) ← if comma then r.takeWhile Char.isDigit r.left else .ok (low, r)
  let (closed, r) ← r.take? '\x7d'
  if !closed then return brace
  let least ← count? low
  let most ← count? high
  let least := least.getD 0
  if most.any (· < least) then refuse .countsOutOfOrder s.reader.place
  { s with reader := r }.repeatLast place least most

/-- Opens a group. -/
def openGroup (s : Progress) (r : Reader) (kind : GroupKind) (opened : Nat) (flags : List Flag) :
    Progress :=
  { s with
    reader := r, flags, branches := [], items := []
    frames := ⟨kind, opened, s.flags, s.branches, s.items⟩ :: s.frames }

/-- Opens a group that keeps its text, with a name or without. -/
def openCapture (s : Progress) (r : Reader) (opened : Nat) (name : Option String) :
    Result Progress := do
  let number := s.nextGroup
  match name with
  | some name =>
    match s.names.lookup name with
    | some first =>
      refuse (.groupNameTaken name number first) (r.place - (name.length + 1))
    | none => pure ()
  | none => pure ()
  let names := match name with
    | some name => (name, number) :: s.names
    | none => s.names
  return { s with groups := s.groups ++ [none], names }.openGroup r (.capture number) opened s.flags

/-- Reads what follows the letter of a named group or of a reference by name. -/
def namedGroup (s : Progress) (r : Reader) (opened : Nat) : Result Progress := do
  let (definition, r) ← r.take? '<'
  if definition then
    let (name, r) ← r.groupName '>'
    r.checkName name
    s.openCapture r opened (some name)
  else
    let (reference, r) ← r.take? '='
    if reference then
      let (name, r) ← r.groupName ')'
      r.checkName name
      match s.names.lookup name with
      | none => refuse (.unknownGroupName name) (r.place - (name.length + 1))
      | some number =>
        if !s.isClosed number then refuse .openGroup (r.place - (name.length + 1))
        { s with reader := r }.pushGroup number
    else
      let after ← r.advance
      match r.next with
      | none => refuse .endOfPattern after.place
      | some symbol =>
        refuse (.unknownExtension ("P" ++ symbol.text)) (after.place - (symbol.size + 2))

/-- Opens a look-behind. -/
def openLookBehind (s : Progress) (r : Reader) (opened : Nat) : Result Progress := do
  let after ← r.advance
  let start (negated : Bool) : Progress :=
    { s with limit := some (s.limit.getD s.nextGroup) }.openGroup after
      (.lookBehind negated s.limit) opened s.flags
  match r.next with
  | none => refuse .endOfPattern after.place
  | some (.plain '=') => return start false
  | some (.plain '!') => return start true
  | some symbol => refuse (.unknownExtension ("<" ++ symbol.text)) (after.place - (symbol.size + 2))

/-- The first group number that no pattern can reach. -/
def groupLimit : Nat := 1073741823

/-- Reads the group of a condition, by name or by number, and opens its first way. -/
def openConditional (s : Progress) (r : Reader) (opened : Nat) : Result Progress := do
  let (name, r) ← r.groupName ')'
  let place := r.place - (name.length + 1)
  let s := { s with reader := r }
  if Text.isIdentifier name.toList then
    match s.names.lookup name with
    | none => refuse (.unknownGroupName name) place
    | some number =>
      s.checkLookBehind number
      return s.openGroup r (.conditional number none) opened s.flags
  else
    match wholeOfText? name with
    | some (.ofNat number) =>
      if number = 0 then refuse .badGroupNumber place
      if groupLimit ≤ number then refuse (.noSuchGroup number) place
      let conditions := if s.conditions.any (·.1 == number) then s.conditions
        else s.conditions ++ [(number, place)]
      s.checkLookBehind number
      return { s with conditions }.openGroup r (.conditional number none) opened s.flags
    | _ => refuse (.badGroupName name) place

/-- Refuses a symbol among flags: a letter is an unknown flag, anything else is not what should
follow. -/
def refuseFlag {α : Type} (r : Reader) (symbol : Symbol) (wanted : String) : Result α :=
  let isLetter := match symbol with
    | .plain c => Text.isLetter c.toNat
    | .escaped _ => false
  refuse (if isLetter then .unknownFlag else .missing wanted) (r.place - symbol.size)

/-- Reads the flags to turn on, from a first one, and the character that ends them. -/
def flagsOn (bytes : Bool) : Nat → List Flag → Flag → Reader → Result (List Flag × Char × Reader)
  | 0, _, _, r => refuse .endOfPattern r.place
  | fuel + 1, before, flag, r => do
    if !bytes && flag = .locale then refuse .flagNeedsBytes r.place
    if bytes && flag = .wide then refuse .flagNeedsText r.place
    let flags := before ++ [flag]
    if flag.choosesClasses && flags.any (fun f => f.choosesClasses && f != flag) then
      refuse .flagsExcludeEachOther r.place
    let after ← r.advance
    match r.next with
    | none => refuse (.missing "-, : or )") after.place
    | some (.plain c) =>
      if c = ')' ∨ c = '-' ∨ c = ':' then return (flags, c, after)
      else
        match Flag.ofLetter? c with
        | some next => flagsOn bytes fuel flags next after
        | none => refuseFlag after (.plain c) "-, : or )"
    | some symbol => refuseFlag after symbol "-, : or )"

/-- Reads the flags to turn off, from a first one, up to the colon. -/
def flagsOff : Nat → List Flag → Flag → Reader → Result (List Flag × Reader)
  | 0, _, _, r => refuse .endOfPattern r.place
  | fuel + 1, before, flag, r => do
    if flag.choosesClasses then refuse .lastingFlagOff r.place
    let flags := before ++ [flag]
    let after ← r.advance
    match r.next with
    | none => refuse (.missing ":") after.place
    | some (.plain ':') => return (flags, after)
    | some symbol =>
      match symbol with
      | .plain c =>
        match Flag.ofLetter? c with
        | some next => flagsOff fuel flags next after
        | none => refuseFlag after symbol ":"
      | .escaped _ => refuseFlag after symbol ":"

/-- Reads the flags to turn off after the hyphen. -/
def flagsOffFrom (r : Reader) : Result (List Flag × Reader) := do
  let after ← r.advance
  match r.next with
  | none => refuse (.missing "flag") after.place
  | some symbol =>
    match symbol with
    | .plain c =>
      match Flag.ofLetter? c with
      | some flag => flagsOff (after.left + 1) [] flag after
      | none => refuseFlag after symbol "flag"
    | .escaped _ => refuseFlag after symbol "flag"

/-- Turns on flags for the whole pattern, which is possible only at its start. -/
def setFlags (s : Progress) (r : Reader) (opened : Nat) (flags : List Flag) : Result Progress :=
  if s.frames.isEmpty && s.branches.isEmpty && s.items.isEmpty then
    return { s with reader := r, flags := s.flags ++ flags }
  else refuse .lateGlobalFlags opened

/-- Reads flags from their first character: they hold for the whole pattern, or for the group that
they open. -/
def groupFlags (s : Progress) (r : Reader) (opened : Nat) (first : Option Flag) :
    Result Progress := do
  let (on, ending, r) ← match first with
    | some flag => flagsOn s.bytes (r.left + 1) [] flag r
    | none => .ok ([], '-', r)
  if ending = ')' then s.setFlags r opened on
  else
    if on.contains .template then refuse .globalFlagOn (r.place - 1)
    let (off, r) ← if ending = '-' then flagsOffFrom r else .ok ([], r)
    if off.contains .template then refuse .globalFlagOff (r.place - 1)
    if on.any (off.contains ·) then refuse .flagOnAndOff (r.place - 1)
    return s.openGroup r .plain opened (Flag.combine s.flags on off)

/-- Reads what follows an opening parenthesis. -/
def parenthesis (s : Progress) (opened : Nat) : Result Progress := do
  let (special, r) ← s.reader.take? '?'
  if !special then s.openCapture r opened none
  else
    let after ← r.advance
    let unknown (symbol : Symbol) : Result Progress :=
      refuse (.unknownExtension symbol.text) (after.place - (symbol.size + 1))
    match r.next with
    | none => refuse .endOfPattern after.place
    | some (.plain 'P') => s.namedGroup after opened
    | some (.plain ':') => return s.openGroup after .plain opened s.flags
    | some (.plain '#') => do
      let r ← after.skipComment opened (after.left + 1)
      return { s with reader := r }
    | some (.plain '=') => return s.openGroup after (.lookAhead false) opened s.flags
    | some (.plain '!') => return s.openGroup after (.lookAhead true) opened s.flags
    | some (.plain '<') => s.openLookBehind after opened
    | some (.plain '(') => s.openConditional after opened
    | some (.plain '>') => return s.openGroup after .atomic opened s.flags
    | some (.plain '-') => s.groupFlags after opened none
    | some symbol =>
      match symbol with
      | .plain c =>
        match Flag.ofLetter? c with
        | some flag => s.groupFlags after opened (some flag)
        | none => unknown symbol
      | .escaped _ => unknown symbol

/-- The first fault of a look-behind with the given body. -/
def lookBehindFault (body : Part) : Option Fault :=
  if countLimit < body.width.least then some .farLookBehind
  else if body.width.least ≠ body.width.most then some .variableLookBehind
  else body.fault

/-- Closes the innermost open group. -/
def close (s : Progress) (frame : Frame) (outer : List Frame) : Result Progress := do
  let r ← s.reader.advance
  let body := s.finished
  let back := { s with
    reader := r, flags := frame.flags, branches := frame.branches, items := frame.items
    frames := outer }
  match frame.kind with
  | .plain => return back.push body
  | .capture number =>
    return { back with groups := back.groups.set (number - 1) (some body.width) }.push
      { body with regex := .group number body.regex }
  | .atomic => return back.push { body with regex := .atomic body.regex }
  | .lookAhead negated =>
    return back.push { body with regex := .look negated 0 body.regex, width := ⟨0, 0⟩ }
  | .lookBehind negated outerLimit =>
    return { back with limit := outerLimit }.push
      { regex := .look negated body.width.least body.regex, kind := .item, width := ⟨0, 0⟩
        fault := lookBehindFault body }
  | .conditional number yes =>
    let (yes, no) := match yes with
      | some yes => (yes, body)
      | none => (body, Part.sequence [])
    return back.push
      { regex := .conditional number yes.regex no.regex, kind := .item
        width := Width.choice [yes.width, no.width], fault := yes.fault.or no.fault }

/-- Starts the next alternative of the innermost open group. -/
def branch (s : Progress) : Result Progress := do
  match s.frames with
  | ⟨.conditional number yes, opened, flags, branches, items⟩ :: outer =>
    if yes.isSome then refuse .thirdBranch s.reader.place
    let frame : Frame := ⟨.conditional number (some s.finished), opened, flags, branches, items⟩
    return { s with reader := ← s.reader.advance, items := [], frames := frame :: outer }
  | _ =>
    return { s with
      reader := ← s.reader.advance, branches := Part.sequence s.items.reverse :: s.branches
      items := [] }

/-- What a dot stands for at this place. -/
def dot (s : Progress) : Text.CharSet :=
  if s.flags.contains .dotAll then .all else .allButLineFeed

/-- What a caret stands for at this place. -/
def caret (s : Progress) : Anchor :=
  if s.flags.contains .multiline then .lineStart else .textStart

/-- What a dollar sign stands for at this place. -/
def dollar (s : Progress) : Anchor :=
  if s.flags.contains .multiline then .lineEnd else .lastEnd

/-- A character that verbose patterns skip. -/
def isSkipped (c : Char) : Bool :=
  Text.isAsciiBlank c.toNat

/-- Reads one item from its first symbol, which stood at `place` and has been taken. -/
def item (s : Progress) (place : Nat) (symbol : Symbol) : Result Progress :=
  match symbol with
  | .escaped c => s.escape c
  | .plain c =>
    if s.flags.contains .verbose && isSkipped c then return s
    else if s.flags.contains .verbose && c = '#' then do
      let r ← s.reader.skipLine (s.reader.left + 1)
      return { s with reader := r }
    else match c with
      | '[' => s.set place
      | '(' => s.parenthesis place
      | '*' => s.repeatLast place 0 none
      | '+' => s.repeatLast place 1 none
      | '?' => s.repeatLast place 0 (some 1)
      | '\x7b' => s.counts place
      | '.' => return s.push (.unit s.dot)
      | '^' => return s.push (.anchor s.caret)
      | '$' => return s.push (.anchor s.dollar)
      | c => return s.pushCode c.toNat

/-- Ends the reading outside all groups. -/
def finish (s : Progress) : Result Regex := do
  if s.flags.contains .ascii && s.flags.contains .wide then .error .wideAndAsciiFlags
  if s.flags.contains .ascii && s.flags.contains .locale then .error .localeAndAsciiFlags
  if s.reader.next.isSome then refuse .extraParenthesis s.reader.place
  match s.conditions.find? fun condition => s.nextGroup ≤ condition.1 with
  | some (number, place) => refuse (.noSuchGroup number) place
  | none => pure ()
  match s.finished.fault with
  | some fault => .error (.fault fault none)
  | none => return s.finished.regex

/-- Reads symbols to the end. Every round takes one at least. -/
def run : Nat → Progress → Result Regex
  | 0, s => s.finish
  | fuel + 1, s =>
    match s.reader.next with
    | none =>
      match s.frames with
      | [] => s.finish
      | frame :: _ => refuse .openParenthesis frame.opened
    | some (.plain '|') => s.branch.bind (run fuel)
    | some (.plain ')') =>
      match s.frames with
      | [] => s.finish
      | frame :: outer => (s.close frame outer).bind (run fuel)
    | some symbol => do
      let r ← s.reader.advance
      run fuel (← { s with reader := r }.item s.reader.place symbol)

end Progress

/-- Reads a pattern of characters, or of bytes given as the characters with their codes. Groups may
be nested to any depth. -/
def parse [Host] (bytes : Bool) (flags : List Flag) (pattern : List Char) : Result Regex := do
  let r ← Reader.start 0 pattern
  Progress.run (pattern.length + 1)
    { reader := r, bytes, flags, branches := [], items := [], frames := [], groups := []
      names := [], conditions := [], limit := none }

end NodeQuery.Regex
