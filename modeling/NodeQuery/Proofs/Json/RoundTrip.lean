import NodeQuery.Proofs.Json.Number
import NodeQuery.Proofs.Json.Text
/-!
JSON values written and read back. A value that text can hold without loss (`Storable`) is read from
what is written for it, whatever follows (`readValue_write`); so `parse` gives the value back
(`parse_write`).
-/
namespace NodeQuery.Json

mutual

/-- A value that is written without loss: its whole numbers are not too long to be read, the others
are of double precision, and the members of its objects have different names. -/
def Storable : Json → Prop
  | .int n => (toString n.natAbs).length ≤ digitLimit
  | .real x => x.IsDouble
  | .list items => StorableItems items
  | .object members => (members.map Prod.fst).Nodup ∧ StorableMembers members
  | _ => True

/-- All items of a list are storable. -/
def StorableItems : List Json → Prop
  | [] => True
  | item :: rest => item.Storable ∧ StorableItems rest

/-- The values of all members of an object are storable. -/
def StorableMembers : List (String × Json) → Prop
  | [] => True
  | (_, value) :: rest => value.Storable ∧ StorableMembers rest

end

theorem storableItems_iff {items : List Json} :
    StorableItems items ↔ ∀ item ∈ items, item.Storable := by
  induction items with
  | nil => simp [StorableItems]
  | cons item items ih => simp [StorableItems, ih]

theorem storableMembers_iff {members : List (String × Json)} :
    StorableMembers members ↔ ∀ m ∈ members, m.2.Storable := by
  induction members with
  | nil => simp [StorableMembers]
  | cons m members ih => simp [StorableMembers, ih]

/-! ## Spaces -/

theorem skipSpace_rest (c : Cursor) : c.skipSpace.rest = c.rest.dropWhile Cursor.isSpace := by
  have hparts := List.takeWhile_append_dropWhile (p := Cursor.isSpace) (l := c.rest)
  rw [Cursor.skipSpace]
  exact cursor_rest_skip hparts.symm

theorem skipSpace_rest_of_head {c : Cursor} {first : Char} {more : List Char}
    (h : c.rest = first :: more) (hfirst : Cursor.isSpace first = false) :
    c.skipSpace.rest = first :: more := by
  rw [skipSpace_rest, h, List.dropWhile_cons_of_neg (by simp [hfirst])]

/-- A line start is a line feed and spaces. -/
theorem mem_lineStart {depth : ℕ} {c : Char} (h : c ∈ (lineStart depth).toList) :
    c = '\n' ∨ c = ' ' := by
  rw [lineStart, String.toList_append] at h
  rcases List.mem_append.1 h with h | h
  · exact .inl (by simpa using h)
  · rw [String.toList_ofList] at h
    exact .inr (List.eq_of_mem_replicate h)

theorem skipSpace_rest_of_lineStart {c : Cursor} {depth : ℕ} {first : Char} {more : List Char}
    (h : c.rest = (lineStart depth).toList ++ first :: more)
    (hfirst : Cursor.isSpace first = false) : c.skipSpace.rest = first :: more := by
  have hspaces : ∀ d ∈ (lineStart depth).toList, Cursor.isSpace d = true := by
    intro d hd
    rcases mem_lineStart hd with rfl | rfl <;> rfl
  rw [skipSpace_rest, h, List.dropWhile_append_of_pos hspaces,
    List.dropWhile_cons_of_neg (by simp [hfirst])]

theorem follows_lineStart (depth : ℕ) (rest : List Char) :
    Follows ((lineStart depth).toList ++ rest) := by
  intro c hc
  rw [lineStart, String.toList_append] at hc
  obtain rfl : '\n' = c := by simpa using hc
  exact .inr rfl

theorem follows_comma (rest : List Char) : Follows (',' :: rest) := by
  intro c hc
  obtain rfl : ',' = c := by simpa using hc
  exact .inl rfl

/-! ## The start of a value -/

/-- A character that a written value starts with. -/
def Starts (first : Char) : Prop :=
  Cursor.isSpace first = false ∧ first ≠ ']' ∧ first ≠ '\uFEFF'

instance (first : Char) : Decidable (Starts first) :=
  inferInstanceAs (Decidable (_ ∧ _ ∧ _))

theorem starts_of_numeral (negative : Bool) {x : Binary64.Numeral} (hvalid : x.Valid) :
    ∃ first more, Binary64.signChars negative ++ x.chars = first :: more ∧
      (first = '-' ∧ (∃ d ds, more = d :: ds ∧ d.isDigit = true) ∨ first.isDigit = true) := by
  obtain ⟨w, ws, hwhole⟩ := List.exists_cons_of_ne_nil hvalid.whole_ne_nil
  have hw := hvalid.isDigit_whole w (by simp [hwhole])
  have hchars : x.chars = w :: (ws ++ (x.fraction ++ x.exponent)) := by
    rw [Binary64.Numeral.chars, hwhole, List.cons_append]
  cases negative with
  | true => exact ⟨'-', x.chars, rfl, .inl ⟨rfl, w, _, hchars, hw⟩⟩
  | false => exact ⟨w, _, hchars, .inr hw⟩

theorem starts_of_isDigit {d : Char} (h : d.isDigit = true) : Starts d := by
  refine ⟨?_, ?_, ?_⟩
  · by_contra hspace
    rw [Bool.not_eq_false] at hspace
    simp only [Cursor.isSpace, Bool.or_eq_true, decide_eq_true_eq] at hspace
    rcases hspace with ((rfl | rfl) | rfl) | rfl <;> exact absurd h (by decide)
  · rintro rfl
    exact absurd h (by decide)
  · rintro rfl
    exact absurd h (by decide)

/-! ## Values without parts -/

/-- What is read: a value, and the text behind it. -/
def ReadsAs (result : Read (Json × Cursor)) (value : Json) (rest : List Char) : Prop :=
  ∃ c, result = .ok (value, c) ∧ c.rest = rest

section
variable {c : Cursor} {rest : List Char} (fuel : ℕ)

theorem readValue_numeral {negative : Bool} {x : Binary64.Numeral} (hvalid : x.Valid)
    (hshort : IsWhole x → x.whole.length ≤ digitLimit) (hrest : Follows rest)
    (h : c.rest = Binary64.signChars negative ++ x.chars ++ rest) :
    ReadsAs (readValue (fuel + 1) c) (numeralValue negative x) rest := by
  have hread : readValue (fuel + 1) c = readNumber c := by
    obtain ⟨first, more, hchars, hfirst⟩ := starts_of_numeral negative hvalid
    rw [hchars, List.cons_append] at h
    rcases hfirst with ⟨rfl, d, ds, rfl, hd⟩ | hfirst
    · have hne : d ≠ 'I' := by
        rintro rfl
        exact absurd hd (by decide)
      simp [readValue, h, Cursor.startsWith, hne.symm]
    · have hne (d : Char) (hd : d.isDigit = false) : first ≠ d := by
        rintro rfl
        rw [hfirst] at hd
        cases hd
      simp [readValue, h, Cursor.startsWith, hne '"' rfl, hne '\x7b' rfl, hne '[' rfl,
        (hne 'n' rfl).symm, (hne 't' rfl).symm, (hne 'f' rfl).symm, (hne 'N' rfl).symm,
        (hne 'I' rfl).symm, (hne '-' rfl).symm]
  refine ⟨_, hread.trans (readNumber_chars hvalid hshort hrest ?_), ?_⟩
  · rw [h, List.append_assoc]
  · exact cursor_rest_skip h

theorem readValue_null (h : c.rest = "null".toList ++ rest) :
    ReadsAs (readValue (fuel + 1) c) .null rest :=
  ⟨c.skip 4, by simp [readValue, h, Cursor.startsWith], cursor_rest_skip h⟩

theorem readValue_bool {b : Bool} (h : c.rest = (if b then "true" else "false").toList ++ rest) :
    ReadsAs (readValue (fuel + 1) c) (.bool b) rest := by
  cases b with
  | true => exact ⟨c.skip 4, by simp [readValue, h, Cursor.startsWith], cursor_rest_skip h⟩
  | false => exact ⟨c.skip 5, by simp [readValue, h, Cursor.startsWith], cursor_rest_skip h⟩

theorem readValue_real {x : Binary64} (hx : x.IsDouble) (hrest : Follows rest)
    (h : c.rest = (writeReal x).toList ++ rest) :
    ReadsAs (readValue (fuel + 1) c) (.real x) rest := by
  cases x with
  | nan =>
    exact ⟨c.skip 3, by simp [readValue, h, Cursor.startsWith, writeReal], cursor_rest_skip h⟩
  | infinite negative =>
    cases negative with
    | true =>
      exact ⟨c.skip 9, by simp [readValue, h, Cursor.startsWith, writeReal], cursor_rest_skip h⟩
    | false =>
      exact ⟨c.skip 8, by simp [readValue, h, Cursor.startsWith, writeReal], cursor_rest_skip h⟩
  | finite negative q =>
    obtain ⟨x, hvalid, htext, hvalue, hmarked⟩ := exists_numeral_real hx negative
    rw [← hvalue]
    exact readValue_numeral fuel hvalid (absurd · hmarked) hrest (htext ▸ h)

theorem readValue_int {n : ℤ} (hn : (toString n.natAbs).length ≤ digitLimit)
    (hrest : Follows rest) (h : c.rest = (toString n).toList ++ rest) :
    ReadsAs (readValue (fuel + 1) c) (.int n) rest := by
  obtain ⟨negative, x, hvalid, htext, hvalue, hwhole⟩ := exists_numeral_int n
  rw [← hvalue]
  exact readValue_numeral fuel hvalid (fun _ => hwhole ▸ hn) hrest (htext ▸ h)

theorem readValue_text {s : String} (h : c.rest = (writeText s).toList ++ rest) :
    ReadsAs (readValue (fuel + 1) c) (.text s) rest := by
  obtain ⟨place, hread⟩ := exists_readText c.position (c.position + 1) s rest
  rw [writeText_toList] at h
  refine ⟨⟨place, rest⟩, ?_, rfl⟩
  simp [readValue, h, hread]

end

/-! ## Lines -/

/-- The lines of a value at the given depth, one for each item or member. -/
def linesText (depth : ℕ) (lines : List String) : List Char :=
  (("," ++ lineStart depth).intercalate lines).toList

@[simp]
theorem linesText_singleton (depth : ℕ) (line : String) :
    linesText depth [line] = line.toList := by
  rw [linesText, String.intercalate_singleton]

@[simp]
theorem linesText_cons_cons (depth : ℕ) (line next : String) (more : List String) :
    linesText depth (line :: next :: more) =
      line.toList ++ ',' :: ((lineStart depth).toList ++ linesText depth (next :: more)) := by
  rw [linesText, String.intercalate_cons_cons]
  simp [linesText]

theorem write_list (depth : ℕ) (item : Json) (items : List Json) :
    (write depth (.list (item :: items))).toList =
      '[' :: ((lineStart (depth + 1)).toList ++
        (linesText (depth + 1) (writeItems (depth + 1) (item :: items)) ++
          ((lineStart depth).toList ++ [']']))) := by
  simp [write, linesText]

theorem write_object (depth : ℕ) (member : String × Json) (members : List (String × Json)) :
    (write depth (.object (member :: members))).toList =
      '\x7b' :: ((lineStart (depth + 1)).toList ++
        (linesText (depth + 1) (writeMembers (depth + 1) (member :: members)) ++
          ((lineStart depth).toList ++ ['\x7d']))) := by
  simp [write, linesText]

/-- Every storable value is written with a start of its own. -/
theorem write_starts {value : Json} (h : value.Storable) (depth : ℕ) :
    ∃ first more, (value.write depth).toList = first :: more ∧ Starts first := by
  have hminus : Starts '-' := by decide
  have hnumeral {negative : Bool} {x : Binary64.Numeral} (hvalid : x.Valid) :
      ∃ first more, Binary64.signChars negative ++ x.chars = first :: more ∧ Starts first := by
    obtain ⟨first, more, hchars, hfirst⟩ := starts_of_numeral negative hvalid
    refine ⟨first, more, hchars, ?_⟩
    rcases hfirst with ⟨rfl, -⟩ | hdigit
    · exact hminus
    · exact starts_of_isDigit hdigit
  cases value with
  | null => exact ⟨'n', "ull".toList, by simp [write], by decide⟩
  | bool b =>
    cases b with
    | true => exact ⟨'t', "rue".toList, by simp [write], by decide⟩
    | false => exact ⟨'f', "alse".toList, by simp [write], by decide⟩
  | int n =>
    obtain ⟨negative, x, hvalid, htext, -⟩ := exists_numeral_int n
    rw [write, htext]
    exact hnumeral hvalid
  | real x =>
    cases x with
    | nan => exact ⟨'N', "aN".toList, by simp [write, writeReal], by decide⟩
    | infinite negative =>
      cases negative with
      | true => exact ⟨'-', "Infinity".toList, by simp [write, writeReal], by decide⟩
      | false => exact ⟨'I', "nfinity".toList, by simp [write, writeReal], by decide⟩
    | finite negative q =>
      obtain ⟨x, hvalid, htext, -⟩ := exists_numeral_real h negative
      rw [write, htext]
      exact hnumeral hvalid
  | text s => exact ⟨'"', _, by rw [write, writeText_toList], by decide⟩
  | list items =>
    cases items with
    | nil => exact ⟨'[', [']'], by simp [write], by decide⟩
    | cons item items => exact ⟨'[', _, write_list _ _ _, by decide⟩
  | object members =>
    cases members with
    | nil => exact ⟨'\x7b', ['\x7d'], by simp [write], by decide⟩
    | cons member members => exact ⟨'\x7b', _, write_object _ _ _, by decide⟩

theorem linesText_starts {line : String} {first : Char} {tail : List Char}
    (h : line.toList = first :: tail) (depth : ℕ) (lines : List String) :
    ∃ more, linesText depth (line :: lines) = first :: more := by
  cases lines with
  | nil => exact ⟨tail, by rw [linesText_singleton, h]⟩
  | cons next lines => exact ⟨_, by rw [linesText_cons_cons, h, List.cons_append]⟩

theorem writeItems_starts {item : Json} {items : List Json} (h : StorableItems (item :: items))
    (depth : ℕ) : ∃ first more,
      linesText depth (writeItems depth (item :: items)) = first :: more ∧ Starts first := by
  obtain ⟨first, tail, htext, hfirst⟩ := write_starts h.1 depth
  obtain ⟨more, hlines⟩ := linesText_starts htext depth (writeItems depth items)
  exact ⟨first, more, hlines, hfirst⟩

theorem writeMembers_starts (member : String × Json) (members : List (String × Json))
    (depth : ℕ) : ∃ more,
      linesText depth (writeMembers depth (member :: members)) = '"' :: more := by
  obtain ⟨name, value⟩ := member
  have htext : (writeText name ++ ": " ++ value.write depth).toList =
      '"' :: (name.toList.flatMap (fun c => (writeChar c).toList) ++ ['"'] ++
        (": ".toList ++ (value.write depth).toList)) := by
    rw [String.toList_append, String.toList_append, writeText_toList, List.append_assoc,
      List.cons_append]
  exact linesText_starts htext depth (writeMembers depth members)

/-! ## Items and members -/

section
variable {c : Cursor} {rest more : List Char} {fuel depth : ℕ}

theorem skip_one_rest {first : Char} (h : c.rest = first :: rest) : (c.skip 1).rest = rest := by
  rw [Cursor.skip, h, List.drop_one, List.tail_cons]

theorem readItems_last {item : Json} (before : List Json)
    (h : ReadsAs (readValue fuel c) item ((lineStart depth).toList ++ ']' :: rest)) :
    ReadsAs (readItems (fuel + 1) before c) (.list (before ++ [item])) rest := by
  obtain ⟨c₁, hread, hrest⟩ := h
  have hclose := skipSpace_rest_of_lineStart hrest (by decide)
  exact ⟨c₁.skipSpace.skip 1, by simp [readItems, hread, hclose, bind, Except.bind, pure,
    Except.pure], skip_one_rest hclose⟩

theorem readItems_next {item : Json} (before : List Json) {first : Char}
    (hfirst : Cursor.isSpace first = false)
    (h : ReadsAs (readValue fuel c) item (',' :: ((lineStart depth).toList ++ first :: more))) :
    ∃ c', c'.rest = first :: more ∧
      readItems (fuel + 1) before c = readItems fuel (before ++ [item]) c' := by
  obtain ⟨c₁, hread, hrest⟩ := h
  have hcomma := skipSpace_rest_of_head hrest (by decide)
  refine ⟨(c₁.skipSpace.skip 1).skipSpace, ?_, by simp [readItems, hread, hcomma, bind,
    Except.bind]⟩
  exact skipSpace_rest_of_lineStart (skip_one_rest hcomma) hfirst

/-- The name of a member is read up to its value. -/
theorem exists_name {name : String} {first : Char} (hfirst : Cursor.isSpace first = false)
    (h : c.rest = (writeText name).toList ++ (": ".toList ++ first :: more)) :
    ∃ tail c₁, c.rest = '"' :: tail ∧
      readText c.position none [] (c.position + 1) tail = .ok (name, c₁) ∧
      c₁.skipSpace.rest = ':' :: ' ' :: first :: more ∧
      (c₁.skipSpace.skip 1).skipSpace.rest = first :: more := by
  obtain ⟨place, hread⟩ := exists_readText c.position (c.position + 1) name
    (':' :: ' ' :: first :: more)
  rw [writeText_toList] at h
  have hcolon : (Cursor.mk place (':' :: ' ' :: first :: more)).skipSpace.rest =
      ':' :: ' ' :: first :: more := skipSpace_rest_of_head rfl (by decide)
  refine ⟨_, ⟨place, ':' :: ' ' :: first :: more⟩, ?_, hread.trans ?_, hcolon, ?_⟩
  · rw [h]
    simp
  · simp
  · rw [skipSpace_rest, skip_one_rest hcolon, List.dropWhile_cons_of_pos (by decide),
      List.dropWhile_cons_of_neg (by simp [hfirst])]

/-- A list with items is read item by item. -/
theorem readValue_items (fuel : ℕ) {first : Char} (hfirst : Starts first)
    (h : c.rest = '[' :: ((lineStart depth).toList ++ first :: more)) : ∃ c',
    c'.rest = first :: more ∧ readValue (fuel + 1) c = readItems fuel [] c' := by
  have hinside := skipSpace_rest_of_lineStart (skip_one_rest h) hfirst.1
  exact ⟨(c.skip 1).skipSpace, hinside, by simp [readValue, h, hinside, hfirst.2.1]⟩

/-- An object with members is read member by member. -/
theorem readValue_members (fuel : ℕ)
    (h : c.rest = '\x7b' :: ((lineStart depth).toList ++ '"' :: more)) :
    ∃ c', c'.rest = '"' :: more ∧ readValue (fuel + 1) c = readMembers fuel [] c' := by
  have hinside := skipSpace_rest_of_lineStart (skip_one_rest h) (by decide)
  exact ⟨(c.skip 1).skipSpace, hinside, by simp [readValue, h, hinside]⟩

theorem readValue_list_nil (h : c.rest = '[' :: ']' :: rest) :
    ReadsAs (readValue (fuel + 1) c) (.list []) rest := by
  have hinside := skipSpace_rest_of_head (skip_one_rest h) (by decide)
  exact ⟨(c.skip 1).skipSpace.skip 1, by simp [readValue, h, hinside], skip_one_rest hinside⟩

theorem readValue_object_nil (h : c.rest = '\x7b' :: '\x7d' :: rest) :
    ReadsAs (readValue (fuel + 1) c) (.object []) rest := by
  have hinside := skipSpace_rest_of_head (skip_one_rest h) (by decide)
  exact ⟨(c.skip 1).skipSpace.skip 1, by simp [readValue, h, hinside], skip_one_rest hinside⟩

section
variable {name : String} {value : Json} {first : Char} (before : List (String × Json))
  (hfirst : Cursor.isSpace first = false)
  (hc : c.rest = (writeText name).toList ++ (": ".toList ++ first :: more))
include hfirst hc

theorem readMembers_last (h : ∀ c' : Cursor, c'.rest = first :: more →
      ReadsAs (readValue fuel c') value ((lineStart depth).toList ++ '\x7d' :: rest)) :
    ReadsAs (readMembers (fuel + 1) before c) (.object (putMember before name value)) rest := by
  obtain ⟨tail, c₁, hquote, hname, hcolon, hstart⟩ := exists_name hfirst hc
  obtain ⟨c₂, hread, hrest⟩ := h _ hstart
  have hclose := skipSpace_rest_of_lineStart hrest (by decide)
  refine ⟨c₂.skipSpace.skip 1, ?_, skip_one_rest hclose⟩
  simp [readMembers, hquote, hname, hcolon, hread, hclose, bind, Except.bind, pure, Except.pure]

theorem readMembers_next {following : Char} {later : List Char}
    (hfollowing : Cursor.isSpace following = false)
    (h : ∀ c' : Cursor, c'.rest = first :: more →
      ReadsAs (readValue fuel c') value (',' :: ((lineStart depth).toList ++ following :: later))) :
    ∃ c', c'.rest = following :: later ∧
      readMembers (fuel + 1) before c = readMembers fuel (putMember before name value) c' := by
  obtain ⟨tail, c₁, hquote, hname, hcolon, hstart⟩ := exists_name hfirst hc
  obtain ⟨c₂, hread, hrest⟩ := h _ hstart
  have hcomma := skipSpace_rest_of_head hrest (by decide)
  refine ⟨(c₂.skipSpace.skip 1).skipSpace, ?_, ?_⟩
  · exact skipSpace_rest_of_lineStart (skip_one_rest hcomma) hfollowing
  · simp [readMembers, hquote, hname, hcolon, hread, hcomma, bind, Except.bind]

end
end

theorem putMember_of_new {name : String} {before : List (String × Json)} (value : Json)
    (h : name ∉ before.map Prod.fst) : putMember before name value = before ++ [(name, value)] := by
  have hany : ¬ before.any (·.1 == name) = true := by
    rintro hany
    obtain ⟨m, hm, hname⟩ := List.any_eq_true.1 hany
    exact h (List.mem_map.2 ⟨m, hm, by simpa using hname⟩)
  rw [putMember, if_neg hany]

theorem new_of_nodup {name : String} {value : Json} {before after : List (String × Json)}
    (h : ((before ++ (name, value) :: after).map Prod.fst).Nodup) :
    name ∉ before.map Prod.fst := by
  rw [List.map_append, List.map_cons] at h
  exact fun hname => List.disjoint_of_nodup_append h hname (List.mem_cons_self)

/-! ## Round trip -/

mutual

theorem readValue_write : (value : Json) → value.Storable → (depth fuel : ℕ) → (c : Cursor) →
    (rest : List Char) → (value.write depth).toList.length ≤ fuel → Follows rest →
    c.rest = (value.write depth).toList ++ rest → ReadsAs (readValue (fuel + 1) c) value rest
  | .null, _ => fun _ fuel _ _ _ _ hc => readValue_null fuel hc
  | .bool _, _ => fun _ fuel _ _ _ _ hc => readValue_bool fuel hc
  | .int _, h => fun _ fuel _ _ _ hrest hc => readValue_int fuel h hrest hc
  | .real _, h => fun _ fuel _ _ _ hrest hc => readValue_real fuel h hrest hc
  | .text _, _ => fun _ fuel _ _ _ _ hc => readValue_text fuel hc
  | .list [], _ => fun _ _ _ _ _ _ hc => readValue_list_nil (by rw [hc, write]; rfl)
  | .list (item :: items), h => by
    intro depth fuel c rest hfuel _ hc
    obtain ⟨first, more, hlines, hfirst⟩ := writeItems_starts h (depth + 1)
    have hitems := readItems_write (item :: items) h (by simp) (depth + 1) depth
    rw [write_list, hlines] at hc hfuel
    simp only [List.cons_append, List.append_assoc, List.length_cons,
      List.length_append] at hc hfuel
    obtain ⟨c', hc', hread⟩ := readValue_items fuel hfirst hc
    rw [hread]
    obtain ⟨f, rfl⟩ : ∃ f, fuel = f + 2 := ⟨fuel - 2, by omega⟩
    refine hitems f [] c' rest ?_ ?_
    · rw [hlines, List.length_cons]
      omega
    · rw [hc', hlines]
      rfl
  | .object [], _ => fun _ _ _ _ _ _ hc => readValue_object_nil (by rw [hc, write]; rfl)
  | .object (member :: members), h => by
    intro depth fuel c rest hfuel _ hc
    obtain ⟨more, hlines⟩ := writeMembers_starts member members (depth + 1)
    have hmembers := readMembers_write (member :: members) h.2 (by simp) (depth + 1) depth
    rw [write_object, hlines] at hc hfuel
    simp only [List.cons_append, List.append_assoc, List.length_cons,
      List.length_append] at hc hfuel
    obtain ⟨c', hc', hread⟩ := readValue_members fuel hc
    rw [hread]
    obtain ⟨f, rfl⟩ : ∃ f, fuel = f + 2 := ⟨fuel - 2, by omega⟩
    refine hmembers f [] c' rest h.1 ?_ ?_
    · rw [hlines, List.length_cons]
      omega
    · rw [hc', hlines]
      rfl

theorem readItems_write : (items : List Json) → StorableItems items → items ≠ [] →
    (depth inner fuel : ℕ) → (before : List Json) → (c : Cursor) → (rest : List Char) →
    (linesText depth (writeItems depth items)).length ≤ fuel →
    c.rest = linesText depth (writeItems depth items) ++ ((lineStart inner).toList ++ ']' :: rest) →
    ReadsAs (readItems (fuel + 2) before c) (.list (before ++ items)) rest
  | [], _, hne => absurd rfl hne
  | [item], h, _ => by
    intro depth inner fuel before c rest hfuel hc
    rw [writeItems, writeItems, linesText_singleton] at hc hfuel
    exact readItems_last before
      (readValue_write item h.1 depth fuel c _ hfuel (follows_lineStart _ _) hc)
  | item :: next :: items, h, _ => by
    intro depth inner fuel before c rest hfuel hc
    obtain ⟨first, more, hlines, hfirst⟩ := writeItems_starts h.2 depth
    have hitems := readItems_write (next :: items) h.2 (by simp) depth inner
    simp only [writeItems] at hlines hc hfuel hitems
    rw [linesText_cons_cons, hlines] at hc hfuel
    simp only [List.cons_append, List.append_assoc, List.length_cons,
      List.length_append] at hc hfuel
    have hitem := readValue_write item h.1 depth fuel c _ (by omega) (follows_comma _) hc
    obtain ⟨c', hc', hread⟩ := readItems_next before hfirst.1 hitem
    obtain ⟨f, rfl⟩ : ∃ f, fuel = f + 1 := ⟨fuel - 1, by omega⟩
    have hrest := hitems f (before ++ [item]) c' rest
      (by rw [hlines, List.length_cons]; omega) (by rw [hc', hlines]; rfl)
    rw [hread]
    simpa using hrest

theorem readMembers_write : (members : List (String × Json)) → StorableMembers members →
    members ≠ [] → (depth inner fuel : ℕ) → (before : List (String × Json)) → (c : Cursor) →
    (rest : List Char) → ((before ++ members).map Prod.fst).Nodup →
    (linesText depth (writeMembers depth members)).length ≤ fuel →
    c.rest = linesText depth (writeMembers depth members) ++
      ((lineStart inner).toList ++ '\x7d' :: rest) →
    ReadsAs (readMembers (fuel + 2) before c) (.object (before ++ members)) rest
  | [], _, hne => absurd rfl hne
  | [(name, value)], h, _ => by
    intro depth inner fuel before c rest hnames hfuel hc
    obtain ⟨first, more, htext, hfirst⟩ := write_starts h.1 depth
    simp only [writeMembers, linesText_singleton, String.toList_append, htext, List.append_assoc,
      List.cons_append, List.length_append, List.length_cons] at hc hfuel
    rw [← putMember_of_new value (new_of_nodup hnames)]
    exact readMembers_last before hfirst.1 hc fun c' hc' =>
      readValue_write value h.1 depth fuel c' _ (by rw [htext, List.length_cons]; omega)
        (follows_lineStart _ _) (by rw [hc', htext]; rfl)
  | (name, value) :: next :: members, h, _ => by
    intro depth inner fuel before c rest hnames hfuel hc
    obtain ⟨first, more, htext, hfirst⟩ := write_starts h.1 depth
    obtain ⟨later, hlines⟩ := writeMembers_starts next members depth
    have hmembers := readMembers_write (next :: members) h.2 (by simp) depth inner
    have hnew := putMember_of_new value (new_of_nodup hnames)
    simp only [writeMembers] at hlines hc hfuel hmembers
    rw [linesText_cons_cons, hlines] at hc hfuel
    simp only [String.toList_append, htext, List.append_assoc, List.cons_append, List.length_append,
      List.length_cons] at hc hfuel
    have hquote : Cursor.isSpace '"' = false := by decide
    obtain ⟨c', hc', hread⟩ := readMembers_next before hfirst.1 hc hquote fun c' hc' =>
      readValue_write value h.1 depth fuel c' _ (by rw [htext, List.length_cons]; omega)
        (follows_comma _) (by rw [hc', htext]; rfl)
    obtain ⟨f, rfl⟩ : ∃ f, fuel = f + 1 := ⟨fuel - 1, by omega⟩
    have hrest := hmembers f (before ++ [(name, value)]) c' rest (by simpa using hnames)
      (by rw [hlines, List.length_cons]; omega) (by rw [hc', hlines]; rfl)
    rw [hread, hnew]
    simpa using hrest

end

/-- What is written for a value is parsed as the value. -/
theorem parse_write {value : Json} (h : value.Storable) (depth : ℕ) :
    parse (value.write depth).toList = .ok value := by
  obtain ⟨first, more, htext, hfirst⟩ := write_starts h depth
  have hstart := skipSpace_rest_of_head (c := ⟨0, (value.write depth).toList⟩) htext hfirst.1
  obtain ⟨c, hread, hrest⟩ := readValue_write value h depth
    (2 * (value.write depth).toList.length + 1) (Cursor.skipSpace ⟨0, (value.write depth).toList⟩)
    [] (by omega) (by simp [Follows]) (by rw [hstart, htext, List.append_nil])
  have hend : c.skipSpace.rest = [] := by rw [skipSpace_rest, hrest]; rfl
  have hmark : (value.write depth).toList.head? ≠ some '\uFEFF' := by
    rw [htext]
    simpa using hfirst.2.2
  simp [parse, hmark, hread, hend, bind, Except.bind, pure, Except.pure, Except.mapError]

end NodeQuery.Json
