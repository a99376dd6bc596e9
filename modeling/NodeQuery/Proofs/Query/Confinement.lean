import NodeQuery.Limits
import NodeQuery.Proofs.Query.Lexing
import NodeQuery.Proofs.Query.Needles
import NodeQuery.Proofs.Query.Restriction
import NodeQuery.Tree.Memory
/-!
Which failures of an evaluation are failures of the query. The form of the text, the grammar of a
pattern and the file system all are. What is not are the patterns that are refused for a count that
is too large or too long or for flags that exclude each other: where the evaluation reaches a leaf
with such a pattern, it fails as nothing that a caller of queries looks out for. Nor is it a failure
of the query if the evaluation runs into a bound of the machine. Over trees of texts there is no
other case (`evaluate_confined`).
-/
namespace NodeQuery

/-- A computation succeeds or fails as a query does. -/
def Confined {α : Type} (x : Outcome α) : Prop :=
  (∃ a, x = .ok a) ∨ ∃ error, x = .error (.query error)

theorem confined_iff {α : Type} {x : Outcome α} :
    Confined x ↔ ∀ failure, failure? x = some failure → ∃ error, failure = .query error := by
  cases x <;> simp [Confined, failure?]

/-! ## Bounds of the machine -/

/-- A bound is no matter of the query. -/
theorem Limit.failure_ne_query (limit : Limit) (error : QueryError) :
    limit.failure ≠ .query error := by
  cases limit <;> exact nofun

section
variable [Limits] {α : Type} {debug : Bool} {task : Task} {x : Outcome α}

theorem attempt_eq_query_iff {error : QueryError} :
    attempt debug task x = .error (.query error) ↔
      Limits.reached? debug task = none ∧ x = .error (.query error) := by
  unfold attempt
  cases Limits.reached? debug task with
  | none => simp
  | some reached =>
    have hne := reached.1.failure_ne_query error
    simpa using hne

theorem confined_attempt_iff :
    Confined (attempt debug task x) ↔ Limits.reached? debug task = none ∧ Confined x := by
  unfold Confined
  simp only [attempt_eq_query_iff, exists_and_left, and_or_left]
  refine or_congr_left ?_
  unfold attempt
  cases Limits.reached? debug task with
  | none => simp
  | some reached => simp

end

/-! ## Trees of texts -/

namespace MemoryTree

/-- The nodes and the attributes of a tree are called by texts, and a file with content can be read
or is refused by the file system. -/
structure Plain (t : MemoryTree) (files : Files.Store) : Prop where
  name : ∀ node ∈ t.nodes, node.name.IsText
  slot : ∀ node ∈ t.nodes, ∃ attributes, node.slot = .attributes attributes ∧ attributes.TextKeys
  content : ∀ node ∈ t.nodes, ∀ path, node.content = some (.file path) →
    ∀ fault, files.read path = .error fault → fault.ofSystem = true

variable {t : MemoryTree} {files : Files.Store} {id : Json}

/-- A node that is there is found. -/
theorem exists_node_of_has (hid : t.has id = true) : ∃ node ∈ t.nodes, t.node id = .ok node := by
  obtain ⟨n, hn⟩ := Option.isSome_iff_exists.1 hid
  obtain ⟨rfl, hlt⟩ := number?_eq_some_iff.1 hn
  exact ⟨t.nodes[n], List.getElem_mem hlt, node_of_getElem? (List.getElem?_eq_getElem hlt)⟩

namespace Plain

theorem exists_attributes (h : t.Plain files) (hid : t.has id = true) :
    ∃ attributes, t.attributes id = .ok attributes ∧ attributes.TextKeys := by
  obtain ⟨node, hmem, hnode⟩ := exists_node_of_has hid
  obtain ⟨attributes, hslot, hkeys⟩ := h.slot node hmem
  refine ⟨attributes, ?_, hkeys⟩
  simp [MemoryTree.attributes, hnode, hslot, bind, Except.bind, pure, Except.pure]

theorem namedByTexts (h : t.Plain files) : (t.view files).NamedByTexts where
  name id hid := by
    obtain ⟨node, hmem, hnode⟩ := exists_node_of_has hid
    obtain ⟨s, hs⟩ := h.name node hmem
    exact ⟨s, by simp [view, MemoryTree.name, hnode, hs, Except.map]⟩
  keys id attributes hid hread := by
    obtain ⟨found, hfound, hkeys⟩ := h.exists_attributes hid
    obtain rfl : found = attributes := Except.ok.inj (hfound.symm.trans hread)
    exact hkeys

/-- Content that cannot be read is refused by the file system. -/
theorem ofSystem_of_data (h : t.Plain files) (hid : t.has id = true) {fault : Fault}
    (hdata : t.data files id = .error fault) : fault.ofSystem = true := by
  obtain ⟨node, hmem, hnode⟩ := exists_node_of_has hid
  simp only [data, hnode, bind, Except.bind] at hdata
  split at hdata
  · cases hdata
  · cases hdata
  · next path hcontent =>
    cases hread : files.read path with
    | ok bytes =>
      rw [hread] at hdata
      cases hdata
    | error cause =>
      rw [hread] at hdata
      obtain rfl : cause = fault := Except.error.inj hdata
      exact h.content node hmem path hcontent cause hread

end Plain
end MemoryTree

/-! ## Refused patterns -/

/-- A pattern is refused for its grammar, and not for a limit or for its flags. -/
def Regex.Error.OfGrammar (error : Regex.Error) : Prop :=
  ∃ cause position, error = .fault cause position

/-- Why a pattern is refused, if it is. -/
def Regex.refusal? (result : Regex.Result Regex) : Option Regex.Error :=
  match result with
  | .ok _ => none
  | .error error => some error

section
variable {kind : Query.PatternKind} {literal : String} {bytes : Bool} {pattern : List Char}
  {error : Regex.Error}

theorem patternFailure_of_ofGrammar (h : error.OfGrammar) :
    ∃ detail, patternFailure kind literal bytes pattern error =
      .query (.invalidPattern kind literal detail) := by
  obtain ⟨cause, position, rfl⟩ := h
  exact ⟨_, rfl⟩

theorem ofGrammar_of_patternFailure {e : QueryError}
    (h : patternFailure kind literal bytes pattern error = .query e) : error.OfGrammar := by
  cases error with
  | fault cause position => exact ⟨cause, position, rfl⟩
  | _ => cases h

end

namespace Query

/-- Why a literal is refused as a pattern. Only regular expressions can be. -/
def Method.refusal? [Host] (method : Method) (literal : String) : Option Regex.Error :=
  match method with
  | .regex => Regex.refusal? (Regex.parse false [] literal.toList)
  | _ => none

/-- Why a literal is refused as a pattern of bytes. -/
def DataMethod.refusal? [Host] (settings : Settings) (method : DataMethod) (literal : String) :
    Option Regex.Error :=
  match method with
  | .regex => Regex.refusal?
      (Regex.parse true (ContentTest.flags settings) (ContentTest.bytePattern literal))
  | .text => none

/-- Why a pattern of a leaf is refused, the one of a key before the one of its value. -/
def Leaf.refusal? [Host] (settings : Settings) : Leaf → Option Regex.Error
  | .name _ method value => method.refusal? value
  | .attribute key keyMethod value valueMethod =>
    (keyMethod.refusal? key).or (valueMethod.refusal? value)
  | .data method value => method.refusal? settings value

theorem failure?_matcher [Host] (settings : Settings) (method : Method) (literal : String) :
    failure? (Matcher.compile settings method literal) =
      (method.refusal? literal).map
        (patternFailure .regex literal false literal.toList) := by
  cases method with
  | regex =>
    rw [Matcher.compile, Method.refusal?]
    cases Regex.parse false [] literal.toList <;> rfl
  | _ => rfl

theorem failure?_contentTest [Host] (method : DataMethod) (literal : String) :
    failure? (ContentTest.compile .standard method literal) =
      (method.refusal? .standard literal).map
        (patternFailure .dataRegex literal true (ContentTest.bytePattern literal)) := by
  cases method with
  | regex =>
    rw [ContentTest.compile, DataMethod.refusal?]
    cases Regex.parse true (ContentTest.flags .standard) (ContentTest.bytePattern literal) <;> rfl
  | text => exact ContentTest.failure?_compile_text_standard literal

/-- Under the standard settings a literal is wrong only as a pattern that is refused. -/
theorem Leaf.literalFailure?_standard [Host] (l : Leaf) : ∃ kind literal bytes pattern,
    l.literalFailure? .standard =
      (l.refusal? .standard).map (patternFailure kind literal bytes pattern) := by
  match l with
  | .name axis method value => exact ⟨_, _, _, _, failure?_matcher .standard method value⟩
  | .attribute key keyMethod value valueMethod =>
    rw [literalFailure?, refusal?, failure?_matcher, failure?_matcher]
    cases keyMethod.refusal? key with
    | none => exact ⟨_, _, _, _, rfl⟩
    | some error => exact ⟨_, _, _, _, rfl⟩
  | .data method value => exact ⟨_, _, _, _, failure?_contentTest method value⟩

/-! ## Reading -/

/-- An attribute prefix carries one of four letters, or none. -/
theorem Lexeme.letter_mem {letter : String} {w : List Char} (h : Lexeme (.attribute letter) w) :
    letter ∈ ["", "u", "w", "r", "f"] := by
  generalize hk : TokenKind.attribute letter = k at h
  cases h with
  | attributePlain =>
    cases hk
    decide
  | attributeLetter hc =>
    cases hk
    simp only [isAttributeLetter, Bool.or_eq_true, beq_iff_eq] at hc
    rcases hc with ((rfl | rfl) | rfl) | rfl <;> decide
  | _ => cases hk

/-- A text that is not read is a malformed query, or one with an unknown axis. -/
theorem confined_parse (query : String) : Confined (parse query) := by
  by_cases hok : ∃ e, parse query = .ok e
  · exact .inl hok
  rcases tokensFrom_cases 0 query.toList with ⟨ts, hts⟩ | ⟨c, place, hstop⟩
  · have hparse : parse query = parseTokens (ts ++ [⟨.last, 0 + query.toList.length⟩]) := by
      rw [parse, tokenize, hts.tokensFrom_eq]
    have hletters : ∀ t ∈ ts, ∀ letter, t.kind = .attribute letter →
        letter ∈ ["", "u", "w", "r", "f"] := by
      intro t ht letter hk
      obtain ⟨w, hw⟩ := hts.exists_lexeme t ht
      rw [hk] at hw
      exact hw.letter_mem
    rw [hparse] at hok ⊢
    rcases parseTokens_error hts.ne_last hletters (not_exists.1 hok) with
      ⟨cause, place, h⟩ | ⟨word, place, h⟩
    · exact .inr ⟨_, h⟩
    · exact .inr ⟨_, h⟩
  · exact .inr ⟨lexError c place, by rw [parse, tokenize, hstop]⟩

/-! ## Evaluation -/

/-- A look-up in a tree of texts fails only as a query does. -/
theorem Leaf.lookFailure?_of_plain {t : MemoryTree} {files : Files.Store} (h : t.Plain files)
    (l : Leaf) {id : Json} (hid : t.has id = true) {failure : Failure}
    (hfail : l.lookFailure? (t.view files) id = some failure) :
    ∃ error, failure = .query error := by
  obtain ⟨attributes, hattributes, -⟩ := h.exists_attributes hid
  match l with
  | .name .name _ _ => cases hfail
  | .name .attributeName _ _ | .attribute _ _ _ _ =>
    simp [lookFailure?, MemoryTree.view, hattributes] at hfail
  | .data _ _ =>
    rw [lookFailure?] at hfail
    split at hfail
    · cases hfail
    · next fault hdata =>
      have hsystem := h.ofSystem_of_data hid hdata
      cases hfail
      cases fault with
      | file cause path => exact ⟨_, rfl⟩
      | system refused detail => exact ⟨_, rfl⟩
      | _ => cases hsystem

/-- The evaluation of an expression reaches a leaf: the leaves before it do not fail. -/
def Expr.Reaches [Host] (context : Context) (e : Expr) (l : Leaf) : Prop :=
  ∃ before after, e.leaves = before ++ l :: after ∧
    ∀ m ∈ before, ∃ found, m.select context = .ok found

/-- An expression fails as the leaf that is reached and fails. -/
theorem Expr.failure?_select_eq_some_iff [Host] {context : Context} {e : Expr} {failure : Failure} :
    failure? (e.select context) = some failure ↔
      ∃ l, e.Reaches context l ∧ failure? (l.select context) = some failure := by
  rw [e.failure?_select, List.findSome?_eq_some_iff]
  constructor
  · rintro ⟨before, l, after, hleaves, hl, hbefore⟩
    exact ⟨l, ⟨before, after, hleaves, fun m hm => failure?_eq_none_iff.1 (hbefore m hm)⟩, hl⟩
  · rintro ⟨l, ⟨before, after, hleaves, hbefore⟩, hl⟩
    exact ⟨before, l, after, hleaves, hl, fun m hm => failure?_eq_none_iff.2 (hbefore m hm)⟩

section
variable [Host] {t : MemoryTree} {files : Files.Store} {l : Leaf}

/-- A refused pattern makes its leaf fail, before any node is looked up. -/
theorem Leaf.failure?_select_of_refusal (h : t.Plain files) (candidates : List Json)
    {error : Regex.Error} (hrefusal : l.refusal? .standard = some error) :
    ∃ kind literal bytes pattern, failure? (l.select ⟨t.view files, candidates, .standard⟩) =
      some (patternFailure kind literal bytes pattern error) := by
  obtain ⟨kind, literal, bytes, pattern, hliteral⟩ := l.literalFailure?_standard
  refine ⟨kind, literal, bytes, pattern, ?_⟩
  rw [l.failure?_select h.namedByTexts, hliteral, hrefusal]
  rfl

/-- Without a refused pattern only a look-up can fail. -/
theorem Leaf.confined_select (h : t.Plain files) (candidates : List Json)
    (hrefusal : l.refusal? .standard = none) :
    Confined (l.select ⟨t.view files, candidates, .standard⟩) := by
  refine confined_iff.2 fun failure hfail => ?_
  obtain ⟨kind, literal, bytes, pattern, hliteral⟩ := l.literalFailure?_standard
  rw [hrefusal] at hliteral
  rw [l.failure?_select h.namedByTexts, hliteral] at hfail
  obtain ⟨id, hid, hlook⟩ := List.exists_of_findSome?_eq_some hfail
  exact l.lookFailure?_of_plain h (List.mem_filter.1 hid).2 hlook

theorem Leaf.select_eq_invalidPattern_iff (h : t.Plain files) (candidates : List Json)
    {error : Regex.Error} (hrefusal : l.refusal? .standard = some error) :
    (∃ kind literal detail, l.select ⟨t.view files, candidates, .standard⟩ =
      .error (.query (.invalidPattern kind literal detail))) ↔ error.OfGrammar := by
  obtain ⟨kind, literal, bytes, pattern, hfail⟩ :=
    Leaf.failure?_select_of_refusal h candidates hrefusal
  rw [failure?_eq_some_iff.1 hfail]
  constructor
  · rintro ⟨_, _, _, hquery⟩
    exact ofGrammar_of_patternFailure (Except.error.inj hquery)
  · intro hgrammar
    obtain ⟨detail, hdetail⟩ := patternFailure_of_ofGrammar hgrammar
    exact ⟨kind, literal, detail, by rw [hdetail]⟩

/-- An expression fails as a query does unless it reaches a pattern that is refused for something
else than its grammar. -/
theorem Expr.confined_select_iff (h : t.Plain files) (candidates : List Json) (e : Expr) :
    Confined (e.select ⟨t.view files, candidates, .standard⟩) ↔
      ∀ l error, e.Reaches ⟨t.view files, candidates, .standard⟩ l →
        l.refusal? .standard = some error → error.OfGrammar := by
  rw [confined_iff]
  constructor
  · intro hconfined l error hreaches hrefusal
    obtain ⟨_, _, _, _, hfail⟩ := Leaf.failure?_select_of_refusal h candidates hrefusal
    obtain ⟨_, hquery⟩ := hconfined _ (Expr.failure?_select_eq_some_iff.2 ⟨l, hreaches, hfail⟩)
    exact ofGrammar_of_patternFailure hquery
  · intro hgrammar failure hfail
    obtain ⟨l, hreaches, hl⟩ := Expr.failure?_select_eq_some_iff.1 hfail
    cases hrefusal : l.refusal? .standard with
    | none => exact confined_iff.1 (Leaf.confined_select h candidates hrefusal) failure hl
    | some error =>
      have hinvalid := Leaf.select_eq_invalidPattern_iff h candidates hrefusal
      obtain ⟨kind, literal, detail, hselect⟩ := hinvalid.2 (hgrammar l error hreaches hrefusal)
      rw [hselect] at hl
      exact ⟨_, (Option.some.inj hl).symm⟩

theorem confined_evaluate_iff (h : t.Plain files) (ids : List Int) (query : String) :
    Confined (evaluate (t.view files) (ids.map .int) query .standard) ↔
      ∀ e l error, parse query = .ok e →
        e.Reaches ⟨t.view files, Selection.distinct (ids.map .int), .standard⟩ l →
        l.refusal? .standard = some error → error.OfGrammar := by
  rcases confined_parse query with ⟨e, hparse⟩ | ⟨error, hparse⟩
  · rw [evaluate_ints _ ids _ hparse, Expr.confined_select_iff h, hparse]
    constructor
    · intro hgrammar e' l error he
      rw [← Except.ok.inj he]
      exact hgrammar l error
    · exact fun hgrammar l error => hgrammar e l error rfl
  · have hevaluate : evaluate (t.view files) (ids.map .int) query .standard =
        .error (.query error) := by
      rw [evaluate, hparse]
      rfl
    rw [hevaluate, hparse]
    constructor
    · intro _ e l refused he
      cases he
    · exact fun _ => .inr ⟨error, rfl⟩

end

/-- Over a tree of texts, whole numbers as ids and the standard settings, an evaluation succeeds or
fails as a query does, unless it runs into a bound of the machine or reaches a pattern that is
refused for something else than its grammar. Such a pattern is never reported as an invalid one; a
pattern that the grammar refuses always is, within the bounds. -/
theorem evaluate_confined [Host] [Limits] {t : MemoryTree} {files : Files.Store} (h : t.Plain files)
    (ids : List Int) (query : String) (debug : Bool) :
    let view := t.view files
    let candidates := ids.map Json.int
    (Confined (attempt debug (.query view candidates query .standard)
        (evaluate view candidates query .standard)) ↔
      Limits.reached? debug (.query view candidates query .standard) = none ∧
      ∀ e l error, parse query = .ok e →
        e.Reaches ⟨view, Selection.distinct candidates, .standard⟩ l →
        l.refusal? .standard = some error → error.OfGrammar) ∧
    ∀ (l : Leaf) (candidates : List Json) (error : Regex.Error),
      l.refusal? .standard = some error →
      ((∃ kind literal detail, attempt debug (.leaf ⟨view, candidates, .standard⟩ l)
          (l.select ⟨view, candidates, .standard⟩) =
        .error (.query (.invalidPattern kind literal detail))) ↔
      Limits.reached? debug (.leaf ⟨view, candidates, .standard⟩ l) = none ∧ error.OfGrammar) := by
  refine ⟨confined_attempt_iff.trans (and_congr_right fun _ => ?_),
    fun l candidates error hrefusal => ?_⟩
  · exact confined_evaluate_iff h ids query
  · simp only [attempt_eq_query_iff, exists_and_left]
    exact and_congr_right fun _ => Leaf.select_eq_invalidPattern_iff h candidates hrefusal

/-- A tree whose only node has an attribute, and content in a file that is not there. -/
def absent : MemoryTree :=
  ⟨[⟨.text "root", none, .attributes (.leaf (.text "make") (.json (.text "Canon")) .nil),
    some (.file ⟨.working, ["a.jpg"]⟩), []⟩]⟩

theorem plain_absent : absent.Plain .empty where
  name := by simp [absent, Json.IsText]
  slot := by simp [absent, Attributes.TextKeys, Json.IsText]
  content := by
    intro node hnode path hpath fault hread
    obtain rfl := List.mem_singleton.1 hnode
    cases hpath
    cases hread
    rfl

/-- The first pattern lacks a parenthesis, so the second one is not reached. -/
def twoPatterns : String :=
  "data == r'(' or name == r'a{4294967295}'"

theorem evaluate_confined_twoPatterns :
    absent.Plain .empty ∧
    Confined (attempt false (.query (absent.view .empty) [.int 0] twoPatterns .standard)
      (evaluate (absent.view .empty) [.int 0] twoPatterns .standard)) ∧
    (Leaf.data .regex "(").refusal? .standard = some (.fault .openParenthesis (some 0)) ∧
    ∃ kind literal detail,
      attempt false (.leaf ⟨absent.view .empty, [.int 0], .standard⟩ (.data .regex "("))
          ((Leaf.data .regex "(").select ⟨absent.view .empty, [.int 0], .standard⟩) =
        .error (.query (.invalidPattern kind literal detail)) := by
  have hparse : parse twoPatterns = .ok (.join .or (.leaf (.data .regex "("))
      (.leaf (.name .name .regex "a{4294967295}"))) := rfl
  have hrefusal : (Leaf.data .regex "(").refusal? .standard =
      some (.fault .openParenthesis (some 0)) := rfl
  have hfail : failure? ((Leaf.data .regex "(").select
      ⟨absent.view .empty, Selection.distinct [.int 0], .standard⟩) ≠ none := by decide +kernel
  obtain ⟨hquery, hleaf⟩ := evaluate_confined plain_absent [0] twoPatterns false
  refine ⟨plain_absent, hquery.2 ⟨rfl, fun e l error he hreaches hl => ?_⟩, hrefusal,
    (hleaf _ _ _ hrefusal).2 ⟨rfl, _, _, rfl⟩⟩
  obtain rfl := Except.ok.inj (he.symm.trans hparse)
  obtain ⟨before, after, hleaves, hbefore⟩ := hreaches
  cases before with
  | nil =>
    obtain rfl := (List.cons.inj hleaves).1
    exact ⟨_, _, Option.some.inj (hl.symm.trans hrefusal)⟩
  | cons first before =>
    -- the second leaf would be reached only if the first one did not fail
    obtain rfl := (List.cons.inj hleaves).1
    obtain ⟨found, hfound⟩ := hbefore _ List.mem_cons_self
    exact absurd (failure?_eq_none_iff.2 ⟨found, hfound⟩) hfail

/-- A count that is too large is no failure of the query. -/
theorem not_confined_count :
    absent.Plain .empty ∧
    evaluate (absent.view .empty) (([0] : List Int).map .int) "name == r'a{4294967295}'" .standard =
      .error (.pattern .countTooLarge) ∧
    ¬ Confined (evaluate (absent.view .empty) (([0] : List Int).map .int)
      "name == r'a{4294967295}'" .standard) := by
  have hfail : evaluate (absent.view .empty) (([0] : List Int).map .int)
      "name == r'a{4294967295}'" .standard = .error (.pattern .countTooLarge) := rfl
  refine ⟨plain_absent, hfail, ?_⟩
  rw [hfail]
  rintro (⟨found, h⟩ | ⟨error, h⟩)
  · cases h
  · cases h

/-- Flags that exclude each other are none either. -/
example : evaluate (absent.view .empty) [.int 0] "data == r'(?a)(?L)a'" .standard =
    .error (.pattern .localeAndAsciiFlags) := rfl

end Query
end NodeQuery
