import Mathlib.Algebra.Group.Nat.Even
import NodeQuery.Proofs.Attribute.Entries
import NodeQuery.Proofs.Query.Failures
import NodeQuery.Proofs.Query.Laws
/-!
The fuzzy threshold in two runs. With a higher threshold a leaf accepts less, and on a tree whose
names are texts it fails in the same way (`Leaf.select_alike`). An expression accepts less, too, as
far as its fuzzy leaves lie inside an even number of right operands of `and not`, and more if they
lie inside an odd number of them (`select_threshold`). The induction carries both directions, since
a right operand of `and not` turns one into the other.
-/
namespace NodeQuery

/-! ## Two runs -/

/-- Two outcomes are alike: the same failure, or two related results. -/
def Outcome.Alike {α β : Type} (R : α → β → Prop) : Outcome α → Outcome β → Prop
  | .ok a, .ok b => R a b
  | .error failure, .error failure' => failure = failure'
  | _, _ => False

/-- The second answer is yes only if the first one is. -/
def Stricter (answer answer' : Bool) : Prop :=
  answer' = true → answer = true

theorem Stricter.refl (answer : Bool) : Stricter answer answer :=
  fun hyes => hyes

section
variable {α β γ δ : Type} {R : α → β → Prop} {S : γ → δ → Prop}

theorem Outcome.Alike.bind {x : Outcome α} {y : Outcome β} {f : α → Outcome γ} {g : β → Outcome δ}
    (h : Alike R x y) (hnext : ∀ a b, R a b → Alike S (f a) (g b)) :
    Alike S (x >>= f) (y >>= g) := by
  match x, y, h with
  | .ok a, .ok b, h => exact hnext a b h
  | .error _, .error _, rfl => exact rfl

theorem Outcome.Alike.map {x : Outcome α} {y : Outcome β} {f : α → γ} {g : β → δ}
    (h : Alike R x y) (hnext : ∀ a b, R a b → S (f a) (g b)) : Alike S (x.map f) (y.map g) := by
  match x, y, h with
  | .ok a, .ok b, h => exact hnext a b h
  | .error _, .error _, rfl => exact rfl

theorem Outcome.Alike.imp {R' : α → β → Prop} {x : Outcome α} {y : Outcome β} (h : Alike R x y)
    (himp : ∀ a b, R a b → R' a b) : Alike R' x y := by
  match x, y, h with
  | .ok a, .ok b, h => exact himp a b h
  | .error _, .error _, rfl => exact rfl

/-- A run beside itself, with what is known of its result. -/
theorem Outcome.alike_self {R : α → α → Prop} {x : Outcome α} (h : ∀ a, x = .ok a → R a a) :
    Alike R x x := by
  cases x with
  | ok a => exact h a rfl
  | error failure => exact rfl

/-- Two runs with the same beginning, which may use what is known of its result. -/
theorem Outcome.alike_bind_self {x : Outcome α} {f : α → Outcome γ} {g : α → Outcome δ}
    (h : ∀ a, x = .ok a → Alike S (f a) (g a)) : Alike S (x >>= f) (x >>= g) := by
  cases x with
  | ok a => exact h a rfl
  | error failure => exact rfl

theorem Outcome.Alike.failure?_eq {x : Outcome α} {y : Outcome β} (h : Alike R x y) :
    failure? x = failure? y := by
  match x, y, h with
  | .ok a, .ok b, _ => rfl
  | .error _, .error _, rfl => rfl

/-- A stricter test keeps fewer items. -/
theorem keep_alike {test test' : α → Outcome Bool} {as : List α}
    (h : ∀ a ∈ as, Outcome.Alike Stricter (test a) (test' a)) :
    Outcome.Alike (fun found found' => found'.Sublist found) (keep test as) (keep test' as) := by
  induction as with
  | nil => exact .slnil
  | cons a rest ih =>
    obtain ⟨ha, hrest⟩ := List.forall_mem_cons.1 h
    refine ha.bind fun answer answer' hanswer => (ih hrest).bind fun found found' hfound => ?_
    show (if answer' then a :: found' else found').Sublist (if answer then a :: found else found)
    cases answer' with
    | true =>
      rw [hanswer rfl]
      exact hfound.cons_cons a
    | false =>
      cases answer with
      | true => exact hfound.cons a
      | false => exact hfound

/-- Items that can all be tested. -/
theorem anyPasses_eq {test : α → Outcome Bool} {as : List α}
    (h : ∀ a ∈ as, ∃ answer, test a = .ok answer) :
    anyPasses test as = .ok (as.any (passes test)) := by
  induction as with
  | nil => rfl
  | cons a rest ih =>
    obtain ⟨⟨answer, ha⟩, hrest⟩ := List.forall_mem_cons.1 h
    rw [anyPasses, ha, List.any_cons, passes_of_eq_ok ha]
    cases answer with
    | true => rfl
    | false => exact ih hrest

end

/-! ## Matchers -/

/-- The same settings but for the fuzzy threshold. -/
def Settings.withThreshold (settings : Settings) (threshold : Json) : Settings :=
  { settings with fuzzyThreshold := threshold }

/-- Whatever the second matcher accepts, the first one accepts. -/
def Matcher.Admits (m m' : Matcher) : Prop :=
  ∀ s, Stricter (m.accepts s) (m'.accepts s)

theorem Matcher.reaches_mono {threshold threshold' : Rat} (h : threshold ≤ threshold')
    (score : Binary64) : Stricter (reaches score threshold) (reaches score threshold') := by
  intro hreaches
  cases score with
  | nan => cases hreaches
  | infinite negative => exact hreaches
  | finite negative q => exact decide_eq_true (Rat.le_trans h (of_decide_eq_true hreaches))

theorem Matcher.Admits.acceptsName {m m' : Matcher} (h : m.Admits m') {name : Json}
    (hname : name.IsText) : Outcome.Alike Stricter (m.acceptsName name) (m'.acceptsName name) := by
  obtain ⟨s, rfl⟩ := hname
  exact h s

/-- The names of the nodes are texts, and so are those of their attributes, as far as they can be
looked up. -/
structure NodeTree.TextNames (tree : NodeTree) : Prop where
  name : ∀ id name, tree.has id = true → tree.name id = .ok name → name.IsText
  attributeName : ∀ id attributes, tree.has id = true → tree.attributes id = .ok attributes →
    ∀ name ∈ attributes.names Attributes.noName, name.IsText

/-- The name of a value is one of the names. -/
theorem Attributes.name_mem_names {a : Attributes} (outer : Json) {entry : Json × AttributeValue}
    (h : entry ∈ a.flatten outer) : entry.1 ∈ a.names outer := by
  obtain ⟨address, hat⟩ := mem_flatten_iff.1 h
  exact mem_names_iff.2 ⟨address, _, hat, rfl⟩

namespace Selection

/-- Every id of the second selection is in the first one, too. -/
def Includes (found found' : List Json) : Prop :=
  ∀ id, has found' id = true → has found id = true

section
variable {chosen chosen' others others' : List Json}

theorem Includes.of_subset (h : chosen' ⊆ chosen) : Includes chosen chosen' := by
  intro id hid
  obtain ⟨x, hx, hxid⟩ := has_iff.1 hid
  exact has_iff.2 ⟨x, h hx, hxid⟩

theorem Includes.union (hl : Includes chosen chosen') (hr : Includes others others') :
    Includes (union chosen others) (union chosen' others') := by
  intro id hid
  rw [has_union, Bool.or_eq_true] at hid ⊢
  exact hid.imp (hl id) (hr id)

theorem Includes.inter (hl : Includes chosen chosen') (hr : Includes others others') :
    Includes (inter chosen others) (inter chosen' others') := by
  intro id hid
  rw [has_inter, Bool.and_eq_true] at hid ⊢
  exact hid.imp (hl id) (hr id)

theorem Includes.diff (hl : Includes chosen chosen') (hr : Includes others' others) :
    Includes (diff chosen others) (diff chosen' others') := by
  intro id hid
  rw [has_diff, Bool.and_eq_true, Bool.not_eq_true'] at hid ⊢
  exact ⟨hl id hid.1, Bool.eq_false_iff.2 fun h => by simpa [hid.2] using hr id h⟩

/-- Among whole numbers, the ids of a selection are its members. -/
theorem Includes.subset {ids : List Int} (hchosen : chosen ⊆ ids.map .int)
    (hchosen' : chosen' ⊆ ids.map .int) (h : Includes chosen chosen') : chosen' ⊆ chosen := by
  intro id hid
  obtain ⟨x, hx, hxid⟩ := has_iff.1 (h id (has_iff.2 ⟨id, hid, rfl⟩))
  obtain ⟨m, -, rfl⟩ := List.mem_map.1 (hchosen hx)
  obtain ⟨n, -, rfl⟩ := List.mem_map.1 (hchosen' hid)
  rwa [← Json.same_int.1 (Json.same_iff.2 hxid)]

end
end Selection

namespace Query

section
variable {settings : Settings} {stricter : Json} {tree : NodeTree} {candidates : List Json}
  {test test' : LeafTest}

theorem compile_alike [Host]
    (hle : settings.threshold ≤ (settings.withThreshold stricter).threshold) (method : Method) (literal : String) :
    Outcome.Alike Matcher.Admits (Matcher.compile settings method literal)
      (Matcher.compile (settings.withThreshold stricter) method literal) := by
  cases method with
  | fixed => exact fun _ => .refl _
  | wildcard => exact fun _ => .refl _
  | regex => exact Outcome.alike_self fun _ _ _ => .refl _
  | fuzzy => exact fun s => Matcher.reaches_mono hle _

/-- Only fuzzy matchers depend on the threshold. -/
theorem compile_withThreshold [Host] {method : Method} (h : method ≠ .fuzzy) (literal : String) :
    Matcher.compile (settings.withThreshold stricter) method literal =
      Matcher.compile settings method literal := by
  cases method with
  | fuzzy => exact absurd rfl h
  | _ => rfl

/-! ## Leaves -/

/-- A literal of the leaf is compared fuzzily. -/
def Leaf.IsFuzzy : Leaf → Prop
  | .name _ method _ => method = .fuzzy
  | .attribute _ keyMethod _ valueMethod => keyMethod = .fuzzy ∨ valueMethod = .fuzzy
  | .data _ _ => False

/-- Two leaves made ready from the same leaf, the matchers of the second one being stricter. -/
def LeafTest.Admits : LeafTest → LeafTest → Prop
  | .name m, .name m' => m.Admits m'
  | .attributeName m, .attributeName m' => m.Admits m'
  | .attribute key value, .attribute key' value' => key.Admits key' ∧ value.Admits value'
  | .data test, .data test' => test = test'
  | _, _ => False

theorem Leaf.compile_alike [Host]
    (hle : settings.threshold ≤ (settings.withThreshold stricter).threshold) (l : Leaf) :
    Outcome.Alike LeafTest.Admits (l.compile settings)
      (l.compile (settings.withThreshold stricter)) := by
  match l with
  | .name .name method value => exact (Query.compile_alike hle method value).map fun _ _ => id
  | .name .attributeName method value =>
    exact (Query.compile_alike hle method value).map fun _ _ => id
  | .attribute key keyMethod value valueMethod =>
    exact (Query.compile_alike hle keyMethod key).bind fun _ _ hkey =>
      (Query.compile_alike hle valueMethod value).bind fun _ _ hvalue => ⟨hkey, hvalue⟩
  | .data method value =>
    have hsame : ContentTest.compile (settings.withThreshold stricter) method value =
      ContentTest.compile settings method value := rfl
    rw [Leaf.compile, Leaf.compile, hsame]
    exact Outcome.Alike.map (R := Eq) (Outcome.alike_self fun _ _ => rfl) fun _ _ => id

theorem Leaf.compile_withThreshold [Host] {l : Leaf} (h : ¬ l.IsFuzzy) :
    l.compile (settings.withThreshold stricter) = l.compile settings := by
  match l with
  | .name .name method value => rw [Leaf.compile, Leaf.compile, Query.compile_withThreshold h]
  | .name .attributeName method value =>
    rw [Leaf.compile, Leaf.compile, Query.compile_withThreshold h]
  | .attribute key keyMethod value valueMethod =>
    obtain ⟨hkey, hvalue⟩ := not_or.1 h
    rw [Leaf.compile, Leaf.compile, Query.compile_withThreshold hkey,
      Query.compile_withThreshold hvalue]
  | .data method value => rfl

theorem attributeHolds_alike {key key' value value' : Matcher} (hkey : key.Admits key')
    (hvalue : value.Admits value') {attributes : Attributes}
    (hnames : ∀ name ∈ attributes.names Attributes.noName, name.IsText) :
    Outcome.Alike Stricter (LeafTest.attributeHolds key value attributes)
      (LeafTest.attributeHolds key' value' attributes) := by
  have hkeep := keep_alike fun entry hentry =>
    hkey.acceptsName (hnames _ (Attributes.name_mem_names Attributes.noName hentry))
  refine hkeep.bind fun found found' hsub hany => ?_
  obtain ⟨entry, hentry, haccepts⟩ := List.any_eq_true.1 hany
  exact List.any_eq_true.2 ⟨entry, hsub.subset hentry, hvalue _ haccepts⟩

theorem anyPasses_alike {m m' : Matcher} (h : m.Admits m') {names : List Json}
    (hnames : ∀ name ∈ names, name.IsText) :
    Outcome.Alike Stricter (anyPasses m.acceptsName names) (anyPasses m'.acceptsName names) := by
  have hanswers : ∀ m : Matcher, ∀ name ∈ names, ∃ answer, m.acceptsName name = .ok answer :=
    fun m name hname => failure?_eq_none_iff.1 (m.failure?_acceptsName (hnames name hname))
  rw [anyPasses_eq (hanswers m), anyPasses_eq (hanswers m')]
  intro hany
  obtain ⟨name, hname, hpasses⟩ := List.any_eq_true.1 hany
  obtain ⟨s, rfl⟩ := hnames name hname
  exact List.any_eq_true.2 ⟨_, hname, h s hpasses⟩

/-- Names that are texts can be tested by every matcher, so only a look-up fails, and it fails for
both tests. -/
theorem LeafTest.holds_alike (htexts : tree.TextNames) {id : Json} (hid : tree.has id = true)
    (h : test.Admits test') :
    Outcome.Alike Stricter (test.holds tree id) (test'.holds tree id) := by
  match test, test', h with
  | .name m, .name m', h =>
    exact Outcome.alike_bind_self fun name hread =>
      h.acceptsName (htexts.name id name hid (readName_eq_ok hread))
  | .attributeName m, .attributeName m', h =>
    exact Outcome.alike_bind_self fun attributes hread =>
      anyPasses_alike h (htexts.attributeName id attributes hid (readAttributes_eq_ok hread))
  | .attribute key value, .attribute key' value', ⟨hkey, hvalue⟩ =>
    exact Outcome.alike_bind_self fun attributes hread => attributeHolds_alike hkey hvalue
      (htexts.attributeName id attributes hid (readAttributes_eq_ok hread))
  | .data test, .data _, rfl => exact Outcome.alike_self fun _ _ => .refl _

theorem LeafTest.selects_alike (htexts : tree.TextNames) (h : test.Admits test') (id : Json) :
    Outcome.Alike Stricter (test.selects tree id) (test'.selects tree id) := by
  rw [LeafTest.selects, LeafTest.selects]
  split
  · next hid => exact LeafTest.holds_alike htexts hid h
  · exact Stricter.refl false

theorem Leaf.select_alike [Host] (htexts : tree.TextNames)
    (hle : settings.threshold ≤ (settings.withThreshold stricter).threshold) (l : Leaf) :
    Outcome.Alike (fun found found' => found'.Sublist found)
      (l.select ⟨tree, candidates, settings⟩)
      (l.select ⟨tree, candidates, settings.withThreshold stricter⟩) :=
  (Leaf.compile_alike hle l).bind fun _ _ htest =>
    keep_alike fun id _ => LeafTest.selects_alike htexts htest id

theorem Leaf.select_withThreshold [Host] {l : Leaf} (h : ¬ l.IsFuzzy) :
    l.select ⟨tree, candidates, settings.withThreshold stricter⟩ =
      l.select ⟨tree, candidates, settings⟩ := by
  rw [Leaf.select, Leaf.select, Leaf.compile_withThreshold h]

end

/-! ## Expressions -/

/-- The leaves of an expression, from left to right, each with the number of right operands of
`and not` that it lies inside. -/
def Expr.negations : Expr → List (Leaf × Nat)
  | .leaf l => [(l, 0)]
  | .join .andNot left right =>
    left.negations ++ right.negations.map fun found => (found.1, found.2 + 1)
  | .join .or left right | .join .and left right => left.negations ++ right.negations
  | .group inner => inner.negations

/-- Of two selections the second one, or else the first one, is a part of the other. -/
def Leans (less : Bool) (found found' : List Json) : Prop :=
  match less with
  | true => Selection.Includes found found'
  | false => Selection.Includes found' found

section
variable {less : Bool} {chosen chosen' others others' : List Json}

theorem Leans.refl (less : Bool) (found : List Json) : Leans less found found := by
  cases less <;> exact fun _ hid => hid

/-- Of both operands of a union or an intersection there has to be less, or of both more. -/
theorem Leans.union (hl : Leans less chosen chosen') (hr : Leans less others others') :
    Leans less (Selection.union chosen others) (Selection.union chosen' others') := by
  cases less <;> exact Selection.Includes.union hl hr

theorem Leans.inter (hl : Leans less chosen chosen') (hr : Leans less others others') :
    Leans less (Selection.inter chosen others) (Selection.inter chosen' others') := by
  cases less <;> exact Selection.Includes.inter hl hr

/-- The less is taken away, the more is left. -/
theorem Leans.diff (hl : Leans less chosen chosen') (hr : Leans (!less) others others') :
    Leans less (Selection.diff chosen others) (Selection.diff chosen' others') := by
  cases less <;> exact Selection.Includes.diff hl hr

end

section
variable [Host] {settings : Settings} {stricter : Json} {tree : NodeTree}

/-- All fuzzy leaves of an expression lie inside an even number of right operands of `and not`, or
else inside an odd number. -/
def Expr.FuzzyInside (e : Expr) (even : Bool) : Prop :=
  ∀ found ∈ e.negations, found.1.IsFuzzy → (Even found.2 ↔ even = true)

theorem Expr.select_alike (htexts : tree.TextNames) (candidates : List Json)
    (hle : settings.threshold ≤ (settings.withThreshold stricter).threshold) {e : Expr}
    {even : Bool} (h : e.FuzzyInside even) :
    Outcome.Alike (Leans even) (e.select ⟨tree, candidates, settings⟩)
      (e.select ⟨tree, candidates, settings.withThreshold stricter⟩) := by
  induction e generalizing even with
  | leaf l =>
    cases even with
    | true =>
      exact (Leaf.select_alike htexts hle l).imp fun _ _ hsub => .of_subset hsub.subset
    | false =>
      have hnot : ¬ l.IsFuzzy := fun hfuzzy => by
        simpa using h (l, 0) List.mem_cons_self hfuzzy
      rw [Expr.select, Expr.select, Leaf.select_withThreshold hnot]
      exact Outcome.alike_self fun found _ => Leans.refl false found
  | join c left right ihl ihr =>
    cases c with
    | or =>
      obtain ⟨hl, hr⟩ := List.forall_mem_append.1 h
      exact (ihl hl).bind fun _ _ hchosen => (ihr hr).bind fun _ _ hothers =>
        hchosen.union hothers
    | and =>
      obtain ⟨hl, hr⟩ := List.forall_mem_append.1 h
      exact (ihl hl).bind fun _ _ hchosen => (ihr hr).bind fun _ _ hothers =>
        hchosen.inter hothers
    | andNot =>
      obtain ⟨hl, hr⟩ := List.forall_mem_append.1 h
      have hright : right.FuzzyInside (!even) := by
        intro found hfound hfuzzy
        have hnext := hr _ (List.mem_map_of_mem hfound) hfuzzy
        rw [Nat.even_add_one] at hnext
        cases even <;> simpa using hnext
      exact (ihl hl).bind fun _ _ hchosen => (ihr hright).bind fun _ _ hothers =>
        hchosen.diff hothers
  | group inner ih => exact ih h

theorem Expr.failure?_select_withThreshold (htexts : tree.TextNames) (candidates : List Json)
    (hle : settings.threshold ≤ (settings.withThreshold stricter).threshold) (e : Expr) :
    failure? (e.select ⟨tree, candidates, settings⟩) =
      failure? (e.select ⟨tree, candidates, settings.withThreshold stricter⟩) := by
  rw [Expr.failure?_select, Expr.failure?_select]
  congr 1
  funext l
  exact (Leaf.select_alike htexts hle l).failure?_eq

end

/-- Over whole numbers, repeated or not, and a tree whose names are texts as far as they can be
looked up, an expression succeeds with a higher fuzzy threshold if and only if it does with a lower
one, and it fails in the same way. It selects no more ids with the higher threshold if all of its
fuzzy leaves lie inside an even number of right operands of `and not`, and no fewer if all of them
lie inside an odd number. -/
theorem select_threshold [Host] (tree : NodeTree) (htexts : tree.TextNames) (ids : List Int)
    (e : Expr) {settings : Settings} {stricter : Json}
    (hle : settings.threshold ≤ (settings.withThreshold stricter).threshold) :
    ((∃ found, e.select ⟨tree, ids.map .int, settings⟩ = .ok found) ↔
      ∃ found', e.select ⟨tree, ids.map .int, settings.withThreshold stricter⟩ = .ok found') ∧
    (failure? (e.select ⟨tree, ids.map .int, settings⟩) =
      failure? (e.select ⟨tree, ids.map .int, settings.withThreshold stricter⟩)) ∧
    ∀ found found', e.select ⟨tree, ids.map .int, settings⟩ = .ok found →
      e.select ⟨tree, ids.map .int, settings.withThreshold stricter⟩ = .ok found' →
      ((∀ l n, (l, n) ∈ e.negations → l.IsFuzzy → Even n) → found' ⊆ found) ∧
      ((∀ l n, (l, n) ∈ e.negations → l.IsFuzzy → Odd n) → found ⊆ found') := by
  have hfailure := e.failure?_select_withThreshold htexts (ids.map .int) hle
  refine ⟨?_, hfailure, fun found found' h h' => ⟨fun heven => ?_, fun hodd => ?_⟩⟩
  · rw [← failure?_eq_none_iff, ← failure?_eq_none_iff, hfailure]
  · have hinside : e.FuzzyInside true :=
      fun l hl hfuzzy => iff_of_true (heven l.1 l.2 hl hfuzzy) rfl
    have halike := Expr.select_alike htexts (ids.map .int) hle hinside
    rw [h, h'] at halike
    exact halike.subset (Expr.select_subset h) (Expr.select_subset h')
  · have hinside : e.FuzzyInside false := fun l hl hfuzzy =>
      iff_of_false (Nat.not_even_iff_odd.2 (hodd l.1 l.2 hl hfuzzy)) Bool.false_ne_true
    have halike := Expr.select_alike htexts (ids.map .int) hle hinside
    rw [h, h'] at halike
    exact halike.subset (Expr.select_subset h') (Expr.select_subset h)

/-- Two nodes, the second of which is called somewhat like `a.jpg`. -/
def snapshots : NodeTree where
  has id := id.same (.int 1) || id.same (.int 2)
  name id := .ok (.text (if id.same (.int 1) then "a.jpg" else "b.jpg"))
  attributes _ := .ok (.leaf (.text "make") (.json (.text "Canon")) .nil)
  data _ := .ok none

theorem textNames_snapshots : snapshots.TextNames where
  name _ _ _ h := ⟨_, (Except.ok.inj h).symm⟩
  attributeName _ _ _ h := by
    cases h
    exact List.forall_mem_singleton.2 ⟨_, rfl⟩

/-- All nodes but those that are not called like `a.jpg`. -/
def likeFirst : Expr :=
  .join .andNot (.leaf (.name .name .wildcard "*"))
    (.join .andNot (.leaf (.name .name .wildcard "*")) (.leaf (.name .name .fuzzy "a.jpg")))

/-- What a matcher of names selects, given whether it accepts the second name. -/
theorem keep_snapshots {m : Matcher} {second : Bool} (hfirst : m.accepts "a.jpg" = true)
    (hsecond : m.accepts "b.jpg" = second) :
    keep ((LeafTest.name m).selects snapshots) [.int 2, .int 1, .int 2] =
      .ok (if second then [.int 2, .int 1, .int 2] else [.int 1]) := by
  have hone : (LeafTest.name m).selects snapshots (.int 1) = .ok true :=
    congrArg Except.ok hfirst
  have htwo : (LeafTest.name m).selects snapshots (.int 2) = .ok second :=
    congrArg Except.ok hsecond
  rw [keep, keep, keep, keep, hone, htwo]
  cases second <;> rfl

/-- The leaf that looks for names like `a.jpg`. -/
theorem select_like [Host] (settings : Settings) (ids : List Json) :
    Expr.select ⟨snapshots, ids, settings⟩ (.leaf (.name .name .fuzzy "a.jpg")) =
      keep ((LeafTest.name (.fuzzy "a.jpg" settings.threshold)).selects snapshots) ids :=
  rfl

theorem select_likeFirst [Host] (settings : Settings) (second : Bool)
    (hfirst : (Matcher.fuzzy "a.jpg" settings.threshold).accepts "a.jpg" = true)
    (hsecond : (Matcher.fuzzy "a.jpg" settings.threshold).accepts "b.jpg" = second) :
    likeFirst.select ⟨snapshots, [2, 1, 2].map .int, settings⟩ =
      .ok (if second then [.int 2, .int 1, .int 2] else [.int 1]) := by
  have hlike := (select_like settings ([2, 1, 2].map .int)).trans (keep_snapshots hfirst hsecond)
  refine Expr.select_join_eq_ok_iff.2 ⟨[.int 2, .int 1, .int 2], _, rfl,
    Expr.select_join_eq_ok_iff.2 ⟨[.int 2, .int 1, .int 2], _, rfl, hlike, rfl⟩, ?_⟩
  cases second <;> rfl

theorem select_threshold_snapshots : snapshots.TextNames ∧
    Settings.standard.threshold ≤ (Settings.standard.withThreshold (.int 1)).threshold ∧
    likeFirst.select ⟨snapshots, [2, 1, 2].map .int, .standard⟩ = .ok [.int 2, .int 1, .int 2] ∧
    likeFirst.select ⟨snapshots, [2, 1, 2].map .int, Settings.standard.withThreshold (.int 1)⟩ =
      .ok [.int 1] ∧
    (∀ l n, (l, n) ∈ likeFirst.negations → l.IsFuzzy → Even n) ∧
    [Json.int 1] ⊆ [.int 2, .int 1, .int 2] := by
  have hle : Settings.standard.threshold ≤
      (Settings.standard.withThreshold (.int 1)).threshold := by decide +kernel
  have h : likeFirst.select ⟨snapshots, [2, 1, 2].map .int, .standard⟩ =
      .ok [.int 2, .int 1, .int 2] :=
    select_likeFirst .standard true (by decide +kernel) (by decide +kernel)
  have h' : likeFirst.select
      ⟨snapshots, [2, 1, 2].map .int, Settings.standard.withThreshold (.int 1)⟩ = .ok [.int 1] :=
    select_likeFirst (Settings.standard.withThreshold (.int 1)) false (by decide +kernel)
      (by decide +kernel)
  have heven : ∀ l n, (l, n) ∈ likeFirst.negations → l.IsFuzzy → Even n := by
    have hinside : ∀ found ∈ likeFirst.negations, found.1.IsFuzzy → Even found.2 := by
      simp [likeFirst, Expr.negations, Leaf.IsFuzzy]
    exact fun l n => hinside (l, n)
  exact ⟨textNames_snapshots, hle, h, h', heven,
    ((select_threshold snapshots textNames_snapshots [2, 1, 2] likeFirst hle).2.2 _ _ h h').1 heven⟩

end Query
end NodeQuery
