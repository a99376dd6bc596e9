import NodeQuery.Proofs.Time.Reading
import NodeQuery.Proofs.Tree.Mirror
/-!
The attributes of a tree made from a description. Reading the members of an object keeps their names
and their order and decodes every value at every depth (`decodes_of_decodeMembers`); it succeeds if
all times can be read (`exists_decodeMembers`). A description of the usual form can then be read, and
its nodes have the attributes of their objects, unless the attributes of an object are the tag of
times alone: these are taken for a time themselves (`decoded_ofDescription`).
-/
namespace NodeQuery.Description

mutual

/-- The times in a value, at every depth, are written so that they can be read. -/
def TimesRead : Json → Prop
  | .object members =>
    match taggedTime? members with
    | some value => ∃ s stamp, value = .text s ∧ Time.parse s = .ok stamp
    | none => AllTimesRead members
  | _ => True

/-- The times in the values of an object can be read. -/
def AllTimesRead : List (String × Json) → Prop
  | [] => True
  | (_, value) :: rest => TimesRead value ∧ AllTimesRead rest

end

/-- Attributes are the decoded members of an object: each under its name, in order. An object whose
only member is the tag becomes the time that is written there, a time of the calendar; any other
object becomes a nested set, and every other value stays as it is. -/
inductive Decodes : List (String × Json) → Attributes → Prop
  | nil : Decodes [] .nil
  | time {key s : String} {stamp : Stamp} {rest : List (String × Json)} {more : Attributes}
    (h : Time.parse s = .ok stamp) (hvalid : stamp.IsValid) (hrest : Decodes rest more) :
    Decodes ((key, .object [(timeTag, .text s)]) :: rest) (.leaf (.text key) (.time stamp) more)
  | set {key : String} {members rest : List (String × Json)} {inner more : Attributes}
    (h : members.map Prod.fst ≠ [timeTag]) (hinner : Decodes members inner)
    (hrest : Decodes rest more) :
    Decodes ((key, .object members) :: rest) (.nest (.text key) inner more)
  | value {key : String} {value : Json} {rest : List (String × Json)} {more : Attributes}
    (h : ∀ members, value ≠ .object members) (hrest : Decodes rest more) :
    Decodes ((key, value) :: rest) (.leaf (.text key) (.json value) more)

/-- The members of the attributes of a described node. -/
def attributeMembers (o : Json) : List (String × Json) :=
  ((part? "attributes" o).map membersOf).getD []

/-- The attributes of a described node are the tag of times alone. -/
def IsTagAlone (o : Json) : Prop :=
  (attributeMembers o).map Prod.fst = [timeTag]

/-- A described node has the usual form. Only the root may do without a name. -/
structure WellFormed (directory : Files.Path) (e : List Nat × Json) : Prop where
  object : ∃ members, e.2 = .object members
  name : (∃ s, part? "name" e.2 = some (.text s)) ∨ e.1 = [] ∧ part? "name" e.2 = none
  attributes : ∀ value, part? "attributes" e.2 = some value → ∃ members, value = .object members
  times : AllTimesRead (attributeMembers e.2)
  content : ∃ content, Contains directory (part? "data" e.2) content
  items : ∀ value, part? "children" e.2 = some value → ∃ items, value = .list items

/-- A node has the decoded attributes of an object. -/
def HasAttributesOf (o : Json) (t : MemoryTree) (i : Nat) : Prop :=
  ∃ attributes, t.attributes (.int i) = .ok attributes ∧ Decodes (attributeMembers o) attributes

/-- Every node of a tree has the decoded attributes of its object. -/
def AttributesDecoded (d : Json) (t : MemoryTree) : Prop :=
  ∀ (i : Nat) (a : List Nat) (o : Json), (outline d)[i]? = some (a, o) → HasAttributesOf o t i

section
variable {directory : Files.Path} {d o : Json} {t u : MemoryTree} {e : List Nat × Json}
  {members : List (String × Json)} {a : Attributes}

/-! ## Reading members -/

theorem taggedTime?_eq_some_iff {value : Json} :
    taggedTime? members = some value ↔ members = [(timeTag, value)] := by
  unfold taggedTime?
  split
  · next name found =>
    split
    · next h => simp [h]
    · next h => simp [h]
  · next h =>
    refine iff_of_false (by simp) ?_
    rintro rfl
    exact h _ _ rfl

theorem taggedTime?_eq_none_iff :
    taggedTime? members = none ↔ members.map Prod.fst ≠ [timeTag] := by
  rw [Option.eq_none_iff_forall_ne_some]
  simp only [ne_eq, taggedTime?_eq_some_iff]
  constructor
  · intro h hnames
    obtain ⟨⟨name, value⟩, rfl, rfl⟩ := List.map_eq_singleton_iff.1 hnames
    exact h value rfl
  · rintro h value rfl
    exact h rfl

theorem timeOf_eq_ok_iff {value : Json} {stamp : Stamp} :
    timeOf value = .ok stamp ↔ ∃ s, value = .text s ∧ Time.parse s = .ok stamp := by
  cases value with
  | text s => simp [timeOf, Outcome.mapError_eq_ok_iff]
  | _ => simp [timeOf]

/-- What is read from members is what they stand for. -/
theorem decodes_of_decodeMembers (members : List (String × Json)) {a : Attributes}
    (h : decodeMembers members = .ok a) : Decodes members a := by
  match members with
  | [] =>
    cases h
    exact .nil
  | (key, value) :: rest =>
    obtain ⟨first, hfirst, h⟩ := Outcome.bind_eq_ok_iff.1 h
    obtain ⟨more, hmore, h⟩ := Outcome.bind_eq_ok_iff.1 h
    cases h
    have hrest := decodes_of_decodeMembers rest hmore
    cases value with
    | object inside =>
      rw [decodeValue] at hfirst
      split at hfirst
      · next stamp htag =>
        obtain ⟨time, htime, h⟩ := Outcome.bind_eq_ok_iff.1 hfirst
        cases h
        obtain rfl := taggedTime?_eq_some_iff.1 htag
        obtain ⟨s, rfl, hparse⟩ := timeOf_eq_ok_iff.1 htime
        exact .time hparse (Time.parse_isValid hparse) hrest
      · next htag =>
        obtain ⟨inner, hinner, h⟩ := Outcome.bind_eq_ok_iff.1 hfirst
        cases h
        exact .set (taggedTime?_eq_none_iff.1 htag) (decodes_of_decodeMembers inside hinner) hrest
    | _ =>
      cases hfirst
      exact .value (fun _ h => by cases h) hrest
termination_by sizeOf members

mutual

theorem exists_decodeValue : ∀ value : Json, TimesRead value → ∃ x, decodeValue value = .ok x
  | .object members, h => by
    rw [TimesRead] at h
    split at h
    · next value htag =>
      obtain ⟨s, stamp, hs, hparse⟩ := h
      have htime := timeOf_eq_ok_iff.2 ⟨s, hs, hparse⟩
      simp only [decodeValue, htag]
      exact ⟨_, Outcome.bind_eq_ok_iff.2 ⟨stamp, htime, rfl⟩⟩
    · next htag =>
      obtain ⟨inner, hinner⟩ := exists_decodeMembers members h
      simp only [decodeValue, htag]
      exact ⟨_, Outcome.bind_eq_ok_iff.2 ⟨inner, hinner, rfl⟩⟩
  | .null, _ | .bool _, _ | .int _, _ | .real _, _ | .text _, _ | .list _, _ => ⟨_, rfl⟩

/-- Members can be read if their times can. -/
theorem exists_decodeMembers :
    ∀ members : List (String × Json), AllTimesRead members → ∃ a, decodeMembers members = .ok a
  | [], _ => ⟨_, rfl⟩
  | (key, value) :: rest, h => by
    obtain ⟨first, hfirst⟩ := exists_decodeValue value h.1
    obtain ⟨more, hmore⟩ := exists_decodeMembers rest h.2
    exact ⟨_, Outcome.bind_eq_ok_iff.2 ⟨first, hfirst, Outcome.bind_eq_ok_iff.2 ⟨more, hmore, rfl⟩⟩⟩

end

theorem decodeEntries_members (members : List (String × Json)) :
    decodeEntries (members.map fun m => (.text m.1, m.2)) = decodeMembers members := by
  induction members with
  | nil => rfl
  | cons member rest ih =>
    rw [List.map_cons, decodeEntries, ih, decodeMembers]

/-- The attributes of a node with a table: the tag alone is taken for a time. -/
theorem slotOf_object (members : List (String × Json)) :
    slotOf (some (.object members)) =
      match taggedTime? members with
      | some value => (timeOf value).map .time
      | none => (decodeMembers members).map .attributes := by
  rw [← decodeEntries_members]
  match members with
  | [] => rfl
  | [(name, value)] =>
    rw [taggedTime?]
    show (if name = timeTag then _ else _) = _
    split <;> rfl
  | _ :: _ :: _ => rfl

/-! ## Which descriptions can be read -/

/-- What an object says of its own node can be read. -/
def Readable (directory : Files.Path) (o : Json) : Prop :=
  (∃ entry, entryOf directory o = .ok entry) ∧ itemsOf o = .ok (children o)

theorem exists_addNodes_iff {items : List Json} {p : Nat}
    (hall : ∀ c ∈ items, ∀ t, (∃ u, addNode directory p c t = .ok u) ↔
      ∀ e ∈ outline c, Readable directory e.2) :
    (∃ u, addNodes directory p items t = .ok u) ↔
      ∀ c ∈ items, ∀ e ∈ outline c, Readable directory e.2 := by
  induction items generalizing t with
  | nil => simp [addNodes]
  | cons c rest ih =>
    have hrest := fun v => ih (t := v) fun c hc => hall c (List.mem_cons_of_mem _ hc)
    rw [List.forall_mem_cons, ← hall c List.mem_cons_self t]
    simp only [addNodes, Outcome.bind_eq_ok_iff]
    constructor
    · rintro ⟨u, v, hv, hu⟩
      exact ⟨⟨v, hv⟩, (hrest v).1 ⟨u, hu⟩⟩
    · rintro ⟨⟨v, hv⟩, hreadable⟩
      obtain ⟨u, hu⟩ := (hrest v).2 hreadable
      exact ⟨u, v, hv, hu⟩

theorem forall_below_iff {property : Json → Prop} :
    (∀ e ∈ outline d, e.1 ≠ [] → property e.2) ↔
      ∀ c ∈ children d, ∀ e ∈ outline c, property e.2 := by
  constructor
  · rintro h c hc ⟨b, o⟩ hb
    obtain ⟨k, hk⟩ := List.mem_iff_getElem?.1 hc
    have hmem : (k :: b, o) ∈ outline d := by
      rw [outline]
      exact List.mem_cons_of_mem _ (mem_outlineFrom_iff.2 ⟨k, b, c, rfl, hk, hb⟩)
    exact h (k :: b, o) hmem (List.cons_ne_nil k b)
  · rintro h ⟨a, o⟩ ha hne
    rw [outline] at ha
    rcases List.mem_cons.1 ha with heq | hmem
    · exact absurd (congrArg Prod.fst heq) hne
    · obtain ⟨k, b, c, -, hk, hb⟩ := mem_outlineFrom_iff.1 hmem
      exact h c (List.mem_of_getElem? hk) (b, o) hb

theorem forall_outline_iff {property : Json → Prop} :
    (∀ e ∈ outline d, property e.2) ↔
      property d ∧ ∀ c ∈ children d, ∀ e ∈ outline c, property e.2 := by
  rw [← forall_below_iff]
  have hroot : ([], d) ∈ outline d := mem_outline_iff.2 rfl
  constructor
  · exact fun h => ⟨h _ hroot, fun e he _ => h e he⟩
  · rintro ⟨hd, h⟩ ⟨a, o⟩ he
    cases a with
    | nil =>
      cases mem_outline_iff.1 he
      exact hd
    | cons k b => exact h _ he (List.cons_ne_nil k b)

/-- A node with all below it can be added if all their objects can be read. -/
theorem exists_addNode_iff (d : Json) (p : Nat) (t : MemoryTree) :
    (∃ u, addNode directory p d t = .ok u) ↔ ∀ e ∈ outline d, Readable directory e.2 := by
  induction d using induction_children generalizing p t with
  | step d ih =>
    rw [forall_outline_iff]
    simp only [addNode_eq_ok_iff]
    constructor
    · rintro ⟨u, entry, items, hentry, hitems, hu⟩
      obtain rfl := children_of_itemsOf hitems
      exact ⟨⟨⟨entry, hentry⟩, hitems⟩,
        (exists_addNodes_iff fun c hc t => ih c hc _ t).1 ⟨u, hu⟩⟩
    · rintro ⟨⟨⟨entry, hentry⟩, hitems⟩, hreadable⟩
      obtain ⟨u, hu⟩ := (exists_addNodes_iff fun c hc t => ih c hc _ t).2 hreadable
      exact ⟨u, entry, _, hentry, hitems, hu⟩

theorem exists_ofDescription_iff :
    (∃ t, MemoryTree.ofDescription directory d = .ok t) ↔
      (∃ members, d = .object members) ∧ (∃ root, MadeFrom directory d root) ∧
      itemsOf d = .ok (children d) ∧ ∀ e ∈ outline d, e.1 ≠ [] → Readable directory e.2 := by
  rw [forall_below_iff]
  simp only [ofDescription_eq_ok_iff]
  constructor
  · rintro ⟨t, hobject, root, hroot, -, -, -, hitems, ht⟩
    exact ⟨hobject, ⟨root, hroot⟩, hitems,
      (exists_addNodes_iff fun c _ t => exists_addNode_iff c _ t).1 ⟨t, ht⟩⟩
  · rintro ⟨hobject, ⟨root, hslot, hcontent⟩, hitems, hreadable⟩
    have hadded : ∃ t, addNodes directory 0 (children d)
        ⟨[⟨rootName d, none, root.slot, root.content, []⟩]⟩ = .ok t :=
      (exists_addNodes_iff fun c _ t => exists_addNode_iff c _ t).2 hreadable
    obtain ⟨t, ht⟩ := hadded
    exact ⟨t, hobject, ⟨rootName d, none, root.slot, root.content, []⟩, ⟨hslot, hcontent⟩, rfl,
      rfl, rfl, hitems, ht⟩

/-! ## Descriptions of the usual form -/

theorem WellFormed.itemsOf_eq (h : WellFormed directory e) : itemsOf e.2 = .ok (children e.2) := by
  unfold itemsOf children
  cases hpart : part? "children" e.2 with
  | none => rfl
  | some value =>
    obtain ⟨items, rfl⟩ := h.items value hpart
    rfl

theorem WellFormed.slotOf_eq (h : WellFormed directory e) :
    slotOf (part? "attributes" e.2) = slotOf (some (.object (attributeMembers e.2))) := by
  cases hpart : part? "attributes" e.2 with
  | none => rw [attributeMembers, hpart]; rfl
  | some value =>
    obtain ⟨members, rfl⟩ := h.attributes value hpart
    rw [attributeMembers, hpart]
    rfl

theorem not_isTagAlone_iff : ¬ IsTagAlone o ↔ taggedTime? (attributeMembers o) = none :=
  taggedTime?_eq_none_iff.symm

/-- The attributes of an object can be read if they are not the tag alone. -/
theorem WellFormed.exists_attributes (h : WellFormed directory e) (hnot : ¬ IsTagAlone e.2) :
    ∃ attributes, slotOf (part? "attributes" e.2) = .ok (.attributes attributes) ∧
      Decodes (attributeMembers e.2) attributes := by
  obtain ⟨attributes, hattributes⟩ := exists_decodeMembers _ h.times
  refine ⟨attributes, ?_, decodes_of_decodeMembers _ hattributes⟩
  rw [h.slotOf_eq, slotOf_object, not_isTagAlone_iff.1 hnot, hattributes]
  rfl

/-- The tag alone is no attributes. -/
theorem WellFormed.slotOf_tagAlone (h : WellFormed directory e) (htag : IsTagAlone e.2) :
    ∃ value, attributeMembers e.2 = [(timeTag, value)] ∧
      slotOf (part? "attributes" e.2) = (timeOf value).map .time := by
  obtain ⟨⟨name, value⟩, hmembers, rfl⟩ := List.map_eq_singleton_iff.1 htag
  refine ⟨value, hmembers, ?_⟩
  rw [h.slotOf_eq, slotOf_object, taggedTime?_eq_some_iff.2 hmembers]

theorem WellFormed.readable_iff (h : WellFormed directory e) (hne : e.1 ≠ []) :
    Readable directory e.2 ↔ ¬ IsTagAlone e.2 := by
  constructor
  · rintro ⟨⟨entry, hentry⟩, -⟩ htag
    have hslot := slotOf_of_attributesOf (entryOf_eq_ok_iff.1 hentry).2.1
    obtain ⟨value, -, htime⟩ := h.slotOf_tagAlone htag
    rw [hslot] at htime
    obtain ⟨stamp, -, hsame⟩ := Outcome.map_eq_ok_iff.1 htime.symm
    cases hsame
  · intro hnot
    obtain ⟨attributes, hslot, -⟩ := h.exists_attributes hnot
    obtain ⟨content, hcontent⟩ := h.content
    obtain ⟨s, hname⟩ := h.name.resolve_right fun hroot => hne hroot.1
    have hattributes : attributesOf e.2 = .ok attributes := by
      rw [attributesOf, hslot]
      rfl
    exact ⟨⟨⟨.text s, attributes, content⟩,
      entryOf_eq_ok_iff.2 ⟨hname, hattributes, contentOf_eq_ok_iff.2 hcontent⟩⟩, h.itemsOf_eq⟩

/-- The attributes of the root can be read, or taken for a time that can be read. -/
theorem WellFormed.exists_slot_iff (h : WellFormed directory e) :
    (∃ slot, slotOf (part? "attributes" e.2) = .ok slot) ↔
      ∀ value, attributeMembers e.2 = [(timeTag, value)] → ∃ stamp, timeOf value = .ok stamp := by
  by_cases htag : IsTagAlone e.2
  · obtain ⟨value, hmembers, hslot⟩ := h.slotOf_tagAlone htag
    simp only [hslot, hmembers, Outcome.map_eq_ok_iff, List.cons.injEq, Prod.mk.injEq, true_and,
      and_true, forall_eq']
    exact ⟨fun ⟨_, stamp, hstamp, _⟩ => ⟨stamp, hstamp⟩, fun ⟨stamp, hstamp⟩ =>
      ⟨_, stamp, hstamp, rfl⟩⟩
  · obtain ⟨attributes, hslot, -⟩ := h.exists_attributes htag
    refine iff_of_true ⟨_, hslot⟩ fun value hmembers => absurd ?_ htag
    rw [IsTagAlone, hmembers]
    rfl

/-- A description of the usual form can be read unless the attributes of an object are the tag
alone; for the root they may be, if the time behind the tag can be read. -/
theorem exists_ofDescription_iff_of_wellFormed (hwell : ∀ e ∈ outline d, WellFormed directory e) :
    (∃ t, MemoryTree.ofDescription directory d = .ok t) ↔
      (∀ e ∈ outline d, IsTagAlone e.2 → e.1 = []) ∧
      ∀ value, attributeMembers d = [(timeTag, value)] → ∃ stamp, timeOf value = .ok stamp := by
  have hd : WellFormed directory ([], d) := hwell _ (mem_outline_iff.2 rfl)
  obtain ⟨content, hcontent⟩ := hd.content
  have hbelow : (∀ e ∈ outline d, e.1 ≠ [] → Readable directory e.2) ↔
      ∀ e ∈ outline d, IsTagAlone e.2 → e.1 = [] := by
    refine forall_congr' fun e => forall_congr' fun he => ?_
    rw [imp_congr_right (hwell e he).readable_iff]
    exact ⟨fun h htag => not_imp_not.1 h htag, fun h hne htag => hne (h htag)⟩
  have hroot : (∃ root, MadeFrom directory d root) ↔
      ∃ slot, slotOf (part? "attributes" d) = .ok slot :=
    ⟨fun ⟨root, h⟩ => ⟨root.slot, h.slot⟩, fun ⟨slot, h⟩ =>
      ⟨⟨rootName d, none, slot, content, []⟩, h, contentOf_eq_ok_iff.2 hcontent⟩⟩
  rw [exists_ofDescription_iff, hbelow, hroot, hd.exists_slot_iff]
  exact ⟨fun ⟨_, hslot, _, hnot⟩ => ⟨hnot, hslot⟩, fun ⟨hnot, hslot⟩ =>
    ⟨hd.object, hslot, hd.itemsOf_eq, hnot⟩⟩

/-- Attributes are looked up where the node holds them. -/
theorem attributes_of_getElem? {n : Nat} {node : Node} (h : t.nodes[n]? = some node) :
    t.attributes (.int n) =
      match node.slot with
      | .attributes attributes => .ok attributes
      | .time _ => .error (.noMember "a time has no attributes") := by
  rw [MemoryTree.attributes, MemoryTree.node_of_getElem? h]
  rfl

theorem WellFormed.attributes_eq {a : List Nat} {i : Nat} (h : WellFormed directory (a, o))
    (ht : MemoryTree.ofDescription directory d = .ok t) (hi : (outline d)[i]? = some (a, o)) :
    (¬ IsTagAlone o → HasAttributesOf o t i) ∧
      (IsTagAlone o → t.attributes (.int i) = .error (.noMember "a time has no attributes")) := by
  obtain ⟨ha, rfl⟩ := getElem?_outline_iff.1 hi
  obtain ⟨node, hnode, hmade⟩ := exists_node ht ha
  have hslot : slotOf (part? "attributes" o) = .ok node.slot := hmade.slot
  rw [HasAttributesOf, attributes_of_getElem? hnode]
  constructor
  · intro hnot
    obtain ⟨attributes, hattributes, hdecodes⟩ := h.exists_attributes hnot
    rw [hattributes, Except.ok.injEq] at hslot
    exact ⟨attributes, by rw [← hslot], hdecodes⟩
  · intro htag
    obtain ⟨value, -, htime⟩ := h.slotOf_tagAlone htag
    rw [htime] at hslot
    obtain ⟨stamp, -, hsame⟩ := Outcome.map_eq_ok_iff.1 hslot
    rw [← hsame]

/-- A description of the usual form whose times can all be read becomes a tree in which every node
has the decoded attributes of its object, if no object has the tag of times alone for its
attributes. Otherwise it cannot be read, unless the object is the root and a time can be read behind
the tag: the root then has no attributes to be looked up, though all other nodes have. -/
theorem decoded_ofDescription (hwell : ∀ e ∈ outline d, WellFormed directory e) :
    ((∀ e ∈ outline d, ¬ IsTagAlone e.2) →
      ∃ t, MemoryTree.ofDescription directory d = .ok t ∧ AttributesDecoded d t) ∧
    ((∃ t, MemoryTree.ofDescription directory d = .ok t) ↔
      (∀ e ∈ outline d, IsTagAlone e.2 → e.1 = []) ∧
      ∀ value, attributeMembers d = [(timeTag, value)] → ∃ stamp, timeOf value = .ok stamp) ∧
    ∀ t, MemoryTree.ofDescription directory d = .ok t →
      ∀ (i : Nat) (a : List Nat) (o : Json), (outline d)[i]? = some (a, o) →
        (¬ IsTagAlone o → HasAttributesOf o t i) ∧
        (IsTagAlone o →
          t.attributes (.int i) = .error (.noMember "a time has no attributes")) := by
  have hexists := exists_ofDescription_iff_of_wellFormed hwell
  have hnodes : ∀ t, MemoryTree.ofDescription directory d = .ok t → ∀ (i : Nat) (a : List Nat)
      (o : Json), (outline d)[i]? = some (a, o) → _ :=
    fun t ht i a o hi => (hwell _ (List.mem_of_getElem? hi)).attributes_eq ht hi
  refine ⟨fun hnone => ?_, hexists, hnodes⟩
  have hroot := hnone ([], d) (mem_outline_iff.2 rfl)
  obtain ⟨t, ht⟩ := hexists.2 ⟨fun e he htag => absurd htag (hnone e he), fun value hvalue =>
    absurd (congrArg (List.map Prod.fst) hvalue) hroot⟩
  exact ⟨t, ht, fun i a o hi => (hnodes t ht i a o hi).1 (hnone _ (List.mem_of_getElem? hi))⟩

end

/-- A day as it is written, and the time it stands for. -/
def written : Json := .object [(timeTag, .text "2020-06-01")]

def day : Stamp := ⟨2020, 6, 1, 0, 0, 0, 0, none⟩

/-- A picture with a time, and a nested set in which the tag is a name among others. -/
def shot : Json :=
  .object [("name", .text "a.jpg"), ("attributes", .object [("taken", written),
    ("exif", .object [("iso", .int 100), (timeTag, .text "noon"), ("made", written)])])]

def gallery : Json :=
  .object [("attributes", .object [("pages", .list [written])]), ("children", .list [shot])]

theorem outline_gallery : outline gallery = [([], gallery), ([0], shot)] := by
  have hgallery : children gallery = [shot] := rfl
  have hshot : children shot = [] := rfl
  simp [outline, outlineFrom, hgallery, hshot]

theorem parse_day : Time.parse "2020-06-01" = .ok day := by
  decide

theorem timesRead_written : TimesRead written :=
  ⟨"2020-06-01", day, rfl, parse_day⟩

theorem wellFormed_root_gallery : WellFormed (.ofText "home") ([], gallery) where
  object := ⟨_, rfl⟩
  name := .inr ⟨rfl, rfl⟩
  attributes value h := by cases h; exact ⟨_, rfl⟩
  times := ⟨trivial, trivial⟩
  content := ⟨none, .missing⟩
  items value h := by cases h; exact ⟨_, rfl⟩

theorem wellFormed_shot : WellFormed (.ofText "home") ([0], shot) where
  object := ⟨_, rfl⟩
  name := .inl ⟨"a.jpg", rfl⟩
  attributes value h := by cases h; exact ⟨_, rfl⟩
  times := ⟨timesRead_written, ⟨trivial, trivial, timesRead_written, trivial⟩, trivial⟩
  content := ⟨none, .missing⟩
  items value h := by cases h

theorem decoded_ofDescription_gallery :
    (∀ e ∈ outline gallery, WellFormed (.ofText "home") e) ∧
    (∀ e ∈ outline gallery, ¬ IsTagAlone e.2) ∧
    ∃ t, MemoryTree.ofDescription (.ofText "home") gallery = .ok t ∧ AttributesDecoded gallery t ∧
      t.attributes (.int 0) = .ok (.leaf (.text "pages") (.json (.list [written])) .nil) ∧
      t.attributes (.int 1) = .ok (.leaf (.text "taken") (.time day) (.nest (.text "exif")
        (.leaf (.text "iso") (.json (.int 100)) (.leaf (.text timeTag) (.json (.text "noon"))
          (.leaf (.text "made") (.time day) .nil))) .nil)) := by
  have hwell : ∀ e ∈ outline gallery, WellFormed (.ofText "home") e := by
    simp [outline_gallery, wellFormed_root_gallery, wellFormed_shot]
  have hroot : ¬ IsTagAlone gallery := by
    show ["pages"] ≠ [timeTag]
    decide
  have hshot : ¬ IsTagAlone shot := by
    show ["taken", "exif"] ≠ [timeTag]
    decide
  have hnone : ∀ e ∈ outline gallery, ¬ IsTagAlone e.2 := by
    simp [outline_gallery, hroot, hshot]
  obtain ⟨t, ht, hdecoded⟩ := (decoded_ofDescription hwell).1 hnone
  refine ⟨hwell, hnone, t, ht, hdecoded, ?_, ?_⟩
  · cases ht
    rfl
  · cases ht
    rfl

/-- A root whose attributes are the tag of times alone. -/
def dated : Json := .object [("attributes", written), ("name", .text "root")]

theorem outline_dated : outline dated = [([], dated)] := by
  have hdated : children dated = [] := rfl
  simp [outline, outlineFrom, hdated]

theorem wellFormed_dated : WellFormed (.ofText "home") ([], dated) where
  object := ⟨_, rfl⟩
  name := .inl ⟨"root", rfl⟩
  attributes value h := by cases h; exact ⟨_, rfl⟩
  times := ⟨trivial, trivial⟩
  content := ⟨none, .missing⟩
  items value h := by cases h

/-- The attribute named by the tag is not listed: in its place the root holds a time. -/
theorem not_decoded :
    ¬ ∀ (directory : Files.Path) (d : Json), (∀ e ∈ outline d, WellFormed directory e) →
      ∃ t, MemoryTree.ofDescription directory d = .ok t ∧ AttributesDecoded d t := by
  intro hall
  have hwell : ∀ e ∈ outline dated, WellFormed (.ofText "home") e := by
    simp [outline_dated, wellFormed_dated]
  obtain ⟨t, ht, hdecoded⟩ := hall (.ofText "home") dated hwell
  obtain ⟨attributes, hattributes, -⟩ := hdecoded 0 [] dated (by rw [outline_dated]; rfl)
  have hroot : t = ⟨[⟨.text "root", none, .time day, none, []⟩]⟩ := (Except.ok.inj ht).symm
  rw [hroot] at hattributes
  cases hattributes

end NodeQuery.Description
