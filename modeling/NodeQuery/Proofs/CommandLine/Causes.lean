import NodeQuery.Limits
import NodeQuery.Proofs.Query.Evaluation
import NodeQuery.Proofs.Tree.Built
import NodeQuery.Tree.Description
/-!
What a run of the command can fail with while it reads its documents, the settings and the tree.
Some failures are reported to the user (`Failure.Reported`), others are not looked out for
(`Failure.Unreported`): a document that is JSON and yet of another form than its reader takes for
granted. No other failure comes up, apart from a document with half a character, which no text here
can hold; and a tree that is read has links that agree (`yields_load`), so going up in it never
leaves it.
-/
namespace NodeQuery

namespace Failure

/-- A failure that the command reports to its user. -/
inductive Reported : Failure → Prop
  | query (error : QueryError) : Reported (.query error)
  | system {failure : Failure} (h : failure.isSystem = true) : Reported failure
  | badValue {failure : Failure} (h : failure.isBadValue = true) : Reported failure

/-- A failure that a run can end with and that nobody looks out for: a document holds a value of the
wrong type, a node without a name or a number beyond all numbers of double precision, or settings
name an encoding that is not known or not of text, or a pattern counts too far, or the stack of the
machine is used up. -/
inductive Unreported : Failure → Prop
  | wrongType (detail : String) : Unreported (.wrongType detail)
  | noMember (detail : String) : Unreported (.fault (.noMember detail))
  | nameless : Unreported (.fault (.missingKey "name"))
  | numberTooLarge : Unreported .numberTooLarge
  | unknownEncoding (name : String) : Unreported (.encoding (.unknown name))
  | notText (name : String) : Unreported (.encoding (.notText name))
  | countTooLarge : Unreported (.pattern .countTooLarge)
  | endless : Unreported .endless

/-- A document that holds half a character, which is no text here. -/
inductive HalfText : Failure → Prop
  | intro {error : Json.ReadError} (h : error.cause = .loneHalf) : HalfText (.json error)

/-- No failure is of both kinds. -/
theorem Unreported.not_reported {failure : Failure} (h : failure.Unreported) :
    ¬ failure.Reported := by
  intro hreported
  cases hreported with
  | query error => cases h
  | system hsystem => cases h <;> cases hsystem
  | badValue hvalue => cases h <;> cases hvalue

end Failure

/-- A result with a property, or a failure that a run can end with, or the end at half a
character. -/
inductive Yields {α : Type} (p : α → Prop) : Outcome α → Prop
  | ok {a : α} (h : p a) : Yields p (.ok a)
  | error {failure : Failure} (h : failure.Reported ∨ failure.Unreported) :
    Yields p (.error failure)
  | half {failure : Failure} (h : failure.HalfText) : Yields p (.error failure)

/-- A computation that fails, if it does, as a run can. -/
abbrev Foreseen {α : Type} (x : Outcome α) : Prop :=
  Yields (fun _ => True) x

section
variable {α β ε : Type} {p : α → Prop} {q : β → Prop} {x : Outcome α}

theorem Yields.bind {f : α → Outcome β} (hx : Yields p x) (hf : ∀ a, p a → Yields q (f a)) :
    Yields q (x >>= f) := by
  cases hx with
  | ok h => exact hf _ h
  | error h => exact .error h
  | half h => exact .half h

theorem Yields.map {f : α → β} (hx : Yields p x) (hf : ∀ a, p a → q (f a)) :
    Yields q (x.map f) := by
  cases hx with
  | ok h => exact .ok (hf _ h)
  | error h => exact .error h
  | half h => exact .half h

/-- What is known of the result beforehand can be used. -/
theorem Yields.strengthen {r : α → Prop} (hx : Yields p x) (h : ∀ a, x = .ok a → p a → r a) :
    Yields r x := by
  cases hx with
  | ok hp => exact .ok (h _ rfl hp)
  | error hfailure => exact .error hfailure
  | half hhalf => exact .half hhalf

theorem foreseen_mapError {x : Except ε α} {wrap : ε → Failure}
    (h : ∀ e, x = .error e → (wrap e).Reported ∨ (wrap e).Unreported) :
    Foreseen (x.mapError wrap) := by
  cases x with
  | error e => exact .error (h e rfl)
  | ok a => exact .ok trivial

end

/-- A task that runs into a bound fails as a run can. -/
theorem Limit.foreseen_failure {α : Type} (limit : Limit) :
    Foreseen (.error limit.failure : Outcome α) := by
  cases limit with
  | stack => exact .error (.inr .endless)
  | digits => exact .error (.inl (.badValue rfl))

theorem yields_badValue {α : Type} {p : α → Prop} (detail : String) :
    Yields p (.error (.badValue detail)) :=
  .error (.inl (.badValue rfl))

theorem yields_wrongType {α : Type} {p : α → Prop} (detail : String) :
    Yields p (.error (.wrongType detail)) :=
  .error (.inr (.wrongType detail))

/-! ## Files -/

namespace Files.Store

/-- A file that cannot be read is not there, or its path is no path. -/
theorem reported_of_read {s : Store} {path : Path} {fault : Fault}
    (h : s.read path = .error fault) : (Failure.fault fault).Reported := by
  unfold read at h
  split at h
  · cases h
    exact .badValue rfl
  · split at h
    · cases h
    · cases h
      exact .system rfl
    · cases h
      exact .system rfl

/-- A file that cannot be written is refused by the file system, or its path is no path. -/
theorem reported_of_write {s : Store} {path : Path} {content : Bytes} {fault : Fault}
    (h : s.write path content = .error fault) : (Failure.fault fault).Reported := by
  unfold write at h
  split at h
  · cases h
    exact .badValue rfl
  · split at h
    · cases h
    · cases h
      exact .system rfl
    · cases h
    · cases h
      exact .system rfl

theorem foreseen_ofReadError (error : Json.ReadError) :
    Foreseen (Except.error (Failure.ofReadError error) : Outcome Json) := by
  unfold Failure.ofReadError
  split
  · exact yields_badValue _
  · by_cases hhalf : error.cause = .loneHalf
    · exact .half ⟨hhalf⟩
    · exact .error (.inl (.badValue (by simpa [Failure.isBadValue] using hhalf)))

theorem foreseen_readJson (s : Store) (path : Path) : Foreseen (s.readJson path) := by
  have hbytes : Foreseen ((s.read path).mapError Failure.fault) :=
    foreseen_mapError fun _ hread => .inl (reported_of_read hread)
  have htext : Foreseen (s.readText path) := by
    refine hbytes.bind fun bytes _ => Yields.bind (p := fun _ => True) ?_ fun _ _ => .ok trivial
    exact foreseen_mapError fun _ _ => .inl (.badValue rfl)
  refine htext.bind fun text _ => ?_
  cases Json.parse text with
  | ok value => exact .ok trivial
  | error error => exact foreseen_ofReadError error

end Files.Store

/-! ## Settings -/

namespace Settings

/-- Settings are as they were once they have been checked, or their threshold is no number, or a
value is out of its bounds. -/
theorem check_cases (s : Settings) :
    s.check = .ok s ∨
      (s.fuzzyThreshold.isNumeric = false ∧ ∃ detail, s.check = .error (.wrongType detail)) ∨
      ∃ detail, s.check = .error (.badValue detail) := by
  unfold check
  split
  · next hnumeric => exact .inr (.inl ⟨by simpa using hnumeric, _, rfl⟩)
  · split
    · exact .inr (.inr ⟨_, rfl⟩)
    · split
      · exact .inr (.inr ⟨_, rfl⟩)
      · exact .inl rfl

theorem foreseen_check (s : Settings) : Foreseen s.check := by
  rcases s.check_cases with h | ⟨-, detail, h⟩ | ⟨detail, h⟩
  · rw [h]
    exact .ok trivial
  · rw [h]
    exact yields_wrongType detail
  · rw [h]
    exact yields_badValue detail

theorem foreseen_numberOf (value : Json) : Foreseen (numberOf value) := by
  unfold numberOf
  split
  · split
    · exact .error (.inr .numberTooLarge)
    · exact .ok trivial
  · exact .ok trivial
  · exact .ok trivial
  · split
    · exact .ok trivial
    · exact yields_badValue _
  · exact yields_wrongType _

theorem foreseen_listOf (value : Json) : Foreseen (listOf value) := by
  unfold listOf
  split
  · exact .ok trivial
  · exact .ok trivial
  · exact .ok trivial
  · exact yields_wrongType _

theorem foreseen_ofMembers (path : String) (members : List (String × Json)) :
    Foreseen (ofMembers path members) := by
  unfold ofMembers
  refine (foreseen_numberOf _).bind fun threshold _ => ?_
  refine (foreseen_listOf _).bind fun encodings _ => ?_
  exact foreseen_check _

theorem foreseen_load (files : Files.Store) (env : Environment) (path : Option String) :
    Foreseen (load files env path) := by
  unfold load
  split
  · exact foreseen_ofMembers _ _
  · split
    · refine (files.foreseen_readJson _).bind fun value _ => ?_
      cases value with
      | object members => exact foreseen_ofMembers _ _
      | _ => exact .error (.inr (.noMember _))
    · exact foreseen_ofMembers _ _

end Settings

/-! ## Trees -/

namespace Description

theorem foreseen_timeOf (value : Json) : Foreseen (timeOf value) := by
  unfold timeOf
  split
  · exact foreseen_mapError fun _ _ => .inl (.badValue rfl)
  · exact yields_wrongType _

mutual

theorem foreseen_decodeValue : ∀ value : Json, Foreseen (decodeValue value)
  | .object members => by
    rw [decodeValue]
    split
    · exact (foreseen_timeOf _).bind fun _ _ => .ok trivial
    · exact (foreseen_decodeMembers members).bind fun _ _ => .ok trivial
  | .null | .bool _ | .int _ | .real _ | .text _ | .list _ => by
    rw [decodeValue]
    exact .ok trivial
    simp

theorem foreseen_decodeMembers :
    ∀ members : List (String × Json), Foreseen (decodeMembers members)
  | [] => .ok trivial
  | (_, value) :: rest =>
    (foreseen_decodeValue value).bind fun _ _ =>
      (foreseen_decodeMembers rest).bind fun _ _ => .ok trivial

end

theorem foreseen_decodeEntries (entries : Entries) :
    Foreseen (decodeEntries entries) := by
  induction entries with
  | nil => exact .ok trivial
  | cons entry rest ih =>
    exact (foreseen_decodeValue entry.2).bind fun _ _ => ih.bind fun _ _ => .ok trivial

theorem foreseen_pairOf (index : Nat) (item : Json) : Foreseen (pairOf index item) := by
  unfold pairOf
  split
  · split
    · exact .ok trivial
    · exact yields_wrongType _
  · exact yields_badValue _
  · split
    · exact .ok trivial
    · exact yields_badValue _
  · exact .ok trivial
  · exact yields_badValue _
  · exact yields_wrongType _

theorem foreseen_tableAfter (items : List Json) (entries : Entries) (index : Nat) :
    Foreseen (tableAfter entries index items) := by
  induction items generalizing entries index with
  | nil => exact .ok trivial
  | cons item rest ih => exact (foreseen_pairOf index item).bind fun pair _ => ih _ _

theorem foreseen_tableOf (value : Json) : Foreseen (tableOf value) := by
  unfold tableOf
  split
  · exact .ok trivial
  · exact foreseen_tableAfter _ _ _
  · split
    · exact .ok trivial
    · exact yields_badValue _
  · exact yields_wrongType _

theorem foreseen_slotOf (description : Option Json) :
    Foreseen (slotOf description) := by
  refine (foreseen_tableOf _).bind fun entries _ => ?_
  have hentries : Foreseen (do return AttributeSlot.attributes (← decodeEntries entries)) :=
    (foreseen_decodeEntries entries).bind fun _ _ => .ok trivial
  split
  · split
    · exact (foreseen_timeOf _).bind fun _ _ => .ok trivial
    · exact hentries
  · exact hentries

theorem foreseen_contentOf (directory : Files.Path) (value : Json) :
    Foreseen (contentOf directory value) := by
  unfold contentOf
  split
  · exact .ok trivial
  · exact .ok trivial
  · split
    · refine Yields.map (p := fun _ => True) ?_ fun _ _ => trivial
      exact foreseen_mapError fun _ _ => .inl (.badValue rfl)
    · exact yields_wrongType _
    · exact .ok trivial
    · exact yields_wrongType _
    · exact yields_badValue _
  · split
    · exact yields_wrongType _
    · exact yields_badValue _
  · exact yields_wrongType _

/-- A tree after nodes have been added to another one. -/
structure Grown (t u : MemoryTree) : Prop where
  linked : u.Linked
  size : t.size ≤ u.size

theorem Grown.trans {t u v : MemoryTree} (h : t.size ≤ u.size) (hgrown : Grown u v) : Grown t v :=
  ⟨hgrown.linked, Nat.le_trans h hgrown.size⟩

mutual

/-- Nodes are added below a node that is there already, so that links agree all the time. -/
theorem yields_addNode (directory : Files.Path) {parent : Nat} {t : MemoryTree} (h : t.Linked)
    (hparent : parent < t.size) :
    ∀ node : Json, Yields (Grown t) (addNode directory parent node t)
  | .object members => by
    rw [addNode]
    split
    · exact .error (.inr .nameless)
    · next name _ =>
      refine (foreseen_slotOf _).bind fun slot _ => ?_
      cases slot with
      | time _ => exact yields_wrongType _
      | attributes attributes =>
        refine (foreseen_contentOf _ _).bind fun content _ => ?_
        have hpush := h.push hparent name attributes content
        have hlt : t.size < (t.push parent name attributes content).size := by
          rw [MemoryTree.size_push]
          exact Nat.lt_succ_self _
        have hbelow := yields_addBelow directory hpush hlt members
        exact hbelow.strengthen fun u _ => Grown.trans (Nat.le_of_lt hlt)
  | .null | .bool _ | .int _ | .real _ | .text _ | .list _ => by
    rw [addNode]
    exact yields_wrongType _
    simp

theorem yields_addBelow (directory : Files.Path) {parent : Nat} {t : MemoryTree} (h : t.Linked)
    (hparent : parent < t.size) :
    ∀ members : List (String × Json), Yields (Grown t) (addBelow directory parent members t)
  | [] => .ok ⟨h, Nat.le_refl _⟩
  | (name, value) :: rest => by
    rw [addBelow]
    split
    · exact yields_addChildren directory h hparent value
    · exact yields_addBelow directory h hparent rest

theorem yields_addChildren (directory : Files.Path) {parent : Nat} {t : MemoryTree} (h : t.Linked)
    (hparent : parent < t.size) :
    ∀ children : Json, Yields (Grown t) (addChildren directory parent children t)
  | .list items => yields_addNodes directory h hparent items
  | .text s => by
    rw [addChildren]
    split
    · exact .ok ⟨h, Nat.le_refl _⟩
    · exact yields_wrongType _
  | .object [] => .ok ⟨h, Nat.le_refl _⟩
  | .object (_ :: _) | .null | .bool _ | .int _ | .real _ => by
    rw [addChildren]
    exact yields_wrongType _
    all_goals simp

theorem yields_addNodes (directory : Files.Path) {parent : Nat} {t : MemoryTree} (h : t.Linked)
    (hparent : parent < t.size) :
    ∀ nodes : List Json, Yields (Grown t) (addNodes directory parent nodes t)
  | [] => .ok ⟨h, Nat.le_refl _⟩
  | node :: rest => by
    rw [addNodes]
    refine (yields_addNode directory h hparent node).bind fun u hu => ?_
    have hrest := yields_addNodes directory hu.linked (Nat.lt_of_lt_of_le hparent hu.size) rest
    exact hrest.strengthen fun v _ => Grown.trans hu.size

end

end Description

namespace MemoryTree

/-- The links of a tree with a description agree. -/
theorem yields_ofDescription (directory : Files.Path) (description : Json) :
    Yields Linked (ofDescription directory description) := by
  unfold ofDescription
  split
  · next members =>
    refine (Description.foreseen_slotOf _).bind fun slot _ => ?_
    refine (Description.foreseen_contentOf _ _).bind fun content _ => ?_
    have hroot (name : Json) : Linked ⟨[⟨name, none, slot, content, []⟩]⟩ := linked_single rfl rfl
    have hbelow (name : Json) :=
      Description.yields_addBelow directory (hroot name) Nat.one_pos members
    exact (hbelow _).strengthen fun _ _ hu => hu.linked
  · exact .error (.inr (.noMember _))

theorem yields_load (files : Files.Store) (path : Files.Path) : Yields Linked (load files path) :=
  (files.foreseen_readJson path).bind fun _ _ => yields_ofDescription _ _

end MemoryTree
end NodeQuery
