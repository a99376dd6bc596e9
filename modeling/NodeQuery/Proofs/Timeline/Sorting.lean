import NodeQuery.Proofs.Query.Truth
import NodeQuery.Proofs.Time.Reading
import NodeQuery.Proofs.Timeline.Restriction
/-!
What a timeline consists of. The entries in a window, listed node by node, are put in the order of
time, and those with equal times stay in the order of the list (`filter_sorted`). These two
properties leave only one list (`eq_of_sorted_of_classes`), so they say all about a timeline
(`ofNodes_sorted`). Times with offsets are in a window by their instants, those without if they are
written between its ends (`holds_iff_of_naive`).
-/
namespace NodeQuery.Timeline

/-- The times of a window among the attributes of nodes: node by node in the order of the list, and
within a node in the order of its dotted names. What is no node has none. -/
def inWindow (tree : NodeTree) (w : Window) (ids : List Json) : List TimelineEntry :=
  ids.flatMap fun id =>
    match tree.has id, tree.attributes id with
    | true, .ok attributes =>
      (attributes.flatten Attributes.noName).filterMap fun (name, value) =>
        match value with
        | .time t =>
          if t.isAware = w.first.isAware ∧ w.first.instant ≤ t.instant ∧
              t.instant ≤ w.last.instant then
            some ⟨t, name, id⟩
          else none
        | _ => none
    | _, _ => []

/-- The entries that are found for a window without offsets: those without offsets whose times are
written neither before its first nor after its last end, put in the order in which times are
written. -/
structure FoundAsWritten (w : Window) (entries found : List TimelineEntry) : Prop where
  mem_iff : ∀ e : TimelineEntry, e.time.IsValid → (e ∈ found ↔ e ∈ entries ∧
    e.time.isAware = false ∧ ¬ e.time.fields < w.first.fields ∧ ¬ w.last.fields < e.time.fields)
  ordered : found.Pairwise fun a b =>
    a.time.IsValid → b.time.IsValid → ¬ b.time.fields < a.time.fields

/-! ## Lists in order -/

section
variable {α : Type} {key : α → Int}

/-- Lists with the same parts of equal keys have the same members. -/
theorem mem_iff_of_classes {l l' : List α}
    (hclass : ∀ k, l.filter (key · = k) = l'.filter (key · = k)) (a : α) : a ∈ l ↔ a ∈ l' := by
  have hiff : ∀ l : List α, a ∈ l ↔ a ∈ l.filter (key · = key a) := by simp
  rw [hiff l, hclass, ← hiff l']

/-- A list that is sorted by a key is known by its parts of equal keys. -/
theorem eq_of_sorted_of_classes {l l' : List α} (h : l.Pairwise (key · ≤ key ·))
    (h' : l'.Pairwise (key · ≤ key ·))
    (hclass : ∀ k, l.filter (key · = k) = l'.filter (key · = k)) : l = l' := by
  induction l generalizing l' with
  | nil =>
    refine (List.eq_nil_iff_forall_not_mem.2 fun a ha => ?_).symm
    exact absurd ((mem_iff_of_classes hclass a).2 ha) List.not_mem_nil
  | cons a rest ih =>
    have hmem := mem_iff_of_classes hclass
    cases l' with
    | nil => exact absurd ((hmem a).1 List.mem_cons_self) List.not_mem_nil
    | cons b rest' =>
      rw [List.pairwise_cons] at h h'
      -- both heads have the least key of all, so they head the same class
      have hkey : key a = key b := by
        have hab : key a ≤ key b := by
          rcases List.mem_cons.1 ((hmem b).2 List.mem_cons_self) with heq | hb
          · exact Int.le_of_eq (congrArg key heq.symm)
          · exact h.1 b hb
        have hba : key b ≤ key a := by
          rcases List.mem_cons.1 ((hmem a).1 List.mem_cons_self) with heq | ha
          · exact Int.le_of_eq (congrArg key heq.symm)
          · exact h'.1 a ha
        exact Int.le_antisymm hab hba
      have hhead := hclass (key a)
      rw [List.filter_cons_of_pos (by simp), List.filter_cons_of_pos (by simp [hkey]),
        List.cons.injEq] at hhead
      obtain rfl := hhead.1
      refine congrArg (a :: ·) (ih h.2 h'.2 fun k => ?_)
      have hk := hclass k
      rw [List.filter_cons, List.filter_cons] at hk
      split at hk
      · exact (List.cons.inj hk).2
      · exact hk

end

/-! ## Timelines -/

section
variable {tree : NodeTree} {w : Window} {ids : List Json}

/-- Entries with equal times keep their order. -/
theorem filter_sorted (w : Window) (entries : List TimelineEntry) (instant : Int) :
    (sorted w entries).filter (·.time.instant = instant) =
      (entries.filter fun e => w.holds e.time).filter (·.time.instant = instant) := by
  have hclass : ((entries.filter fun e => w.holds e.time).filter
      (·.time.instant = instant)).Pairwise fun a b => notLater a b = true := by
    refine List.pairwise_of_forall_mem_list fun a ha b hb => ?_
    have hinstants : a.time.instant = instant ∧ b.time.instant = instant :=
      ⟨of_decide_eq_true (List.mem_filter.1 ha).2, of_decide_eq_true (List.mem_filter.1 hb).2⟩
    rw [notLater, hinstants.1, hinstants.2]
    exact decide_eq_true (Int.le_refl instant)
  rw [sorted, ← mergeSort_filter notLater_trans notLater_total, List.mergeSort_of_pairwise hclass]

theorem holds_iff {t : Stamp} : w.holds t = true ↔ t.isAware = w.first.isAware ∧
    w.first.instant ≤ t.instant ∧ t.instant ≤ w.last.instant := by
  simp [Window.holds, Window.places, and_assoc]

/-- A window without offsets holds the times that are written neither before its first nor after its
last end. -/
theorem holds_iff_of_naive {t : Stamp} (hfirst : w.first.IsValid) (hlast : w.last.IsValid)
    (ht : t.IsValid) (hnaive : w.first.isAware = false) (hnaive' : w.last.isAware = false) :
    w.holds t = true ↔ t.isAware = false ∧ ¬ t.fields < w.first.fields ∧
      ¬ w.last.fields < t.fields := by
  rw [holds_iff, hnaive, and_congr_right_iff]
  intro haware
  rw [← not_lt, ← not_lt, Stamp.instant_lt_iff ht hfirst haware hnaive,
    Stamp.instant_lt_iff hlast ht hnaive' haware]

theorem inWindow_eq (tree : NodeTree) (w : Window) (ids : List Json) :
    inWindow tree w ids = (ids.flatMap (entriesOf tree)).filter fun e => w.holds e.time := by
  rw [List.filter_flatMap, inWindow]
  refine List.flatMap_congr fun id _ => ?_
  rw [entriesOf, NodeTree.readAttributes]
  cases tree.has id with
  | false => rfl
  | true =>
    cases tree.attributes id with
    | error fault => rfl
    | ok attributes =>
      dsimp only
      rw [timesOf, List.filter_filterMap]
      refine List.filterMap_congr fun entry _ => ?_
      obtain ⟨name, value⟩ := entry
      cases value with
      | time t => simp only [Option.filter_some, holds_iff]
      | _ => rfl

theorem mem_sorted_iff {entries : List TimelineEntry} {e : TimelineEntry} :
    e ∈ sorted w entries ↔ e ∈ entries ∧ w.holds e.time = true := by
  rw [sorted, List.mem_mergeSort, List.mem_filter]

theorem pairwise_sorted (w : Window) (entries : List TimelineEntry) :
    (sorted w entries).Pairwise fun a b => a.time.instant ≤ b.time.instant := by
  refine (List.pairwise_mergeSort notLater_trans notLater_total _).imp fun {a b} hab => ?_
  exact of_decide_eq_true hab

theorem foundAsWritten_sorted (entries : List TimelineEntry) (hnaive : w.first.isAware = false)
    (hnaive' : w.last.isAware = false) (hfirst : w.first.IsValid) (hlast : w.last.IsValid) :
    FoundAsWritten w entries (sorted w entries) where
  mem_iff e he := by
    rw [mem_sorted_iff, holds_iff_of_naive hfirst hlast he hnaive hnaive']
  ordered := by
    refine (pairwise_sorted w entries).imp_of_mem fun {a b} ha hb hle hvalid hvalid' => ?_
    have haware {e : TimelineEntry} (he : e ∈ sorted w entries) : e.time.isAware = false :=
      ((holds_iff.1 (mem_sorted_iff.1 he).2).1).trans hnaive
    rw [← Stamp.instant_lt_iff hvalid' hvalid (haware hb) (haware ha)]
    exact not_lt.2 hle

/-- The timeline of any nodes, ids of no node and repeated ones among them, is there for every
window with two ends of a kind if the attributes of the nodes can be looked up. It has the entries
in the window and no others, each as often as the list of nodes gives it. It is sorted by instants,
and entries of the same instant are in the order of nodes and, within a node, of dotted names. There
is no other list of this kind. In a window without offsets times are compared as they are
written. -/
theorem ofNodes_sorted (hw : w.first.isAware = w.last.isAware)
    (hread : ∀ id ∈ ids, tree.has id = true → ∃ attributes, tree.attributes id = .ok attributes) :
    ∃ found, ofNodes tree w ids = .ok found ∧
      found.Perm (inWindow tree w ids) ∧
      found.Pairwise (fun a b => a.time.instant ≤ b.time.instant) ∧
      (∀ instant : Int, found.filter (·.time.instant = instant) =
        (inWindow tree w ids).filter (·.time.instant = instant)) ∧
      (∀ other : List TimelineEntry,
        other.Pairwise (fun a b => a.time.instant ≤ b.time.instant) →
        (∀ instant : Int, other.filter (·.time.instant = instant) =
          (inWindow tree w ids).filter (·.time.instant = instant)) → other = found) ∧
      (w.first.isAware = false → w.first.IsValid → w.last.IsValid →
        FoundAsWritten w (ids.flatMap (entriesOf tree)) found) := by
  have hreads : ∀ id ∈ ids, tree.has id = true →
      ∃ attributes, tree.readAttributes id = .ok attributes := by
    intro id hid hhas
    obtain ⟨attributes, hattributes⟩ := hread id hid hhas
    exact ⟨attributes, by rw [NodeTree.readAttributes, hattributes]⟩
  have htimes := times_eq_ok_iff.2 ⟨hreads, rfl⟩
  have hfound : ofNodes tree w ids = .ok (sorted w (ids.flatMap (entriesOf tree))) := by
    have hsound : w.isSound = true := by simp [Window.isSound, hw]
    rw [ofNodes, if_pos hsound, htimes]
    rfl
  rw [inWindow_eq]
  refine ⟨_, hfound, List.mergeSort_perm _ _, pairwise_sorted w _, fun k => filter_sorted w _ k,
    fun other hother hclass => ?_, fun hnaive hfirst hlast => ?_⟩
  · exact eq_of_sorted_of_classes hother (pairwise_sorted w _) fun k => by
      rw [hclass, filter_sorted]
  · exact foundAsWritten_sorted _ hnaive (hw.symm.trans hnaive) hfirst hlast

end

/-- Morning and noon in UTC, the same noon two hours further east, and a time without an offset. -/
def morning : Stamp := ⟨2020, 6, 1, 8, 0, 0, 0, some 0⟩
def noon : Stamp := ⟨2020, 6, 1, 12, 0, 0, 0, some 0⟩
def noonEast : Stamp := ⟨2020, 6, 1, 14, 0, 0, 0, some 7200000000⟩
def unplaced : Stamp := ⟨2020, 6, 1, 12, 0, 0, 0, none⟩

/-- Two notes, of which the first one has more than one time. -/
def notes : NodeTree :=
  (((MemoryTree.ofRoot (.text "root")).push 0 (.text "first")
    (.leaf (.text "made") (.time noon) (.nest (.text "seen")
      (.leaf (.text "again") (.time unplaced) (.leaf (.text "here") (.time morning) .nil)) .nil))
    none).push 0 (.text "second") (.leaf (.text "made") (.time noonEast) .nil) none).view .empty

/-- The ids asked for: the second note twice, and what is no node. -/
def asked : List Json := [.int 2, .int 9, .int 1, .int 2]

theorem inWindow_notes : inWindow notes ⟨morning, noon⟩ asked =
    [⟨noonEast, .text "made", .int 2⟩, ⟨noon, .text "made", .int 1⟩,
      ⟨morning, .text "seen.here", .int 1⟩, ⟨noonEast, .text "made", .int 2⟩] :=
  rfl

theorem isValid_unplaced : unplaced.IsValid where
  date := ⟨by decide, by decide, by decide, by decide, by decide⟩
  year_le := by decide
  hour_lt := by decide
  minute_lt := by decide
  second_lt := by decide
  microsecond_lt := by decide
  offset_lt := nofun

theorem ofNodes_sorted_notes :
    morning.isAware = noon.isAware ∧
    (∀ id ∈ asked, notes.has id = true → ∃ attributes, notes.attributes id = .ok attributes) ∧
    ofNodes notes ⟨morning, noon⟩ asked =
      .ok [⟨morning, .text "seen.here", .int 1⟩, ⟨noonEast, .text "made", .int 2⟩,
        ⟨noon, .text "made", .int 1⟩, ⟨noonEast, .text "made", .int 2⟩] ∧
    unplaced.IsValid ∧ ofNodes notes ⟨unplaced, unplaced⟩ asked =
      .ok [⟨unplaced, .text "seen.again", .int 1⟩] ∧
    FoundAsWritten ⟨unplaced, unplaced⟩ (asked.flatMap (entriesOf notes))
      [⟨unplaced, .text "seen.again", .int 1⟩] := by
  have hread : ∀ id ∈ asked, notes.has id = true →
      ∃ attributes, notes.attributes id = .ok attributes := by
    intro id hid hhas
    simp only [asked, List.mem_cons, List.not_mem_nil, or_false] at hid
    rcases hid with rfl | rfl | rfl | rfl
    · exact ⟨_, rfl⟩
    · cases hhas
    · exact ⟨_, rfl⟩
    · exact ⟨_, rfl⟩
  obtain ⟨found, hfound, -, -, -, honly, -⟩ := ofNodes_sorted (w := ⟨morning, noon⟩) rfl hread
  obtain ⟨found', hfound', -, -, -, honly', hwritten⟩ :=
    ofNodes_sorted (w := ⟨unplaced, unplaced⟩) rfl hread
  have hnaive : [⟨unplaced, .text "seen.again", .int 1⟩] = found' :=
    honly' _ (List.pairwise_singleton _ _) fun _ => rfl
  rw [← hnaive] at hfound' hwritten
  refine ⟨rfl, hread, ?_, isValid_unplaced, hfound', hwritten rfl isValid_unplaced isValid_unplaced⟩
  rw [hfound]
  refine congrArg Except.ok (honly _ ?_ fun instant => ?_).symm
  · decide
  · have hnoon : noonEast.instant = noon.instant := by decide
    rw [inWindow_notes]
    by_cases hmorning : morning.instant = instant
    · have hlater : noon.instant ≠ instant := by
        rw [← hmorning]
        decide
      simp [hnoon, hmorning, hlater]
    · by_cases hlater : noon.instant = instant
      · simp [hnoon, hmorning, hlater]
      · simp [hnoon, hmorning, hlater]

end NodeQuery.Timeline
