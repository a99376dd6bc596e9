import NodeQuery.Proofs.Files.RoundTrip
import NodeQuery.Settings.File
/-!
Settings stored and loaded again. The JSON object of settings leaves out what is standard
(`toJson`), and reading it fills this in (`ofMembers_members`); through the text of the object, its
bytes and a file at any writable path, settings keep their dialect (`load_save`).
-/
namespace NodeQuery.Settings

/-- Settings whose parts have the types that they are declared with. -/
structure WellTyped (s : Settings) : Prop where
  threshold : ∀ x, s.fuzzyThreshold = .real x → x.IsDouble
  wildcardCaseSensitive : ∃ b, s.wildcardCaseSensitive = .bool b
  dataIgnoreCase : ∃ b, s.dataIgnoreCase = .bool b
  dataDotAll : ∃ b, s.dataDotAll = .bool b
  encodings : ∃ names : List String, s.encodings = names.map .text

/-- Settings that match alike: they differ at most in where they come from and in the form of the
threshold. -/
structure SameDialect (a b : Settings) : Prop where
  fuzzyThreshold : a.fuzzyThreshold.same b.fuzzyThreshold = true
  wildcardCaseSensitive : a.wildcardCaseSensitive = b.wildcardCaseSensitive
  dataIgnoreCase : a.dataIgnoreCase = b.dataIgnoreCase
  dataDotAll : a.dataDotAll = b.dataDotAll
  encodings : a.encodings = b.encodings

/-! ## Thresholds -/

/-- What counts as a number is known by its value. -/
theorem identity_eq_number_iff {v : Json} {q : ℚ} :
    v.identity = .number q ↔ v.toRat? = some q := by
  cases v with
  | real x =>
    cases h : x.toRat? <;> simp [Json.identity, Json.toRat?, h]
  | bool b => simp [Json.identity, Json.toRat?]
  | int n => simp [Json.identity, Json.toRat?]
  | null => simp [Json.identity, Json.toRat?]
  | text s => simp [Json.identity, Json.toRat?]
  | list items => simp [Json.identity, Json.toRat?]
  | object members => simp [Json.identity, Json.toRat?]

/-- A threshold within its bounds. -/
def IsThreshold (v : Json) : Prop :=
  ∃ q, v.toRat? = some q ∧ 0 ≤ q ∧ q ≤ 1

/-- Complete settings are those with a threshold within its bounds and an encoding. -/
theorem check_eq_ok_iff {s : Settings} :
    s.check = .ok s ↔ IsThreshold s.fuzzyThreshold ∧ s.encodings ≠ [] := by
  have hnumeric (v : Json) (h : v.toRat? ≠ none) : v.isNumeric = true := by
    cases v <;> simp_all [Json.toRat?, Json.isNumeric]
  unfold check IsThreshold
  cases hvalue : s.fuzzyThreshold.toRat? with
  | none => split <;> simp
  | some q =>
    rw [hnumeric _ (by simp [hvalue])]
    by_cases hbounds : 0 ≤ q ∧ q ≤ 1
    · by_cases hempty : s.encodings = [] <;> simp [hbounds, hempty]
    · have hbeyond : q < 0 ∨ 1 < q := by rwa [not_and_or, not_le, not_le] at hbounds
      simp [hbounds, hbeyond]

theorem isThreshold_standard : IsThreshold standard.fuzzyThreshold := by
  have hbounds : (standard.fuzzyThreshold.toRat?.any fun q => 0 ≤ q && q ≤ 1) = true := by
    decide +kernel
  obtain ⟨q, hvalue, hq⟩ := Option.any_eq_true _ _ |>.1 hbounds
  exact ⟨q, hvalue, by simpa using hq⟩

/-- The standard settings are complete. -/
theorem check_standard : standard.check = .ok standard :=
  check_eq_ok_iff.2 ⟨isThreshold_standard, List.cons_ne_nil _ _⟩

theorem ofInt_zero : Binary64.ofInt 0 = .finite false 0 := rfl

theorem ofInt_one : Binary64.ofInt 1 = .finite false 1 := by
  decide +kernel

/-- There are two thresholds among the whole numbers. -/
theorem IsThreshold.int {n : ℤ} (h : IsThreshold (.int n)) : n = 0 ∨ n = 1 := by
  obtain ⟨q, hvalue, hlow, hhigh⟩ := h
  obtain rfl : (n : ℚ) = q := by simpa [Json.toRat?] using hvalue
  have hlow : 0 ≤ n := by exact_mod_cast hlow
  have hhigh : n ≤ 1 := by exact_mod_cast hhigh
  omega

/-- A threshold is read as a number of its value. -/
theorem numberOf_threshold {v : Json} (h : IsThreshold v) :
    ∃ x, numberOf v = .ok (.real x) ∧ (Json.real x).same v = true := by
  obtain ⟨q, hvalue, -⟩ := id h
  cases v with
  | real x => exact ⟨x, rfl, Json.same_refl _⟩
  | bool b =>
    refine ⟨_, rfl, ?_⟩
    cases b <;> simp [Json.same_iff, Json.identity, ofInt_zero, ofInt_one, Binary64.toRat?]
  | int n =>
    obtain rfl | rfl := h.int
    · exact ⟨.finite false 0, by rw [numberOf, ofInt_zero],
        by simp [Json.same_iff, Json.identity, Binary64.toRat?]⟩
    · exact ⟨.finite false 1, by rw [numberOf, ofInt_one],
        by simp [Json.same_iff, Json.identity, Binary64.toRat?]⟩
  | null => cases hvalue
  | text s => cases hvalue
  | list items => cases hvalue
  | object members => cases hvalue

/-! ## Members -/

/-- A member that is left out under a condition. -/
def optional (p : Prop) [Decidable p] (name : String) (value : Json) : List (String × Json) :=
  if p then [] else [(name, value)]

section
variable (p : Prop) [Decidable p] (name : String) (value : Json)

theorem lookup_optional (key : String) : (optional p name value).lookup key =
    if key = name ∧ ¬ p then some value else none := by
  unfold optional
  by_cases hp : p
  · simp [hp]
  · by_cases hkey : key = name
    · simp [hp, hkey]
    · rw [if_neg hp, List.lookup_cons, beq_eq_false_iff_ne.2 hkey, if_neg (by simp [hkey])]
      rfl

variable {p name value} in
theorem mem_optional {m : String × Json} (h : m ∈ optional p name value) : m = (name, value) := by
  unfold optional at h
  split at h
  · cases h
  · simpa using h

theorem names_optional : ((optional p name value).map Prod.fst).Sublist [name] := by
  unfold optional
  split <;> simp

end

/-- The members of settings as they are written. -/
def members (s : Settings) : List (String × Json) :=
  optional (s.fuzzyThreshold.same standard.fuzzyThreshold) "fuzzy-threshold" s.fuzzyThreshold ++
    optional s.wildcardCaseSensitive.isTruthy "wildcard-case-sensitive" (.bool false) ++
    optional s.dataIgnoreCase.isTruthy "data-regex-ignore-case" (.bool false) ++
    optional s.dataDotAll.isTruthy "data-regex-dotall" (.bool false) ++
    optional (s.encodings.map Json.identity = standard.encodings.map Json.identity)
      "text-encodings" (.list s.encodings)

theorem toJson_eq (s : Settings) : s.toJson = .object s.members := rfl

/-- Written members have different names, and values that are written without loss. -/
theorem storable_toJson {s : Settings} (hthreshold : IsThreshold s.fuzzyThreshold)
    (htyped : s.WellTyped) : s.toJson.Storable := by
  have hvalue : s.fuzzyThreshold.Storable := by
    obtain ⟨q, hvalue, -⟩ := id hthreshold
    have hreal := htyped.threshold
    cases hkind : s.fuzzyThreshold with
    | real x => exact hreal x hkind
    | bool _ => trivial
    | int n =>
      rw [hkind] at hthreshold
      rw [Json.Storable]
      obtain rfl | rfl := hthreshold.int <;> decide
    | null | text _ | list _ | object _ => simp [hkind, Json.toRat?] at hvalue
  have hnames : (s.members.map Prod.fst).Sublist ["fuzzy-threshold", "wildcard-case-sensitive",
      "data-regex-ignore-case", "data-regex-dotall", "text-encodings"] := by
    simp only [members, List.map_append]
    exact ((((names_optional _ _ _).append (names_optional _ _ _)).append
      (names_optional _ _ _)).append (names_optional _ _ _)).append (names_optional _ _ _)
  rw [toJson_eq, Json.Storable, Json.storableMembers_iff]
  refine ⟨hnames.nodup (by decide), ?_⟩
  obtain ⟨names, hencodings⟩ := htyped.encodings
  have htexts : (Json.list s.encodings).Storable := by
    refine Json.storableItems_iff.2 ?_
    rw [hencodings]
    rintro item hitem
    obtain ⟨name, -, rfl⟩ := List.mem_map.1 hitem
    trivial
  intro m hm
  simp only [members, List.mem_append] at hm
  rcases hm with (((hm | hm) | hm) | hm) | hm
  · exact (mem_optional hm).symm ▸ hvalue
  · exact (mem_optional hm).symm ▸ trivial
  · exact (mem_optional hm).symm ▸ trivial
  · exact (mem_optional hm).symm ▸ trivial
  · exact (mem_optional hm).symm ▸ htexts

/-! ## Reading -/

section
variable {s : Settings}

/-- A threshold that is left out is of the value of the standard one. -/
theorem threshold_members (h : IsThreshold s.fuzzyThreshold) : ∃ v,
    (Json.member? "fuzzy-threshold" s.members).getD standard.fuzzyThreshold = v ∧
      IsThreshold v ∧ v.identity = s.fuzzyThreshold.identity := by
  have hmember : s.members.lookup "fuzzy-threshold" =
      if ¬ s.fuzzyThreshold.same standard.fuzzyThreshold then some s.fuzzyThreshold else none := by
    simp [members, List.lookup_append, lookup_optional]
  refine ⟨_, rfl, ?_⟩
  rw [Json.member?, hmember]
  split
  · exact ⟨h, rfl⟩
  · next hsame =>
    have hidentity := (Json.same_iff.1 (not_not.1 hsame)).symm
    obtain ⟨q, hvalue, hbounds⟩ := h
    refine ⟨⟨q, ?_, hbounds⟩, hidentity⟩
    exact identity_eq_number_iff.1 (hidentity.trans (identity_eq_number_iff.2 hvalue))

/-- A flag that is left out is true. -/
theorem flag_members {flag : Json} (h : ∃ b, flag = .bool b) :
    (if ¬ flag.isTruthy then some (Json.bool false) else none).getD (.bool true) = flag := by
  obtain ⟨b, rfl⟩ := h
  cases b <;> rfl

/-- Encodings that are left out are the standard ones. -/
theorem encodings_members (h : ∃ names : List String, s.encodings = names.map .text) :
    (Json.member? "text-encodings" s.members).getD (.list standard.encodings) =
      .list s.encodings := by
  have hmember : s.members.lookup "text-encodings" =
      if ¬ s.encodings.map Json.identity = standard.encodings.map Json.identity then
        some (.list s.encodings) else none := by
    simp [members, List.lookup_append, lookup_optional]
  rw [Json.member?, hmember]
  split
  · rfl
  · next hsame =>
    obtain ⟨names, hnames⟩ := h
    have hstandard : standard.encodings = ["utf-8", "utf-16-le"].map .text := rfl
    have hinjective : Function.Injective Json.Identity.text := fun a b hab => by cases hab; rfl
    rw [not_not, hnames, hstandard, List.map_map, List.map_map] at hsame
    rw [hnames, hstandard, List.map_injective_iff.2 hinjective hsame]
    rfl

/-- What is left out of the members is standard. -/
theorem ofMembers_members (hs : s.check = .ok s) (htyped : s.WellTyped) (path : String) :
    ∃ loaded, ofMembers path s.members = .ok loaded ∧ loaded.SameDialect s := by
  obtain ⟨hthreshold, hencodings⟩ := check_eq_ok_iff.1 hs
  obtain ⟨v, hmember, hv, hidentity⟩ := threshold_members hthreshold
  obtain ⟨x, hread, hsame⟩ := numberOf_threshold hv
  have hwildcard : (Json.member? "wildcard-case-sensitive" s.members).getD (.bool true) =
      s.wildcardCaseSensitive := by
    rw [← flag_members htyped.wildcardCaseSensitive]
    simp [Json.member?, members, List.lookup_append, lookup_optional]
  have hignore : (Json.member? "data-regex-ignore-case" s.members).getD (.bool true) =
      s.dataIgnoreCase := by
    rw [← flag_members htyped.dataIgnoreCase]
    simp [Json.member?, members, List.lookup_append, lookup_optional]
  have hdotall : (Json.member? "data-regex-dotall" s.members).getD (.bool true) =
      s.dataDotAll := by
    rw [← flag_members htyped.dataDotAll]
    simp [Json.member?, members, List.lookup_append, lookup_optional]
  have hsame := (Json.same_iff.1 hsame).trans hidentity
  have hbounds : IsThreshold (.real x) := by
    obtain ⟨q, hvalue, hbounds⟩ := hthreshold
    exact ⟨q, identity_eq_number_iff.1 (hsame.trans (identity_eq_number_iff.2 hvalue)), hbounds⟩
  refine ⟨⟨.real x, s.wildcardCaseSensitive, s.dataIgnoreCase, s.dataDotAll, s.encodings, path⟩,
    ?_, ⟨Json.same_iff.2 hsame, rfl, rfl, rfl, rfl⟩⟩
  have hwildcardUsual : standard.wildcardCaseSensitive = .bool true := rfl
  have hignoreUsual : standard.dataIgnoreCase = .bool true := rfl
  have hdotallUsual : standard.dataDotAll = .bool true := rfl
  unfold ofMembers
  simp only [hmember, hread, encodings_members htyped.encodings, listOf, hwildcardUsual,
    hignoreUsual, hdotallUsual, hwildcard, hignore, hdotall, bind, Except.bind]
  exact check_eq_ok_iff.2 ⟨hbounds, hencodings⟩

end

/-- An object without members stands for the standard settings. -/
theorem ofMembers_nil : ofMembers "" [] = .ok standard := by
  have hread : numberOf standard.fuzzyThreshold = .ok standard.fuzzyThreshold := rfl
  unfold ofMembers
  simp only [Json.member?, List.lookup_nil, Option.getD_none, hread, listOf, bind, Except.bind]
  exact check_standard

/-! ## Files -/

/-- Settings that are written to a file are read from it with their dialect. -/
theorem load_of_write {s : Settings} (hs : s.check = .ok s) (htyped : s.WellTyped)
    {files after : Files.Store} {p : Files.Path}
    (hwrite : files.write p (Text.Utf8.encode (Json.write 0 s.toJson).toList) = .ok after)
    {text : String} (htext : .ofText text = p) (env : Environment) :
    ∃ loaded, load after env (some text) = .ok loaded ∧ loaded.SameDialect s := by
  have hstorable := storable_toJson (check_eq_ok_iff.1 hs).1 htyped
  have hfile := (Files.Store.read_write hwrite).1
  have hjson := Files.Store.readJson_write hstorable hwrite
  obtain ⟨loaded, hloaded, hsame⟩ := ofMembers_members hs htyped p.text
  refine ⟨loaded, ?_, hsame⟩
  simp only [load, Option.map_some, Option.some_or, htext, hfile, hjson, if_true]
  exact hloaded

/-- Where settings are saved. -/
def savePath (path : Option String) : Files.Path :=
  (path.map Files.Path.ofText).getD (fileIn .here)

theorem ofText_savePath (path : Option String) : .ofText (savePath path).text = savePath path := by
  cases path with
  | none =>
    rw [savePath, Option.map_none, Option.getD_none, fileIn, Files.Path.here_join]
    exact Files.Path.ofText_text fileName
  | some text => exact Files.Path.ofText_text text

/-- Saving is writing one file. -/
theorem save_eq (s : Settings) (files : Files.Store) (path : Option String) :
    s.save files path =
      ((files.write (savePath path) (Text.Utf8.encode (Json.write 0 s.toJson).toList)).mapError
        Failure.fault).map (savePath path, ·) := by
  show ((files.write (savePath path) (Text.Utf8.encode (Json.write 0 s.toJson).toList)).mapError
    Failure.fault >>= fun after => pure (savePath path, after)) = _
  cases files.write (savePath path) (Text.Utf8.encode (Json.write 0 s.toJson).toList) <;> rfl

/-- Saved settings are loaded with their dialect. -/
theorem load_save {s : Settings} (hs : s.check = .ok s) (htyped : s.WellTyped)
    {files : Files.Store} (path : Option String) (hpath : files.Writable (savePath path)) :
    ∃ after, save files path s = .ok (savePath path, after) ∧ ∀ text env,
      .ofText text = savePath path →
        ∃ loaded, load after env (some text) = .ok loaded ∧ loaded.SameDialect s := by
  obtain ⟨after, hwrite⟩ := hpath.write (Text.Utf8.encode (Json.write 0 s.toJson).toList)
  refine ⟨after, ?_, fun text env htext => load_of_write hs htyped hwrite htext env⟩
  rw [save_eq, hwrite]
  rfl

end NodeQuery.Settings
