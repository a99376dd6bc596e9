import NodeQuery.Proofs.Query.Content
import NodeQuery.Proofs.Query.Needles
import NodeQuery.Proofs.Settings.RoundTrip
/-!
Searching content for a text. In UTF-8 the bytes of a text stand in content exactly where the text
stands in what the content says (`select_utf8`). In any other encoding that concatenates a text is
found, too, unless the encoding puts a mark before every text: then only what starts the content is
sure to be found (`select_encoded`). A search fails exactly if one of the encodings cannot write the
text, and as the first of those; an encoding that can write it never loses a node
(`select_text_encodings`).
-/
namespace NodeQuery.Query
open ContentTest Text

section
variable [Host] {settings : Settings} {literal : String} {tree : NodeTree} {candidates : List Json}

/-- A search is made ready if all encodings can write the text. -/
theorem exists_compile_text_iff
    (hknown : ∀ name ∈ settings.encodings, ∃ codec, codecOf name = .ok codec) :
    (∃ test, ContentTest.compile settings .text literal = .ok test) ↔
      ∀ name ∈ settings.encodings, ∀ codec, codecOf name = .ok codec →
        codec.Writes literal.toList := by
  rw [← failure?_eq_none_iff, failure?_compile_text, List.findSome?_eq_none_iff]
  refine forall₂_congr fun name hname => ?_
  obtain ⟨codec, hcodec⟩ := hknown name hname
  rw [failure?_needle_eq_none_iff hcodec, hcodec]
  simp only [Except.ok.injEq, forall_eq']

/-! ## UTF-8 -/

/-- A node whose content is a text in UTF-8 is found if and only if the literal stands in the
text. -/
theorem select_utf8 (hsettings : settings.encodings = [.text "utf-8"])
    (hread : Readable tree candidates) (literal : String) :
    ∃ found, (Leaf.data .text literal).select ⟨tree, candidates, settings⟩ = .ok found ∧
      ∀ id ∈ candidates, tree.has id = true → ∀ text : String,
        tree.data id = .ok (some (Utf8.encode text.toList)) →
        (id ∈ found ↔ literal.toList <:+: text.toList) := by
  have hcompile := compile_utf8 hsettings literal
  obtain ⟨found, hfound⟩ := Leaf.exists_select_data hread hcompile
  refine ⟨found, hfound, fun id hid hnode text hdata => ?_⟩
  rw [Leaf.mem_select_data hfound hcompile hid hnode hdata, accepts_needle_iff,
    Utf8.encode_infix_iff]

end

/-- A note in UTF-8, and one in UTF-16 with a mark. -/
def greetings : NodeTree :=
  let marked := Encoding.utf16.mark ++ "Grüße, 世界".toList.flatMap Encoding.utf16.encodeChar
  (((MemoryTree.ofRoot (.text "root")).push 0 (.text "a.txt") .nil
    (some (.bytes (Utf8.encode "Grüße, 世界 😀".toList)))).push 0 (.text "b.txt") .nil
    (some (.bytes marked))).view .empty

theorem readable_greetings : Readable greetings [.int 1, .int 2] := by
  intro id hid _
  rcases List.mem_pair.1 hid with rfl | rfl
  · exact ⟨_, rfl⟩
  · exact ⟨_, rfl⟩

theorem select_utf8_greetings :
    let settings := { Settings.standard with encodings := [.text "utf-8"] }
    settings.encodings = [.text "utf-8"] ∧ Readable greetings [.int 1, .int 2] ∧
    (∃ found, (Leaf.data .text "ße, 世").select ⟨greetings, [.int 1, .int 2], settings⟩ =
      .ok found ∧ .int 1 ∈ found) ∧
    ∃ found, (Leaf.data .text "ß世").select ⟨greetings, [.int 1, .int 2], settings⟩ =
      .ok found ∧ .int 1 ∉ found := by
  intro settings
  have hsettings : settings.encodings = [.text "utf-8"] := rfl
  have hdata : greetings.data (.int 1) =
      .ok (some (Utf8.encode "Grüße, 世界 😀".toList)) := rfl
  refine ⟨hsettings, readable_greetings, ?_, ?_⟩
  · obtain ⟨found, hfound, hiff⟩ := select_utf8 hsettings readable_greetings "ße, 世"
    refine ⟨found, hfound, (hiff _ List.mem_cons_self rfl _ hdata).2 ?_⟩
    decide
  · obtain ⟨found, hfound, hiff⟩ := select_utf8 hsettings readable_greetings "ß世"
    refine ⟨found, hfound, fun hid => ?_⟩
    exact absurd ((hiff _ List.mem_cons_self rfl _ hdata).1 hid) (by decide)

/-! ## Any encoding -/

section
variable [Host] {settings : Settings} {literal : String} {tree : NodeTree} {candidates : List Json}
  {codec : Codec} {name : Json}

/-- Let all encodings be able to write a literal, and let the content of a node be a text in one of
them that contains the literal. The node is found exactly if the bytes of the literal in one of the
encodings stand in the content. If the encoding of the content concatenates, up to a mark, that is
so if there is no mark, if the literal starts the text, or if one of the encodings writes the
literal without the mark. All encodings of this library concatenate; if one with a mark is the only
one, the node is not found otherwise, unless the text has characters from U+FE00 on, where the mark
is. -/
theorem select_encoded
    (hknown : ∀ name ∈ settings.encodings, ∃ codec, codecOf name = .ok codec)
    (hliteral : ∀ name ∈ settings.encodings, ∀ codec, codecOf name = .ok codec →
      codec.Writes literal.toList)
    (hname : name ∈ settings.encodings) (hcodec : codecOf name = .ok codec)
    (hread : Readable tree candidates) :
    (∀ encoding : Encoding, encoding.codec.Concatenates encoding.mark fun s =>
      s.flatMap encoding.encodeChar) ∧
    ∃ found, (Leaf.data .text literal).select ⟨tree, candidates, settings⟩ = .ok found ∧
      ∀ id ∈ candidates, tree.has id = true → ∀ (text : String) (content : Bytes),
        literal.toList <:+: text.toList → codec.encode text.toList = .ok content →
        tree.data id = .ok (some content) →
        (id ∈ found ↔ ∃ other ∈ settings.encodings, ∃ codec' needle, codecOf other = .ok codec' ∧
          codec'.encode literal.toList = .ok needle ∧ needle <:+: content) ∧
        (∀ mark body, codec.Concatenates mark body →
          (mark = [] ∨ literal.toList <+: text.toList ∨
            ∃ other ∈ settings.encodings, ∃ codec', codecOf other = .ok codec' ∧
              codec'.encode literal.toList = .ok (body literal.toList)) →
          id ∈ found) ∧
        ∀ encoding : Encoding, codec = encoding.codec → encoding.mark ≠ [] →
          (∀ other ∈ settings.encodings, codecOf other = .ok codec) →
          (∀ c ∈ text.toList, c.toNat < 0xFE00) →
          (id ∈ found ↔ literal.toList <+: text.toList) := by
  obtain ⟨test, hcompile⟩ := (exists_compile_text_iff hknown).2 hliteral
  obtain ⟨found, hfound⟩ := Leaf.exists_select_data hread hcompile
  refine ⟨Encoding.concatenates, found, hfound, ?_⟩
  intro id hid hnode text content hpart hcontent hdata
  have hiff := (Leaf.mem_select_data hfound hcompile hid hnode hdata).trans
    (accepts_text_iff hcompile)
  obtain ⟨needle, hneedle⟩ := hliteral name hname codec hcodec
  have hstart {mark : Bytes} {body : List Char → Bytes} (hbody : codec.Concatenates mark body)
      (hfirst : literal.toList <+: text.toList) : id ∈ found := by
    have hfront := hbody.prefix_of_encode hfirst hneedle hcontent
    exact hiff.2 ⟨name, hname, codec, needle, hcodec, hneedle, hfront.isInfix⟩
  refine ⟨hiff, fun mark body hbody => ?_, fun encoding hsame hmark halone hlow => ?_⟩
  · have hinside := hbody.body_infix_of_encode hpart hcontent
    rintro (hmark | hfirst | ⟨other, hother, codec', hcodec', hbare⟩)
    · have hbare := hbody.eq_of_encode hneedle
      rw [hmark, List.nil_append] at hbare
      exact hiff.2 ⟨name, hname, codec, needle, hcodec, hneedle, hbare ▸ hinside⟩
    · exact hstart hbody hfirst
    · exact hiff.2 ⟨other, hother, codec', _, hcodec', hbare, hinside⟩
  · subst hsame
    refine ⟨fun hmem => ?_, hstart encoding.concatenates⟩
    obtain ⟨other, hother, codec', needle', hcodec', hneedle', hinside⟩ := hiff.1 hmem
    obtain rfl : encoding.codec = codec' := Except.ok.inj ((halone other hother).symm.trans hcodec')
    exact (Encoding.marked_infix_iff hmark hlow hneedle' hcontent).1 hinside

end

theorem encode_greeting : Encoding.utf16.encode "Grüße, 世界".toList =
    .ok (Encoding.utf16.mark ++ "Grüße, 世界".toList.flatMap Encoding.utf16.encodeChar) :=
  Encoding.encode_of_writes (Encoding.writes_of_limit rfl _)

theorem select_encoded_greetings :
    let settings := { Settings.standard with encodings := [.text "UTF-16"] }
    (∀ name ∈ settings.encodings, ∃ codec, codecOf name = .ok codec) ∧
    (∀ name ∈ settings.encodings, ∀ codec, codecOf name = .ok codec →
      codec.Writes "Grü".toList) ∧
    .text "UTF-16" ∈ settings.encodings ∧ codecOf (.text "UTF-16") = .ok Encoding.utf16.codec ∧
    Readable greetings [.int 1, .int 2] ∧
    ∃ found, (Leaf.data .text "Grü").select ⟨greetings, [.int 1, .int 2], settings⟩ = .ok found ∧
      .int 2 ∈ found := by
  intro settings
  have hutf16 : codecOf (.text "UTF-16") = .ok Encoding.utf16.codec := rfl
  have hknown : ∀ name ∈ settings.encodings, ∃ codec, codecOf name = .ok codec := by
    intro name hname
    exact ⟨Encoding.utf16.codec, List.mem_singleton.1 hname ▸ hutf16⟩
  have hliteral : ∀ name ∈ settings.encodings, ∀ codec, codecOf name = .ok codec →
      codec.Writes "Grü".toList := by
    intro name hname codec hcodec
    rw [List.mem_singleton.1 hname, hutf16] at hcodec
    cases hcodec
    exact Encoding.writes_codec_iff.2 (Encoding.writes_of_limit rfl _)
  have hname : .text "UTF-16" ∈ settings.encodings := List.mem_singleton.2 rfl
  obtain ⟨hconcatenates, found, hfound, hall⟩ :=
    select_encoded hknown hliteral hname hutf16 readable_greetings
  have hnode := hall (.int 2) (by simp) rfl "Grüße, 世界" _ (by decide) encode_greeting rfl
  exact ⟨hknown, hliteral, hname, hutf16, readable_greetings, found, hfound,
    hnode.2.1 _ _ (hconcatenates .utf16) (.inr (.inl (by decide)))⟩

/-- Standard settings but for the encodings. -/
theorem check_encodings {names : List Json} (h : names ≠ []) :
    let settings := { Settings.standard with encodings := names }
    settings.check = .ok settings :=
  Settings.check_eq_ok_iff.2 ⟨Settings.isThreshold_standard, h⟩

/-- Behind a mark a text is not found in the encoding that it is written in. -/
theorem not_found_behind_mark :
    let settings := { Settings.standard with encodings := [.text "utf-16"] }
    settings.check = .ok settings ∧ codecOf (.text "utf-16") = .ok Encoding.utf16.codec ∧
    Encoding.utf16.Writes "世".toList ∧ "世".toList <:+: "Grüße, 世界".toList ∧
    ∃ content found, Encoding.utf16.encode "Grüße, 世界".toList = .ok content ∧
      greetings.data (.int 2) = .ok (some content) ∧
      (Leaf.data .text "世").select ⟨greetings, [.int 1, .int 2], settings⟩ = .ok found ∧
      .int 2 ∉ found := by
  intro settings
  have hcompile : ContentTest.compile settings .text "世" =
      .ok (.needles [[0xFF, 0xFE, 0x16, 0x4E]]) := rfl
  obtain ⟨found, hfound⟩ := Leaf.exists_select_data readable_greetings hcompile
  refine ⟨check_encodings (List.cons_ne_nil _ _), rfl, Encoding.writes_of_limit rfl _, by decide,
    _, found, encode_greeting, rfl, hfound, ?_⟩
  rw [Leaf.mem_select_data hfound hcompile (by simp) rfl rfl]
  decide +kernel

/-! ## Failures -/

section
variable [Host] {settings : Settings} {literal : String} {tree : NodeTree} {candidates : List Json}

/-- Over content that can be read a search fails as the first encoding that cannot write the
literal. -/
theorem select_text_eq_error
    (hknown : ∀ name ∈ settings.encodings, ∃ codec, codecOf name = .ok codec)
    (hread : Readable tree candidates) {failure : Failure}
    (h : (Leaf.data .text literal).select ⟨tree, candidates, settings⟩ = .error failure) :
    ∃ before name after codec cause, settings.encodings = before ++ name :: after ∧
      (∀ earlier ∈ before, ∀ codec, codecOf earlier = .ok codec → codec.Writes literal.toList) ∧
      codecOf name = .ok codec ∧ codec.encode literal.toList = .error cause ∧
      failure = .encoding (.refused cause) := by
  rw [← failure?_eq_some_iff, Leaf.failure?_select_data hread, failure?_compile_text,
    List.findSome?_eq_some_iff] at h
  obtain ⟨before, name, after, hnames, hfail, hbefore⟩ := h
  obtain ⟨codec, hcodec⟩ := hknown name (by simp [hnames])
  rw [needle_eq hcodec] at hfail
  cases hencode : codec.encode literal.toList with
  | ok bytes =>
    rw [hencode] at hfail
    cases hfail
  | error cause =>
    rw [hencode] at hfail
    cases hfail
    refine ⟨before, name, after, codec, cause, hnames, ?_, hcodec, hencode, rfl⟩
    intro earlier hearlier codec' hcodec'
    exact (failure?_needle_eq_none_iff hcodec').1 (hbefore earlier hearlier)

/-- A search with a further encoding that follows one that succeeds fails only as that encoding. -/
theorem failure?_compile_further {test : ContentTest} (further : Json)
    (h : ContentTest.compile settings .text literal = .ok test) :
    failure? (ContentTest.compile
      { settings with encodings := settings.encodings ++ [further] } .text literal) =
      failure? (needle literal.toList further) := by
  have hshorter := failure?_eq_none_iff.2 ⟨test, h⟩
  rw [failure?_compile_text] at hshorter ⊢
  rw [List.findSome?_append, hshorter, Option.none_or, List.findSome?_singleton]

/-- With a further encoding that can write the literal, a search selects at least the same. -/
theorem select_text_further {further : Json} {codec : Codec} {test : ContentTest}
    {found : List Json} (hfurther : codecOf further = .ok codec)
    (hwrites : codec.Writes literal.toList)
    (hcompile : ContentTest.compile settings .text literal = .ok test)
    (h : (Leaf.data .text literal).select ⟨tree, candidates, settings⟩ = .ok found) :
    ∃ more, (Leaf.data .text literal).select ⟨tree, candidates,
      { settings with encodings := settings.encodings ++ [further] }⟩ = .ok more ∧
      found.Sublist more := by
  have hlonger := (failure?_compile_further further hcompile).trans
    ((failure?_needle_eq_none_iff hfurther).2 hwrites)
  obtain ⟨test', hcompile'⟩ := failure?_eq_none_iff.1 hlonger
  refine (Leaf.select_data_mono hcompile hcompile' fun content haccepts => ?_).2 found h
  obtain ⟨name, hname, hrest⟩ := (accepts_text_iff hcompile).1 haccepts
  exact (accepts_text_iff hcompile').2 ⟨name, List.mem_append_left _ hname, hrest⟩

/-- Over content that can be read, a search for a text succeeds if and only if all encodings can
write the text, and fails as the first that cannot. One more encoding loses no node if it can write
the text, and makes the search fail, with the reason that it has, if it cannot. -/
theorem select_text_encodings (settings : Settings) (literal : String)
    (hknown : ∀ name ∈ settings.encodings, ∃ codec, codecOf name = .ok codec)
    (hread : Readable tree candidates) :
    let search (s : Settings) := (Leaf.data .text literal).select ⟨tree, candidates, s⟩
    ((∃ found, search settings = .ok found) ↔ ∀ name ∈ settings.encodings, ∀ codec,
      codecOf name = .ok codec → codec.Writes literal.toList) ∧
    (∀ failure, search settings = .error failure → ∃ before name after codec cause,
      settings.encodings = before ++ name :: after ∧
      (∀ earlier ∈ before, ∀ codec, codecOf earlier = .ok codec → codec.Writes literal.toList) ∧
      codecOf name = .ok codec ∧ codec.encode literal.toList = .error cause ∧
      failure = .encoding (.refused cause)) ∧
    ∀ further codec found, codecOf further = .ok codec → search settings = .ok found →
      let longer := { settings with encodings := settings.encodings ++ [further] }
      (codec.Writes literal.toList → ∃ more, search longer = .ok more ∧ found.Sublist more) ∧
      ∀ cause, codec.encode literal.toList = .error cause →
        search longer = .error (.encoding (.refused cause)) := by
  intro search
  refine ⟨?_, fun failure => select_text_eq_error hknown hread, ?_⟩
  · rw [← exists_compile_text_iff hknown, ← failure?_eq_none_iff, ← failure?_eq_none_iff,
      Leaf.failure?_select_data hread]
  intro further codec found hfurther hfound longer
  obtain ⟨leafTest, hleaf, -, -⟩ := Leaf.select_eq_ok_iff.1 hfound
  obtain ⟨test, hcompile, -⟩ := Outcome.map_eq_ok_iff.1 hleaf
  refine ⟨fun hwrites => select_text_further hfurther hwrites hcompile hfound, ?_⟩
  intro cause hcause
  rw [← failure?_eq_some_iff, Leaf.failure?_select_data hread, failure?_compile_further _ hcompile,
    needle_eq hfurther, hcause]
  rfl

end

/-- In UTF-8 all is well, and then ASCII comes on top. -/
theorem select_text_encodings_greetings :
    let settings := { Settings.standard with encodings := [.text "utf-8"] }
    let longer := { Settings.standard with encodings := [.text "utf-8", .text "ascii"] }
    (∀ name ∈ settings.encodings, ∃ codec, codecOf name = .ok codec) ∧
    Readable greetings [.int 1, .int 2] ∧ codecOf (.text "ascii") = .ok Encoding.ascii.codec ∧
    (∃ found, (Leaf.data .text "ü").select ⟨greetings, [.int 1, .int 2], settings⟩ = .ok found) ∧
    (Leaf.data .text "ü").select ⟨greetings, [.int 1, .int 2], longer⟩ =
      .error (.encoding (.refused (.unencodable .ascii 'ü' 0 1))) := by
  intro settings longer
  have hutf8 : codecOf (.text "utf-8") = .ok Encoding.utf8.codec := rfl
  have hascii : codecOf (.text "ascii") = .ok Encoding.ascii.codec := rfl
  have hknown : ∀ name ∈ settings.encodings, ∃ codec, codecOf name = .ok codec := by
    intro name hname
    exact ⟨Encoding.utf8.codec, List.mem_singleton.1 hname ▸ hutf8⟩
  obtain ⟨hsuccess, -, hlonger⟩ :=
    select_text_encodings settings "ü" hknown readable_greetings
  have hfound := hsuccess.2 fun name hname codec hcodec => by
    rw [List.mem_singleton.1 hname, hutf8] at hcodec
    cases hcodec
    exact Encoding.writes_codec_iff.2 (Encoding.writes_of_limit rfl _)
  obtain ⟨found, hsearch⟩ := hfound
  exact ⟨hknown, readable_greetings, hascii, ⟨found, hsearch⟩,
    (hlonger (.text "ascii") Encoding.ascii.codec found hascii hsearch).2 _ rfl⟩

/-- An encoding that cannot write the text defeats another one that finds it. -/
theorem not_found_with_ascii :
    let settings := { Settings.standard with encodings := [.text "utf-8"] }
    let longer := { Settings.standard with encodings := [.text "utf-8", .text "ascii"] }
    settings.check = .ok settings ∧ longer.check = .ok longer ∧
    codecOf (.text "utf-8") = .ok Encoding.utf8.codec ∧
    codecOf (.text "ascii") = .ok Encoding.ascii.codec ∧
    Readable greetings [.int 1, .int 2] ∧
    (∃ found, (Leaf.data .text "ü").select ⟨greetings, [.int 1, .int 2], settings⟩ = .ok found ∧
      .int 1 ∈ found) ∧
    (Leaf.data .text "ü").select ⟨greetings, [.int 1, .int 2], longer⟩ =
      .error (.encoding (.refused (.unencodable .ascii 'ü' 0 1))) := by
  intro settings longer
  have hcompile := compile_utf8 (show settings.encodings = [.text "utf-8"] from rfl) "ü"
  obtain ⟨found, hfound⟩ := Leaf.exists_select_data readable_greetings hcompile
  refine ⟨check_encodings (List.cons_ne_nil _ _), check_encodings (List.cons_ne_nil _ _), rfl, rfl,
    readable_greetings, ⟨found, hfound, ?_⟩, rfl⟩
  rw [Leaf.mem_select_data hfound hcompile (by simp) rfl rfl]
  decide +kernel

end NodeQuery.Query
