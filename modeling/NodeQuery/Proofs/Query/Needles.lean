import NodeQuery.Proofs.Query.Failures
import NodeQuery.Proofs.Text.Encoding
/-!
What content is searched for: the bytes of a text in each of the configured encodings. They cannot
be had if one of the encodings cannot write the text (`failure?_compile_text`). Content is accepted
if the bytes stand in it in one of the encodings (`accepts_text_iff`).
-/
namespace NodeQuery

namespace ContentTest
variable {settings : Settings} {text : List Char} {name : Json} {needle content : Bytes}
  {codec : Text.Codec}

theorem occursIn_iff : occursIn needle content = true ↔ needle <:+: content := by
  induction content with
  | nil => simp [occursIn]
  | cons b rest ih =>
    rw [occursIn, Bool.or_eq_true, List.isPrefixOf_iff_prefix, ih, List.infix_cons_iff]

theorem accepts_needle_iff : accepts (.needles [needle]) content = true ↔ needle <:+: content := by
  simp [accepts, occursIn_iff]

/-! ## Needles -/

section
variable [Host]

theorem needle_eq_ok_iff : ContentTest.needle text name = .ok needle ↔
    ∃ codec, codecOf name = .ok codec ∧ codec.encode text = .ok needle := by
  rw [ContentTest.needle, Outcome.bind_eq_ok_iff]
  exact exists_congr fun codec => and_congr_right fun _ => Outcome.mapError_eq_ok_iff

theorem needle_eq (h : codecOf name = .ok codec) : ContentTest.needle text name =
    (codec.encode text).mapError fun cause => .encoding (.refused cause) := by
  rw [ContentTest.needle, h]
  rfl

theorem failure?_needle_eq_none_iff (h : codecOf name = .ok codec) :
    failure? (ContentTest.needle text name) = none ↔ codec.Writes text := by
  rw [failure?_eq_none_iff, Text.Codec.Writes]
  simp only [needle_eq_ok_iff, h, Except.ok.injEq, exists_eq_left']

/-- Needles fail as the first of the encodings that does. -/
theorem failure?_needlesAfter (text : List Char) (names : List Json) (found : List Bytes) :
    failure? (needlesAfter text found names) =
      names.findSome? fun name => failure? (ContentTest.needle text name) := by
  induction names generalizing found with
  | nil => rfl
  | cons name names ih =>
    rw [needlesAfter, failure?_bind fun _ _ => ih _, List.findSome?_cons]
    cases failure? (ContentTest.needle text name) <;> rfl

theorem failure?_compile_text (settings : Settings) (literal : String) :
    failure? (compile settings .text literal) =
      settings.encodings.findSome? fun name => failure? (ContentTest.needle literal.toList name) :=
  (failure?_map _).trans (failure?_needlesAfter _ _ _)

/-- Every text can be written in the standard encodings. -/
theorem failure?_compile_text_standard (literal : String) :
    failure? (compile .standard .text literal) = none := by
  have hutf8 : codecOf (.text "utf-8") = .ok Text.Encoding.utf8.codec := rfl
  have hutf16 : codecOf (.text "utf-16-le") = .ok Text.Encoding.utf16Little.codec := rfl
  have hall {encoding : Text.Encoding} (h : encoding.limit = 0x110000) :
      encoding.codec.Writes literal.toList :=
    Text.Encoding.writes_codec_iff.2 (Text.Encoding.writes_of_limit h _)
  rw [failure?_compile_text, List.findSome?_eq_none_iff]
  refine List.forall_mem_cons.2 ⟨?_, List.forall_mem_cons.2 ⟨?_, List.forall_mem_nil _⟩⟩
  · exact (failure?_needle_eq_none_iff hutf8).2 (hall rfl)
  · exact (failure?_needle_eq_none_iff hutf16).2 (hall rfl)

/-- Nothing is left out of the needles but repetitions. -/
theorem mem_of_needlesAfter {names : List Json} {found all : List Bytes}
    (h : needlesAfter text found names = .ok all) :
    needle ∈ all ↔ needle ∈ found ∨
      ∃ name ∈ names, ContentTest.needle text name = .ok needle := by
  induction names generalizing found with
  | nil =>
    cases h
    simp
  | cons name names ih =>
    obtain ⟨bytes, hbytes, hrest⟩ := Outcome.bind_eq_ok_iff.1 h
    rw [ih hrest, List.exists_mem_cons_iff, hbytes, ← or_assoc]
    refine or_congr_left ?_
    split
    · next hrepeated =>
      rw [Except.ok.injEq, or_iff_left_of_imp]
      rintro rfl
      exact List.contains_iff_mem.1 hrepeated
    · rw [List.mem_append, List.mem_singleton, Except.ok.injEq, eq_comm (a := bytes)]

theorem accepts_text_iff {literal : String} {test : ContentTest}
    (h : compile settings .text literal = .ok test) : test.accepts content = true ↔
      ∃ name ∈ settings.encodings, ∃ codec needle, codecOf name = .ok codec ∧
        codec.encode literal.toList = .ok needle ∧ needle <:+: content := by
  obtain ⟨found, hfound, rfl⟩ := Outcome.map_eq_ok_iff.1 h
  simp only [accepts, List.any_eq_true, occursIn_iff, mem_of_needlesAfter hfound,
    List.not_mem_nil, false_or, needle_eq_ok_iff]
  constructor
  · rintro ⟨needle, ⟨name, hname, codec, hcodec, hneedle⟩, hinfix⟩
    exact ⟨name, hname, codec, needle, hcodec, hneedle, hinfix⟩
  · rintro ⟨name, hname, codec, needle, hcodec, hneedle, hinfix⟩
    exact ⟨needle, ⟨name, hname, codec, hcodec, hneedle⟩, hinfix⟩

/-- In UTF-8 alone, the bytes of the text itself are searched for. -/
theorem compile_utf8 (h : settings.encodings = [.text "utf-8"]) (literal : String) :
    compile settings .text literal = .ok (.needles [Text.Utf8.encode literal.toList]) := by
  have hutf8 : codecOf (.text "utf-8") = .ok Text.Encoding.utf8.codec := rfl
  have hbytes : Text.Encoding.utf8.encode literal.toList = .ok (Text.Utf8.encode literal.toList) :=
    Text.Encoding.encode_of_writes (Text.Encoding.writes_of_limit rfl _)
  have hneedle : ContentTest.needle literal.toList (.text "utf-8") =
      .ok (Text.Utf8.encode literal.toList) := needle_eq_ok_iff.2 ⟨_, hutf8, hbytes⟩
  rw [compile, needlesOf, h, needlesAfter, hneedle]
  rfl

end
end ContentTest
end NodeQuery
