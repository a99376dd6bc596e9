import Mathlib.Data.List.Infix
import NodeQuery.Proofs.Query.TextSearch
import NodeQuery.Proofs.Regex.Plain
/-!
Literals that are plain patterns. Their bytes are a plain pattern over bytes, since a character with
a meaning is one byte, which stands in the bytes of a literal only if the character stands in the
literal (`isPlain_bytePattern`). So the search for a regular expression and the search for a text in
UTF-8 agree on them, and without regard to case the former selects at least as much
(`plain_agrees`).
-/
namespace NodeQuery

namespace ContentTest

theorem flags_subset (settings : Settings) : flags settings ⊆ [.ignoreCase, .dotAll] := by
  unfold flags
  cases settings.dataIgnoreCase.isTruthy <;> cases settings.dataDotAll.isTruthy <;> decide

/-- How case counts for the bytes of a plain pattern. -/
theorem plainRule_flags (settings : Settings) : Regex.plainRule true (flags settings) =
    if settings.dataIgnoreCase.isTruthy then .ascii else .exact := by
  unfold flags
  cases settings.dataIgnoreCase.isTruthy <;> cases settings.dataDotAll.isTruthy <;> rfl

/-! ## Bytes as characters -/

theorem toNat_ofNat_byte (b : UInt8) : (Char.ofNat b.toNat).toNat = b.toNat := by
  have hvalid : b.toNat.isValidChar := Or.inl (Nat.lt_trans b.toNat_lt (by decide))
  rw [Char.ofNat, dif_pos hvalid]
  rfl

theorem map_toNat_bytePattern (literal : String) : (bytePattern literal).map Char.toNat =
    (Text.Utf8.encode literal.toList).map UInt8.toNat := by
  rw [bytePattern, List.map_map]
  exact List.map_congr_left fun b _ => toNat_ofNat_byte b

variable {literal : String}

theorem isPlain_bytePattern (hplain : ∀ c ∈ literal.toList, Regex.IsPlain c) :
    ∀ c ∈ bytePattern literal, Regex.IsPlain c := by
  intro c hc hsign
  obtain ⟨b, hb, rfl⟩ := List.mem_map.1 hc
  have hsigns : ∀ c ∈ Regex.signs, Text.Utf8.encode [c] = [UInt8.ofNat c.toNat] := by
    simp [Regex.signs, Text.Utf8.encode, Text.Utf8.encodeChar]
  have hbyte := hsigns _ hsign
  rw [toNat_ofNat_byte, UInt8.ofNat_toNat] at hbyte
  have hinfix : Text.Utf8.encode [Char.ofNat b.toNat] <:+: Text.Utf8.encode literal.toList := by
    rw [hbyte, List.singleton_infix_iff]
    exact hb
  rw [Text.Utf8.encode_infix_iff, List.singleton_infix_iff] at hinfix
  exact hplain _ hinfix hsign

/-- A plain pattern is made ready, and accepts content in which its bytes occur. -/
theorem exists_compile_regex [Host] (hplain : ∀ c ∈ literal.toList, Regex.IsPlain c)
    (settings : Settings) : ∃ test, compile settings .regex literal = .ok test ∧
      ∀ content, test.accepts content = true ↔
        Regex.Occurs (Regex.plainRule true (flags settings))
          ((Text.Utf8.encode literal.toList).map UInt8.toNat) (content.map UInt8.toNat) := by
  obtain ⟨regex, hparse, hsearch⟩ :=
    Regex.exists_parse_plain (isPlain_bytePattern hplain) true (flags_subset settings)
  refine ⟨.regex regex, ?_, fun content => ?_⟩
  · simp only [compile, hparse]
  · rw [← map_toNat_bytePattern]
    exact hsearch _

end ContentTest

namespace Query
open ContentTest

/-- Parts of a list stay parts, and nothing else becomes one, if its elements stay apart. -/
theorem infix_map_iff_of_injective {α β : Type} {f : α → β} (hf : Function.Injective f)
    {s t : List α} : s.map f <:+: t.map f ↔ s <:+: t := by
  rw [List.infix_map_iff]
  constructor
  · rintro ⟨part, hinfix, hpart⟩
    rwa [List.map_injective_iff.2 hf hpart]
  · intro h
    exact ⟨s, h, rfl⟩

section
variable [Host] {literal : String}

/-- A text matches a plain pattern if and only if the pattern stands in it. -/
theorem exists_compile_plain (hplain : ∀ c ∈ literal.toList, Regex.IsPlain c)
    (settings : Settings) : ∃ matcher, Matcher.compile settings .regex literal = .ok matcher ∧
      ∀ text : String, matcher.accepts text = true ↔ literal.toList <:+: text.toList := by
  obtain ⟨regex, hparse, hsearch⟩ := Regex.exists_parse_plain hplain false (List.nil_subset _)
  refine ⟨.regex regex, ?_, fun text => ?_⟩
  · simp only [Matcher.compile, hparse]
  · refine (hsearch (codesOf text)).trans (Regex.occurs_exact_iff.trans ?_)
    exact infix_map_iff_of_injective fun c d => Char.toNat_inj.1

/-- On a literal that is a plain pattern, regular expressions and texts agree. A name or value
matches if and only if the literal stands in it. Over any content the search for the regular
expression and the search for the text in UTF-8 select the same or fail alike; without regard to
case the former selects at least as much, and fails as the latter does. -/
theorem plain_agrees (hplain : ∀ c ∈ literal.toList, Regex.IsPlain c) :
    (∀ settings, ∃ matcher, Matcher.compile settings .regex literal = .ok matcher ∧
      ∀ text : String, (matcher.accepts text = true ↔ literal.toList <:+: text.toList) ∧
        (matcher.acceptsName (.text text) = .ok true ↔ literal.toList <:+: text.toList)) ∧
    ∀ searching utf8 : Settings, utf8.encodings = [.text "utf-8"] →
      ∀ (tree : NodeTree) (candidates : List Json),
        let byPattern := (Leaf.data .regex literal).select ⟨tree, candidates, searching⟩
        let byText := (Leaf.data .text literal).select ⟨tree, candidates, utf8⟩
        (searching.dataIgnoreCase.isTruthy = false → byPattern = byText) ∧
        (searching.dataIgnoreCase.isTruthy = true → failure? byText = failure? byPattern ∧
          ∀ found, byText = .ok found → ∃ more, byPattern = .ok more ∧ found.Sublist more) := by
  constructor
  · intro settings
    obtain ⟨matcher, hcompile, haccepts⟩ := exists_compile_plain hplain settings
    refine ⟨matcher, hcompile, fun text => ⟨haccepts text, ?_⟩⟩
    rw [Matcher.acceptsName, Except.ok.injEq, haccepts]
  · intro searching utf8 hutf8 tree candidates byPattern byText
    have htext := compile_utf8 hutf8 literal
    obtain ⟨test, hpattern, haccepts⟩ := exists_compile_regex hplain searching
    have hneedle : ∀ content, accepts (.needles [Text.Utf8.encode literal.toList]) content = true ↔
        (Text.Utf8.encode literal.toList).map UInt8.toNat <:+: content.map UInt8.toNat := by
      intro content
      rw [accepts_needle_iff, infix_map_iff_of_injective fun a b => UInt8.toNat_inj.1]
    rw [plainRule_flags] at haccepts
    constructor
    · intro hexact
      refine Leaf.select_data_congr hpattern htext fun content => ?_
      rw [Bool.eq_iff_iff, haccepts, hneedle, if_neg (by simp [hexact]), Regex.occurs_exact_iff]
    · intro _
      refine Leaf.select_data_mono htext hpattern fun content h => ?_
      exact (haccepts content).2 (Regex.occurs_of_infix ((hneedle content).1 h))

end

/-- With and without regard to case. -/
theorem plain_agrees_greetings :
    let strict := { Settings.standard with dataIgnoreCase := .bool false }
    let utf8 := { Settings.standard with encodings := [.text "utf-8"] }
    let candidates := [.int 1, .int 2]
    (∀ c ∈ "ße, 世".toList, Regex.IsPlain c) ∧ utf8.encodings = [.text "utf-8"] ∧
    strict.dataIgnoreCase.isTruthy = false ∧ Settings.standard.dataIgnoreCase.isTruthy = true ∧
    (∃ matcher, Matcher.compile strict .regex "ße, 世" = .ok matcher ∧
      matcher.accepts "Grüße, 世界" = true) ∧
    (Leaf.data .regex "ße, 世").select ⟨greetings, candidates, strict⟩ =
      (Leaf.data .text "ße, 世").select ⟨greetings, candidates, utf8⟩ ∧
    failure? ((Leaf.data .text "ße, 世").select ⟨greetings, candidates, utf8⟩) =
      failure? ((Leaf.data .regex "ße, 世").select ⟨greetings, candidates, .standard⟩) := by
  intro strict utf8 candidates
  have hplain : ∀ c ∈ "ße, 世".toList, Regex.IsPlain c := by simp [Regex.IsPlain, Regex.signs]
  obtain ⟨hmatch, hdata⟩ := plain_agrees hplain
  obtain ⟨matcher, hcompile, hiff⟩ := hmatch strict
  have hexact := (hdata strict utf8 rfl greetings candidates).1 rfl
  have hcaseless := (hdata .standard utf8 rfl greetings candidates).2 rfl
  exact ⟨hplain, rfl, rfl, rfl, ⟨matcher, hcompile, (hiff _).1.2 (by decide)⟩, hexact, hcaseless.1⟩

end Query
end NodeQuery
