import Mathlib.Data.List.Basic
import Mathlib.Data.List.TakeWhile
import NodeQuery.Proofs.Text.Utf8
import NodeQuery.Text.Encoding
/-!
Texts in any encoding. An encoding of this library writes a text if it can write each of its
characters, and it then writes them one after the other behind its mark (`encode_eq_ok_iff`). So the
bytes of a part of a text stand in the bytes of the text, up to the mark: every encoding that
concatenates (`Codec.Concatenates`) keeps parts behind its mark (`body_infix_of_encode`), and
one of this library with a mark keeps beginnings only (`marked_infix_iff`).
-/
namespace NodeQuery.Text

theorem char_toNat_lt (c : Char) : c.toNat < 0x110000 := by
  have hvalid := c.valid
  simp only [UInt32.isValidChar, Nat.isValidChar] at hvalid
  change c.val.toNat < 0x110000
  omega

namespace Encoding
variable {encoding : Encoding} {s t : List Char} {a b : Bytes}

/-! ## Texts that can be written -/

/-- An encoding can write all characters of a text. -/
def Writes (encoding : Encoding) (s : List Char) : Prop :=
  ∀ c ∈ s, encoding.canEncode c = true

theorem encode_eq_ok_iff : encoding.encode s = .ok b ↔
    encoding.Writes s ∧ b = encoding.mark ++ s.flatMap encoding.encodeChar := by
  rw [encode, Writes, ← List.dropWhile_eq_nil_iff]
  cases s.dropWhile encoding.canEncode with
  | nil => simp [eq_comm]
  | cons first rest => simp

theorem encode_of_writes (h : encoding.Writes s) :
    encoding.encode s = .ok (encoding.mark ++ s.flatMap encoding.encodeChar) :=
  encode_eq_ok_iff.2 ⟨h, rfl⟩

/-- An encoding without an upper bound writes every text. -/
theorem writes_of_limit (h : encoding.limit = 0x110000) (s : List Char) : encoding.Writes s := by
  intro c _
  rw [canEncode, h]
  exact decide_eq_true (char_toNat_lt c)

end Encoding

/-! ## Parts of a text -/

namespace Codec
variable {codec : Codec} {s t : List Char} {a b mark : Bytes} {body : List Char → Bytes}

/-- The encoding can write a text. -/
def Writes (codec : Codec) (s : List Char) : Prop :=
  ∃ bytes, codec.encode s = .ok bytes

/-- Behind a mark, which may be empty, the encoding writes the parts of a text one after the other,
each as it would be written anywhere else. -/
structure Concatenates (codec : Codec) (mark : Bytes) (body : List Char → Bytes) : Prop where
  append (s t : List Char) : body (s ++ t) = body s ++ body t
  eq_of_encode {s : List Char} {bytes : Bytes} (h : codec.encode s = .ok bytes) :
    bytes = mark ++ body s

namespace Concatenates

/-- What is written of a part stands in what is written of the text. -/
theorem body_infix (h : codec.Concatenates mark body) (hst : s <:+: t) : body s <:+: body t := by
  obtain ⟨before, after, rfl⟩ := hst
  rw [h.append, h.append]
  exact List.infix_append _ _ _

theorem body_infix_of_encode (h : codec.Concatenates mark body) (hst : s <:+: t)
    (ht : codec.encode t = .ok b) : body s <:+: b := by
  rw [h.eq_of_encode ht]
  exact List.IsInfix.trans (h.body_infix hst) (List.suffix_append _ _).isInfix

/-- The bytes of a beginning start the bytes of the text, with their mark. -/
theorem prefix_of_encode (h : codec.Concatenates mark body) (hst : s <+: t)
    (hs : codec.encode s = .ok a) (ht : codec.encode t = .ok b) : a <+: b := by
  rw [h.eq_of_encode hs, h.eq_of_encode ht]
  obtain ⟨after, rfl⟩ := hst
  rw [h.append, ← List.append_assoc]
  exact List.prefix_append _ _

end Concatenates
end Codec

namespace Encoding
variable {encoding : Encoding} {s t : List Char} {a b : Bytes}

theorem writes_codec_iff : encoding.codec.Writes s ↔ encoding.Writes s := by
  constructor
  · rintro ⟨bytes, h⟩
    exact (encode_eq_ok_iff.1 h).1
  · intro h
    exact ⟨_, encode_of_writes h⟩

/-- The encodings of this library concatenate. -/
theorem concatenates (encoding : Encoding) :
    encoding.codec.Concatenates encoding.mark fun s => s.flatMap encoding.encodeChar where
  append _ _ := List.flatMap_append
  eq_of_encode h := (encode_eq_ok_iff.1 h).2

/-! ## Units of two bytes -/

theorem little16_append_inj {u v : ℕ} {x y : Bytes} (hu : u < 0x10000) (hv : v < 0x10000)
    (h : little16 u ++ x = little16 v ++ y) : u = v ∧ x = y := by
  obtain ⟨hlow, h⟩ := List.cons.inj h
  obtain ⟨hhigh, h⟩ := List.cons.inj h
  have hlow := congrArg UInt8.toNat hlow
  have hhigh := congrArg UInt8.toNat hhigh
  rw [Utf8.toNat_ofNat (by omega), Utf8.toNat_ofNat (by omega)] at hlow hhigh
  exact ⟨by omega, h⟩

theorem prefixFree_units16 : PrefixFree fun c => (units16 c).flatMap little16 := by
  intro c d x y h
  have hc : c.toNat < 0xD800 ∨ 0xDFFF < c.toNat ∧ c.toNat < 0x110000 := c.valid
  have hd : d.toNat < 0xD800 ∨ 0xDFFF < d.toNat ∧ d.toNat < 0x110000 := d.valid
  apply Char.toNat_inj.1
  unfold units16 at h
  dsimp only at h
  split at h <;> split at h
  · simp only [List.flatMap_cons, List.flatMap_nil, List.append_nil] at h
    exact (little16_append_inj ‹_› ‹_› h).1
  · simp only [List.flatMap_cons, List.flatMap_nil, List.append_nil, List.append_assoc] at h
    obtain ⟨hfirst, -⟩ := little16_append_inj (by omega) (by omega) h
    omega
  · simp only [List.flatMap_cons, List.flatMap_nil, List.append_nil, List.append_assoc] at h
    obtain ⟨hfirst, -⟩ := little16_append_inj (by omega) (by omega) h
    omega
  · simp only [List.flatMap_cons, List.flatMap_nil, List.append_nil, List.append_assoc] at h
    obtain ⟨hfirst, h⟩ := little16_append_inj (by omega) (by omega) h
    obtain ⟨hsecond, -⟩ := little16_append_inj (by omega) (by omega) h
    omega

theorem prefixFree_little32 : PrefixFree little32 := by
  intro c d x y h
  have hc := char_toNat_lt c
  have hd := char_toNat_lt d
  apply Char.toNat_inj.1
  simp only [little32, List.append_assoc] at h
  obtain ⟨hlow, h⟩ := little16_append_inj (by omega) (by omega) h
  obtain ⟨hhigh, -⟩ := little16_append_inj (by omega) (by omega) h
  omega

/-- Units below U+FE00 never look like the first two bytes of a mark, not even across two of
them. -/
theorem not_mark_infix {units : List ℕ} (h : ∀ unit ∈ units, unit < 0xFE00) {b : UInt8}
    (hb : b ≠ 0xFF) : ¬ [0xFF, 0xFE] <:+: b :: units.flatMap little16 := by
  induction units generalizing b with
  | nil => simp [List.infix_cons_iff]
  | cons unit units ih =>
    obtain ⟨hunit, hunits⟩ := List.forall_mem_cons.1 h
    have hhigh : (UInt8.ofNat (unit / 256)).toNat = unit / 256 := Utf8.toNat_ofNat (by omega)
    have hhigh_ne : ∀ c : UInt8, 0xFE ≤ c.toNat → UInt8.ofNat (unit / 256) ≠ c := by
      rintro c hc rfl
      omega
    rw [List.flatMap_cons, List.infix_cons_iff, little16, List.cons_append, List.infix_cons_iff]
    rintro (hhere | hnext | hlater)
    · exact hb (List.cons_prefix_cons.1 hhere).1.symm
    · obtain ⟨-, hsecond⟩ := List.cons_prefix_cons.1 hnext
      exact hhigh_ne 0xFE (by decide) (List.cons_prefix_cons.1 hsecond).1.symm
    · exact ih hunits (hhigh_ne 0xFF (by decide)) hlater

/-! ## Marks -/

/-- Behind a mark that stands nowhere else, only what starts there is found together with it. -/
theorem infix_behind_mark_iff {first : UInt8} {mark a b : Bytes}
    (h : ¬ first :: mark <:+: mark ++ b) :
    first :: mark ++ a <:+: first :: mark ++ b ↔ a <+: b := by
  have hlater : ¬ first :: mark ++ a <:+: mark ++ b := fun hinfix =>
    h ((List.prefix_append _ _).isInfix.trans hinfix)
  show first :: mark ++ a <:+: first :: (mark ++ b) ↔ a <+: b
  rw [List.infix_cons_iff, or_iff_left hlater]
  exact List.prefix_append_right_inj (first :: mark)

theorem not_infix_mark_utf8 (ht : ∀ c ∈ t, c.toNat < 0xFE00) :
    ¬ [0xEF, 0xBB, 0xBF] <:+: [0xBB, 0xBF] ++ Utf8.encode t := by
  intro h
  have hcontinued : ∀ other ∈ ([0xBB, 0xBF] : Bytes), Utf8.Continues other := by
    simp [Utf8.Continues]
  have hfound := Utf8.infix_of_infix_continued (by simp [Utf8.Continues]) hcontinued h
  have hmark : Utf8.encode ['\uFEFF'] = [0xEF, 0xBB, 0xBF] := by decide
  rw [← hmark, Utf8.encode_infix_iff] at hfound
  exact absurd (ht _ (hfound.subset List.mem_cons_self)) (by decide)

theorem not_infix_mark_utf16 (ht : ∀ c ∈ t, c.toNat < 0xFE00) :
    ¬ [0xFF, 0xFE] <:+: [0xFE] ++ t.flatMap utf16.encodeChar := by
  have hunits : t.flatMap utf16.encodeChar = (t.map Char.toNat).flatMap little16 := by
    rw [List.flatMap_map]
    refine List.flatMap_congr fun c hc => ?_
    have hone : units16 c = [c.toNat] := if_pos (Nat.lt_trans (ht c hc) (by decide))
    rw [encodeChar, hone, List.flatMap_singleton]
  rw [hunits]
  refine not_mark_infix (fun unit hunit => ?_) (by decide)
  obtain ⟨c, hc, rfl⟩ := List.mem_map.1 hunit
  exact ht c hc

theorem not_infix_mark_utf32 (ht : ∀ c ∈ t, c.toNat < 0xFE00) :
    ¬ [0xFF, 0xFE, 0, 0] <:+: [0xFE, 0, 0] ++ t.flatMap utf32.encodeChar := by
  have hunits : [0, 0] ++ t.flatMap utf32.encodeChar =
      (0 :: t.flatMap fun c => [c.toNat, 0]).flatMap little16 := by
    rw [List.flatMap_cons, List.flatMap_assoc]
    refine congrArg _ (List.flatMap_congr fun c hc => ?_)
    have hlow := ht c hc
    rw [encodeChar, little32, Nat.mod_eq_of_lt (by omega), Nat.div_eq_of_lt (by omega)]
    rfl
  have hall : ∀ unit ∈ (0 :: t.flatMap fun c => [c.toNat, 0]), unit < 0xFE00 := by
    simp only [List.mem_cons, List.mem_flatMap, List.not_mem_nil, or_false]
    rintro unit (rfl | ⟨c, hc, rfl | rfl⟩)
    · decide
    · exact ht c hc
    · decide
  have hmark : ([0xFF, 0xFE] : Bytes) <:+: [0xFF, 0xFE, 0, 0] := ⟨[], [0, 0], rfl⟩
  rw [List.cons_append, hunits]
  exact fun h => not_mark_infix hall (by decide) (hmark.trans h)

/-- An encoding with a mark finds a text in another one, without characters from U+FE00 on, only if
the text starts the other one. -/
theorem marked_infix_iff (hmark : encoding.mark ≠ []) (ht : ∀ c ∈ t, c.toNat < 0xFE00)
    (hs : encoding.encode s = .ok a) (hb : encoding.encode t = .ok b) : a <:+: b ↔ s <+: t := by
  obtain ⟨-, rfl⟩ := encode_eq_ok_iff.1 hs
  obtain ⟨-, rfl⟩ := encode_eq_ok_iff.1 hb
  cases encoding with
  | utf8Signed =>
    exact (infix_behind_mark_iff (not_infix_mark_utf8 ht)).trans
      Utf8.prefixFree_encodeChar.prefix_iff
  | utf16 =>
    exact (infix_behind_mark_iff (not_infix_mark_utf16 ht)).trans prefixFree_units16.prefix_iff
  | utf32 =>
    exact (infix_behind_mark_iff (not_infix_mark_utf32 ht)).trans prefixFree_little32.prefix_iff
  | _ => exact absurd rfl hmark

end Encoding
end NodeQuery.Text
