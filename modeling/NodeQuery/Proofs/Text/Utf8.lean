import Mathlib.Data.Nat.Notation
import NodeQuery.Text.Utf8
/-!
UTF-8 written and read back. The bytes of a character are read as its code, whatever follows
(`readChar_encodeChar`), so `decode` gives back every text that is encoded (`decode_encode`). A byte
also tells whether it starts a character, so the bytes of one text stand among those of another only
where the text stands in the other (`encode_infix_iff`).
-/
namespace NodeQuery.Text

/-! ## Characters one after the other -/

/-- Characters are written so that bytes start with at most one of them. -/
def PrefixFree (write : Char → Bytes) : Prop :=
  ∀ c d x y, write c ++ x = write d ++ y → c = d

theorem PrefixFree.ne_nil {write : Char → Bytes} (h : PrefixFree write) (c : Char) :
    write c ≠ [] := by
  intro hnil
  have hall : ∀ d, c = d := fun d => h c d (write d) [] (by rw [hnil, List.append_nil]; rfl)
  exact absurd ((hall 'a').symm.trans (hall 'b')) (by decide)

/-- A text starts another one if its bytes start the other's. -/
theorem PrefixFree.prefix_iff {write : Char → Bytes} (h : PrefixFree write) {s t : List Char} :
    s.flatMap write <+: t.flatMap write ↔ s <+: t := by
  constructor
  · intro hprefix
    induction s generalizing t with
    | nil => exact List.nil_prefix
    | cons c s ih =>
      obtain ⟨more, hmore⟩ := hprefix
      rw [List.flatMap_cons, List.append_assoc] at hmore
      cases t with
      | nil => exact absurd (List.append_eq_nil_iff.1 hmore).1 (h.ne_nil c)
      | cons d t =>
        obtain rfl := h c d _ _ hmore
        exact List.cons_prefix_cons.2 ⟨rfl, ih ⟨more, List.append_cancel_left hmore⟩⟩
  · rintro ⟨more, rfl⟩
    rw [List.flatMap_append]
    exact List.prefix_append _ _

namespace Utf8

/-! ## Reading back -/

theorem toNat_ofNat {n : ℕ} (h : n < 256) : (UInt8.ofNat n).toNat = n := by
  rw [UInt8.toNat_ofNat', Nat.mod_eq_of_lt h]

/-- A byte that follows adds six bits to the code. -/
theorem readTail_cons (code read owed n : ℕ) {first last : ℕ} (rest : List UInt8)
    (h : first ≤ 0x80 + n % 64 ∧ 0x80 + n % 64 ≤ last) :
    readTail code read (owed + 1) first last (UInt8.ofNat (0x80 + n % 64) :: rest) =
      readTail (code * 64 + n % 64) (read + 1) owed 0x80 0xBF rest := by
  have hbits : (0x80 + n % 64) % 64 = n % 64 := by omega
  rw [readTail, toNat_ofNat (by omega), if_pos h, hbits]

/-- The second byte of three is within the range that the first one asks for. -/
theorem lead?_three (code : ℕ) (hlow : 0x800 ≤ code) (hhigh : code < 0x10000)
    (hvalid : code < 0xD800 ∨ 0xDFFF < code) : ∃ first last,
    lead? (0xE0 + code / 4096) = some (2, first, last) ∧
      first ≤ 0x80 + code / 64 % 64 ∧ 0x80 + code / 64 % 64 ≤ last := by
  unfold lead?
  rw [if_neg (by omega)]
  split
  · exact ⟨_, _, rfl, by omega⟩
  · split
    · exact ⟨_, _, rfl, by omega⟩
    · rw [if_pos (by omega)]
      exact ⟨_, _, rfl, by omega⟩

/-- The second byte of four is within the range that the first one asks for. -/
theorem lead?_four (code : ℕ) (hlow : 0x10000 ≤ code) (hhigh : code < 0x110000) : ∃ first last,
    lead? (0xF0 + code / 262144) = some (3, first, last) ∧
      first ≤ 0x80 + code / 4096 % 64 ∧ 0x80 + code / 4096 % 64 ≤ last := by
  unfold lead?
  rw [if_neg (by omega), if_neg (by omega), if_neg (by omega), if_neg (by omega)]
  split
  · exact ⟨_, _, rfl, by omega⟩
  · split
    · exact ⟨_, _, rfl, by omega⟩
    · rw [if_pos (by omega)]
      exact ⟨_, _, rfl, by omega⟩

/-- The bytes of a character are read as its code. -/
theorem readChar_encodeChar (c : Char) : ∃ b tail, encodeChar c = b :: tail ∧
    ∀ rest, readChar b (tail ++ rest) = .ok (c.toNat, tail.length + 1) := by
  have hvalid : c.toNat < 0xD800 ∨ 0xDFFF < c.toNat ∧ c.toNat < 0x110000 := c.valid
  unfold encodeChar
  dsimp only
  generalize c.toNat = code at hvalid ⊢
  split
  · refine ⟨_, [], rfl, fun rest => ?_⟩
    rw [readChar, toNat_ofNat (by omega), if_pos ‹_›]
    rfl
  · split
    · refine ⟨_, _, rfl, fun rest => ?_⟩
      have hlead : lead? (0xC0 + code / 64) = some (1, 0x80, 0xBF) := by
        rw [lead?, if_pos (by omega)]
      have hcode : (0xC0 + code / 64) % Nat.pow 2 (6 - 1) * 64 + code / Nat.pow 2 0 % 64 =
          code := by
        simp only [Nat.pow_eq, Nat.reduceSub, Nat.reducePow, Nat.div_one]
        omega
      rw [readChar, toNat_ofNat (by omega), if_neg (by omega), hlead]
      dsimp only
      rw [List.singleton_append, readTail_cons _ _ _ _ _ (by omega), readTail]
      rw [hcode]
      rfl
    · split
      · refine ⟨_, _, rfl, fun rest => ?_⟩
        have hcode : ((0xE0 + code / 4096) % Nat.pow 2 (6 - 2) * 64 +
            code / Nat.pow 2 6 % 64) * 64 + code / Nat.pow 2 0 % 64 = code := by
          simp only [Nat.pow_eq, Nat.reduceSub, Nat.reducePow, Nat.div_one]
          omega
        obtain ⟨first, last, hlead, hrange⟩ := lead?_three code (by omega) ‹_› (by omega)
        rw [readChar, toNat_ofNat (by omega), if_neg (by omega), hlead]
        dsimp only
        rw [List.cons_append, List.singleton_append, readTail_cons _ _ _ _ _ hrange,
          readTail_cons _ _ _ _ _ (by omega), readTail]
        rw [hcode]
        rfl
      · refine ⟨_, _, rfl, fun rest => ?_⟩
        have hcode : (((0xF0 + code / 262144) % Nat.pow 2 (6 - 3) * 64 +
            code / Nat.pow 2 12 % 64) * 64 + code / Nat.pow 2 6 % 64) * 64 +
            code / Nat.pow 2 0 % 64 = code := by
          simp only [Nat.pow_eq, Nat.reduceSub, Nat.reducePow, Nat.div_one]
          omega
        obtain ⟨first, last, hlead, hrange⟩ := lead?_four code (by omega) (by omega)
        rw [readChar, toNat_ofNat (by omega), if_neg (by omega), hlead]
        dsimp only
        rw [List.cons_append, List.cons_append, List.singleton_append,
          readTail_cons _ _ _ _ _ hrange, readTail_cons _ _ _ _ _ (by omega),
          readTail_cons _ _ _ _ _ (by omega), readTail]
        rw [hcode]
        rfl

/-- Bytes that belong to what was read last are passed over. -/
theorem parts_skip (tail : Bytes) (position : ℕ) (rest : Bytes) :
    parts tail.length position (tail ++ rest) = parts 0 (position + tail.length) rest := by
  induction tail generalizing position with
  | nil => rfl
  | cons b tail ih =>
    rw [List.cons_append, List.length_cons, parts, ih, Nat.add_assoc, Nat.add_comm 1]

theorem parts_encodeChar (c : Char) (position : ℕ) (rest : Bytes) :
    parts 0 position (encodeChar c ++ rest) =
      .ok c :: parts 0 (position + (encodeChar c).length) rest := by
  obtain ⟨b, tail, hbytes, hread⟩ := readChar_encodeChar c
  rw [hbytes, List.cons_append, parts, hread]
  dsimp only
  rw [Char.ofNat_toNat, Nat.add_sub_cancel, parts_skip, List.length_cons, Nat.add_assoc,
    Nat.add_comm 1]

theorem parts_encode (s : List Char) (position : ℕ) :
    parts 0 position (encode s) = s.map .ok := by
  induction s generalizing position with
  | nil => rfl
  | cons c s ih =>
    rw [encode, List.flatMap_cons, parts_encodeChar, ← encode, ih, List.map_cons]

/-- What is encoded is decoded as itself. -/
theorem decode_encode (s : List Char) : decode (encode s) = .ok s := by
  rw [decode, parts_encode]
  induction s with
  | nil => rfl
  | cons c s ih =>
    rw [List.map_cons, List.mapM_cons, ih]
    rfl

/-! ## Places of characters -/

/-- A byte that goes on with a character. -/
def Continues (b : UInt8) : Prop :=
  0x80 ≤ b.toNat ∧ b.toNat < 0xC0

theorem continues_ofNat (n : ℕ) : Continues (UInt8.ofNat (0x80 + n % 64)) := by
  rw [Continues, toNat_ofNat (by omega)]
  omega

theorem not_continues_ofNat {n : ℕ} (h : n < 0x80 ∨ 0xC0 ≤ n ∧ n < 256) :
    ¬ Continues (UInt8.ofNat n) := by
  rw [Continues, toNat_ofNat (by omega)]
  omega

/-- The first byte of a character starts it, and the others go on with it. -/
theorem encodeChar_shape (c : Char) : ∃ b tail, encodeChar c = b :: tail ∧ ¬ Continues b ∧
    ∀ other ∈ tail, Continues other := by
  have hvalid : c.toNat < 0xD800 ∨ 0xDFFF < c.toNat ∧ c.toNat < 0x110000 := c.valid
  unfold encodeChar
  dsimp only
  generalize c.toNat = code at hvalid ⊢
  split
  · exact ⟨_, [], rfl, not_continues_ofNat (by omega), List.forall_mem_nil _⟩
  · split
    · refine ⟨_, _, rfl, not_continues_ofNat (by omega), ?_⟩
      exact List.forall_mem_cons.2 ⟨continues_ofNat _, List.forall_mem_nil _⟩
    · split
      · refine ⟨_, _, rfl, not_continues_ofNat (by omega), ?_⟩
        simp only [List.forall_mem_cons, continues_ofNat, true_and]
        exact List.forall_mem_nil _
      · refine ⟨_, _, rfl, not_continues_ofNat (by omega), ?_⟩
        simp only [List.forall_mem_cons, continues_ofNat, true_and]
        exact List.forall_mem_nil _

theorem prefixFree_encodeChar : PrefixFree encodeChar := by
  intro c d x y h
  obtain ⟨b, tail, hc, hreadc⟩ := readChar_encodeChar c
  obtain ⟨b', tail', hd, hreadd⟩ := readChar_encodeChar d
  rw [hc, hd, List.cons_append, List.cons_append] at h
  obtain ⟨rfl, hrest⟩ := List.cons.inj h
  have hread := hreadc x
  rw [hrest, hreadd] at hread
  have hcode : d.toNat = c.toNat := congrArg Prod.fst (Except.ok.inj hread)
  exact Char.toNat_inj.1 hcode.symm

/-- What starts a character is not found in the rest of another one. -/
theorem infix_of_infix_continued {b : UInt8} {w tail rest : Bytes} (hb : ¬ Continues b)
    (htail : ∀ other ∈ tail, Continues other) (h : b :: w <:+: tail ++ rest) :
    b :: w <:+: rest := by
  induction tail with
  | nil => exact h
  | cons other tail ih =>
    obtain ⟨hother, htail⟩ := List.forall_mem_cons.1 htail
    rw [List.cons_append, List.infix_cons_iff] at h
    rcases h with hprefix | hinfix
    · obtain ⟨rfl, -⟩ := List.cons_prefix_cons.1 hprefix
      exact absurd hother hb
    · exact ih htail hinfix

/-- The bytes of a text stand in those of another one only where the text itself does: they cannot
start inside a character, and where they start with one, they go on with the same characters. -/
theorem encode_infix_iff {s t : List Char} : encode s <:+: encode t ↔ s <:+: t := by
  constructor
  · intro h
    cases s with
    | nil => exact List.nil_infix
    | cons c s =>
      obtain ⟨b, tail, hbytes, hb, -⟩ := encodeChar_shape c
      have hs : encode (c :: s) = b :: (tail ++ encode s) := by
        rw [encode, List.flatMap_cons, hbytes]
        rfl
      induction t with
      | nil => exact absurd (List.infix_nil.1 h) (hs ▸ List.cons_ne_nil _ _)
      | cons d t ih =>
        obtain ⟨b', tail', hbytes', -, htail'⟩ := encodeChar_shape d
        have ht : encode (d :: t) = b' :: (tail' ++ encode t) := by
          rw [encode, List.flatMap_cons, hbytes']
          rfl
        rw [ht, List.infix_cons_iff, ← ht] at h
        rcases h with hprefix | hinfix
        · exact (prefixFree_encodeChar.prefix_iff.1 hprefix).isInfix
        · rw [hs] at hinfix ih
          exact List.infix_cons (ih (infix_of_infix_continued hb htail' hinfix))
  · rintro ⟨before, after, rfl⟩
    rw [encode_append, encode_append]
    exact List.infix_append _ _ _

end Utf8
end NodeQuery.Text
