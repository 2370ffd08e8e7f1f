import Mathlib.Data.List.Basic

/-!
# Bytes

A buffer of the firmware, a Go byte slice and a JavaScript byte array are all a
list of bytes. Reading past the end of a list gives `0`; the code reads only after
a length check, so that default is never seen.
-/

namespace Voyager

/-- One byte on a wire or in a buffer. -/
abbrev Byte := UInt8

/-- The bytes of a text in ASCII. -/
def ascii (s : String) : List Byte := s.toList.map fun c => UInt8.ofNat c.toNat

/-- The digit of `n < 16` in base 16. -/
def hexDigit (n : ℕ) : Byte := UInt8.ofNat (if n < 10 then 48 + n else 87 + n)

/-- The byte at index `i` of a buffer. -/
def byteAt (buf : List Byte) (i : ℕ) : Byte := buf.getD i 0

@[simp] theorem byteAt_cons_zero (b : Byte) (buf : List Byte) :
    byteAt (b :: buf) 0 = b := rfl

@[simp] theorem byteAt_cons_succ (b : Byte) (buf : List Byte) (i : ℕ) :
    byteAt (b :: buf) (i + 1) = byteAt buf i := rfl

/-- A list of at least four bytes, taken apart. -/
theorem exists_cons_four {buf : List Byte} (h : 4 ≤ buf.length) :
    ∃ a b c d rest, buf = a :: b :: c :: d :: rest := by
  match buf, h with
  | a :: b :: c :: d :: rest, _ => exact ⟨a, b, c, d, rest, rfl⟩

/-- A statement about bytes is a statement about the numbers below `256`. -/
@[elab_as_elim] theorem forall_byte {motive : Byte → Prop}
    (h : ∀ n < 256, motive (UInt8.ofNat n)) (b : Byte) : motive b := by
  have hb := h b.toNat b.toNat_lt
  rwa [UInt8.ofNat_toNat] at hb

theorem toNat_ofNat_of_lt {n : ℕ} (h : n < 256) : (UInt8.ofNat n).toNat = n := by
  rw [UInt8.toNat_ofNat']
  exact Nat.mod_eq_of_lt h

/-! ## Two bytes as a word, the high byte first -/

/-- The word `hi << 8 | lo`. -/
def word (hi lo : Byte) : UInt16 := (hi.toUInt16 <<< 8) ||| lo.toUInt16

/-- The high byte of a word. -/
def wordHi (w : UInt16) : Byte := (w >>> 8).toUInt8

/-- The low byte of a word. -/
def wordLo (w : UInt16) : Byte := w.toUInt8

theorem toNat_word (hi lo : Byte) : (word hi lo).toNat = hi.toNat * 256 + lo.toNat := by
  have hhi := hi.toNat_lt
  have hlo : lo.toNat < 2 ^ 8 := lo.toNat_lt
  have hshift : (hi.toUInt16 <<< 8).toNat = hi.toNat <<< 8 := by
    rw [UInt16.toNat_shiftLeft, UInt8.toNat_toUInt16, Nat.mod_eq_of_lt]
    · rfl
    · change hi.toNat <<< 8 < 2 ^ 16
      rw [Nat.shiftLeft_eq]
      omega
  -- the shifted byte and the low byte share no bit
  rw [word, UInt16.toNat_or, hshift, UInt8.toNat_toUInt16, ← Nat.shiftLeft_add_eq_or_of_lt hlo,
    Nat.shiftLeft_eq]

theorem toNat_wordHi (w : UInt16) : (wordHi w).toNat = w.toNat / 256 := by
  have hw := w.toNat_lt
  rw [wordHi, UInt16.toNat_toUInt8, UInt16.toNat_shiftRight]
  change w.toNat >>> 8 % 256 = _
  rw [Nat.shiftRight_eq_div_pow]
  omega

theorem toNat_wordLo (w : UInt16) : (wordLo w).toNat = w.toNat % 256 := UInt16.toNat_toUInt8 w

theorem word_inj {a b c d : Byte} : word a b = word c d ↔ a = c ∧ b = d := by
  rw [← UInt16.toNat_inj, ← UInt8.toNat_inj, ← UInt8.toNat_inj, toNat_word, toNat_word]
  have hb := b.toNat_lt
  have hd := d.toNat_lt
  omega

@[simp] theorem wordHi_word (hi lo : Byte) : wordHi (word hi lo) = hi := by
  rw [← UInt8.toNat_inj, toNat_wordHi, toNat_word]
  have hlo := lo.toNat_lt
  omega

@[simp] theorem wordLo_word (hi lo : Byte) : wordLo (word hi lo) = lo := by
  rw [← UInt8.toNat_inj, toNat_wordLo, toNat_word]
  have hlo := lo.toNat_lt
  omega

@[simp] theorem word_eta (w : UInt16) : word (wordHi w) (wordLo w) = w := by
  rw [← UInt16.toNat_inj, toNat_word, toNat_wordHi, toNat_wordLo]
  omega

end Voyager
