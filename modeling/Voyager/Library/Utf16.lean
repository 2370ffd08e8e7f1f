import Mathlib.Data.Nat.Notation

/-!
# UTF-16 and UTF-8

The code units of a text in UTF-16 and its bytes in UTF-8. A list of code units is the
encoding of a text unless one of the two halves of a surrogate pair stands alone in it.
-/

namespace Utf16

/-- UTF-16 code units, with surrogates that may stand alone. -/
abbrev Units := List UInt16

def isHigh (c : UInt16) : Bool := 0xD800 ≤ c && c ≤ 0xDBFF
def isLow (c : UInt16) : Bool := 0xDC00 ≤ c && c ≤ 0xDFFF
def isSurrogate (c : UInt16) : Bool := 0xD800 ≤ c && c ≤ 0xDFFF

/-- The number that a surrogate pair stands for. -/
def codePoint (hi lo : UInt16) : ℕ :=
  0x10000 + (hi.toNat - 0xD800) * 0x400 + (lo.toNat - 0xDC00)

def encodeChar (c : Char) : Units :=
  if c.toNat < 0x10000 then [UInt16.ofNat c.toNat]
  else
    [UInt16.ofNat (0xD800 + (c.toNat - 0x10000) / 0x400),
      UInt16.ofNat (0xDC00 + (c.toNat - 0x10000) % 0x400)]

def encode (cs : List Char) : Units := cs.flatMap encodeChar

/-- The bytes of a text. -/
def utf8 (cs : List Char) : List UInt8 := cs.flatMap String.utf8EncodeChar

/-! ## Code units -/

theorem isHigh_iff {c : UInt16} : isHigh c = true ↔ 0xD800 ≤ c.toNat ∧ c.toNat ≤ 0xDBFF := by
  simp [isHigh, UInt16.le_iff_toNat_le]

theorem isLow_iff {c : UInt16} : isLow c = true ↔ 0xDC00 ≤ c.toNat ∧ c.toNat ≤ 0xDFFF := by
  simp [isLow, UInt16.le_iff_toNat_le]

theorem isSurrogate_iff {c : UInt16} :
    isSurrogate c = true ↔ 0xD800 ≤ c.toNat ∧ c.toNat ≤ 0xDFFF := by
  simp [isSurrogate, UInt16.le_iff_toNat_le]

theorem toNat_ofNat_of_lt {n : ℕ} (h : n < 0x10000) : (UInt16.ofNat n).toNat = n := by
  rw [UInt16.toNat_ofNat']
  exact Nat.mod_eq_of_lt h

/-- A character is no surrogate, and below `0x110000`. -/
theorem toNat_valid (c : Char) :
    c.toNat < 0xD800 ∨ 0xDFFF < c.toNat ∧ c.toNat < 0x110000 := c.valid

/-- A character is one unit that is no surrogate, or a pair. -/
theorem encodeChar_cases (c : Char) :
    (∃ u, encodeChar c = [u] ∧ u.toNat = c.toNat ∧ isSurrogate u = false) ∨
      ∃ hi lo, encodeChar c = [hi, lo] ∧ isHigh hi = true ∧ isLow lo = true ∧
        codePoint hi lo = c.toNat := by
  have hvalid := toNat_valid c
  rw [encodeChar]
  split
  · next hlt =>
      have hunit := toNat_ofNat_of_lt hlt
      refine Or.inl ⟨_, rfl, hunit, ?_⟩
      rw [← Bool.not_eq_true, isSurrogate_iff, hunit]
      omega
  · have hhi := toNat_ofNat_of_lt (n := 0xD800 + (c.toNat - 0x10000) / 0x400) (by omega)
    have hlo := toNat_ofNat_of_lt (n := 0xDC00 + (c.toNat - 0x10000) % 0x400) (by omega)
    generalize UInt16.ofNat (0xD800 + (c.toNat - 0x10000) / 0x400) = hi at *
    generalize UInt16.ofNat (0xDC00 + (c.toNat - 0x10000) % 0x400) = lo at *
    have hcode : codePoint hi lo =
        0x10000 + (hi.toNat - 0xD800) * 0x400 + (lo.toNat - 0xDC00) := rfl
    refine Or.inr ⟨hi, lo, rfl, ?_, ?_, ?_⟩
    · rw [isHigh_iff]
      omega
    · rw [isLow_iff]
      omega
    · omega

theorem le_codePoint (hi lo : UInt16) : 0x10000 ≤ codePoint hi lo :=
  Nat.le_trans (Nat.le_add_right _ _) (Nat.le_add_right _ _)

/-- A unit that is no surrogate is a character. -/
theorem exists_char {u : UInt16} (h : isSurrogate u = false) :
    ∃ c : Char, encodeChar c = [u] ∧ c.toNat = u.toNat := by
  rw [← Bool.not_eq_true, isSurrogate_iff] at h
  have hlt := u.toNat_lt
  have hvalid : u.toNat.isValidChar := by
    rw [Nat.isValidChar]
    omega
  have hc : (Char.ofNat u.toNat).toNat = u.toNat := by
    rw [Char.ofNat, dif_pos hvalid]
    rfl
  refine ⟨Char.ofNat u.toNat, ?_, hc⟩
  rw [encodeChar, hc, if_pos hlt, UInt16.ofNat_toNat]

/-- A pair is a character. -/
theorem exists_char_of_pair {hi lo : UInt16} (hhi : isHigh hi = true) (hlo : isLow lo = true) :
    ∃ c : Char, encodeChar c = [hi, lo] ∧ c.toNat = codePoint hi lo := by
  rw [isHigh_iff] at hhi
  rw [isLow_iff] at hlo
  have hcode : codePoint hi lo =
      0x10000 + (hi.toNat - 0xD800) * 0x400 + (lo.toNat - 0xDC00) := rfl
  generalize codePoint hi lo = n at *
  have hvalid : n.isValidChar := by
    rw [Nat.isValidChar]
    omega
  have hc : (Char.ofNat n).toNat = n := by
    rw [Char.ofNat, dif_pos hvalid]
    rfl
  refine ⟨Char.ofNat n, ?_, hc⟩
  have hhigh : 0xD800 + (n - 0x10000) / 0x400 = hi.toNat := by omega
  have hlow : 0xDC00 + (n - 0x10000) % 0x400 = lo.toNat := by omega
  rw [encodeChar, hc, if_neg (by omega), hhigh, hlow, UInt16.ofNat_toNat, UInt16.ofNat_toNat]

theorem encode_cons (c : Char) (cs : List Char) : encode (c :: cs) = encodeChar c ++ encode cs :=
  List.flatMap_cons

theorem encode_singleton (c : Char) : encode [c] = encodeChar c := List.flatMap_singleton _ _

theorem encode_append (cs cs' : List Char) : encode (cs ++ cs') = encode cs ++ encode cs' :=
  List.flatMap_append

/-! ## Bytes -/

theorem utf8_cons (c : Char) (cs : List Char) :
    utf8 (c :: cs) = String.utf8EncodeChar c ++ utf8 cs :=
  List.flatMap_cons

theorem utf8_singleton (c : Char) : utf8 [c] = String.utf8EncodeChar c :=
  List.flatMap_singleton _ _

theorem utf8_append (cs cs' : List Char) : utf8 (cs ++ cs') = utf8 cs ++ utf8 cs' :=
  List.flatMap_append

theorem utf8EncodeChar_ascii {c : Char} (h : c.toNat < 0x80) :
    String.utf8EncodeChar c = [UInt8.ofNat c.toNat] := by
  rw [String.utf8EncodeChar]
  exact if_pos (Nat.le_of_lt_succ h)

/-- The bytes of a character outside ASCII are outside ASCII. -/
theorem le_of_mem_utf8EncodeChar {c : Char} (h : 0x80 ≤ c.toNat) :
    ∀ b ∈ String.utf8EncodeChar c, 0x80 ≤ b := by
  have hlead : ∀ n k, 0x80 ≤ k ∧ k ≤ 0xF0 → n < 0x10 ∨ k ≤ 0xC0 ∧ n < 0x40 →
      (0x80 : UInt8) ≤ UInt8.ofNat (n + k) := by
    intro n k hk hn
    rw [UInt8.le_iff_toNat_le, UInt8.toNat_ofNat', Nat.mod_eq_of_lt (by omega)]
    exact Nat.le_trans hk.1 (Nat.le_add_left k n)
  rw [String.utf8EncodeChar]
  change 0x80 ≤ c.val.toNat at h
  rw [if_neg (by omega)]
  split
  · simp only [List.forall_mem_cons, List.not_mem_nil, false_implies, implies_true, and_true]
    exact ⟨hlead _ _ (by decide) (by omega), hlead _ _ (by decide) (by omega)⟩
  · split
    · simp only [List.forall_mem_cons, List.not_mem_nil, false_implies, implies_true, and_true]
      exact ⟨hlead _ _ (by decide) (by omega), hlead _ _ (by decide) (by omega),
        hlead _ _ (by decide) (by omega)⟩
    · simp only [List.forall_mem_cons, List.not_mem_nil, false_implies, implies_true, and_true]
      exact ⟨hlead _ _ (by decide) (by omega), hlead _ _ (by decide) (by omega),
        hlead _ _ (by decide) (by omega), hlead _ _ (by decide) (by omega)⟩

/-- A character outside ASCII is a lead byte and continuation bytes. -/
theorem exists_lead {c : Char} (h : 0x80 ≤ c.toNat) :
    ∃ lead rest, String.utf8EncodeChar c = lead :: rest ∧ 0xC0 ≤ lead ∧
      ∀ b ∈ rest, 0x80 ≤ b ∧ b < 0xC0 := by
  have hlead : ∀ n k, 0xC0 ≤ k ∧ k ≤ 0xF0 → n < 0x10 ∨ k ≤ 0xC0 ∧ n < 0x40 →
      (0xC0 : UInt8) ≤ UInt8.ofNat (n + k) := by
    intro n k hk hn
    rw [UInt8.le_iff_toNat_le, UInt8.toNat_ofNat', Nat.mod_eq_of_lt (by omega)]
    exact Nat.le_trans hk.1 (Nat.le_add_left k n)
  have hrest : ∀ n, n < 0x40 →
      (0x80 : UInt8) ≤ UInt8.ofNat (n + 0x80) ∧ UInt8.ofNat (n + 0x80) < 0xC0 := by
    intro n hn
    rw [UInt8.le_iff_toNat_le, UInt8.lt_iff_toNat_lt, UInt8.toNat_ofNat',
      Nat.mod_eq_of_lt (by omega)]
    exact ⟨Nat.le_add_left 0x80 n, Nat.add_lt_add_right hn 0x80⟩
  rw [String.utf8EncodeChar]
  change 0x80 ≤ c.val.toNat at h
  rw [if_neg (by omega)]
  split
  · refine ⟨_, _, rfl, hlead _ _ (by decide) (by omega), ?_⟩
    simp only [List.forall_mem_cons, List.not_mem_nil, false_implies, implies_true, and_true]
    exact hrest _ (by omega)
  · split
    · refine ⟨_, _, rfl, hlead _ _ (by decide) (by omega), ?_⟩
      simp only [List.forall_mem_cons, List.not_mem_nil, false_implies, implies_true, and_true]
      exact ⟨hrest _ (by omega), hrest _ (by omega)⟩
    · refine ⟨_, _, rfl, hlead _ _ (by decide) (by omega), ?_⟩
      simp only [List.forall_mem_cons, List.not_mem_nil, false_implies, implies_true, and_true]
      exact ⟨hrest _ (by omega), hrest _ (by omega), hrest _ (by omega)⟩

end Utf16
