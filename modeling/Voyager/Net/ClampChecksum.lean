import Voyager.Net.ClampMss

/-!
# The checksum of a clamped SYN

`clampMSS` does not sum the segment again: it works the new checksum out from the old one and
the two sizes. That is right when the size is a word of the sum. An option may start anywhere
though, and behind an odd number of option bytes the two bytes of the size belong to two
words, where the change counts 256 times.
-/

namespace Voyager

namespace NetCore

/-- The checksum the tests of the helper compute: the complement of the one's-complement sum of
the words of a buffer, a last byte alone being a high byte, and of an initial value. -/
def checksum (b : List Byte) (initial : ℕ) : UInt16 :=
  ~~~ UInt16.ofNat
    (OnesComplement.fold 65536 (initial + OnesComplement.pairSum 256 (b.map UInt8.toNat)))

/-- The TCP segment of a packet. -/
def segment (p : List Byte) : List Byte := p.drop (headerLen p)

/-- What the checksum of a segment covers besides: the addresses, the protocol, the length. -/
def pseudoHeader (p : List Byte) : ℕ :=
  (uint16At p 12).toNat + (uint16At p 14).toNat + (uint16At p 16).toNat +
    (uint16At p 18).toNat + (6 + (segment p).length)

/-- An IPv4 packet with a TCP segment whose checksum verifies. -/
structure Verifies (p : List Byte) : Prop where
  ipv4 : ipv4OK p = true
  tcp : byteAt p 9 = 6
  sum : checksum (segment p) (pseudoHeader p) = 0

/-- The digits of a segment, as the sum takes them. -/
def digits (p : List Byte) : List ℕ := (segment p).map UInt8.toNat

theorem pseudoHeader_pos (p : List Byte) : 0 < pseudoHeader p := by
  rw [pseudoHeader]
  omega

theorem toNat_not_ofNat {n : ℕ} (h : n < 65536) : (~~~ UInt16.ofNat n).toNat = 65535 - n := by
  rw [UInt16.toNat_not, UInt16.toNat_ofNat', Nat.mod_eq_of_lt h]
  rfl

/-- A sum that verifies is a multiple of `65535`. -/
theorem checksum_eq_zero_iff (p : List Byte) :
    checksum (segment p) (pseudoHeader p) = 0 ↔
      ((256 * 256 : ℕ) : ℤ) - 1 ∣ (pseudoHeader p + OnesComplement.pairSum 256 (digits p) : ℕ) := by
  have hpos : 0 < pseudoHeader p + OnesComplement.pairSum 256 (digits p) :=
    Nat.add_pos_left (pseudoHeader_pos p) _
  have hlt := OnesComplement.fold_lt (b := 65536) (by decide)
    (pseudoHeader p + OnesComplement.pairSum 256 (digits p))
  rw [← OnesComplement.fold_eq_pred_iff (b := 256 * 256) (by decide) hpos, checksum, ← digits,
    ← UInt16.toNat_inj, toNat_not_ofNat hlt]
  change 65535 - OnesComplement.fold 65536 _ = 0 ↔ OnesComplement.fold 65536 _ = 65535
  omega

/-- The code's new checksum is the one of the sum's theory. -/
theorem toNat_updatedChecksum (check old max : UInt16) :
    (updatedChecksum check old max).toNat =
      OnesComplement.update (256 * 256) check.toNat old.toNat max.toNat := by
  rw [updatedChecksum, toNat_not_ofNat (OnesComplement.fold_lt (by decide) _),
    UInt16.toNat_not, UInt16.toNat_not]
  rfl

/-- A word of the segment, as the sum takes it. -/
theorem wordAt_digits {p : List Byte} (i : ℕ) :
    OnesComplement.wordAt 256 (digits p) i = (uint16At p (headerLen p + i)).toNat := by
  have hget : ∀ k, (digits p).getD k 0 = (byteAt p (headerLen p + k)).toNat := by
    intro k
    rw [digits, segment, byteAt, List.getD_eq_getElem?_getD, List.getD_eq_getElem?_getD,
      List.getElem?_map, List.getElem?_drop]
    cases p[headerLen p + k]? <;> rfl
  rw [OnesComplement.wordAt, hget, hget, uint16At, toNat_word]
  rfl

/-- A word written into the segment, as the sum takes it. -/
theorem map_drop_putUint16At (p : List Byte) (n i : ℕ) (v : UInt16) :
    ((putUint16At p (n + i) v).drop n).map UInt8.toNat =
      OnesComplement.setWord ((p.drop n).map UInt8.toNat) i (wordHi v).toNat
        (wordLo v).toNat := by
  rw [putUint16At, OnesComplement.setWord, List.drop_set, if_neg (by omega), List.drop_set,
    if_neg (by omega), List.map_set, List.map_set]
  congr 2
  · omega
  · omega

/-- What becomes of the sum. -/
theorem digits_clamped {p : List Byte} (h : IsSyn p) (max : UInt16) (j : ℕ) :
    digits (clamped p max j) =
      OnesComplement.setWord
        (OnesComplement.setWord (digits p) (22 + j) (wordHi max).toNat (wordLo max).toNat) 16
        (wordHi (updatedChecksum (uint16At p (headerLen p + 16)) (uint16At p (mssAt p j)) max)).toNat
        (wordLo (updatedChecksum (uint16At p (headerLen p + 16)) (uint16At p (mssAt p j)) max)).toNat := by
  have hplace : mssAt p j = headerLen p + (22 + j) := by
    rw [mssAt]
    omega
  rw [digits, segment, headerLen_clamped h, clamped, clampedAt, map_drop_putUint16At, hplace,
    map_drop_putUint16At]
  rfl

theorem pseudoHeader_clamped {p : List Byte} (h : IsSyn p) (max : UInt16) (j : ℕ) :
    pseudoHeader (clamped p max j) = pseudoHeader p := by
  have hihl := (ipv4OK_bounds h.ipv4).2.1
  have hword : ∀ k, k + 1 < headerLen p + 16 → uint16At (clamped p max j) k = uint16At p k := by
    intro k hk
    rw [uint16At, uint16At, byteAt_clamped (not_written_of_lt (by omega)),
      byteAt_clamped (not_written_of_lt hk)]
  rw [pseudoHeader, pseudoHeader, hword 12 (by omega), hword 14 (by omega), hword 16 (by omega),
    hword 18 (by omega), segment, segment, headerLen_clamped h, List.length_drop,
    List.length_drop, length_clamped]

theorem word_toNat_eq (v : UInt16) : (wordHi v).toNat * 256 + (wordLo v).toNat = v.toNat := by
  rw [← toNat_word, word_eta]

/-- A changed SYN verifies when the size is a word of the sum, or when `257` divides the
change. -/
theorem verifies_clamped_iff {p : List Byte} {max : UInt16} {j : ℕ} (h : Exceeds p max j)
    (hp : Verifies p) :
    Verifies (clamped p max j) ↔
      j % 2 = 0 ∨ 257 ∣ (uint16At p (mssAt p j)).toNat - max.toNat := by
  have hihl := (ipv4OK_bounds h.syn.ipv4).2.1
  have hlt := mssAt_lt h.syn h.first
  have hfits := h.syn.options
  have hplace : mssAt p j = headerLen p + (22 + j) := by
    rw [mssAt]
    omega
  have hlen : (digits p).length = p.length - headerLen p := by
    rw [digits, segment, List.length_map, List.length_drop]
  have hcheck_lt : OnesComplement.wordAt 256 (digits p) 16 < 256 * 256 := by
    rw [wordAt_digits]
    exact UInt16.toNat_lt _
  have hold_lt : OnesComplement.wordAt 256 (digits p) (22 + j) < 256 * 256 := by
    rw [wordAt_digits]
    exact UInt16.toNat_lt _
  have hsum := (checksum_eq_zero_iff p).mp hp.sum
  let check := updatedChecksum (uint16At p (headerLen p + 16)) (uint16At p (mssAt p j)) max
  have hupdate : (wordHi check).toNat * 256 + (wordLo check).toNat =
      OnesComplement.update (256 * 256) (OnesComplement.wordAt 256 (digits p) 16)
        (OnesComplement.wordAt 256 (digits p) (22 + j))
        ((wordHi max).toNat * 256 + (wordLo max).toNat) := by
    rw [word_toNat_eq, word_toNat_eq, wordAt_digits, wordAt_digits, ← hplace]
    exact toNat_updatedChecksum _ _ _
  have hkey := OnesComplement.dvd_pairSum_update_iff (b := 256) (i := 22 + j) (c := 16)
    (by decide) (by rw [hlen]; omega) (by omega) (by decide) hcheck_lt hold_lt hupdate
    ((checksum_eq_zero_iff p).mp hp.sum)
  rw [word_toNat_eq, wordAt_digits, ← hplace] at hkey
  have habove : max.toNat < (uint16At p (mssAt p j)).toNat := UInt16.lt_iff_toNat_lt.mp h.above
  have hdvd : ((256 : ℕ) : ℤ) + 1 ∣ max.toNat - (uint16At p (mssAt p j)).toNat ↔
      257 ∣ (uint16At p (mssAt p j)).toNat - max.toNat := by omega
  have hproto : byteAt (clamped p max j) 9 = 6 := by
    rw [byteAt_clamped (not_written_of_lt (by omega))]
    exact hp.tcp
  calc Verifies (clamped p max j)
      ↔ checksum (segment (clamped p max j)) (pseudoHeader (clamped p max j)) = 0 :=
        ⟨Verifies.sum, fun hsum => ⟨ipv4OK_clamped h.syn, hproto, hsum⟩⟩
    _ ↔ (22 + j) % 2 = 0 ∨ ((256 : ℕ) : ℤ) + 1 ∣ max.toNat - (uint16At p (mssAt p j)).toNat := by
        rw [checksum_eq_zero_iff, pseudoHeader_clamped h.syn, digits_clamped h.syn]
        exact hkey
    _ ↔ j % 2 = 0 ∨ 257 ∣ (uint16At p (mssAt p j)).toNat - max.toNat := by
        rw [hdvd]
        omega

/-- The checksum of a segment that verifies goes on verifying exactly when the size announced
stands at an even place, or `257` divides what it is lowered by. -/
theorem clampMSS_verifies_iff {p : List Byte} (hp : Verifies p) (max : UInt16) :
    (∀ p', clampMSS p max = some (true, p') → Verifies p') ↔
      ∀ j, Exceeds p max j →
        j % 2 = 0 ∨ 257 ∣ (uint16At p (mssAt p j)).toNat - max.toNat := by
  constructor
  · intro h j hj
    exact (verifies_clamped_iff hj hp).mp (h _ (clampMSS_of_exceeds hj))
  · intro h p' hp'
    by_cases hex : ∃ j, Exceeds p max j
    · obtain ⟨j, hj⟩ := hex
      have hclamp := (clampMSS_of_exceeds hj).symm.trans hp'
      simp only [Option.some.injEq, Prod.mk.injEq, true_and] at hclamp
      rw [← hclamp]
      exact (verifies_clamped_iff hj hp).mpr (h j hj)
    · rw [clampMSS_of_forall_not (not_exists.mp hex)] at hp'
      simp at hp'

def netClampMSS : UInt16 := 190

/-- A SYN to another node whose MSS option, of 1460 bytes, stands behind a no-operation. -/
def nopSyn : List Byte :=
  [0x45, 0, 0, 0x30, 0, 0, 0, 0, 0x40, 6, 0x8B, 0xED, 10, 73, 0xE8, 0xEC, 10, 73, 0xF1, 0x5C,
    0xC3, 0x50, 0, 22, 0, 0, 0, 0, 0, 0, 0, 0, 0x70, 2, 0xFA, 0xF0, 0x28, 0x9F, 0, 0,
    1, 2, 4, 5, 0xB4, 1, 1, 0]

theorem verifies_nopSyn : Verifies nopSyn := ⟨by decide, by decide, by decide +kernel⟩

theorem clampMSS_verifies_iff_nopSyn :
    (∀ p', clampMSS nopSyn netClampMSS = some (true, p') → Verifies p') ↔
      ∀ j, Exceeds nopSyn netClampMSS j →
        j % 2 = 0 ∨ 257 ∣ (uint16At nopSyn (mssAt nopSyn j)).toNat - netClampMSS.toNat :=
  clampMSS_verifies_iff verifies_nopSyn netClampMSS

/-- Behind one no-operation the new checksum is wrong. -/
theorem clampMSS_not_verifies :
    ¬ ∀ (p : List Byte) (max : UInt16), Verifies p →
      ∀ p', clampMSS p max = some (true, p') → Verifies p' := by
  intro h
  have hclamp : clampMSS nopSyn netClampMSS =
      some (true, clampedAt nopSyn 36 43 netClampMSS) := by decide +kernel
  have hbad : checksum (segment (clampedAt nopSyn 36 43 netClampMSS))
      (pseudoHeader (clampedAt nopSyn 36 43 netClampMSS)) ≠ 0 := by decide +kernel
  exact hbad (h nopSyn netClampMSS verifies_nopSyn _ hclamp).sum

end NetCore

end Voyager
