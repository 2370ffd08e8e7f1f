import Voyager.Library.Crc
import Voyager.Lora.Frame

/-!
# What the frame CRC sees

`crc8Update` is the CRC with the generator `x ^ 8 + x ^ 2 + x + 1`, eight shifts for each
byte. An error on the seq and the payload goes unseen exactly when its own CRC is zero:
no burst of eight bits does, and no error of odd weight.
-/

namespace Voyager

namespace LoraProto

/-- `crc8`. -/
def crc8 (data : List Byte) : Byte := crc8Update 0 data

/-- The generator without its leading term. -/
def crcPoly : BitVec 8 := 0x07

/-- The bits of some bytes, the most significant bit of each first. -/
def bitsOfBytes (data : List Byte) : List Bool := data.flatMap fun b => Crc.bitsOf b.toBitVec

/-- The error pattern `e` XORed onto some bytes. -/
def xorBytes (data e : List Byte) : List Byte := List.zipWith (· ^^^ ·) data e

/-- The error pattern `e` XORed onto the seq byte and the payload of a frame. -/
def corruptFrame (frame e : List Byte) : List Byte :=
  match frame, e with
  | len :: type :: seq :: crc :: payload, e₀ :: e =>
      len :: type :: (seq ^^^ e₀) :: crc :: xorBytes payload e
  | frame, _ => frame

theorem bitsOfBytes_cons (b : Byte) (data : List Byte) :
    bitsOfBytes (b :: data) = Crc.bitsOf b.toBitVec ++ bitsOfBytes data :=
  List.flatMap_cons

theorem length_bitsOfBytes (data : List Byte) : (bitsOfBytes data).length = 8 * data.length := by
  induction data with
  | nil => rfl
  | cons b data ih =>
      rw [bitsOfBytes_cons, List.length_append, Crc.length_bitsOf, ih, List.length_cons]
      omega

/-- The loop of the source is one shift of the CRC register. -/
theorem toBitVec_crc8Bit (c : Byte) : (crc8Bit c).toBitVec = Crc.shift crcPoly c.toBitVec := by
  induction c using forall_byte with
  | h n hn =>
      revert n
      decide +kernel

theorem toBitVec_crc8Update (crc : Byte) (data : List Byte) :
    (crc8Update crc data).toBitVec =
      Crc.feedAll crcPoly crc.toBitVec (bitsOfBytes data) := by
  induction data generalizing crc with
  | nil => rfl
  | cons b data ih =>
      have hbyte : (crc8Bit^[8] (crc ^^^ b)).toBitVec =
          (Crc.shift crcPoly)^[8] (crc.toBitVec ^^^ b.toBitVec) := by
        rw [← UInt8.toBitVec_xor]
        exact Function.Semiconj.iterate_right (f := UInt8.toBitVec) toBitVec_crc8Bit 8 (crc ^^^ b)
      have hcons : crc8Update crc (b :: data) = crc8Update (crc8Bit^[8] (crc ^^^ b)) data := rfl
      rw [hcons, ih, hbyte, Crc.iterate_shift_xor_eq_feedAll, ← Crc.feedAll_append,
        bitsOfBytes_cons]

theorem toBitVec_crc8 (data : List Byte) :
    (crc8 data).toBitVec = Crc.feedAll crcPoly 0#8 (bitsOfBytes data) :=
  toBitVec_crc8Update 0 data

theorem bitsOf_xor {w : ℕ} (c d : BitVec w) :
    Crc.bitsOf (c ^^^ d) = List.zipWith xor (Crc.bitsOf c) (Crc.bitsOf d) := by
  rw [Crc.bitsOf, Crc.bitsOf, Crc.bitsOf, List.zipWith_map_left, List.zipWith_map_right,
    List.zipWith_self]
  exact List.map_congr_left fun i _ => BitVec.getMsbD_xor

theorem bitsOfBytes_xorBytes {data e : List Byte} (h : data.length = e.length) :
    bitsOfBytes (xorBytes data e) = List.zipWith xor (bitsOfBytes data) (bitsOfBytes e) := by
  induction data generalizing e with
  | nil => rfl
  | cons b data ih =>
      cases e with
      | nil => cases h
      | cons b' e =>
          have hcons : xorBytes (b :: data) (b' :: e) = (b ^^^ b') :: xorBytes data e := rfl
          rw [hcons, bitsOfBytes_cons, bitsOfBytes_cons, bitsOfBytes_cons, ih (Nat.succ.inj h),
            List.zipWith_append (by rw [Crc.length_bitsOf, Crc.length_bitsOf]),
            UInt8.toBitVec_xor, bitsOf_xor]

/-- The CRC is linear. -/
theorem crc8_xorBytes {data e : List Byte} (h : data.length = e.length) :
    crc8 (xorBytes data e) = crc8 data ^^^ crc8 e := by
  have hlen : (bitsOfBytes data).length = (bitsOfBytes e).length := by
    rw [length_bitsOfBytes, length_bitsOfBytes, h]
  rw [← UInt8.toBitVec_inj, UInt8.toBitVec_xor, toBitVec_crc8, toBitVec_crc8, toBitVec_crc8,
    bitsOfBytes_xorBytes h, ← Crc.feedAll_xor crcPoly hlen]
  rfl

/-- An error that is not zero has a one among its bits. -/
theorem true_mem_bitsOfBytes {e : List Byte} (h : ∃ b ∈ e, b ≠ 0) : true ∈ bitsOfBytes e := by
  obtain ⟨b, hb, hne⟩ := h
  refine List.mem_flatMap.mpr ⟨b, hb, ?_⟩
  by_contra hfalse
  refine hne (UInt8.toBitVec_inj.mp (BitVec.eq_of_getMsbD_eq fun i hi => ?_))
  rw [UInt8.toBitVec_zero, BitVec.getMsbD_zero, Bool.eq_false_iff]
  intro htrue
  exact hfalse (List.mem_map.mpr ⟨i, List.mem_range.mpr hi, htrue⟩)

theorem crc8_ne_zero_iff (e : List Byte) :
    crc8 e ≠ 0 ↔ Crc.feedAll crcPoly 0#8 (bitsOfBytes e) ≠ 0#8 := by
  rw [← toBitVec_crc8, ← UInt8.toBitVec_zero]
  exact not_congr UInt8.toBitVec_inj.symm

/-- What the receiver reads from a frame hit by an error. -/
theorem parsePacket_corruptFrame {type seq : Byte} {payload frame e : List Byte} {outCap : ℕ}
    (hframe : framePacket type seq payload outCap = some frame)
    (hlength : e.length = payload.length + 1) :
    (parsePacket (corruptFrame frame e)).ok = decide (crc8 e = 0) ∧
      (parsePacket (corruptFrame frame e)).err = if crc8 e = 0 then .none else .badCrc := by
  obtain ⟨⟨htype, hack⟩, hlen, -, rfl⟩ := framePacket_eq_some_iff.mp hframe
  obtain ⟨e₀, e, rfl⟩ := List.exists_cons_of_length_eq_add_one hlength
  have hlength' : payload.length = e.length := (Nat.succ.inj hlength).symm
  have hbyte : (xorBytes payload e).length = (UInt8.ofNat payload.length).toNat := by
    rw [xorBytes, List.length_zipWith, ← hlength', Nat.min_self, toNat_ofNat_of_lt]
    exact Nat.lt_of_le_of_lt hlen (by decide)
  have hcrc : packetCrc (seq ^^^ e₀) (xorBytes payload e) =
      packetCrc seq payload ^^^ crc8 (e₀ :: e) := by
    have hcover : (seq :: payload).length = (e₀ :: e).length := congrArg Nat.succ hlength'
    exact crc8_xorBytes hcover
  have hsame : packetCrc seq payload = packetCrc seq payload ^^^ crc8 (e₀ :: e) ↔
      crc8 (e₀ :: e) = 0 := by
    have hzero : packetCrc seq payload = packetCrc seq payload ^^^ 0 := UInt8.xor_zero.symm
    nth_rewrite 1 [hzero]
    rw [UInt8.xor_right_inj, eq_comm]
  rw [corruptFrame, parsePacket_cons hbyte hack htype, hcrc]
  simp only [hsame, and_self]

/-- Every error on the seq and the payload is seen exactly when its CRC is not zero, which
holds of every error confined to eight bits in a row and of every error of odd weight. -/
theorem parsePacket_badCrc_iff {type : Byte} (seq : Byte) {payload e : List Byte}
    (htype : IsDataType type) (hlen : payload.length ≤ MAX_PAYLOAD)
    (hlength : e.length = payload.length + 1) (hne : ∃ b ∈ e, b ≠ 0) :
    ∃ frame, framePacket type seq payload MAX_FRAME = some frame ∧
      ((parsePacket (corruptFrame frame e)).err = .badCrc ↔ crc8 e ≠ 0) ∧
      ((∃ i, Crc.IsBurst 8 i (bitsOfBytes e)) ∨ Odd ((bitsOfBytes e).count true) →
        (parsePacket (corruptFrame frame e)).ok = false ∧
          (parsePacket (corruptFrame frame e)).err = .badCrc) := by
  have hframe : framePacket type seq payload MAX_FRAME =
      some (UInt8.ofNat payload.length :: type :: seq :: packetCrc seq payload :: payload) :=
    framePacket_eq_some_iff.mpr ⟨htype, hlen, Nat.add_le_add_left hlen HEADER_LEN, rfl⟩
  obtain ⟨hok, herr⟩ := parsePacket_corruptFrame hframe hlength
  refine ⟨_, hframe, ?_, ?_⟩
  · rw [herr]
    by_cases hzero : crc8 e = 0
    · simp [hzero]
    · simp [hzero]
  · intro hseen
    have hcrc : crc8 e ≠ 0 := by
      rw [crc8_ne_zero_iff]
      rcases hseen with ⟨i, hburst⟩ | hodd
      · exact Crc.feedAll_ne_zero_of_isBurst (by decide) hburst (true_mem_bitsOfBytes hne)
      · exact Crc.feedAll_ne_zero_of_odd (by decide) hodd
    rw [hok, herr, if_neg hcrc]
    exact ⟨decide_eq_false hcrc, rfl⟩

/-- A burst across the seq byte and the first byte of the payload. -/
theorem parsePacket_badCrc_iff_burst :
    ∃ frame, framePacket T_LORA_MSG 7 [1, 2] MAX_FRAME = some frame ∧
      (parsePacket (corruptFrame frame [0x0F, 0xF0, 0])).err = .badCrc := by
  have htype : IsDataType T_LORA_MSG := by decide
  have hlen : ([1, 2] : List Byte).length ≤ MAX_PAYLOAD := by decide
  have hne : ∃ b ∈ ([0x0F, 0xF0, 0] : List Byte), b ≠ 0 := ⟨0x0F, by simp, by decide⟩
  obtain ⟨frame, hframe, hiff, -⟩ := parsePacket_badCrc_iff 7 htype hlen rfl hne
  exact ⟨frame, hframe, hiff.mpr (by decide +kernel)⟩

end LoraProto

end Voyager
