import Mathlib.Logic.Function.Iterate
import Voyager.Basic

/-!
# LoRa frames

A frame is `[len][type][seq][crc8]` followed by `len` payload bytes. The CRC
covers the seq byte and then the payload, so it stands in the middle of the data
it covers; an acknowledgement has a fixed shape and no CRC. `framePacket` and
`frameAck` write a frame, `parsePacket` reads one and names the first check that
fails. The radio's FIFO holds 255 bytes, which is what bounds an accepted payload
by `MAX_PAYLOAD`: `parsePacket` itself only compares the length byte with the
length of the buffer.
-/

namespace Voyager

namespace LoraProto

def T_LORA_MSG : Byte := 0
def T_RAW_DATA : Byte := 1
def T_REC_AKNG : Byte := 2
def T_LORA_SERIAL : Byte := 3
def T_NET : Byte := 4
def HEADER_LEN : ℕ := 4
def MAX_PAYLOAD : ℕ := 251
def MAX_FRAME : ℕ := HEADER_LEN + MAX_PAYLOAD
def ACK_OK : Byte := 1
def ACK_RETRY : Byte := 0

/-- The same limit under the name that the rest of the firmware and the page have for it. -/
def LORA_MAX_PAYLOAD : ℕ := 251

example : LORA_MAX_PAYLOAD = MAX_PAYLOAD := rfl

/-- One pass of the inner loop of `crc8_update`. -/
def crc8Bit (crc : Byte) : Byte :=
  if crc &&& 0x80 ≠ 0 then (crc <<< 1) ^^^ 0x07 else crc <<< 1

/-- CRC-8, polynomial `0x07`, continued over `data` from the value `crc`. -/
def crc8Update (crc : Byte) (data : List Byte) : Byte :=
  data.foldl (fun crc b => crc8Bit^[8] (crc ^^^ b)) crc

/-- The CRC over the seq byte followed by the payload. -/
def packetCrc (seq : Byte) (payload : List Byte) : Byte :=
  crc8Update (crc8Update 0 [seq]) payload

/-- The frame of a data packet, or `none` where the source returns `0`: the
payload is too long, the type is not a data type, or `out` has fewer than
`outCap` bytes to hold it. -/
def framePacket (type seq : Byte) (payload : List Byte) (outCap : ℕ) : Option (List Byte) :=
  if payload.length > MAX_PAYLOAD ∨ type = T_REC_AKNG ∨ type > T_NET then none
  else if outCap < HEADER_LEN + payload.length then none
  else some (UInt8.ofNat payload.length :: type :: seq :: packetCrc seq payload :: payload)

/-- The frame of an acknowledgement: it echoes the seq of the acknowledged packet
and carries one result byte. -/
def frameAck (seq result : Byte) (outCap : ℕ) : Option (List Byte) :=
  if outCap < HEADER_LEN + 1 then none
  else some [1, T_REC_AKNG, seq, 0, result]

inductive ParseErr where
  | none | tooShort | lenMismatch | badType | badCrc | badAck
  deriving DecidableEq, Repr

/-- The result of `parsePacket`. `payload` points into the buffer, after the
header. -/
structure Parsed where
  ok : Bool
  err : ParseErr
  type : Byte
  seq : Byte
  len : Byte
  payload : List Byte
  deriving DecidableEq, Repr

def parsePacket (buf : List Byte) : Parsed :=
  if buf.length < HEADER_LEN then
    { ok := false, err := .tooShort, type := 0, seq := 0, len := 0, payload := [] }
  else
    let p : Parsed :=
      { ok := false, err := .none, len := byteAt buf 0, type := byteAt buf 1,
        seq := byteAt buf 2, payload := buf.drop HEADER_LEN }
    if buf.length ≠ HEADER_LEN + p.len.toNat then { p with err := .lenMismatch }
    else if p.type > T_NET then { p with err := .badType }
    else if p.type = T_REC_AKNG then
      if p.len ≠ 1 then { p with err := .badAck } else { p with ok := true }
    else if byteAt buf 3 ≠ packetCrc p.seq (p.payload.take p.len.toNat) then
      { p with err := .badCrc }
    else { p with ok := true }

/-- The packet types `framePacket` takes: all up to `T_NET` but the
acknowledgement. -/
def IsDataType (type : Byte) : Prop := type ≤ T_NET ∧ type ≠ T_REC_AKNG

instance (type : Byte) : Decidable (IsDataType type) :=
  inferInstanceAs (Decidable (_ ∧ _))

/-- `framePacket` succeeds exactly on a data type with a payload that fits. -/
theorem framePacket_eq_some_iff {type seq : Byte} {payload frame : List Byte} {outCap : ℕ} :
    framePacket type seq payload outCap = some frame ↔
      IsDataType type ∧ payload.length ≤ MAX_PAYLOAD ∧ HEADER_LEN + payload.length ≤ outCap ∧
        frame = UInt8.ofNat payload.length :: type :: seq :: packetCrc seq payload :: payload := by
  unfold framePacket IsDataType
  rw [← UInt8.not_lt (a := T_NET)]
  split
  · rename_i h
    simp only [reduceCtorEq, false_iff]
    rintro ⟨⟨htype, hack⟩, hlen, -⟩
    rcases h with h | h | h
    · omega
    · exact hack h
    · exact htype h
  · rename_i h
    rw [not_or, not_or] at h
    split
    · simp only [reduceCtorEq, false_iff]
      rintro ⟨-, -, hcap, -⟩
      omega
    · rename_i hcap
      simp only [Option.some.injEq]
      constructor
      · intro hframe
        exact ⟨⟨h.2.2, h.2.1⟩, by omega, by omega, hframe.symm⟩
      · rintro ⟨-, -, -, rfl⟩
        rfl

/-- `parsePacket` on a buffer whose length byte agrees with its length. -/
theorem parsePacket_cons {len type seq crc : Byte} {payload : List Byte}
    (hlen : payload.length = len.toNat) (hack : type ≠ T_REC_AKNG) (htype : type ≤ T_NET) :
    parsePacket (len :: type :: seq :: crc :: payload) =
      { ok := crc = packetCrc seq payload,
        err := if crc = packetCrc seq payload then .none else .badCrc,
        type, seq, len, payload } := by
  have hdrop : (len :: type :: seq :: crc :: payload).drop HEADER_LEN = payload := rfl
  have htake : payload.take len.toNat = payload := by rw [← hlen, List.take_length]
  have hlength : (len :: type :: seq :: crc :: payload).length = HEADER_LEN + len.toNat := by
    simp only [List.length_cons, HEADER_LEN]
    omega
  have hshort : ¬ (len :: type :: seq :: crc :: payload).length < HEADER_LEN := by omega
  have hnet : ¬ type > T_NET := UInt8.not_lt.mpr htype
  simp only [parsePacket, if_false, hdrop, byteAt_cons_zero, byteAt_cons_succ, hlength,
    ne_eq, not_true, hnet, hack, htake]
  by_cases hcrc : crc = packetCrc seq payload <;> simp [hcrc]

/-- What `parsePacket` accepts: a buffer that is as long as its length byte says
and is either a data frame with a correct CRC or a one-byte acknowledgement. -/
theorem parsePacket_ok_cases {buf : List Byte} (hok : (parsePacket buf).ok = true) :
    ∃ len type seq crc payload,
      buf = len :: type :: seq :: crc :: payload ∧ payload.length = len.toNat ∧
        parsePacket buf = { ok := true, err := .none, type, seq, len, payload } ∧
        (type = T_REC_AKNG ∧ len = 1 ∨ IsDataType type ∧ crc = packetCrc seq payload) := by
  by_cases hshort : buf.length < HEADER_LEN
  · simp [parsePacket, hshort] at hok
  · have hfour : 4 ≤ buf.length := by simpa [HEADER_LEN] using hshort
    obtain ⟨len, type, seq, crc, payload, rfl⟩ := exists_cons_four hfour
    refine ⟨len, type, seq, crc, payload, rfl, ?_⟩
    have hdrop : (len :: type :: seq :: crc :: payload).drop HEADER_LEN = payload := rfl
    simp only [parsePacket, hshort, if_false, hdrop, byteAt_cons_zero, byteAt_cons_succ] at hok ⊢
    -- the checks of the source, in its order
    by_cases hlen : (len :: type :: seq :: crc :: payload).length = HEADER_LEN + len.toNat
    · have hplen : payload.length = len.toNat := by
        simp only [List.length_cons, HEADER_LEN] at hlen
        omega
      have htake : payload.take len.toNat = payload := by rw [← hplen, List.take_length]
      simp only [hlen, ne_eq, not_true, if_false, htake] at hok ⊢
      by_cases htype : type > T_NET
      · simp [htype] at hok
      · simp only [htype, if_false] at hok ⊢
        by_cases hack : type = T_REC_AKNG
        · simp only [hack, if_true] at hok ⊢
          by_cases hone : len = 1
          · exact ⟨hplen, by simp [hone], .inl ⟨trivial, hone⟩⟩
          · simp [hone] at hok
        · simp only [hack, if_false] at hok ⊢
          by_cases hcrc : crc = packetCrc seq payload
          · exact ⟨hplen, by simp [hcrc], .inr ⟨⟨UInt8.not_lt.mp htype, hack⟩, hcrc⟩⟩
          · simp [hcrc] at hok
    · rw [if_pos hlen] at hok
      cases hok

/-- A data frame parses back to the packet it was made of. -/
theorem parsePacket_framePacket {type seq : Byte} {payload frame : List Byte} {outCap : ℕ}
    (h : framePacket type seq payload outCap = some frame) :
    parsePacket frame =
      { ok := true, err := .none, type, seq, len := UInt8.ofNat payload.length, payload } := by
  obtain ⟨⟨htype, hack⟩, hlen, -, rfl⟩ := framePacket_eq_some_iff.mp h
  have hbyte : payload.length = (UInt8.ofNat payload.length).toNat :=
    (toNat_ofNat_of_lt (by simp only [MAX_PAYLOAD] at hlen; omega)).symm
  rw [parsePacket_cons hbyte hack htype]
  simp

/-- An acknowledgement parses back to the seq and the result it carries. -/
theorem parsePacket_frameAck {seq result : Byte} {frame : List Byte} {outCap : ℕ}
    (h : frameAck seq result outCap = some frame) :
    parsePacket frame =
      { ok := true, err := .none, type := T_REC_AKNG, seq, len := 1, payload := [result] } := by
  unfold frameAck at h
  split at h
  · cases h
  · cases h
    rfl

/-- A frame that fits the radio's FIFO has a payload that fits `text`. -/
theorem parsePacket_len_le {buf : List Byte} (hfifo : buf.length ≤ 255)
    (hok : (parsePacket buf).ok = true) :
    (parsePacket buf).payload.length = (parsePacket buf).len.toNat ∧
      (parsePacket buf).len.toNat ≤ MAX_PAYLOAD := by
  obtain ⟨len, type, seq, crc, payload, rfl, hlen, hparse, -⟩ := parsePacket_ok_cases hok
  rw [hparse]
  refine ⟨hlen, ?_⟩
  simp only [List.length_cons, MAX_PAYLOAD] at hfifo ⊢
  omega

/-- An accepted data frame is the frame of the packet it parses to. -/
theorem framePacket_parsePacket {buf : List Byte} {outCap : ℕ} (hfifo : buf.length ≤ 255)
    (hok : (parsePacket buf).ok = true) (hack : (parsePacket buf).type ≠ T_REC_AKNG)
    (hcap : buf.length ≤ outCap) :
    framePacket (parsePacket buf).type (parsePacket buf).seq (parsePacket buf).payload outCap =
      some buf := by
  have hmax := parsePacket_len_le hfifo hok
  obtain ⟨len, type, seq, crc, payload, rfl, hlen, hparse, hcase⟩ := parsePacket_ok_cases hok
  rw [hparse] at hack hmax ⊢
  obtain ⟨h, -⟩ | ⟨hdata, rfl⟩ := hcase
  · exact absurd h hack
  · refine framePacket_eq_some_iff.mpr ⟨hdata, hmax.1 ▸ hmax.2, ?_, ?_⟩
    · simp only [List.length_cons, HEADER_LEN] at hcap ⊢
      omega
    · rw [hlen, UInt8.ofNat_toNat]

/-- The frame codec is exact in both directions: every packet and every
acknowledgement survives the trip, every data frame the receiver accepts from the
radio is the frame of the packet it reads, and what it accepts fits the receiver's
buffer `text[MAX_PAYLOAD + 1]`. -/
theorem frame_codec_exact :
    (∀ type seq payload outCap, IsDataType type → payload.length ≤ MAX_PAYLOAD →
      HEADER_LEN + payload.length ≤ outCap →
      ∃ frame, framePacket type seq payload outCap = some frame ∧
        parsePacket frame =
          { ok := true, err := .none, type, seq, len := UInt8.ofNat payload.length, payload } ∧
        (UInt8.ofNat payload.length).toNat = payload.length) ∧
    (∀ seq result outCap, HEADER_LEN + 1 ≤ outCap →
      ∃ frame, frameAck seq result outCap = some frame ∧
        parsePacket frame =
          { ok := true, err := .none, type := T_REC_AKNG, seq, len := 1, payload := [result] }) ∧
    (∀ buf, buf.length ≤ 255 → (parsePacket buf).ok = true →
      (parsePacket buf).type ≠ T_REC_AKNG →
      framePacket (parsePacket buf).type (parsePacket buf).seq (parsePacket buf).payload
        MAX_FRAME = some buf) ∧
    (∀ buf, buf.length ≤ 255 → (parsePacket buf).ok = true →
      (parsePacket buf).payload.length = (parsePacket buf).len.toNat ∧
        (parsePacket buf).len.toNat ≤ MAX_PAYLOAD) := by
  refine ⟨?_, ?_, ?_, ?_⟩
  · intro type seq payload outCap htype hlen hcap
    have hframe : framePacket type seq payload outCap =
        some (UInt8.ofNat payload.length :: type :: seq :: packetCrc seq payload :: payload) :=
      framePacket_eq_some_iff.mpr ⟨htype, hlen, hcap, rfl⟩
    refine ⟨_, hframe, parsePacket_framePacket hframe, toNat_ofNat_of_lt ?_⟩
    simp only [MAX_PAYLOAD] at hlen
    omega
  · intro seq result outCap hcap
    have hframe : frameAck seq result outCap = some [1, T_REC_AKNG, seq, 0, result] :=
      if_neg (by omega)
    exact ⟨_, hframe, parsePacket_frameAck hframe⟩
  · intro buf hfifo hok hack
    exact framePacket_parsePacket hfifo hok hack hfifo
  · intro buf hfifo hok
    exact parsePacket_len_le hfifo hok

/-- A message, the acknowledgement of its seq, and the message as it comes from the radio. -/
theorem frame_codec_exact_hello :
    (∃ frame, framePacket T_LORA_MSG 7 (ascii "hello, all") MAX_FRAME = some frame ∧
      parsePacket frame =
        { ok := true, err := .none, type := T_LORA_MSG, seq := 7, len := 10,
          payload := ascii "hello, all" }) ∧
    (∃ ack, frameAck 7 ACK_OK MAX_FRAME = some ack ∧
      parsePacket ack =
        { ok := true, err := .none, type := T_REC_AKNG, seq := 7, len := 1,
          payload := [ACK_OK] }) ∧
    framePacket T_LORA_MSG 7 (ascii "hello, all") MAX_FRAME =
      some (10 :: T_LORA_MSG :: 7 :: packetCrc 7 (ascii "hello, all") :: ascii "hello, all") := by
  obtain ⟨hpacket, hack, hframe, -⟩ := frame_codec_exact
  obtain ⟨frame, hframed, hparse, -⟩ :=
    hpacket T_LORA_MSG 7 (ascii "hello, all") MAX_FRAME (by decide) (by decide) (by decide)
  have hread : parsePacket
      (10 :: T_LORA_MSG :: 7 :: packetCrc 7 (ascii "hello, all") :: ascii "hello, all") =
        { ok := true, err := .none, type := T_LORA_MSG, seq := 7, len := 10,
          payload := ascii "hello, all" } := by decide +kernel
  have hheard := hframe _ (by decide) (congrArg Parsed.ok hread) (by rw [hread]; decide)
  rw [hread] at hheard
  exact ⟨⟨frame, hframed, hparse⟩, hack 7 ACK_OK MAX_FRAME (by decide), hheard⟩

end LoraProto

end Voyager
