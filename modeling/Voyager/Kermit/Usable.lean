import Voyager.Kermit.RoundTrip
import Voyager.Kermit.Session

/-!
# Whether a negotiation can be used

The peer's parameters are arbitrary bytes. `negotiate` takes QBIN from its range, also
when it is our own control prefix or the repeat prefix, and only long packets have a
smallest room for data: a small MAXL leaves less than the five bytes that the encoding of
one byte can take, and then `sendData` repeats a packet that takes nothing from the file.
`FairInit` says which parameters are not like that.
-/

namespace Voyager

namespace Kermit

/-! ## The room for data -/

theorem le_next_encodeLoop (maxData : ℕ) (q : Quote) (out : List Byte) (i : ℕ) (src : List Byte) :
    i ≤ (encodeLoop maxData q out i src).next := by
  fun_induction encodeLoop maxData q out i src with
  | case1 out i => exact le_rfl
  | case2 out i b rest piece h => exact le_rfl
  | case3 out i b rest piece h ih => exact (Nat.le_add_right i _).trans ih

/-- With room for five bytes a chunk takes something from the file. -/
theorem lt_next_encodeChunk {src : List Byte} {pos maxData : ℕ} (q : Quote) (hroom : 5 ≤ maxData)
    (hpos : pos < src.length) : pos < (encodeChunk src pos maxData q).next := by
  obtain ⟨b, rest, hdrop⟩ : ∃ b rest, src.drop pos = b :: rest :=
    ⟨src[pos], src.drop (pos + 1), List.drop_eq_getElem_cons hpos⟩
  have hfits : ¬ ([] : List Byte).length + (encodePiece b rest q).1.length > maxData := by
    rw [List.length_nil, Nat.zero_add]
    exact Nat.not_lt.mpr ((encodePiece_length_le b rest q).trans hroom)
  rw [encodeChunk, hdrop, encodeLoop, if_neg hfits]
  exact lt_of_lt_of_le (Nat.lt_add_of_pos_right (encodePiece_pos b rest q))
    (le_next_encodeLoop ..)

/-! ## Acknowledged packets -/

variable (o : SenderOptions)

/-- The sender after `n` packets were acknowledged, with the data `acks 0`, `acks 1` and so
on in the acknowledgements. -/
def ackRun (s : Sender) (acks : ℕ → List Byte) : ℕ → Sender
  | 0 => s
  | n + 1 =>
      match (ackRun s acks n).waiting with
      | some x => ((ackRun s acks n).ack o x (acks n)).1
      | none => ackRun s acks n

/-- The data of an acknowledgement do not cancel the transfer. -/
def Accepts (d : List Byte) : Prop := ¬ (d.head? = some 0x58 ∨ d.head? = some 0x5a)

/-- The sender waits for the acknowledgement of a packet of this type. -/
def Sender.WaitsFor (s : Sender) (type : Byte) : Prop :=
  ∃ x, s.waiting = some x ∧ x.type = type

/-- After finitely many `D` packets, all acknowledged, the sender tells the end of the file. -/
def ReachesEof (s : Sender) (acks : ℕ → List Byte) : Prop :=
  ∃ n, (ackRun o s acks n).WaitsFor PacketType.Z ∧
    ∀ m < n, (ackRun o s acks m).WaitsFor PacketType.D

variable {o} {s : Sender} {neg : Neg}

theorem ackRun_succ {x : Exchange} (hwaiting : s.waiting = some x) (acks : ℕ → List Byte) (n : ℕ) :
    ackRun o s acks (n + 1) = ackRun o (s.ack o x (acks 0)).1 (fun i => acks (i + 1)) n := by
  induction n with
  | zero =>
      rw [ackRun, ackRun, ackRun, hwaiting]
  | succ n ih =>
      rw [ackRun, ih]
      rfl

/-- A packet that was sent is waited for. -/
theorem Sender.exchange_of_not_done (hdone : s.done = false) (type : Byte) (payload : List Byte)
    (ckType : ℕ) (stage : Stage) :
    ∃ x, (s.exchange type payload ckType stage).1 =
        { s with waiting := some x, timer := true } ∧ x.type = type ∧ x.stage = stage := by
  refine ⟨⟨type, buildPacket s.seq type payload ckType, ckType, 1, stage⟩, ?_, rfl, rfl⟩
  rw [Sender.exchange, Sender.send, if_neg (by rw [hdone]; exact Bool.false_ne_true),
    if_neg (show ¬ 0 + 1 > MAX_RETRIES by decide)]

/-- The sender when an acknowledgement came and nothing is sent yet. -/
def Sender.acked (s : Sender) (neg : Neg) : Sender :=
  { s with waiting := none, timer := false, seq := (s.seq + 1) &&& 63, neg := some neg }

/-- The acknowledgement of a chunk sends the next one, from where the chunk ended. -/
theorem Sender.ack_data (hneg : s.neg = some neg) {x : Exchange} {next : ℕ} {d : List Byte}
    (hstage : x.stage = .data next) (hd : Accepts d) :
    (s.ack o x d).1 = ((s.acked neg).sendData o neg next).1 := by
  rw [Sender.ack, hstage]
  dsimp only [Sender.negFor]
  rw [hneg]
  dsimp only [Sender.onAck]
  rw [if_neg hd]
  rfl

/-- `sendData` before the end of the file waits for its packet, and goes on behind the
chunk when it is acknowledged. -/
theorem Sender.sendData_of_lt {pos : ℕ} (hpos : pos < o.data.bytes.length)
    (hdone : s.done = false) (hneg : s.neg = some neg) {acks : ℕ → List Byte}
    (hacks : Accepts (acks 0)) :
    (s.sendData o neg pos).1.WaitsFor PacketType.D ∧
      ∀ n, ackRun o (s.sendData o neg pos).1 acks (n + 1) =
        ackRun o ((s.acked neg).sendData o neg
          (encodeChunk o.data.bytes pos (dataRoom neg).toNat neg.quote).next).1
          (fun i => acks (i + 1)) n := by
  set chunk := encodeChunk o.data.bytes pos (dataRoom neg).toNat neg.quote with hchunk
  obtain ⟨x, hx, htype, hstage⟩ :=
    s.exchange_of_not_done hdone PacketType.D chunk.bytes neg.ckType (.data chunk.next)
  have hsend : (s.sendData o neg pos).1 = { s with waiting := some x, timer := true } := by
    rw [Sender.sendData, if_neg (Nat.not_le.mpr hpos)]
    exact hx
  rw [hsend]
  constructor
  · exact ⟨x, rfl, htype⟩
  · intro n
    have hack := Sender.ack_data (o := o) (s := { s with waiting := some x, timer := true }) hneg
      hstage hacks
    rw [ackRun_succ (x := x) rfl, hack]
    rfl

/-- `sendData` gets to the end of the file when every chunk takes something from it. -/
theorem reachesEof_sendData
    (hadvance : ∀ pos < o.data.bytes.length,
      pos < (encodeChunk o.data.bytes pos (dataRoom neg).toNat neg.quote).next)
    {s : Sender} (hdone : s.done = false) (hneg : s.neg = some neg) (pos : ℕ)
    {acks : ℕ → List Byte} (hacks : ∀ i, Accepts (acks i)) :
    ReachesEof o (s.sendData o neg pos).1 acks := by
  induction hleft : o.data.bytes.length - pos using Nat.strong_induction_on
    generalizing s pos acks with
  | _ left ih =>
      by_cases hpos : pos ≥ o.data.bytes.length
      · obtain ⟨x, hx, htype, -⟩ := s.exchange_of_not_done hdone PacketType.Z [] neg.ckType .eof
        refine ⟨0, ⟨x, ?_, htype⟩, fun m hm => absurd hm (Nat.not_lt_zero m)⟩
        rw [ackRun, Sender.sendData, if_pos hpos, Sender.sendEof, hx]
      · have hlt := Nat.lt_of_not_le hpos
        have hnext := hadvance pos hlt
        obtain ⟨hwaits, hrun⟩ := s.sendData_of_lt hlt hdone hneg (hacks 0)
        obtain ⟨n, heof, hdata⟩ := ih _ (by omega) (s := s.acked neg) hdone rfl
          (encodeChunk o.data.bytes pos (dataRoom neg).toNat neg.quote).next
          (fun i => hacks (i + 1)) rfl
        refine ⟨n + 1, ?_, fun m hm => ?_⟩
        · rw [hrun]
          exact heof
        · cases m with
          | zero => exact hwaits
          | succ m =>
              rw [hrun]
              exact hdata m (Nat.lt_of_succ_lt_succ hm)

/-- Where a chunk takes nothing from the file, the sender never gets further: every
acknowledgement makes it send the same data again. -/
theorem waitsFor_of_stuck {pos : ℕ} (hpos : pos < o.data.bytes.length)
    (hstuck : (encodeChunk o.data.bytes pos (dataRoom neg).toNat neg.quote).next = pos)
    {s : Sender} (hdone : s.done = false) (hneg : s.neg = some neg)
    {acks : ℕ → List Byte} (hacks : ∀ i, Accepts (acks i)) (n : ℕ) :
    (ackRun o (s.sendData o neg pos).1 acks n).WaitsFor PacketType.D := by
  induction n generalizing s acks with
  | zero => exact (s.sendData_of_lt hpos hdone hneg (hacks 0)).1
  | succ n ih =>
      rw [(s.sendData_of_lt hpos hdone hneg (hacks 0)).2 n, hstuck]
      exact ih (s := s.acked neg) hdone rfl fun i => hacks (i + 1)

theorem not_reachesEof_of_stuck {pos : ℕ} (hpos : pos < o.data.bytes.length)
    (hstuck : (encodeChunk o.data.bytes pos (dataRoom neg).toNat neg.quote).next = pos)
    {s : Sender} (hdone : s.done = false) (hneg : s.neg = some neg)
    {acks : ℕ → List Byte} (hacks : ∀ i, Accepts (acks i)) :
    ¬ ReachesEof o (s.sendData o neg pos).1 acks := by
  rintro ⟨n, ⟨x, hx, hz⟩, -⟩
  obtain ⟨y, hy, hd⟩ := waitsFor_of_stuck hpos hstuck hdone hneg hacks n
  obtain rfl : x = y := Option.some.inj (hx.symm.trans hy)
  exact absurd (hz.symm.trans hd) (by decide)

/-! ## Parameters that can be used -/

/-- What a negotiation must leave for the sender to get through any file: an 8th-bit
prefix that is no other prefix, and room for every byte. -/
structure Usable (neg : Neg) : Prop where
  qbin : neg.qbin ≠ 0 → neg.qbin ≠ QCTL ∧ neg.qbin ≠ neg.rept
  room : 5 ≤ dataRoom neg
  advances : ∀ (src : List Byte) (pos : ℕ), pos < src.length →
    pos < (encodeChunk src pos (dataRoom neg).toNat neg.quote).next
  reachesEof : ∀ (o : SenderOptions) (s : Sender) (acks : ℕ → List Byte), s.done = false →
    s.neg = some neg → (∀ i, Accepts (acks i)) → ReachesEof o (s.sendData o neg 0).1 acks

/-- The peer's MAXL, with its default. -/
def maxlOf (peer : List Byte) : ℕ := (orElse (unchar (peer.getD 0 32)) 80).toNat

/-- The peer offers long packets. -/
def OffersLong (peer : List Byte) : Prop :=
  9 < peer.length ∧ unchar (peer.getD 9 32) &&& CAPAS_LONG ≠ 0

/-- The parameters that `negotiate` takes as they should be. -/
structure FairInit (peer : List Byte) : Prop where
  qbin_ne_qctl : peer.getD 6 32 ≠ QCTL
  qbin_ne_rept : ¬ (peer.getD 6 32 = REPT ∧ peer.getD 8 32 = REPT)
  room : ¬ OffersLong peer → (if peer.getD 7 32 = 0x33 then 10 else 8) ≤ maxlOf peer

theorem negotiate_long (peer : List Byte) :
    (negotiate peer).long = true ↔ OffersLong peer := by
  unfold negotiate OffersLong
  dsimp only
  rw [decide_eq_true_eq]
  split
  · next h => rw [and_iff_right h]
  · next h => simp [h]

theorem negotiate_maxl {peer : List Byte} (h : ¬ OffersLong peer) :
    (negotiate peer).maxl = maxlOf peer := by
  unfold negotiate
  dsimp only
  rw [if_neg]
  · rfl
  · intro hcapas
    refine h ?_
    split at hcapas
    · next hlen => exact ⟨hlen, hcapas⟩
    · exact absurd rfl hcapas

/-- Without long packets the room is what MAXL leaves. -/
theorem five_le_dataRoom_iff (peer : List Byte) :
    5 ≤ dataRoom (negotiate peer) ↔
      (¬ OffersLong peer → (if peer.getD 7 32 = 0x33 then 10 else 8) ≤ maxlOf peer) := by
  by_cases hlong : OffersLong peer
  · rw [dataRoom, if_pos ((negotiate_long peer).mpr hlong)]
    constructor
    · exact fun _ h => absurd hlong h
    · intro _
      omega
  · have hck : (ckLen (negotiate peer).ckType : ℤ) = if peer.getD 7 32 = 0x33 then 3 else 1 := by
      unfold negotiate
      dsimp only
      split
      · rfl
      · rfl
    have hbasic : MAX_BASIC = 94 := rfl
    rw [dataRoom, if_neg (mt (negotiate_long peer).mp hlong), negotiate_maxl hlong, hck,
      imp_iff_right hlong, hbasic]
    split
    · omega
    · omega

/-- The range of QBIN admits our control prefix and the repeat prefix. -/
theorem qbin_distinct_iff (qb rp : Byte) :
    ((if (33 ≤ qb ∧ qb ≤ 62) ∨ (96 ≤ qb ∧ qb ≤ 126) then qb else 0) ≠ 0 →
        (if (33 ≤ qb ∧ qb ≤ 62) ∨ (96 ≤ qb ∧ qb ≤ 126) then qb else 0) ≠ QCTL ∧
          (if (33 ≤ qb ∧ qb ≤ 62) ∨ (96 ≤ qb ∧ qb ≤ 126) then qb else 0) ≠
            if rp = REPT then REPT else 0) ↔
      qb ≠ QCTL ∧ ¬ (qb = REPT ∧ rp = REPT) := by
  unfold QCTL REPT
  constructor
  · intro h
    constructor
    · rintro rfl
      exact (h (by decide)).1 (by decide)
    · rintro ⟨rfl, rfl⟩
      exact (h (by decide)).2 (by decide)
  · rintro ⟨hqctl, hrept⟩ hne
    split at hne
    · next hrange =>
        rw [if_pos hrange]
        refine ⟨hqctl, ?_⟩
        split
        · next hrp => exact fun hqb => hrept ⟨hqb, hrp⟩
        · exact hne
    · exact absurd rfl hne

theorem negotiate_qbin_iff (peer : List Byte) :
    ((negotiate peer).qbin ≠ 0 →
        (negotiate peer).qbin ≠ QCTL ∧ (negotiate peer).qbin ≠ (negotiate peer).rept) ↔
      peer.getD 6 32 ≠ QCTL ∧ ¬ (peer.getD 6 32 = REPT ∧ peer.getD 8 32 = REPT) :=
  qbin_distinct_iff (peer.getD 6 32) (peer.getD 8 32)

/-- A negotiation can be used exactly when the peer's parameters are fair. -/
theorem usable_negotiate_iff (peer : List Byte) : Usable (negotiate peer) ↔ FairInit peer := by
  constructor
  · intro h
    obtain ⟨hqctl, hrept⟩ := (negotiate_qbin_iff peer).mp h.qbin
    exact ⟨hqctl, hrept, (five_le_dataRoom_iff peer).mp h.room⟩
  · intro h
    have hroom := (five_le_dataRoom_iff peer).mpr h.room
    have hadvances : ∀ (src : List Byte) (pos : ℕ), pos < src.length →
        pos < (encodeChunk src pos (dataRoom (negotiate peer)).toNat (negotiate peer).quote).next :=
      fun src pos hpos => lt_next_encodeChunk _ (by omega) hpos
    constructor
    · exact (negotiate_qbin_iff peer).mpr ⟨h.qbin_ne_qctl, h.qbin_ne_rept⟩
    · exact hroom
    · exact hadvances
    · intro o s acks hdone hneg hacks
      exact reachesEof_sendData (hadvances o.data.bytes) hdone hneg 0 hacks

/-- A peer that answers with MAXL 4 and nothing else leaves room for one byte. -/
theorem short_maxl_unusable :
    ¬ ∀ peer : List Byte, (∀ b ∈ peer, 32 ≤ b ∧ b ≠ 127) → Usable (negotiate peer) := by
  intro h
  have hroom := (h [36] (by decide +kernel)).room
  exact absurd hroom (by decide)

end Kermit

end Voyager
