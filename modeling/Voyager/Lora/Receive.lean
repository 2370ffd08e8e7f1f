import Voyager.Net.Serial

/-!
# Receiving a frame

`handleRxFrame` is what the RX task does with the bytes of one frame, up to the
acknowledgement it sends: that takes the radio, and is a step of its own.
-/

namespace Voyager

open LoraProto

/-- The arguments of `LoRa_sendAkn`. -/
structure Akn where
  seq : Byte
  result : Byte
  deriving DecidableEq, Repr

/-- `recv_packets` or another queue of the RX task after `xQueueSend`: a full queue stays
as it is. -/
def sendOrDrop {α : Type*} {depth : ℕ} (q : BoundedQueue α depth) (a : α) :
    BoundedQueue α depth :=
  (q.send a).getD q

/-- The bytes of a buffer up to its first zero byte. -/
def cString (buf : List Byte) : List Byte := buf.takeWhile (· ≠ 0)

namespace Board

variable (jsonMac : List Byte → Option (List Byte)) (env : Env) (b : Board)

/-- The branch of `handle_rx_frame` for `LORA_NET`. -/
def handleNet (p : Parsed) : Board × Option Akn :=
  match netParse p.payload with
  | none => (b, none)
  | some nf =>
      if nf.src = b.nodeId.id then (b, none)
      else
        let toMe := nf.dst = b.nodeId.id
        if ¬ toMe ∧ nf.dst ≠ NET_BROADCAST then (b, none)
        else
          let b := b.netHeard env nf.src
          if ¬ toMe then ((b.netDeliver env nf.ip).1, none)
          else if ¬ b.net.active then (b, none)
          else
            let key := netDedupKey nf.src
            if rxIsDuplicateMulti b.rxDedup key p.seq then (b, some { seq := p.seq, result := ACK_OK })
            else
              match b.netDeliver env nf.ip with
              | (b, true) =>
                  ({ b with rxDedup := rxCommitMulti b.rxDedup key p.seq },
                    some { seq := p.seq, result := ACK_OK })
              | (b, false) => (b, some { seq := p.seq, result := ACK_RETRY })

/-- What `recv_packets` becomes when the message of a frame is queued: `none` where the
source drops it, which it also does with a message that has a zero byte. -/
def queueMsg (p : Parsed) : Option (BoundedQueue QueueParam RECV_QUEUE_DEPTH) :=
  let text := cString p.payload
  if ¬ env.heap ∨ text.length ≠ p.len.toNat then none
  else b.recvPackets.send { type := p.type, message := text, id := 0 }

/-- The default branch of `handle_rx_frame`, for `LORA_MSG`. -/
def handleMsg (p : Parsed) : Board × Option Akn :=
  let key := extractMacKey jsonMac (cString p.payload)
  if rxIsDuplicateMulti b.rxDedup key p.seq then (b, some { seq := p.seq, result := ACK_OK })
  else
    match b.queueMsg env p with
    | some recvPackets =>
        ({ b with recvPackets, rxDedup := rxCommitMulti b.rxDedup key p.seq },
          some { seq := p.seq, result := ACK_OK })
    | none => (b, some { seq := p.seq, result := ACK_RETRY })

/-- `handle_rx_frame`: the board afterwards and the acknowledgement it sends. -/
def handleRxFrame (buf : List Byte) : Board × Option Akn :=
  let p := parsePacket buf
  if ¬ p.ok then
    (b, if p.err = .badCrc ∧ p.type = T_LORA_MSG then some { seq := p.seq, result := ACK_RETRY }
      else none)
  else if p.type = T_REC_AKNG then
    ({ b with ackQueue := sendOrDrop b.ackQueue (word p.seq (byteAt p.payload 0)) }, none)
  else if p.type = T_LORA_SERIAL then
    if env.heap then
      ({ b with serialPacketRec := sendOrDrop b.serialPacketRec p.payload }, none)
    else (b, none)
  else if p.type = T_NET then b.handleNet env p
  else if p.type = T_RAW_DATA then (b, none)
  else b.handleMsg jsonMac env p

/-! ## A frame of the network -/

section Net

variable {b} {p : Parsed} {nf : NetFrame}

theorem handleRxFrame_net {buf : List Byte} (h : parsePacket buf = p) (hok : p.ok = true)
    (htype : p.type = T_NET) : b.handleRxFrame jsonMac env buf = b.handleNet env p := by
  have hack : ¬ T_NET = T_REC_AKNG := by decide
  have hserial : ¬ T_NET = T_LORA_SERIAL := by decide
  simp [handleRxFrame, h, hok, htype, hack, hserial]

/-- A unicast frame for another node is ignored. -/
theorem handleNet_of_other (hparse : netParse p.payload = some nf) (hme : nf.dst ≠ b.nodeId.id)
    (hcast : nf.dst ≠ NET_BROADCAST) : b.handleNet env p = (b, none) := by
  simp [handleNet, hparse, hme, hcast]

/-- A frame for this node that the dedup table holds is acknowledged and not delivered. -/
theorem handleNet_of_duplicate (hparse : netParse p.payload = some nf)
    (hsrc : nf.src ≠ b.nodeId.id) (hme : nf.dst = b.nodeId.id) (hactive : b.net.active = true)
    (hdup : rxIsDuplicateMulti b.rxDedup (netDedupKey nf.src) p.seq = true) :
    b.handleNet env p = (b.netHeard env nf.src, some { seq := p.seq, result := ACK_OK }) := by
  simp [handleNet, hparse, hsrc, hme, netHeard, hactive, hdup]

/-- Any other frame for this node is delivered, when there is room for it. -/
theorem handleNet_of_new (hparse : netParse p.payload = some nf)
    (hsrc : nf.src ≠ b.nodeId.id) (hme : nf.dst = b.nodeId.id) (hactive : b.net.active = true)
    (hdup : rxIsDuplicateMulti b.rxDedup (netDedupKey nf.src) p.seq = false)
    (hlen : nf.ip.length ≤ NET_MAX_IP) (hheap : env.heap = true) (hroom : b.net.rxQ.HasRoom) :
    ∃ b', b.handleNet env p = (b', some { seq := p.seq, result := ACK_OK }) ∧
      b'.net.rxQ.items = b.net.rxQ.items ++ [{ ip := nf.ip, length_le := hlen }] ∧
      b'.nodeId = b.nodeId ∧ b'.usbOut = b.usbOut ∧ b'.net.active = true ∧
      rxIsDuplicateMulti b'.rxDedup (netDedupKey nf.src) p.seq = true := by
  obtain ⟨rxQ, hsend, hitems⟩ := hroom.exists_send { ip := nf.ip, length_le := hlen }
  have hdeliver : (b.netHeard env nf.src).netDeliver env nf.ip =
      ({ b.netHeard env nf.src with net.rxQ := rxQ, net.rx := b.net.rx + 1 }, true) := by
    simp [netDeliver, netHeard, hactive, Nat.not_lt.mpr hlen, hheap, hsend]
  refine ⟨{ b.netHeard env nf.src with
      net.rxQ := rxQ, net.rx := b.net.rx + 1,
      rxDedup := rxCommitMulti b.rxDedup (netDedupKey nf.src) p.seq },
    ?_, hitems, rfl, rfl, hactive, rxIsDuplicateMulti_rxCommitMulti _ _ _⟩
  have hheardActive : (b.netHeard env nf.src).net.active = true := hactive
  have hheardDup :
      rxIsDuplicateMulti (b.netHeard env nf.src).rxDedup (netDedupKey nf.src) p.seq = false := hdup
  rw [handleNet, hparse]
  simp only [hsrc, if_false, hme, not_true, false_and, hheardActive, hheardDup, hdeliver,
    Bool.false_eq_true]
  rfl

/-- How often a delivered frame is heard again makes no difference. -/
theorem foldl_handleNet_of_duplicate (hparse : netParse p.payload = some nf)
    (hsrc : nf.src ≠ b.nodeId.id) (hme : nf.dst = b.nodeId.id) (hactive : b.net.active = true)
    (hdup : rxIsDuplicateMulti b.rxDedup (netDedupKey nf.src) p.seq = true) (again : List Env) :
    (again.foldl (fun b env => (b.handleNet env p).1) b).net.rxQ = b.net.rxQ ∧
      (again.foldl (fun b env => (b.handleNet env p).1) b).net.active = true ∧
      (again.foldl (fun b env => (b.handleNet env p).1) b).usbOut = b.usbOut := by
  induction again generalizing b with
  | nil => exact ⟨rfl, hactive, rfl⟩
  | cons env again ih =>
      have hstep := handleNet_of_duplicate env hparse hsrc hme hactive hdup
      rw [List.foldl_cons, hstep]
      exact ih (b := b.netHeard env nf.src) hsrc hme hactive hdup

end Net

/-! ## What a frame changes, and what it is answered -/

section Answer

variable {jsonMac} {env} {b} {p : Parsed} {akn : Akn}

theorem netDeliver_kept (ip : List Byte) :
    (b.netDeliver env ip).1.ackQueue = b.ackQueue ∧
      (b.netDeliver env ip).1.rxDedup = b.rxDedup := by
  unfold netDeliver
  split
  · exact ⟨rfl, rfl⟩
  · split
    · exact ⟨rfl, rfl⟩
    · split
      · exact ⟨rfl, rfl⟩
      · split <;> exact ⟨rfl, rfl⟩

theorem handleNet_spec :
    (b.handleNet env p).1.ackQueue = b.ackQueue ∧
      ∀ akn, (b.handleNet env p).2 = some akn → akn.seq = p.seq := by
  unfold handleNet
  split
  · simp
  · rename_i nf hparse
    split
    · simp
    · simp only
      split
      · simp
      · split
        · exact ⟨(netDeliver_kept nf.ip).1, by simp⟩
        · split
          · exact ⟨rfl, by simp⟩
          · split
            · exact ⟨rfl, by simp⟩
            · have hdeliver : ((b.netHeard env nf.src).netDeliver env nf.ip).1.ackQueue =
                  b.ackQueue := (netDeliver_kept nf.ip).1
              split
              · rename_i b' h
                rw [h] at hdeliver
                exact ⟨hdeliver, by simp⟩
              · rename_i b' h
                rw [h] at hdeliver
                exact ⟨hdeliver, by simp⟩

/-- A packet that is answered with a `1` and is no duplicate is committed, and nothing else
changes the table. -/
def Commits (d d' : RxDedupMulti) (key : UInt32) (seq : Byte) (akn : Option Akn) : Prop :=
  d' = if akn.map Akn.result = some ACK_OK ∧ rxIsDuplicateMulti d key seq = false then
    rxCommitMulti d key seq else d

theorem commits_of_ne {d : RxDedupMulti} {key : UInt32} {seq : Byte} {akn : Option Akn}
    (h : akn.map Akn.result ≠ some ACK_OK) : Commits d d key seq akn :=
  (if_neg fun hok => h hok.1).symm

theorem commits_of_duplicate {d : RxDedupMulti} {key : UInt32} {seq : Byte} {akn : Option Akn}
    (h : rxIsDuplicateMulti d key seq = true) : Commits d d key seq akn :=
  (if_neg fun hok => Bool.false_ne_true (hok.2.symm.trans h)).symm

theorem commits_of_new {d : RxDedupMulti} {key : UInt32} {seq : Byte}
    (h : rxIsDuplicateMulti d key seq = false) :
    Commits d (rxCommitMulti d key seq) key seq (some { seq, result := ACK_OK }) :=
  (if_pos ⟨rfl, h⟩).symm

theorem handleNet_commits :
    Commits b.rxDedup (b.handleNet env p).1.rxDedup
      (netDedupKey ((netParse p.payload).elim 0 NetFrame.src)) p.seq (b.handleNet env p).2 := by
  have hnone : (none : Option Akn).map Akn.result ≠ some ACK_OK := by simp
  unfold handleNet
  cases hparse : netParse p.payload with
  | none => exact commits_of_ne hnone
  | some nf =>
      simp only [Option.elim_some]
      split
      · exact commits_of_ne hnone
      · split
        · exact commits_of_ne hnone
        · split
          · rw [(netDeliver_kept nf.ip).2]
            exact commits_of_ne hnone
          · split
            · exact commits_of_ne hnone
            · split
              · exact commits_of_duplicate ‹_›
              · rename_i hnew
                have hdeliver : ((b.netHeard env nf.src).netDeliver env nf.ip).1.rxDedup =
                    b.rxDedup := (netDeliver_kept nf.ip).2
                split
                · rename_i b' h
                  rw [h] at hdeliver
                  rw [hdeliver]
                  exact commits_of_new (Bool.eq_false_iff.mpr hnew)
                · rename_i b' h
                  rw [h] at hdeliver
                  rw [hdeliver]
                  exact commits_of_ne (by simp [ACK_RETRY, ACK_OK])

/-- A message is answered in one of three ways. -/
theorem handleMsg_cases :
    (rxIsDuplicateMulti b.rxDedup (extractMacKey jsonMac (cString p.payload)) p.seq = true ∧
        b.handleMsg jsonMac env p = (b, some { seq := p.seq, result := ACK_OK })) ∨
      (∃ recvPackets, b.queueMsg env p = some recvPackets ∧
        b.handleMsg jsonMac env p =
          ({ b with
              recvPackets
              rxDedup :=
                rxCommitMulti b.rxDedup (extractMacKey jsonMac (cString p.payload)) p.seq },
            some { seq := p.seq, result := ACK_OK })) ∨
      b.handleMsg jsonMac env p = (b, some { seq := p.seq, result := ACK_RETRY }) := by
  unfold handleMsg
  by_cases hdup : rxIsDuplicateMulti b.rxDedup (extractMacKey jsonMac (cString p.payload)) p.seq = true
  · exact .inl ⟨hdup, if_pos hdup⟩
  · right
    simp only [hdup, Bool.false_eq_true, if_false]
    cases b.queueMsg env p with
    | none => exact .inr rfl
    | some recvPackets => exact .inl ⟨recvPackets, rfl, rfl⟩

theorem handleMsg_commits :
    Commits b.rxDedup (b.handleMsg jsonMac env p).1.rxDedup
      (extractMacKey jsonMac (cString p.payload)) p.seq (b.handleMsg jsonMac env p).2 := by
  unfold handleMsg
  simp only
  split
  · exact commits_of_duplicate ‹_›
  · rename_i hnew
    split
    · exact commits_of_new (Bool.eq_false_iff.mpr hnew)
    · exact commits_of_ne (by simp [ACK_RETRY, ACK_OK])

/-- The queue of acknowledgements takes the value of an acknowledgement, and nothing else. -/
theorem handleRxFrame_ackQueue (buf : List Byte) :
    (b.handleRxFrame jsonMac env buf).1.ackQueue =
      if (parsePacket buf).ok ∧ (parsePacket buf).type = T_REC_AKNG then
        sendOrDrop b.ackQueue (word (parsePacket buf).seq (byteAt (parsePacket buf).payload 0))
      else b.ackQueue := by
  unfold handleRxFrame
  simp only
  split
  · rename_i hok
    simp [hok]
  · rename_i hok
    split
    · rename_i hack
      simp [hack, not_not.mp hok]
    · rename_i hack
      simp only [hack, and_false, if_false]
      split
      · split <;> rfl
      · split
        · exact handleNet_spec.1
        · split
          · rfl
          · rcases handleMsg_cases (b := b) (p := parsePacket buf) with ⟨-, h⟩ | ⟨_, -, h⟩ | h <;>
              rw [h]

/-- An answer echoes the seq of the frame. -/
theorem handleRxFrame_akn_seq {buf : List Byte}
    (h : (b.handleRxFrame jsonMac env buf).2 = some akn) : akn.seq = (parsePacket buf).seq := by
  unfold handleRxFrame at h
  simp only at h
  split at h
  · split at h
    · cases h
      rfl
    · cases h
  · split at h
    · cases h
    · split at h
      · split at h <;> cases h
      · split at h
        · exact handleNet_spec.2 akn h
        · split at h
          · cases h
          · rcases handleMsg_cases (b := b) (p := parsePacket buf) with ⟨-, h'⟩ | ⟨_, -, h'⟩ | h' <;>
              (rw [h'] at h; cases h; rfl)

theorem cString_eq_of_length {buf : List Byte} (h : (cString buf).length = buf.length) :
    cString buf = buf :=
  (List.takeWhile_prefix _).eq_of_length h

/-- A message that is answered with `1` and is no duplicate has been queued, whole. -/
theorem handleRxFrame_msg_queued {buf : List Byte} (hok : (parsePacket buf).ok = true)
    (htype : (parsePacket buf).type = T_LORA_MSG)
    (hlen : (parsePacket buf).payload.length = (parsePacket buf).len.toNat)
    (hdup : rxIsDuplicateMulti b.rxDedup
      (extractMacKey jsonMac (cString (parsePacket buf).payload)) (parsePacket buf).seq = false)
    (h : (b.handleRxFrame jsonMac env buf).2 = some akn) (hresult : akn.result = ACK_OK) :
    ∃ q : QueueParam, q.message = (parsePacket buf).payload ∧
      (b.handleRxFrame jsonMac env buf).1.recvPackets.items = b.recvPackets.items ++ [q] := by
  have hack : ¬ T_LORA_MSG = T_REC_AKNG := by decide
  have hserial : ¬ T_LORA_MSG = T_LORA_SERIAL := by decide
  have hnet : ¬ T_LORA_MSG = T_NET := by decide
  have hraw : ¬ T_LORA_MSG = T_RAW_DATA := by decide
  have hmsg : b.handleRxFrame jsonMac env buf = b.handleMsg jsonMac env (parsePacket buf) := by
    simp [handleRxFrame, hok, htype, hack, hserial, hnet, hraw]
  rw [hmsg] at h ⊢
  rcases handleMsg_cases (b := b) (p := parsePacket buf) with ⟨hd, -⟩ | ⟨rp, hqueue, h'⟩ | h'
  · rw [hdup] at hd
    cases hd
  · rw [h']
    unfold queueMsg at hqueue
    simp only at hqueue
    split at hqueue
    · cases hqueue
    · rename_i hfit
      rw [not_or, not_not, not_not] at hfit
      refine ⟨_, ?_, (BoundedQueue.send_eq_some_iff.mp hqueue).2⟩
      exact cString_eq_of_length (hfit.2.trans hlen.symm)
  · rw [h'] at h
    cases h
    exact absurd hresult (show ¬ ACK_RETRY = ACK_OK by decide)

end Answer

end Board

end Voyager
