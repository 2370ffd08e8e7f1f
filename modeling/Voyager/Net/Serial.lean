import Voyager.Lora.Board

/-!
# Network mode on the USB port

The serial task feeds the bytes from the PC to the SLIP decoder and routes each frame
it completes: a control frame, a packet for another node, or something to drop. The
radio's receive task delivers packets for this node to a queue that the writer task
empties into the USB port.
-/

namespace Voyager

open LoraProto

namespace Board

variable (env : Env) (b : Board)

/-- Count a dropped frame. -/
def netDrop : Board := { b with net.drop := b.net.drop + 1 }

def netLeave : Board := { b with net.active := false }

/-- `net_enter`; `false` when the file-transfer bridge owns the port. -/
def netEnter : Board × Bool :=
  if b.loraSerial then (b, false)
  else ({ b with net.dec := .reset, net.lastRx := env.millis, net.active := true }, true)

/-- `Serial.write`. -/
def serialWrite (bytes : List Byte) : Board := { b with usbOut := b.usbOut ++ bytes }

/-- `maybe_report_busy`: tell the PC that the radio queue is filling, at most every
300 ms. -/
def maybeReportBusy (dropped : Bool) : Board :=
  let depth := b.sendPackets.items.length
  if ¬ dropped ∧ depth < NET_BUSY_DEPTH then b
  else if env.millis - b.net.lastBusy < 300 then b
  else
    { b with net.lastBusy := env.millis }.serialWrite
      [SLIP_END, 0x00, NET_CTL_BUSY, if depth > 255 then 255 else UInt8.ofNat depth, SLIP_END]

/-- What `handle_frame` does with a packet that has a node to go to. -/
def netRoute (node : UInt16) (ip : List Byte) : Board :=
  match b.loraNetSend env node ip with
  | some b => { b with net.tx := b.net.tx + 1 }.maybeReportBusy env false
  | none => b.netDrop.maybeReportBusy env true

/-- `handle_frame`. -/
def handleFrame (f : List Byte) : Board :=
  let b := { b with net.lastRx := env.millis }
  if byteAt f 0 = 0x00 then
    if f.length ≥ 2 ∧ byteAt f 1 = NET_CTL_LEAVE then b.netLeave
    else if f.length ≥ 2 ∧ byteAt f 1 = NET_CTL_KEEPALIVE then
      b.serialWrite [SLIP_END, 0x00, NET_CTL_ALIVE_ACK, SLIP_END]
    else
      match netParseSendTo f with
      | some (node, ip) =>
          if ip.length > NET_MAX_IP ∨ node = b.nodeId.id then b.netDrop
          else b.netRoute env node ip
      | none => b
  else if f.length > NET_MAX_IP ∨ ¬ netIpv4Ok f then b.netDrop
  else
    let dst := netIpToNode (ipAt f 16)
    if dst = 0 ∨ dst = b.nodeId.id then b.netDrop else b.netRoute env dst f

/-- `net_feed`: one byte from the PC. -/
def netFeed (c : Byte) : Board :=
  let (dec, frames) := b.net.dec.feed c
  frames.foldl (handleFrame env) { b with net.dec := dec }

def NET_IDLE_TIMEOUT_MS : UInt32 := 30000

/-- `net_poll`: the mode ends when the PC is silent. -/
def netPoll : Board :=
  if b.net.active ∧ env.millis - b.net.lastRx > NET_IDLE_TIMEOUT_MS then b.netLeave else b

/-- `net_deliver`: queue a packet from the radio for the PC. -/
def netDeliver (ip : List Byte) : Board × Bool :=
  if ¬ b.net.active then (b, false)
  else if hlen : ip.length > NET_MAX_IP then (b, false)
  else if ¬ env.heap then (b, false)
  else
    match b.net.rxQ.send { ip, length_le := Nat.not_lt.mp hlen } with
    | none => (b.netDrop, false)
    | some rxQ => ({ b with net.rxQ := rxQ, net.rx := b.net.rx + 1 }, true)

/-- The loop of `net_heard` that finds a slot: the one that has the node, else the first
of those not heard from for the longest time. -/
def netPeerSlot (node : UInt16) : Fin NET_PEERS :=
  match (List.finRange NET_PEERS).find? fun i => (b.net.peers i).node == node with
  | some i => i
  | none =>
      (List.finRange NET_PEERS).foldl
        (fun oldest i => if (b.net.peers i).seen < (b.net.peers oldest).seen then i else oldest) 0

/-- `net_heard`. -/
def netHeard (node : UInt16) : Board :=
  let peer : Peer :=
    { node, rssi := Int16.ofInt env.rssi, seen := if env.millis ≠ 0 then env.millis else 1 }
  { b with net.peers := Function.update b.net.peers (b.netPeerSlot node) peer }

/-- The frame the writer task makes of an item. -/
def netFrameOf (item : NetRxItem) : List Byte :=
  (LoraProto.slipEncode item.ip (2 * NET_MAX_IP + 2)).getD []

/-- One pass of `net_writer_task`: take the oldest item and write it, in network mode. -/
def netWrite : Board :=
  match b.net.rxQ.receive with
  | none => b
  | some (item, rxQ) =>
      let b := { b with net.rxQ := rxQ }
      if b.net.active then b.serialWrite (netFrameOf item) else b

/-- The bytes of a stretch of the stream from the PC. -/
def feedUsb (bytes : List Byte) : Board := bytes.foldl (netFeed env) b

/-! ## What the serial task does with a stream -/

variable (dec : SlipDecoder 600)

theorem loraNetSend_withDec (dst : UInt16) (ip : List Byte) :
    ({ b with net.dec := dec } : Board).loraNetSend env dst ip =
      (b.loraNetSend env dst ip).map fun b => { b with net.dec := dec } := by
  unfold loraNetSend
  cases netBuild dst b.nodeId.id ip MAX_PAYLOAD with
  | none => rfl
  | some message =>
      by_cases hheap : env.heap = true
      · simp only [hheap, not_true, if_false, Option.bind_eq_bind, Option.bind_some]
        cases b.sendPackets.send { type := T_NET, message, id := 0 } <;> rfl
      · simp [hheap]

theorem maybeReportBusy_withDec (dropped : Bool) :
    ({ b with net.dec := dec } : Board).maybeReportBusy env dropped =
      { b.maybeReportBusy env dropped with net.dec := dec } := by
  by_cases hfew : ¬ dropped ∧ b.sendPackets.items.length < NET_BUSY_DEPTH
  · simp only [maybeReportBusy, if_pos hfew]
  · by_cases hrecent : env.millis - b.net.lastBusy < 300
    · simp only [maybeReportBusy, if_neg hfew, if_pos hrecent]
    · simp only [maybeReportBusy, if_neg hfew, if_neg hrecent, serialWrite]

theorem netRoute_withDec (node : UInt16) (ip : List Byte) :
    ({ b with net.dec := dec } : Board).netRoute env node ip =
      { b.netRoute env node ip with net.dec := dec } := by
  unfold netRoute
  rw [loraNetSend_withDec]
  cases b.loraNetSend env node ip with
  | none => exact maybeReportBusy_withDec env b.netDrop dec true
  | some b' => exact maybeReportBusy_withDec env { b' with net.tx := b'.net.tx + 1 } dec false

/-- `handle_frame` neither reads nor changes the decoder. -/
theorem handleFrame_withDec (f : List Byte) :
    ({ b with net.dec := dec } : Board).handleFrame env f =
      { b.handleFrame env f with net.dec := dec } := by
  have hroute := fun node ip =>
    netRoute_withDec env { b with net.lastRx := env.millis } dec node ip
  unfold handleFrame
  simp only
  split
  · split
    · rfl
    · split
      · rfl
      · split
        · split
          · rfl
          · exact hroute _ _
        · rfl
  · split
    · rfl
    · split
      · rfl
      · exact hroute _ _

theorem foldl_handleFrame_withDec (frames : List (List Byte)) :
    frames.foldl (handleFrame env) { b with net.dec := dec } =
      { frames.foldl (handleFrame env) b with net.dec := dec } := by
  induction frames generalizing b with
  | nil => rfl
  | cons f frames ih => rw [List.foldl_cons, handleFrame_withDec, ih, List.foldl_cons]

/-- The frames the decoder finds in the stream are handled in order. -/
theorem feedUsb_eq (bytes : List Byte) :
    b.feedUsb env bytes =
      { (b.net.dec.feedAll bytes).2.foldl (handleFrame env) b with
        net.dec := (b.net.dec.feedAll bytes).1 } := by
  induction bytes generalizing b with
  | nil => rfl
  | cons c bytes ih =>
      have hfeed : b.netFeed env c =
          { (b.net.dec.feed c).2.foldl (handleFrame env) b with
            net.dec := (b.net.dec.feed c).1 } := foldl_handleFrame_withDec env b _ _
      have hrun : b.feedUsb env (c :: bytes) = (b.netFeed env c).feedUsb env bytes := rfl
      rw [hrun, ih, hfeed, foldl_handleFrame_withDec, SlipDecoder.feedAll, SlipDecoder.feedAll,
        Mealy.run_cons, List.foldl_append]

/-! ## What the frames leave alone -/

/-- Handling what the PC sends touches neither the queue of acknowledgements nor the dedup table
nor the flag of the file-transfer bridge, and does not turn the network mode on. -/
structure NetKept (b b' : Board) : Prop where
  ackQueue : b'.ackQueue = b.ackQueue
  rxDedup : b'.rxDedup = b.rxDedup
  loraSerial : b'.loraSerial = b.loraSerial
  active : b'.net.active = true → b.net.active = true

variable {env b}

theorem NetKept.refl : NetKept b b := ⟨rfl, rfl, rfl, id⟩

theorem NetKept.trans {b₁ b₂ : Board} (h : NetKept b b₁) (h' : NetKept b₁ b₂) : NetKept b b₂ :=
  ⟨h'.ackQueue.trans h.ackQueue, h'.rxDedup.trans h.rxDedup, h'.loraSerial.trans h.loraSerial,
    h.active ∘ h'.active⟩

theorem netKept_maybeReportBusy (dropped : Bool) : NetKept b (b.maybeReportBusy env dropped) := by
  unfold maybeReportBusy
  simp only
  split
  · exact .refl
  · split
    · exact .refl
    · exact ⟨rfl, rfl, rfl, id⟩

theorem netKept_loraNetSend {b' : Board} {dst : UInt16} {ip : List Byte}
    (h : b.loraNetSend env dst ip = some b') : NetKept b b' := by
  simp only [loraNetSend, Option.bind_eq_bind, Option.bind_eq_some_iff] at h
  obtain ⟨message, -, h⟩ := h
  split at h
  · cases h
  · obtain ⟨sendPackets, -, h⟩ := Option.bind_eq_some_iff.mp h
    cases h
    exact ⟨rfl, rfl, rfl, id⟩

theorem netKept_netRoute (node : UInt16) (ip : List Byte) :
    NetKept b (b.netRoute env node ip) := by
  unfold netRoute
  split
  · rename_i b' h
    have hsend := netKept_loraNetSend h
    have hcount : NetKept b { b' with net.tx := b'.net.tx + 1 } :=
      ⟨hsend.ackQueue, hsend.rxDedup, hsend.loraSerial, hsend.active⟩
    exact hcount.trans (netKept_maybeReportBusy false)
  · have hdrop : NetKept b b.netDrop := ⟨rfl, rfl, rfl, id⟩
    exact hdrop.trans (netKept_maybeReportBusy true)

theorem netKept_handleFrame (f : List Byte) : NetKept b (b.handleFrame env f) := by
  have hstart : NetKept b { b with net.lastRx := env.millis } := ⟨rfl, rfl, rfl, id⟩
  refine hstart.trans ?_
  unfold handleFrame
  simp only
  split
  · split
    · exact ⟨rfl, rfl, rfl, fun h => absurd h Bool.false_ne_true⟩
    · split
      · exact ⟨rfl, rfl, rfl, id⟩
      · split
        · split
          · exact ⟨rfl, rfl, rfl, id⟩
          · exact netKept_netRoute _ _
        · exact .refl
  · split
    · exact ⟨rfl, rfl, rfl, id⟩
    · split
      · exact ⟨rfl, rfl, rfl, id⟩
      · exact netKept_netRoute _ _

theorem netKept_netFeed (c : Byte) : NetKept b (b.netFeed env c) := by
  unfold netFeed
  simp only
  generalize (b.net.dec.feed c).2 = frames
  have hstart : NetKept b { b with net.dec := (b.net.dec.feed c).1 } := ⟨rfl, rfl, rfl, id⟩
  refine hstart.trans ?_
  generalize ({ b with net.dec := (b.net.dec.feed c).1 } : Board) = start
  induction frames generalizing start with
  | nil => exact .refl
  | cons f frames ih => exact (netKept_handleFrame f).trans (ih _)

theorem netKept_netPoll : NetKept b (b.netPoll env) := by
  unfold netPoll
  split
  · exact ⟨rfl, rfl, rfl, fun h => absurd h Bool.false_ne_true⟩
  · exact .refl

theorem netKept_netWrite : NetKept b b.netWrite := by
  unfold netWrite
  split
  · exact .refl
  · simp only
    split
    · exact ⟨rfl, rfl, rfl, id⟩
    · exact ⟨rfl, rfl, rfl, id⟩

variable (env b)

theorem netEnter_queue :
    (b.netEnter env).1.ackQueue = b.ackQueue ∧ (b.netEnter env).1.rxDedup = b.rxDedup := by
  unfold netEnter
  split <;> exact ⟨rfl, rfl⟩

end Board

end Voyager
