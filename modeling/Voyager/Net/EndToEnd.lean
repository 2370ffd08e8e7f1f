import Mathlib.Logic.Function.Iterate
import Voyager.Net.Outbound
import Voyager.Lora.Receive

/-!
# A packet from one PC to another

A packet that the helper sends straight out crosses its board, the radio and the board
of the node it is addressed to, and comes out of that node's helper as it went in.
-/

namespace Voyager

open LoraProto

/-! ## The two boards -/

namespace Board

variable (env : Env) (b : Board)

/-- The writer task until the queue is empty. -/
def netWriteAll : Board := netWrite^[b.net.rxQ.items.length] b

/-- The writer's buffer holds every item it can be given. -/
theorem netFrameOf_eq (item : NetRxItem) : netFrameOf item = NetCore.slipEncode item.ip := by
  have hlen := item.length_le
  have hspecials : slipSpecials item.ip ≤ item.ip.length := List.countP_le_length
  rw [netFrameOf, slipEncode_eq, if_neg (by omega), Option.getD_some]

theorem netWrite_cons {item : NetRxItem} {rest : List NetRxItem} (hactive : b.net.active = true)
    (h : b.net.rxQ.items = item :: rest) :
    b.netWrite.usbOut = b.usbOut ++ netFrameOf item ∧ b.netWrite.net.rxQ.items = rest ∧
      b.netWrite.net.active = true := by
  have hle := b.net.rxQ.length_le
  rw [h, List.length_cons] at hle
  have hreceive : b.net.rxQ.receive =
      some (item, { items := rest, length_le := Nat.le_of_succ_le hle }) :=
    BoundedQueue.receive_eq_some_iff.mpr h
  simp [netWrite, hreceive, hactive, serialWrite]

/-- In network mode the writer writes the queue, oldest first. -/
theorem netWriteAll_usbOut (hactive : b.net.active = true) :
    b.netWriteAll.usbOut = b.usbOut ++ b.net.rxQ.items.flatMap netFrameOf := by
  generalize hitems : b.net.rxQ.items = items
  unfold netWriteAll
  rw [hitems]
  induction items generalizing b with
  | nil => simp
  | cons item rest ih =>
      obtain ⟨hout, hrest, hactive'⟩ := b.netWrite_cons hactive hitems
      rw [List.length_cons, Function.iterate_succ_apply, ih b.netWrite hactive' hrest, hout,
        List.flatMap_cons, List.append_assoc]

/-- A packet for another node is queued for the radio, when there is room for it. -/
theorem handleFrame_of_direct {p : List Byte} {dst : NodeId} (hok : netIpv4Ok p = true)
    (hlen : p.length ≤ NET_MAX_IP) (hdst : ipAt p 16 = dst.ip) (hne : dst ≠ b.nodeId)
    (hheap : env.heap = true) (hroom : b.sendPackets.HasRoom) :
    ∃ message, netBuild dst.id b.nodeId.id p MAX_PAYLOAD = some message ∧
      (b.handleFrame env p).sendPackets.items =
        b.sendPackets.items ++ [{ type := T_NET, message, id := 0 }] := by
  have hbuild : netBuild dst.id b.nodeId.id p MAX_PAYLOAD =
      some (wordHi dst.id :: wordLo dst.id :: wordHi b.nodeId.id :: wordLo b.nodeId.id :: p) := by
    refine netBuild_eq_some_iff.mpr ⟨?_, hlen, ?_, rfl⟩
    · have h20 := (netIpv4Ok_length hok).1
      omega
    · simp only [NET_MAX_IP, MAX_PAYLOAD, NET_HDR] at hlen ⊢
      omega
  refine ⟨_, hbuild, ?_⟩
  have hnode : dst.id ≠ b.nodeId.id := fun h => hne (NodeId.ext_iff_id.mpr h)
  obtain ⟨sendPackets, hsend, hitems⟩ := hroom.exists_send
    { type := T_NET,
      message := wordHi dst.id :: wordLo dst.id :: wordHi b.nodeId.id :: wordLo b.nodeId.id :: p,
      id := 0 }
  have hframe : b.handleFrame env p =
      { b with net.lastRx := env.millis }.netRoute env dst.id p := by
    simp [handleFrame, netIpv4Ok_head_ne_zero hok, Nat.not_lt.mpr hlen, hok, hdst, netIpToNode_ip,
      dst.id_ne_zero, hnode]
  have hqueued : ({ b with net.lastRx := env.millis } : Board).loraNetSend env dst.id p =
      some { b with net.lastRx := env.millis, sendPackets } := by
    simp [loraNetSend, hbuild, hheap, hsend]
  have hreport : ∀ (c : Board) (dropped : Bool),
      (c.maybeReportBusy env dropped).sendPackets = c.sendPackets := by
    intro c dropped
    unfold maybeReportBusy
    simp only
    split
    · rfl
    · split <;> rfl
  rw [hframe, netRoute, hqueued]
  simp only
  rw [hreport]
  exact hitems

end Board

/-- A packet that the helper of node `a` sends straight to node `b` is queued at `a`, and
whatever its seq, its frame is acknowledged and delivered at `b`: the helper of `b` reads
it after the packets that were waiting, once, however often the frame is heard. A board
that is neither ignores the frame. The queues have room, and the dedup table of `b` does
not hold the seq for `a`. -/
theorem packet_reaches_its_node (jsonMac : List Byte → Option (List Byte)) (envA envB : Env)
    {p : List Byte} {a b : Board} {d : NetCore.SlipDecoder}
    (hdirect : (NetCore.classifyOutbound p a.nodeId.ip none).1 = .outDirect)
    (hdst : ipAt p 16 = b.nodeId.ip)
    (hdec : a.net.dec = .reset) (hroomA : envA.heap = true ∧ a.sendPackets.HasRoom)
    (hactive : b.net.active = true) (hroomB : envB.heap = true ∧ b.net.rxQ.HasRoom)
    (hmax : d.max = NetCore.netAdapterMTU + 24)
    (hbetween : d.buf = [] ∧ d.esc = false ∧ d.bad = false) :
    ∃ item,
      (a.feedUsb envA (NetCore.slipEncode p)).sendPackets.items = a.sendPackets.items ++ [item] ∧
      ¬ IsNetBroadcast item ∧
      ∀ seq, rxIsDuplicateMulti b.rxDedup (netDedupKey a.nodeId.id) seq = false →
        ∃ frame, loRaSendFrame item.message item.type seq = some frame ∧
          (b.handleRxFrame jsonMac envB frame).2 = some { seq, result := ACK_OK } ∧
          (∀ again : List Env,
            ∃ written,
              (again.foldl (fun b env => (b.handleRxFrame jsonMac env frame).1)
                (b.handleRxFrame jsonMac envB frame).1).netWriteAll.usbOut = b.usbOut ++ written ∧
              (d.feed written).2 =
                (b.net.rxQ.items.map NetRxItem.ip).filter (·.length ≠ 0) ++ [p]) ∧
          ∀ (c : Board) (env : Env), c.nodeId ≠ a.nodeId → c.nodeId ≠ b.nodeId →
            c.handleRxFrame jsonMac env frame = (c, none) := by
  obtain ⟨hok, -, -, -, hself, hlen⟩ :=
    NetCore.outboundDropReason_eq_empty_iff.mp (NetCore.classifyOutbound_outDirect hdirect)
  have hne : b.nodeId ≠ a.nodeId := fun h => hself (by rw [hdst, h])
  have hpos : 20 ≤ p.length := (netIpv4Ok_length hok).1
  have hmaxIP : p.length ≤ NET_MAX_IP := hlen
  -- board `a`: the decoder finds the packet, and it is queued
  have hfeed : a.feedUsb envA (NetCore.slipEncode p) =
      { a.handleFrame envA p with
        net.dec := (a.net.dec.feedAll (NetCore.slipEncode p)).1 } := by
    rw [Board.feedUsb_eq, hdec, SlipDecoder.feedAll_slipEncode (by omega)
      (hlen.trans (by decide)), List.foldl_cons, List.foldl_nil]
  obtain ⟨message, hbuild, hitems⟩ :=
    a.handleFrame_of_direct envA hok hlen hdst hne hroomA.1 hroomA.2
  refine ⟨{ type := T_NET, message, id := 0 }, ?_, ?_, ?_⟩
  · rw [hfeed]
    exact hitems
  · obtain ⟨-, -, -, rfl⟩ := netBuild_eq_some_iff.mp hbuild
    rintro ⟨-, -, hcast⟩
    exact b.nodeId.id_ne_broadcast ((word_eta _).symm.trans hcast)
  · intro seq hdup
    -- the frame and what it parses to
    have hmessage : message.length ≤ MAX_PAYLOAD := by
      obtain ⟨-, hfit, -, rfl⟩ := netBuild_eq_some_iff.mp hbuild
      simp only [List.length_cons, NET_MAX_IP, MAX_PAYLOAD, NET_HDR] at hfit ⊢
      omega
    have hframe : loRaSendFrame message T_NET seq =
        some (UInt8.ofNat message.length :: T_NET :: seq :: packetCrc seq message :: message) := by
      rw [loRaSendFrame, if_neg (Nat.not_lt.mpr hmessage)]
      exact framePacket_eq_some_iff.mpr
        ⟨by decide, hmessage, by simp only [MAX_FRAME]; omega, rfl⟩
    refine ⟨_, hframe, ?_⟩
    obtain ⟨packet, hparse, hpok, htype, hseq, hpayload⟩ : ∃ packet : Parsed,
        parsePacket (UInt8.ofNat message.length :: T_NET :: seq :: packetCrc seq message ::
          message) = packet ∧
        packet.ok = true ∧ packet.type = T_NET ∧ packet.seq = seq ∧ packet.payload = message :=
      ⟨_, parsePacket_framePacket ((if_neg (Nat.not_lt.mpr hmessage)).symm.trans hframe),
        rfl, rfl, rfl, rfl⟩
    have hnet : netParse packet.payload =
        some { dst := b.nodeId.id, src := a.nodeId.id, ip := p } := by
      rw [hpayload]
      exact netParse_netBuild hbuild b.nodeId.id_ne_zero a.nodeId.id_ne_zero
        a.nodeId.id_ne_broadcast hok
    have hrx := fun (c : Board) env =>
      Board.handleRxFrame_net jsonMac env (b := c) hparse hpok htype
    rw [← hseq] at hdup
    have hsrc : a.nodeId.id ≠ b.nodeId.id := fun h => hne (NodeId.ext_iff_id.mpr h.symm)
    simp only [hrx]
    obtain ⟨b', hhandle, hrxQ, hnode, husb, hactive', hdup'⟩ :=
      Board.handleNet_of_new envB (b := b) hnet hsrc rfl hactive hdup hmaxIP hroomB.1 hroomB.2
    rw [hhandle, hseq]
    refine ⟨rfl, ?_, ?_⟩
    · intro again
      obtain ⟨hq, hact, hout⟩ := Board.foldl_handleNet_of_duplicate (b := b') hnet
        (by rw [hnode]; exact hsrc) (by rw [hnode]) hactive' hdup' again
      refine ⟨b'.net.rxQ.items.flatMap Board.netFrameOf, ?_, ?_⟩
      · rw [Board.netWriteAll_usbOut _ hact, hout, husb, hq]
      · have hfs : b'.net.rxQ.items.flatMap Board.netFrameOf =
            (b'.net.rxQ.items.map NetRxItem.ip).flatMap NetCore.slipEncode := by
          rw [List.flatMap_map]
          exact List.flatMap_congr fun item _ => Board.netFrameOf_eq item
        rw [hfs, NetCore.SlipDecoder.feed_flatMap_slipEncode, hrxQ, List.map_append,
          List.filter_append, List.map_cons, List.map_nil, List.filter_singleton]
        · have hp : p.length ≠ 0 := by omega
          simp [hp]
        · rw [NetCore.SlipDecoder.toState, hbetween.1, hbetween.2.1, hbetween.2.2]
          rfl
        · rintro f hf
          obtain ⟨item, -, rfl⟩ := List.mem_map.mp hf
          rw [hmax]
          exact item.length_le.trans (by decide)
    · intro c env hca hcb
      have hother : b.nodeId.id ≠ c.nodeId.id := fun h => hcb (NodeId.ext_iff_id.mpr h.symm)
      exact Board.handleNet_of_other env (b := c) hnet hother b.nodeId.id_ne_broadcast

/-- A bare IPv4 header from node `1.1` to node `2.2`, whose helper has just started. -/
theorem packet_reaches_its_node_header :
    ∃ item,
      ((Board.init (netNodeId fun _ => 1) 0).feedUsb { heap := true, millis := 5, rssi := 0 }
        (NetCore.slipEncode
          [0x45, 0, 0, 20, 0, 0, 0, 0, 64, 17, 0, 0, 10, 73, 1, 1, 10, 73, 2, 2])).sendPackets.items =
        [item] ∧
      ∃ frame, loRaSendFrame item.message item.type 255 = some frame ∧
        (((Board.init (netNodeId fun _ => 2) 9).netEnter
            { heap := true, millis := 0, rssi := 0 }).1.handleRxFrame (fun _ => none)
          { heap := true, millis := 6, rssi := -70 } frame).2 =
          some { seq := 255, result := ACK_OK } := by
  obtain ⟨item, hitem, -, hframe⟩ := packet_reaches_its_node (fun _ => none)
    { heap := true, millis := 5, rssi := 0 } { heap := true, millis := 6, rssi := -70 }
    (p := [0x45, 0, 0, 20, 0, 0, 0, 0, 64, 17, 0, 0, 10, 73, 1, 1, 10, 73, 2, 2])
    (a := Board.init (netNodeId fun _ => 1) 0)
    (b := ((Board.init (netNodeId fun _ => 2) 9).netEnter
      { heap := true, millis := 0, rssi := 0 }).1)
    (d := NetCore.newSlipDecoder 600)
    (by decide) (by decide) rfl ⟨rfl, by decide⟩ rfl ⟨rfl, by decide⟩ rfl ⟨rfl, rfl, rfl⟩
  obtain ⟨frame, hsend, hack, -⟩ := hframe 255 (by decide)
  exact ⟨item, hitem, frame, hsend, hack⟩

end Voyager
