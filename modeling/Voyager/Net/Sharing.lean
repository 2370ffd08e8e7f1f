import Voyager.Net.Outbound
import Voyager.Net.Serial

/-!
# Sharing the internet over the radio

A gateway PC announces itself with a beacon, and a client sends the packets for the
internet to the gateway's node in a frame that names the node. The filter of the helper
and the router of the board decide the same things about a packet, each in its own words:
what one lets through the other does not drop.
-/

namespace Voyager

namespace NetCore

open LoraProto

def netCtlSendTo : Byte := 0x03
def gwBeaconPort : UInt16 := 47330
def gwBeaconMagic : String := "VOYAGER-GW/1"

/-- `sendToFrame`: a packet in a frame for the board that names the node. -/
def sendToFrame (node : UInt16) (pkt : List Byte) : List Byte :=
  0x00 :: netCtlSendTo :: wordHi node :: wordLo node :: pkt

def nodeOf (ip : IpAddr) : UInt16 := word ip.c ip.d

/-- `parseGwBeacon`: the gateway's address, when `p` is a beacon. -/
def parseGwBeacon (p : List Byte) : Option IpAddr :=
  if ¬ ipv4OK p ∨ byteAt p 9 ≠ 17 ∨ (byteAt p 0 &&& 0x0F).toNat * 4 ≠ 20 ∨ p.length < 28 then none
  else if word (byteAt p 22) (byteAt p 23) ≠ gwBeaconPort ∨ p.drop 28 ≠ ascii gwBeaconMagic then none
  else
    let src := ipAt p 12
    if src.a ≠ netPrefixA ∨ src.b ≠ netPrefixB ∨ src.c = 0 ∨ src.c = 255 ∨ src.d = 0 ∨ src.d = 255 then
      none
    else some src

/-- What a board with id `n` sends to one other node: a packet, not a control frame, that
fits a frame and is addressed to one. -/
structure RoutedUnicast (n : NodeId) (p : List Byte) : Prop where
  head : byteAt p 0 ≠ 0
  length : p.length ≤ NET_MAX_IP
  ipv4 : netIpv4Ok p = true
  ne_zero : netIpToNode (ipAt p 16) ≠ 0
  ne_broadcast : netIpToNode (ipAt p 16) ≠ NET_BROADCAST
  ne_self : netIpToNode (ipAt p 16) ≠ n.id

/-- The address of one node, as the helper sees it. -/
def IsNodeIp (ip : IpAddr) : Prop :=
  ip.a = netPrefixA ∧ ip.b = netPrefixB ∧ ¬ (ip.c = 0 ∨ ip.c = 255 ∨ ip.d = 0 ∨ ip.d = 255)

theorem IsNodeIp.exists_node {ip : IpAddr} (h : IsNodeIp ip) :
    ∃ n : NodeId, n.ip = ip ∧ n.id = nodeOf ip := by
  obtain ⟨a, b, c, d⟩ := ip
  obtain ⟨rfl, rfl, hcd⟩ := h
  rw [not_or, not_or, not_or] at hcd
  refine ⟨{ id := word c d, hi_ne := ?_, lo_ne := ?_ }, ?_, rfl⟩
  · rw [wordHi_word]
    exact ⟨hcd.1, hcd.2.1⟩
  · rw [wordLo_word]
    exact hcd.2.2
  · simp [NodeId.ip, NET_PREFIX_A, NET_PREFIX_B, netPrefixA, netPrefixB]

/-- The firmware takes an address for one node in the same cases as the helper. -/
theorem isNodeIp_iff {ip : IpAddr} :
    IsNodeIp ip ↔ netIpToNode ip ≠ 0 ∧ netIpToNode ip ≠ NET_BROADCAST := by
  constructor
  · intro h
    obtain ⟨n, rfl, -⟩ := h.exists_node
    rw [netIpToNode_ip]
    exact ⟨n.id_ne_zero, n.id_ne_broadcast⟩
  · rintro ⟨hzero, hcast⟩
    unfold netIpToNode at hzero hcast
    -- the cases of the source, of which only the last is one node
    split at hzero
    · rename_i hall
      exact absurd (if_pos hall) hcast
    · rename_i hall
      rw [if_neg hall] at hcast
      split at hzero
      · exact absurd rfl hzero
      · rename_i hnet
        rw [if_neg hnet] at hcast
        rw [not_or, not_not, not_not] at hnet
        split at hzero
        · rename_i hlast
          exact absurd (if_pos hlast) hcast
        · split at hzero
          · exact absurd rfl hzero
          · rename_i hoctets
            exact ⟨hnet.1, hnet.2, hoctets⟩

theorem ip_eq_iff_of_isNodeIp {ip : IpAddr} (h : IsNodeIp ip) (n : NodeId) :
    ip = n.ip ↔ netIpToNode ip = n.id := by
  obtain ⟨m, rfl, -⟩ := h.exists_node
  rw [NodeId.ip_inj, netIpToNode_ip, NodeId.ext_iff_id]

/-- The helper sends straight out what the board sends to one other node. -/
theorem outboundDropReason_eq_empty_iff_routed {p : List Byte} {n : NodeId} :
    outboundDropReason p n.ip = "" ↔ RoutedUnicast n p := by
  rw [outboundDropReason_eq_empty_iff]
  constructor
  · rintro ⟨hok, ha, hb, hoctets, hself, hlen⟩
    have hnode : IsNodeIp (ipAt p 16) := ⟨ha, hb, hoctets⟩
    obtain ⟨hzero, hcast⟩ := isNodeIp_iff.mp hnode
    exact
      { head := netIpv4Ok_head_ne_zero hok
        length := hlen
        ipv4 := hok
        ne_zero := hzero
        ne_broadcast := hcast
        ne_self := mt (ip_eq_iff_of_isNodeIp hnode n).mpr hself }
  · intro h
    have hnode : IsNodeIp (ipAt p 16) := isNodeIp_iff.mpr ⟨h.ne_zero, h.ne_broadcast⟩
    exact ⟨h.ipv4, hnode.1, hnode.2.1, hnode.2.2,
      mt (ip_eq_iff_of_isNodeIp hnode n).mp h.ne_self, h.length⟩

/-- An accepted beacon names a node. -/
theorem isNodeIp_of_parseGwBeacon {beacon : List Byte} {gw : IpAddr}
    (h : parseGwBeacon beacon = some gw) : IsNodeIp gw := by
  unfold parseGwBeacon at h
  split at h
  · cases h
  · split at h
    · cases h
    · simp only at h
      split at h
      · cases h
      · rename_i hsrc
        cases h
        rw [not_or, not_or, not_not, not_not] at hsrc
        exact hsrc

/-- What goes to the gateway is an IPv4 packet that fits a frame. -/
theorem classifyOutbound_outViaGW {p : List Byte} {self : IpAddr} {gw : Option IpAddr}
    (h : (classifyOutbound p self gw).1 = .outViaGW) :
    netIpv4Ok p = true ∧ p.length ≤ NET_MAX_IP := by
  unfold classifyOutbound at h
  simp only at h
  split at h
  · cases h
  · split at h
    · cases h
    · rename_i hgw
      split at h
      · cases h
      · split at h
        · cases h
        · rename_i hbig
          rw [not_or, not_not] at hgw
          refine ⟨?_, Nat.not_lt.mp hbig⟩
          by_contra hok
          have hreason := hgw.1
          rw [outboundDropReason, ipv4OK_eq, if_pos hok] at hreason
          split at hreason
          · exact absurd hreason (by simp)
          · exact absurd hreason (by simp)

/-- The board reads a send-to frame as it was written. -/
theorem netParseSendTo_sendToFrame {node : UInt16} {p : List Byte} (hzero : node ≠ 0)
    (hcast : node ≠ NET_BROADCAST) (hok : netIpv4Ok p = true) :
    netParseSendTo (sendToFrame node p) = some (node, p) := by
  have hdrop : (sendToFrame node p).drop 4 = p := rfl
  have hctl : netCtlSendTo = NET_CTL_SEND_TO := rfl
  unfold netParseSendTo
  rw [hdrop]
  simp [sendToFrame, hctl, hzero, hcast, hok]

/-- The helper and the board agree: on the packets for one other node, and on the frame and
the node of the packets for the gateway. -/
theorem outbound_agrees (n : NodeId) (p : List Byte) :
    (outboundDropReason p n.ip = "" ↔ RoutedUnicast n p) ∧
      ∀ beacon gw, parseGwBeacon beacon = some gw → gw ≠ n.ip →
        (classifyOutbound p n.ip (some gw)).1 = .outViaGW →
          netParseSendTo (sendToFrame (nodeOf gw) p) = some (nodeOf gw, p) ∧
            nodeOf gw ≠ n.id ∧ p.length ≤ NET_MAX_IP := by
  refine ⟨outboundDropReason_eq_empty_iff_routed, ?_⟩
  intro beacon gw hbeacon hself hvia
  obtain ⟨hok, hlen⟩ := classifyOutbound_outViaGW hvia
  obtain ⟨m, rfl, hm⟩ := (isNodeIp_of_parseGwBeacon hbeacon).exists_node
  rw [← hm]
  refine ⟨netParseSendTo_sendToFrame m.id_ne_zero m.id_ne_broadcast hok, ?_, hlen⟩
  rwa [ne_eq, ← NodeId.ext_iff_id, ← NodeId.ip_inj]

/-- A packet for `8.8.8.8`, with the gateway `10.73.1.2` announced. -/
theorem outbound_agrees_internet :
    netParseSendTo (sendToFrame 0x0102
        [0x45, 0, 0, 20, 0, 0, 0, 0, 64, 6, 0, 0, 10, 73, 3, 4, 8, 8, 8, 8]) =
      some (0x0102, [0x45, 0, 0, 20, 0, 0, 0, 0, 64, 6, 0, 0, 10, 73, 3, 4, 8, 8, 8, 8]) := by
  let self : NodeId := { id := 0x0304, hi_ne := by decide, lo_ne := by decide }
  have hbeacon : parseGwBeacon
      ([0x45, 0, 0, 40, 0, 0, 0, 0, 1, 17, 0, 0, 10, 73, 1, 2, 10, 73, 255, 255,
        184, 226, 184, 226, 0, 20, 0, 0] ++ ascii gwBeaconMagic) =
      some { a := 10, b := 73, c := 1, d := 2 } := by decide +kernel
  exact ((outbound_agrees self _).2 _ _ hbeacon (by decide) (by decide +kernel)).1

end NetCore

end Voyager
