import Voyager.Lora.Frame

/-!
# IPv4 over the radio

Every board is a node of one shared channel. Its id comes from the last two bytes of
its MAC address, and node `X.Y` owns the address `10.73.X.Y`, so the destination of an
IPv4 packet names the node it goes to. The payload of a `T_NET` frame is
`[dst][src]` and one whole IPv4 packet.
-/

namespace Voyager

/-- Four bytes of an IPv4 address. -/
structure IpAddr where
  a : Byte
  b : Byte
  c : Byte
  d : Byte
  deriving DecidableEq, Repr

/-- The address that starts at index `i` of a packet. -/
def ipAt (buf : List Byte) (i : ℕ) : IpAddr :=
  { a := byteAt buf i, b := byteAt buf (i + 1), c := byteAt buf (i + 2), d := byteAt buf (i + 3) }

namespace LoraProto

def NET_PREFIX_A : Byte := 10
def NET_PREFIX_B : Byte := 73
def NET_HDR : ℕ := 4
def NET_MAX_IP : ℕ := MAX_PAYLOAD - NET_HDR
def NET_BROADCAST : UInt16 := 0xFFFF
def NET_CTL_KEEPALIVE : Byte := 0x01
def NET_CTL_LEAVE : Byte := 0x02
def NET_CTL_SEND_TO : Byte := 0x03
def NET_CTL_ALIVE_ACK : Byte := 0x81
def NET_CTL_BUSY : Byte := 0x82
def NET_BUSY_DEPTH : ℕ := 6

/-- The id of a board: neither byte is `0` or `255`. -/
structure NodeId where
  id : UInt16
  hi_ne : wordHi id ≠ 0 ∧ wordHi id ≠ 255
  lo_ne : wordLo id ≠ 0 ∧ wordLo id ≠ 255

namespace NodeId

theorem ext_iff_id {m n : NodeId} : m = n ↔ m.id = n.id := by
  cases m
  cases n
  simp

instance : DecidableEq NodeId := fun _ _ => decidable_of_iff _ ext_iff_id.symm

/-- The address of a node, as `ip_of` prints it. -/
def ip (n : NodeId) : IpAddr :=
  { a := NET_PREFIX_A, b := NET_PREFIX_B, c := wordHi n.id, d := wordLo n.id }

theorem ip_inj {m n : NodeId} : m.ip = n.ip ↔ m = n := by
  rw [ext_iff_id, ← word_eta m.id, ← word_eta n.id, word_inj]
  simp [ip]

theorem id_ne_zero (n : NodeId) : n.id ≠ 0 := by
  intro h
  exact n.hi_ne.1 (by rw [h]; decide)

theorem id_ne_broadcast (n : NodeId) : n.id ≠ NET_BROADCAST := by
  intro h
  exact n.hi_ne.2 (by rw [h]; decide)

end NodeId

def netFixOctet (b : Byte) : Byte := if b = 0 then 1 else if b = 255 then 254 else b

theorem netFixOctet_ne (b : Byte) : netFixOctet b ≠ 0 ∧ netFixOctet b ≠ 255 := by
  unfold netFixOctet
  split
  · decide
  · split
    · decide
    · exact ⟨‹_›, ‹_›⟩

/-- The node id of a MAC address. -/
def netNodeId (mac : Fin 6 → Byte) : NodeId where
  id := word (netFixOctet (mac 4)) (netFixOctet (mac 5))
  hi_ne := by rw [wordHi_word]; exact netFixOctet_ne _
  lo_ne := by rw [wordLo_word]; exact netFixOctet_ne _

/-- The node an address names: `0` when it names none, `NET_BROADCAST` for all. -/
def netIpToNode (ip : IpAddr) : UInt16 :=
  if ip.a = 255 ∧ ip.b = 255 ∧ ip.c = 255 ∧ ip.d = 255 then NET_BROADCAST
  else if ip.a ≠ NET_PREFIX_A ∨ ip.b ≠ NET_PREFIX_B then 0
  else if ip.c = 255 ∧ ip.d = 255 then NET_BROADCAST
  else if ip.c = 0 ∨ ip.c = 255 ∨ ip.d = 0 ∨ ip.d = 255 then 0
  else word ip.c ip.d

/-- `net_ipv4_ok`: version 4, a sane header length, and as long as it says. -/
def netIpv4Ok (ip : List Byte) : Bool :=
  if ip.length < 20 ∨ byteAt ip 0 >>> 4 ≠ 4 then false
  else
    let ihl := (byteAt ip 0 &&& 0x0F).toNat * 4
    let total := (word (byteAt ip 2) (byteAt ip 3)).toNat
    decide (ihl ≥ 20 ∧ ihl ≤ total ∧ total = ip.length)

/-- `net_build`: a `T_NET` payload, or `none` where the source returns `0`. -/
def netBuild (dst src : UInt16) (ip : List Byte) (cap : ℕ) : Option (List Byte) :=
  if ip.length = 0 ∨ ip.length > NET_MAX_IP ∨ cap < NET_HDR + ip.length then none
  else some (wordHi dst :: wordLo dst :: wordHi src :: wordLo src :: ip)

structure NetFrame where
  dst : UInt16
  src : UInt16
  ip : List Byte
  deriving DecidableEq, Repr

/-- `net_parse`: the frame it fills in, or `none` where the source returns `false`. -/
def netParse (payload : List Byte) : Option NetFrame :=
  if payload.length ≤ NET_HDR then none
  else
    let f : NetFrame :=
      { dst := word (byteAt payload 0) (byteAt payload 1)
        src := word (byteAt payload 2) (byteAt payload 3)
        ip := payload.drop NET_HDR }
    if f.src ≠ 0 ∧ f.src ≠ NET_BROADCAST ∧ f.dst ≠ 0 ∧ netIpv4Ok f.ip then some f else none

/-- `net_parse_send_to`: the node and the packet of a send-to control frame. -/
def netParseSendTo (f : List Byte) : Option (UInt16 × List Byte) :=
  if f.length < 4 ∨ byteAt f 0 ≠ 0x00 ∨ byteAt f 1 ≠ NET_CTL_SEND_TO then none
  else
    let node := word (byteAt f 2) (byteAt f 3)
    let ip := f.drop 4
    if node = 0 ∨ node = NET_BROADCAST then none
    else if netIpv4Ok ip then some (node, ip) else none

def netDedupKey (src : UInt16) : UInt32 := 0x4E450000 ||| src.toUInt32

/-- The address of a node leads back to the node. -/
theorem netIpToNode_ip (n : NodeId) : netIpToNode n.ip = n.id := by
  have h255 : ¬ ((10 : Byte) = 255) := by decide
  simp [netIpToNode, NodeId.ip, NET_PREFIX_A, NET_PREFIX_B, n.hi_ne, n.lo_ne, h255]

theorem netIpv4Ok_length {ip : List Byte} (h : netIpv4Ok ip = true) :
    20 ≤ ip.length ∧ byteAt ip 0 >>> 4 = 4 := by
  unfold netIpv4Ok at h
  split at h
  · cases h
  · rename_i hok
    rw [not_or, not_not] at hok
    exact ⟨Nat.not_lt.mp hok.1, hok.2⟩

/-- The version nibble keeps a packet apart from a control frame. -/
theorem netIpv4Ok_head_ne_zero {ip : List Byte} (h : netIpv4Ok ip = true) :
    byteAt ip 0 ≠ 0 := by
  intro hzero
  have hversion := (netIpv4Ok_length h).2
  rw [hzero] at hversion
  exact absurd hversion (by decide)

theorem netBuild_eq_some_iff {dst src : UInt16} {ip payload : List Byte} {cap : ℕ} :
    netBuild dst src ip cap = some payload ↔
      0 < ip.length ∧ ip.length ≤ NET_MAX_IP ∧ NET_HDR + ip.length ≤ cap ∧
        payload = wordHi dst :: wordLo dst :: wordHi src :: wordLo src :: ip := by
  unfold netBuild
  split
  · rename_i h
    simp only [reduceCtorEq, false_iff]
    omega
  · rename_i h
    rw [Option.some.injEq, eq_comm]
    constructor
    · intro hp
      exact ⟨by omega, by omega, by omega, hp⟩
    · exact fun hp => hp.2.2.2

/-- A payload parses back to what it was built from. -/
theorem netParse_netBuild {dst src : UInt16} {ip payload : List Byte} {cap : ℕ}
    (h : netBuild dst src ip cap = some payload) (hdst : dst ≠ 0) (hsrc : src ≠ 0)
    (hcast : src ≠ NET_BROADCAST) (hip : netIpv4Ok ip = true) :
    netParse payload = some { dst, src, ip } := by
  obtain ⟨hpos, -, -, rfl⟩ := netBuild_eq_some_iff.mp h
  have hlen : ¬ (wordHi dst :: wordLo dst :: wordHi src :: wordLo src :: ip).length ≤ NET_HDR := by
    simp only [List.length_cons, NET_HDR]
    omega
  have hdrop : (wordHi dst :: wordLo dst :: wordHi src :: wordLo src :: ip).drop NET_HDR = ip :=
    rfl
  rw [netParse, if_neg hlen]
  simp [hdrop, hdst, hsrc, hcast, hip]

end LoraProto

end Voyager
