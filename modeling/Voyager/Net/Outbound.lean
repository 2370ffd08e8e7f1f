import Voyager.Lora.Net

/-!
# The packet filter of the PC helper

The helper reads packets from its network adapter and decides for each whether it goes
out over the radio: to a node by its `10.73.x.y` address, to the gateway node when
internet sharing is on, or nowhere, and then why.
-/

namespace Voyager

namespace NetCore

def netPrefixA : Byte := 10
def netPrefixB : Byte := 73
def netMaxIP : ℕ := 247
def netAdapterMTU : ℕ := 576

/-- `ipv4OK`: version 4, a sane header length, total length equal to `len(p)`. -/
def ipv4OK (p : List Byte) : Bool :=
  if p.length < 20 ∨ byteAt p 0 >>> 4 ≠ 4 then false
  else
    let ihl := (byteAt p 0 &&& 0x0F).toNat * 4
    let total := (word (byteAt p 2) (byteAt p 3)).toNat
    decide (ihl ≥ 20 ∧ ihl ≤ total ∧ total = p.length)

/-- The text of the reason for a packet that does not fit one frame. -/
def tooBig (p : List Byte) : String :=
  "too big (" ++ toString p.length ++ " > " ++ toString netMaxIP ++ " bytes)"

/-- Why a packet from the adapter is not sent over LoRa; `""` means send it. -/
def outboundDropReason (p : List Byte) (self : IpAddr) : String :=
  if p.length = 0 ∨ byteAt p 0 >>> 4 = 6 then "ipv6"
  else if ¬ ipv4OK p then "not ipv4"
  else
    let d := ipAt p 16
    if d.a ≠ netPrefixA ∨ d.b ≠ netPrefixB then "outside 10.73.0.0/16"
    else if d.c = 0 ∨ d.c = 255 ∨ d.d = 0 ∨ d.d = 255 then "broadcast"
    else if d = self then "to self"
    else if p.length > netMaxIP then tooBig p
    else ""

/-- `IsGlobalUnicast` of the Go library, for IPv4. -/
def isGlobalUnicast (ip : IpAddr) : Bool :=
  ip ≠ { a := 0, b := 0, c := 0, d := 0 } ∧ ip ≠ { a := 255, b := 255, c := 255, d := 255 } ∧
    ip.a ≠ 127 ∧ ip.a &&& 0xF0 ≠ 0xE0 ∧ ¬ (ip.a = 169 ∧ ip.b = 254)

/-- `IsPrivate` of the Go library, for IPv4. -/
def isPrivate (ip : IpAddr) : Bool :=
  ip.a = 10 ∨ (ip.a = 172 ∧ ip.b &&& 0xF0 = 16) ∨ (ip.a = 192 ∧ ip.b = 168)

/-- A destination the gateway may reach for others. -/
def isPublicUnicast (ip : IpAddr) : Bool :=
  if ¬ isGlobalUnicast ip ∨ isPrivate ip ∨ ip.a = 127 ∨ (ip.a = 169 ∧ ip.b = 254) then false
  else if ip.a = 100 ∧ ip.b &&& 0xC0 = 64 then false
  else if ip.a = 0 ∨ ip.a ≥ 240 then false
  else true

inductive OutAction where
  | outDrop | outDirect | outViaGW
  deriving DecidableEq, Repr

/-- `classifyOutbound`: what to do with a packet read from the adapter, and why not. -/
def classifyOutbound (p : List Byte) (self : IpAddr) (gw : Option IpAddr) : OutAction × String :=
  let why := outboundDropReason p self
  if why = "" then (.outDirect, "")
  else if why ≠ "outside 10.73.0.0/16" ∨ gw = none then (.outDrop, why)
  else if ¬ isPublicUnicast (ipAt p 16) then (.outDrop, "not a public internet address")
  else if p.length > netMaxIP then (.outDrop, tooBig p)
  else (.outViaGW, "")

theorem tooBig_ne_empty (p : List Byte) : tooBig p ≠ "" := by
  intro h
  have hlen := congrArg String.length h
  simp [tooBig] at hlen

/-- The helper and the firmware agree on what an IPv4 packet is. -/
theorem ipv4OK_eq : ipv4OK = LoraProto.netIpv4Ok := rfl

/-- A packet goes straight out when it is a packet for another node that fits a frame. -/
theorem outboundDropReason_eq_empty_iff {p : List Byte} {self : IpAddr} :
    outboundDropReason p self = "" ↔
      LoraProto.netIpv4Ok p = true ∧ (ipAt p 16).a = netPrefixA ∧ (ipAt p 16).b = netPrefixB ∧
        ¬ ((ipAt p 16).c = 0 ∨ (ipAt p 16).c = 255 ∨ (ipAt p 16).d = 0 ∨ (ipAt p 16).d = 255) ∧
        ipAt p 16 ≠ self ∧ p.length ≤ netMaxIP := by
  unfold outboundDropReason
  rw [ipv4OK_eq]
  -- the checks of the source, in its order
  by_cases h6 : p.length = 0 ∨ byteAt p 0 >>> 4 = 6
  · rw [if_pos h6]
    simp only [String.reduceEq, false_iff]
    rintro ⟨hok, -⟩
    obtain ⟨hlen, hversion⟩ := LoraProto.netIpv4Ok_length hok
    rcases h6 with h | h
    · omega
    · rw [hversion] at h
      exact absurd h (by decide)
  rw [if_neg h6]
  by_cases hok : LoraProto.netIpv4Ok p = true
  swap
  · simp [hok]
  by_cases hnet : (ipAt p 16).a ≠ netPrefixA ∨ (ipAt p 16).b ≠ netPrefixB
  · simp only [hok, hnet, if_true, not_true, if_false, String.reduceEq, false_iff]
    rintro ⟨-, ha, hb, -⟩
    exact hnet.elim (· ha) (· hb)
  by_cases hcast : (ipAt p 16).c = 0 ∨ (ipAt p 16).c = 255 ∨ (ipAt p 16).d = 0 ∨ (ipAt p 16).d = 255
  · simp [hok, hnet, hcast]
  by_cases hself : ipAt p 16 = self
  · subst hself
    simp [hok, hnet, hcast]
  have hab : (ipAt p 16).a = netPrefixA ∧ (ipAt p 16).b = netPrefixB := by
    rwa [not_or, not_not, not_not] at hnet
  by_cases hbig : p.length > netMaxIP
  · simp only [hok, hnet, hcast, hself, hbig, if_true, not_true, if_false, tooBig_ne_empty,
      false_iff]
    rintro ⟨-, -, -, -, -, h⟩
    exact absurd hbig (Nat.not_lt.mpr h)
  · simp only [hok, hnet, hcast, hself, hbig, not_true, if_false, true_iff]
    exact ⟨trivial, hab.1, hab.2, id, hself, Nat.not_lt.mp hbig⟩

/-- What `classifyOutbound` sends straight to a node. -/
theorem classifyOutbound_outDirect {p : List Byte} {self : IpAddr} {gw : Option IpAddr}
    (h : (classifyOutbound p self gw).1 = .outDirect) : outboundDropReason p self = "" := by
  unfold classifyOutbound at h
  simp only at h
  split at h
  · assumption
  · split at h
    · cases h
    · split at h
      · cases h
      · split at h <;> cases h

end NetCore

end Voyager
