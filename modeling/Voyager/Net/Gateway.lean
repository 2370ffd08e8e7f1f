import Mathlib.Algebra.Ring.Nat
import Voyager.Library.Transition
import Voyager.Net.HostPort
import Voyager.Net.Outbound

/-!
# The internet gateway

Peers reach the internet through the gateway in two ways: their packets go through a TCP/IP
stack whose flows are opened again as sockets of the gateway, and an HTTP proxy connects for
them. Both ask `allow` for every address, and connect later. Meanwhile anything else may
happen, so a step is one of these, for one of the calls in progress.

What the stack reports, what a resolver answers and where the HTTP transport wants to connect
is up to the event.
-/

namespace Voyager

namespace NetCore

/-! ## Addresses -/

def PERCENT : Byte := 0x25

/-- `netip.Addr`: an IPv6 address has 16 bytes and may have a zone. -/
inductive Addr
  | v4 (ip : IpAddr)
  | v6 (bytes zone : List Byte)
  deriving DecidableEq, Repr

/-- `netip.ParseAddr`: the first dot, colon or percent sign decides. -/
def parseAddr (parseIPv6 : List Byte → Option (List Byte × List Byte)) (s : List Byte) :
    Option Addr :=
  match s.find? fun c => c = DOT || c = COLON || c = PERCENT with
  | none => none
  | some c =>
      if c = DOT then (parseIPv4 s).map .v4
      else if c = COLON then (parseIPv6 s).map fun a => .v6 a.1 a.2
      else none

/-- `net.ParseIP` knows no zones. -/
def parseIP (parseIPv6 : List Byte → Option (List Byte × List Byte)) (s : List Byte) :
    Option Addr :=
  (parseAddr parseIPv6 s).filter fun a =>
    match a with
    | .v4 _ => true
    | .v6 _ zone => zone = []

/-- `IP.To4`, also of an IPv4 address inside an IPv6 one. -/
def to4 : Addr → Option IpAddr
  | .v4 ip => some ip
  | .v6 bytes _ =>
      if bytes.take 12 = [0, 0, 0, 0, 0, 0, 0, 0, 0, 0, 0xFF, 0xFF] then some (ipAt bytes 12)
      else none

def loraPeer (ip : Addr) : Bool :=
  match to4 ip with
  | none => false
  | some v4 => v4.a = netPrefixA && v4.b = netPrefixB

/-- `strconv.Itoa` of a port. -/
def itoa (n : ℕ) : List Byte := (Nat.toDigits 10 n).map fun c => UInt8.ofNat c.toNat

/-! ## The gateway -/

def gwMaxFlows : ℕ := 64

/-- The local end of a flow, as the stack reports it: where the peer wants to connect. -/
structure EndpointID where
  localAddress : IpAddr
  localPort : ℕ
  deriving DecidableEq, Repr

def target (id : EndpointID) : List Byte :=
  joinHostPort (addrString id.localAddress) (itoa id.localPort)

inductive Network
  | tcp
  | udp
  | tcp4
  deriving DecidableEq, Repr

/-- What `dial` or `DialContext` is called with. -/
structure Dial where
  network : Network
  address : List Byte
  deriving DecidableEq, Repr

/-- The address that the dialer reads. -/
def Dial.host (d : Dial) : Option IpAddr :=
  (splitHostPort d.address).bind fun r => parseIPv4 r.1

inductive DialError
  | notPublic
  | other
  deriving DecidableEq, Repr

/-- The two ways through the proxy. -/
inductive Via
  | connect
  | roundTrip
  deriving DecidableEq, Repr

/-- A call in progress: `handleTCP` and `handleUDP` before they dial, and `dialPublic` in its
loop over the addresses, before it looks at the next one or before it dials one. -/
inductive Call
  | tcp (id : EndpointID)
  | udp (id : EndpointID)
  | trying (via : Via) (addrs : List Addr) (port : List Byte) (lastErr : DialError)
  | dialing (via : Via) (ip : IpAddr) (addrs : List Addr) (port : List Byte)
  deriving DecidableEq, Repr

/-- What `ServeHTTP` looks at in a request. -/
structure Request where
  remoteAddr : List Byte
  method : List Byte
  host : List Byte
  scheme : List Byte
  urlHost : List Byte
  deriving DecidableEq, Repr

/-- What becomes of a request. -/
inductive Served
  | reply (code : ℕ)
  | connect (target : List Byte)
  | roundTrip
  deriving DecidableEq, Repr

/-- The target of a CONNECT request. -/
def connectTarget (host : List Byte) : List Byte :=
  if COLON ∈ host then host else host ++ ascii ":443"

def serveHTTP (parseIPv6 : List Byte → Option (List Byte × List Byte)) (r : Request) : Served :=
  let host := ((splitHostPort r.remoteAddr).map Prod.fst).getD []
  if !(parseIP parseIPv6 host).any loraPeer then .reply 403
  else if r.method = ascii "CONNECT" then .connect (connectTarget r.host)
  else if r.scheme ≠ ascii "http" ∨ r.urlHost = [] then .reply 400
  else .roundTrip

/-- `injected` is what went into the stack, `accepted` the number of requests the transport
was given, `dials` every call of the dialers so far and `replies` the codes of the proxy. -/
structure Gateway where
  injected : List (List Byte)
  flows : ℕ
  tcp : ℕ
  udp : ℕ
  refused : ℕ
  accepted : ℕ
  calls : List Call
  dials : List Dial
  replies : List ℕ
  deriving DecidableEq, Repr

inductive Event
  | inject (pkt : List Byte)
  | handleTCP (id : EndpointID)
  | handleUDP (id : EndpointID) (endpoint : Bool)
  | serveHTTP (r : Request) (answers : Option (List Addr))
  /-- The transport connects, for one of the requests it was given. -/
  | dialContext (address : List Byte) (answers : Option (List Addr))
  /-- The call with this index looks at its next address. -/
  | next (i : ℕ)
  /-- It dials; `ok` is whether it gets a connection and `endpoint` whether the stack has an
  endpoint for it. -/
  | dial (i : ℕ) (ok endpoint : Bool)
  /-- `pipe` ends. -/
  | flowEnds
  deriving DecidableEq, Repr

namespace Gateway

def boot : Gateway :=
  { injected := [], flows := 0, tcp := 0, udp := 0, refused := 0, accepted := 0, calls := [],
    dials := [], replies := [] }

variable (allow : IpAddr → Bool) (parseIPv6 : List Byte → Option (List Byte × List Byte))

def refuse (g : Gateway) : Gateway := { g with refused := g.refused + 1 }

def addCall (g : Gateway) (c : Call) : Gateway := { g with calls := g.calls ++ [c] }

def reply (g : Gateway) (code : ℕ) : Gateway := { g with replies := g.replies ++ [code] }

/-- The answer to a request whose destination could not be reached. -/
def fail (g : Gateway) : DialError → Gateway
  | .notPublic => g.reply 403
  | .other => g.reply 502

def inject (g : Gateway) (pkt : List Byte) : Gateway :=
  if !ipv4OK pkt then g
  else if !allow (ipAt pkt 16) then g.refuse
  else { g with injected := g.injected ++ [pkt] }

/-- `handleTCP`, up to `dial`. -/
def handleTCP (g : Gateway) (id : EndpointID) : Gateway :=
  if !allow id.localAddress || g.flows ≥ gwMaxFlows then g.refuse else g.addCall (.tcp id)

/-- `handleUDP`, up to `dial`. -/
def handleUDP (g : Gateway) (id : EndpointID) (endpoint : Bool) : Gateway :=
  if !allow id.localAddress || g.flows ≥ gwMaxFlows then g.refuse
  else if !endpoint then g
  else g.addCall (.udp id)

/-- `dialPublic`, up to its loop. -/
def dialPublic (g : Gateway) (via : Via) (address : List Byte) (answers : Option (List Addr)) :
    Gateway :=
  match splitHostPort address with
  | none => g.fail .other
  | some (host, port) =>
      match parseAddr parseIPv6 host with
      | some a => g.addCall (.trying via [a] port .notPublic)
      | none =>
          match answers with
          | none => g.fail .other
          | some addrs => g.addCall (.trying via addrs port .notPublic)

/-- The next address of the loop of `dialPublic`. -/
def next (g : Gateway) (i : ℕ) : Option Gateway :=
  match g.calls[i]? with
  | some (.trying _ [] _ lastErr) => some ({ g with calls := g.calls.eraseIdx i }.fail lastErr)
  | some (.trying via (.v4 ip :: addrs) port lastErr) =>
      some { g with
        calls := g.calls.set i
          (if allow ip then .dialing via ip addrs port else .trying via addrs port lastErr) }
  | some (.trying via (.v6 _ _ :: addrs) port lastErr) =>
      some { g with calls := g.calls.set i (.trying via addrs port lastErr) }
  | _ => none

/-- The call dials. -/
def dial (g : Gateway) (i : ℕ) (ok endpoint : Bool) : Option Gateway :=
  match g.calls[i]? with
  | some (.tcp id) =>
      let g := { g with calls := g.calls.eraseIdx i, dials := g.dials ++ [Dial.mk .tcp (target id)] }
      some (if ok && endpoint then { g with tcp := g.tcp + 1, flows := g.flows + 1 } else g)
  | some (.udp id) =>
      let g := { g with calls := g.calls.eraseIdx i, dials := g.dials ++ [Dial.mk .udp (target id)] }
      some (if ok then { g with udp := g.udp + 1, flows := g.flows + 1 } else g)
  | some (.dialing via ip addrs port) =>
      let g := { g with dials := g.dials ++ [Dial.mk .tcp4 (joinHostPort (addrString ip) port)] }
      some (if ok then { g with calls := g.calls.eraseIdx i }
        else { g with calls := g.calls.set i (.trying via addrs port .other) })
  | _ => none

def step (g : Gateway) : Event → Option Gateway
  | .inject pkt => some (g.inject allow pkt)
  | .handleTCP id => some (g.handleTCP allow id)
  | .handleUDP id endpoint => some (g.handleUDP allow id endpoint)
  | .serveHTTP r answers =>
      some (match NetCore.serveHTTP parseIPv6 r with
        | .reply code => g.reply code
        | .connect target => g.dialPublic parseIPv6 .connect target answers
        | .roundTrip => { g with accepted := g.accepted + 1 })
  | .dialContext address answers =>
      if g.accepted = 0 then none else some (g.dialPublic parseIPv6 .roundTrip address answers)
  | .next i => g.next allow i
  | .dial i ok endpoint => g.dial i ok endpoint
  | .flowEnds => some { g with flows := g.flows - 1 }

end Gateway

/-! ## What is public -/

/-- An address as one number. -/
def addrNat (ip : IpAddr) : ℕ :=
  ip.a.toNat * 2 ^ 24 + ip.b.toNat * 2 ^ 16 + ip.c.toNat * 2 ^ 8 + ip.d.toNat

/-- The addresses that have the first `bits` bits of `addr`. -/
structure Prefix where
  addr : IpAddr
  bits : ℕ
  deriving DecidableEq, Repr

def Prefix.Contains (p : Prefix) (ip : IpAddr) : Prop :=
  addrNat ip / 2 ^ (32 - p.bits) = addrNat p.addr / 2 ^ (32 - p.bits)

/-- This network, private networks, carrier-grade NAT, loopback, link-local, multicast and
reserved addresses. -/
def notPublic : List Prefix :=
  [⟨⟨0, 0, 0, 0⟩, 8⟩, ⟨⟨10, 0, 0, 0⟩, 8⟩, ⟨⟨100, 64, 0, 0⟩, 10⟩, ⟨⟨127, 0, 0, 0⟩, 8⟩,
    ⟨⟨169, 254, 0, 0⟩, 16⟩, ⟨⟨172, 16, 0, 0⟩, 12⟩, ⟨⟨192, 168, 0, 0⟩, 16⟩, ⟨⟨224, 0, 0, 0⟩, 4⟩,
    ⟨⟨240, 0, 0, 0⟩, 4⟩]

section Prefixes

variable {ip : IpAddr} (a b : Byte)

theorem contains_four_iff :
    Prefix.Contains ⟨⟨a, 0, 0, 0⟩, 4⟩ ip ↔ ip.a.toNat / 16 = a.toNat / 16 := by
  have hb := ip.b.toNat_lt
  have hc := ip.c.toNat_lt
  have hd := ip.d.toNat_lt
  simp only [Prefix.Contains, addrNat, UInt8.toNat_zero]
  omega

theorem contains_eight_iff :
    Prefix.Contains ⟨⟨a, 0, 0, 0⟩, 8⟩ ip ↔ ip.a.toNat = a.toNat := by
  have hb := ip.b.toNat_lt
  have hc := ip.c.toNat_lt
  have hd := ip.d.toNat_lt
  simp only [Prefix.Contains, addrNat, UInt8.toNat_zero]
  omega

theorem contains_ten_iff :
    Prefix.Contains ⟨⟨a, b, 0, 0⟩, 10⟩ ip ↔
      ip.a.toNat = a.toNat ∧ ip.b.toNat / 64 = b.toNat / 64 := by
  have hb := ip.b.toNat_lt
  have hb' := b.toNat_lt
  have hc := ip.c.toNat_lt
  have hd := ip.d.toNat_lt
  simp only [Prefix.Contains, addrNat, UInt8.toNat_zero]
  omega

theorem contains_twelve_iff :
    Prefix.Contains ⟨⟨a, b, 0, 0⟩, 12⟩ ip ↔
      ip.a.toNat = a.toNat ∧ ip.b.toNat / 16 = b.toNat / 16 := by
  have hb := ip.b.toNat_lt
  have hb' := b.toNat_lt
  have hc := ip.c.toNat_lt
  have hd := ip.d.toNat_lt
  simp only [Prefix.Contains, addrNat, UInt8.toNat_zero]
  omega

theorem contains_sixteen_iff :
    Prefix.Contains ⟨⟨a, b, 0, 0⟩, 16⟩ ip ↔ ip.a.toNat = a.toNat ∧ ip.b.toNat = b.toNat := by
  have hb := ip.b.toNat_lt
  have hb' := b.toNat_lt
  have hc := ip.c.toNat_lt
  have hd := ip.d.toNat_lt
  simp only [Prefix.Contains, addrNat, UInt8.toNat_zero]
  omega

end Prefixes

/-- The masks of the source, as quotients. -/
theorem and_eq_iff_div (b : Byte) :
    (b &&& 0xF0 = 0xE0 ↔ b.toNat / 16 = 14) ∧ (b &&& 0xF0 = 16 ↔ b.toNat / 16 = 1) ∧
      (b &&& 0xC0 = 64 ↔ b.toNat / 64 = 1) := by
  revert b
  exact forall_byte (by decide +kernel)

/-- An address is public when it is in none of the prefixes. -/
theorem isPublicUnicast_iff (ip : IpAddr) :
    isPublicUnicast ip = true ↔ ∀ p ∈ notPublic, ¬ p.Contains ip := by
  obtain ⟨a, b, c, d⟩ := ip
  obtain ⟨hmulticast, -, -⟩ := and_eq_iff_div a
  obtain ⟨-, hprivate, hnat⟩ := and_eq_iff_div b
  have heq : ∀ x y : Byte, x = y ↔ x.toNat = y.toNat := fun x y => UInt8.toNat_inj.symm
  simp only [notPublic, List.forall_mem_cons, List.not_mem_nil, false_imp_iff, implies_true,
    and_true, contains_four_iff, contains_eight_iff, contains_ten_iff, contains_twelve_iff,
    contains_sixteen_iff]
  simp only [isPublicUnicast, isGlobalUnicast, isPrivate, ne_eq, IpAddr.mk.injEq, hmulticast,
    hprivate, hnat, ge_iff_le, UInt8.le_iff_toNat_le, decide_eq_true_eq, Bool.if_false_left,
    Bool.and_eq_true, Bool.not_eq_true', decide_eq_false_iff_not, and_true,
    not_or, not_not, heq, UInt8.reduceToNat]
  constructor
  · rintro ⟨⟨⟨-, -, h127, h224, hlink⟩, ⟨h10, h172, h192⟩, -⟩, h100, h0, h240⟩
    exact ⟨h0, h10, h100, h127, hlink, h172, h192, h224, by omega⟩
  · rintro ⟨h0, h10, h100, h127, hlink, h172, h192, h224, h240⟩
    have ha := a.toNat_lt
    exact ⟨⟨⟨fun h => h0 h.1, fun h => by omega, h127, h224, hlink⟩, ⟨h10, h172, h192⟩, h127,
      hlink⟩, h100, h0, by omega⟩

/-! ## What is dialed -/

theorem unbracketed_of_forall {s : List Byte}
    (h : ∀ c ∈ s, c ≠ COLON ∧ c ≠ OPEN_BRACKET ∧ c ≠ CLOSE_BRACKET) : Unbracketed s :=
  ⟨fun hc => (h _ hc).1 rfl, fun hc => (h _ hc).2.1 rfl, fun hc => (h _ hc).2.2 rfl⟩

theorem digit_ne (n : ℕ) (h : n < 10) :
    digit n ≠ COLON ∧ digit n ≠ OPEN_BRACKET ∧ digit n ≠ CLOSE_BRACKET := by
  revert n
  decide

theorem unbracketed_appendDecimal {x : ℕ} (hx : x < 256) :
    ∀ c ∈ appendDecimal x, c ≠ COLON ∧ c ≠ OPEN_BRACKET ∧ c ≠ CLOSE_BRACKET := by
  intro c hc
  rw [appendDecimal, List.mem_append, List.mem_append] at hc
  rcases hc with hc | hc | hc
  · split at hc
    · rw [List.mem_singleton.mp hc]
      exact digit_ne _ (by omega)
    · exact absurd hc List.not_mem_nil
  · split at hc
    · rw [List.mem_singleton.mp hc]
      exact digit_ne _ (Nat.mod_lt _ (by decide))
    · exact absurd hc List.not_mem_nil
  · rw [List.mem_singleton.mp hc]
    exact digit_ne _ (Nat.mod_lt _ (by decide))

theorem unbracketed_addrString (ip : IpAddr) : Unbracketed (addrString ip) := by
  have hdot : DOT ≠ COLON ∧ DOT ≠ OPEN_BRACKET ∧ DOT ≠ CLOSE_BRACKET := by decide
  refine unbracketed_of_forall fun c hc => ?_
  simp only [addrString, List.mem_append, List.mem_cons] at hc
  rcases hc with hc | rfl | hc | rfl | hc | rfl | hc
  · exact unbracketed_appendDecimal ip.a.toNat_lt c hc
  · exact hdot
  · exact unbracketed_appendDecimal ip.b.toNat_lt c hc
  · exact hdot
  · exact unbracketed_appendDecimal ip.c.toNat_lt c hc
  · exact hdot
  · exact unbracketed_appendDecimal ip.d.toNat_lt c hc

theorem unbracketed_itoa (n : ℕ) : Unbracketed (itoa n) := by
  refine unbracketed_of_forall fun b hb => ?_
  obtain ⟨c, hc, rfl⟩ := List.mem_map.mp hb
  have hdigit : c.isDigit = true := Nat.isDigit_of_mem_toDigits (by decide) (by decide) hc
  rw [Char.isDigit, Bool.and_eq_true, decide_eq_true_eq, decide_eq_true_eq] at hdigit
  have hlow : 48 ≤ c.toNat := hdigit.1
  have hhigh : c.toNat ≤ 57 := hdigit.2
  have hb : (UInt8.ofNat c.toNat).toNat = c.toNat := toNat_ofNat_of_lt (by omega)
  refine ⟨fun h => ?_, fun h => ?_, fun h => ?_⟩
  · rw [h] at hb
    exact absurd (hb ▸ hhigh) (by decide)
  · rw [h] at hb
    exact absurd (hb ▸ hhigh) (by decide)
  · rw [h] at hb
    exact absurd (hb ▸ hhigh) (by decide)

namespace Gateway

variable {allow : IpAddr → Bool} {parseIPv6 : List Byte → Option (List Byte × List Byte)}
  {g g' : Gateway}

/-- The dialer reads an address that is allowed. -/
def DialOk (allow : IpAddr → Bool) (d : Dial) : Prop := ∃ ip, d.host = some ip ∧ allow ip = true

/-- The dialer reads the address that was written for it. -/
theorem dialOk_mk {ip : IpAddr} {port : List Byte} (network : Network) (hip : allow ip = true)
    (hport : Unbracketed port) :
    DialOk allow ⟨network, joinHostPort (addrString ip) port⟩ := by
  refine ⟨ip, ?_, hip⟩
  rw [Dial.host, splitHostPort_joinHostPort (unbracketed_addrString ip) hport, Option.bind_some,
    parseIPv4_addrString]

/-- A call was told that its address is allowed before it dials. -/
def CallOk (allow : IpAddr → Bool) : Call → Prop
  | .tcp id => allow id.localAddress = true
  | .udp id => allow id.localAddress = true
  | .trying _ _ port _ => Unbracketed port
  | .dialing _ ip _ port => allow ip = true ∧ Unbracketed port

structure Inv (allow : IpAddr → Bool) (g : Gateway) : Prop where
  injected : ∀ pkt ∈ g.injected, allow (ipAt pkt 16) = true
  calls : ∀ c ∈ g.calls, CallOk allow c
  dials : ∀ d ∈ g.dials, DialOk allow d

theorem Inv.reply (h : Inv allow g) (code : ℕ) : Inv allow (g.reply code) :=
  ⟨h.injected, h.calls, h.dials⟩

theorem Inv.refuse (h : Inv allow g) : Inv allow g.refuse := ⟨h.injected, h.calls, h.dials⟩

theorem Inv.fail (h : Inv allow g) (e : DialError) : Inv allow (g.fail e) := by
  cases e with
  | notPublic => exact h.reply 403
  | other => exact h.reply 502

theorem Inv.addCall (h : Inv allow g) {c : Call} (hc : CallOk allow c) :
    Inv allow (g.addCall c) := by
  refine ⟨h.injected, fun c' hc' => ?_, h.dials⟩
  rcases List.mem_append.mp hc' with hmem | hmem
  · exact h.calls c' hmem
  · exact List.mem_singleton.mp hmem ▸ hc

theorem Inv.eraseCall (h : Inv allow g) (i : ℕ) :
    Inv allow { g with calls := g.calls.eraseIdx i } :=
  ⟨h.injected, fun c hc => h.calls c (List.mem_of_mem_eraseIdx hc), h.dials⟩

theorem Inv.setCall (h : Inv allow g) (i : ℕ) {c : Call} (hc : CallOk allow c) :
    Inv allow { g with calls := g.calls.set i c } := by
  refine ⟨h.injected, fun c' hc' => ?_, h.dials⟩
  rcases List.mem_or_eq_of_mem_set hc' with hmem | rfl
  · exact h.calls c' hmem
  · exact hc

theorem Inv.addDial (h : Inv allow g) {d : Dial} (hd : DialOk allow d) :
    Inv allow { g with dials := g.dials ++ [d] } := by
  refine ⟨h.injected, h.calls, fun d' hd' => ?_⟩
  rcases List.mem_append.mp hd' with hmem | hmem
  · exact h.dials d' hmem
  · exact List.mem_singleton.mp hmem ▸ hd

theorem inv_inject (h : Inv allow g) (pkt : List Byte) : Inv allow (g.inject allow pkt) := by
  rw [inject]
  split
  · exact h
  · split
    · exact h.refuse
    · rename_i hallow
      refine ⟨fun p hp => ?_, h.calls, h.dials⟩
      rcases List.mem_append.mp hp with hmem | hmem
      · exact h.injected p hmem
      · rw [List.mem_singleton.mp hmem]
        simpa using hallow

theorem inv_handleTCP (h : Inv allow g) (id : EndpointID) : Inv allow (g.handleTCP allow id) := by
  rw [handleTCP]
  split
  · exact h.refuse
  · rename_i hpass
    rw [Bool.or_eq_true, not_or, Bool.not_eq_true, Bool.not_eq_false'] at hpass
    exact h.addCall hpass.1

theorem inv_handleUDP (h : Inv allow g) (id : EndpointID) (endpoint : Bool) :
    Inv allow (g.handleUDP allow id endpoint) := by
  rw [handleUDP]
  split
  · exact h.refuse
  · split
    · exact h
    · rename_i hpass _
      rw [Bool.or_eq_true, not_or, Bool.not_eq_true, Bool.not_eq_false'] at hpass
      exact h.addCall hpass.1

theorem inv_dialPublic (h : Inv allow g) (via : Via) (address : List Byte)
    (answers : Option (List Addr)) : Inv allow (g.dialPublic parseIPv6 via address answers) := by
  rw [dialPublic]
  split
  · exact h.fail .other
  · rename_i host port hsplit
    have hport : Unbracketed port := unbracketed_port hsplit
    split
    · exact h.addCall hport
    · split
      · exact h.fail .other
      · exact h.addCall hport

theorem inv_next (h : Inv allow g) {i : ℕ} (hstep : g.next allow i = some g') : Inv allow g' := by
  unfold next at hstep
  split at hstep
  · cases hstep
    exact (h.eraseCall i).fail _
  · rename_i via ip addrs port lastErr hcall
    have hport : Unbracketed port := h.calls _ (List.mem_of_getElem? hcall)
    cases hstep
    refine h.setCall i ?_
    split
    · rename_i hallow
      exact ⟨hallow, hport⟩
    · exact hport
  · rename_i via bytes zone addrs port lastErr hcall
    have hport : Unbracketed port := h.calls _ (List.mem_of_getElem? hcall)
    cases hstep
    exact h.setCall i hport
  · cases hstep

theorem inv_dial (h : Inv allow g) {i : ℕ} {ok endpoint : Bool}
    (hstep : g.dial i ok endpoint = some g') : Inv allow g' := by
  unfold dial at hstep
  split at hstep
  · rename_i id hcall
    have hid : allow id.localAddress = true := h.calls _ (List.mem_of_getElem? hcall)
    have hdialed := (h.eraseCall i).addDial (dialOk_mk .tcp hid (unbracketed_itoa id.localPort))
    cases hstep
    split
    · exact ⟨hdialed.injected, hdialed.calls, hdialed.dials⟩
    · exact hdialed
  · rename_i id hcall
    have hid : allow id.localAddress = true := h.calls _ (List.mem_of_getElem? hcall)
    have hdialed := (h.eraseCall i).addDial (dialOk_mk .udp hid (unbracketed_itoa id.localPort))
    cases hstep
    split
    · exact ⟨hdialed.injected, hdialed.calls, hdialed.dials⟩
    · exact hdialed
  · rename_i via ip addrs port hcall
    obtain ⟨hip, hport⟩ : allow ip = true ∧ Unbracketed port :=
      h.calls _ (List.mem_of_getElem? hcall)
    have hdialed := h.addDial (dialOk_mk .tcp4 hip hport)
    cases hstep
    split
    · exact hdialed.eraseCall i
    · exact hdialed.setCall i hport
  · cases hstep

theorem inv_step {e : Event} (h : Inv allow g) (hstep : g.step allow parseIPv6 e = some g') :
    Inv allow g' := by
  cases e with
  | inject pkt =>
      cases hstep
      exact inv_inject h pkt
  | handleTCP id =>
      cases hstep
      exact inv_handleTCP h id
  | handleUDP id endpoint =>
      cases hstep
      exact inv_handleUDP h id endpoint
  | serveHTTP r answers =>
      cases hstep
      split
      · exact h.reply _
      · exact inv_dialPublic h .connect _ answers
      · exact ⟨h.injected, h.calls, h.dials⟩
  | dialContext address answers =>
      obtain ⟨-, heq⟩ := Option.ite_none_left_eq_some.mp hstep
      cases heq
      exact inv_dialPublic h .roundTrip address answers
  | next i => exact inv_next h hstep
  | dial i ok endpoint => exact inv_dial h hstep
  | flowEnds =>
      cases hstep
      exact ⟨h.injected, h.calls, h.dials⟩

theorem inv_boot : Inv allow boot :=
  ⟨fun _ h => absurd h List.not_mem_nil, fun _ h => absurd h List.not_mem_nil,
    fun _ h => absurd h List.not_mem_nil⟩

theorem inv_exec {events : List Event}
    (hrun : Transition.exec (step allow parseIPv6) boot events = some g) : Inv allow g :=
  Transition.exec_invariant (fun _ _ _ h hstep => inv_step h hstep) inv_boot hrun

/-- A TCP flow, a CONNECT request whose name resolves to an address of the private network and
to a public one, and a plain request for a loopback address. -/
def mixedRun : List Event :=
  [.handleTCP ⟨⟨93, 184, 216, 34⟩, 443⟩, .handleTCP ⟨⟨192, 168, 1, 1⟩, 80⟩,
    .serveHTTP ⟨ascii "10.73.1.2:50000", ascii "CONNECT", ascii "example.org", [], []⟩
      (some [.v4 ⟨10, 0, 0, 1⟩, .v4 ⟨93, 184, 216, 34⟩]),
    .serveHTTP ⟨ascii "10.73.1.2:50001", ascii "GET", [], ascii "http", ascii "127.0.0.1"⟩ none,
    .dialContext (ascii "127.0.0.1:80") none, .next 2, .next 2, .next 1, .next 1, .dial 0 true true,
    .dial 0 true true]

end Gateway

end NetCore

end Voyager
