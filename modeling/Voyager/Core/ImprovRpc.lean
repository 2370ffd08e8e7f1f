import Voyager.Core.Improv
import Voyager.Library.MemBlock

/-!
# Improv commands

A command is a packet whose data has the command, a length and that many bytes. The credentials
of a network come as two strings, each behind its length. They are copied into two buffers of
fixed size; a read or a write outside of its array has no result here.
-/

namespace Voyager

namespace Improv

open MemBlock

def TYPE_RPC : Byte := 0x03

def CMD_WIFI_SETTINGS : Byte := 0x01
def CMD_GET_CURRENT_STATE : Byte := 0x02
def CMD_GET_DEVICE_INFO : Byte := 0x03
def CMD_GET_WIFI_NETWORKS : Byte := 0x04
def CMD_VOYAGER_NET_START : Byte := 0xF0

/-! ## The code -/

/-- `rpc_command`: the command, the bytes from the payload on, and its length. -/
def rpcCommand (p : Packet) : Option (Byte × List Byte × ℕ) :=
  if p.type ≠ TYPE_RPC ∨ p.len.toNat < 2 then none
  else if (byteAt p.data 1).toNat + 2 > p.len.toNat then none
  else some (byteAt p.data 0, p.data.drop 2, (byteAt p.data 1).toNat)

/-- The `n` bytes from the offset `off` on. -/
def bytesAt (data : List Byte) (off n : ℕ) : Option (List Byte) :=
  if off + n ≤ data.length then some ((data.drop off).take n) else none

/-- A string of the payload, copied into a buffer and ended there. -/
def copyString (payload : List Byte) (off n : ℕ) (b : MemBlock Byte) : Option (MemBlock Byte) :=
  (bytesAt payload off n).bind fun s => (b.memcpy 0 s).bind fun b => b.memcpy n [0]

/-- `parse_wifi_settings`: what it returns, and the two buffers after it. -/
def parseWifiSettings (payload : List Byte) (plen : ℕ) (ssid pass : MemBlock Byte) :
    Option (Bool × MemBlock Byte × MemBlock Byte) :=
  if plen < 2 then some (false, ssid, pass)
  else
    payload[0]?.bind fun c =>
      let sl := c.toNat
      if sl < 1 ∨ sl > 32 ∨ 1 + sl + 1 > plen then some (false, ssid, pass)
      else
        payload[1 + sl]?.bind fun c =>
          let pl := c.toNat
          if pl > 64 ∨ 1 + sl + 1 + pl > plen then some (false, ssid, pass)
          else
            (copyString payload 1 sl ssid).bind fun ssid =>
              (copyString payload (2 + sl) pl pass).bind fun pass => some (true, ssid, pass)

/-- The packets that `feed` returns over a stream, with all of their 255 bytes. -/
def FeedResult.received : FeedResult → List Packet
  | .packet out => [out]
  | .bad => []
  | .more => []

def Parser.receive (p : Parser) (b : Byte) : Parser × List Packet :=
  ((p.feed b).1, (p.feed b).2.received)

def received (bs : List Byte) : List Packet := (Mealy.run Parser.receive .init bs).2

/-! ## What is sent -/

/-- The data of a command. -/
def rpcData (cmd : Byte) (payload : List Byte) : List Byte :=
  cmd :: UInt8.ofNat payload.length :: payload

/-- The credentials of a network, as they are sent. -/
def wifiSettings (ssid pass : List Byte) : List Byte :=
  UInt8.ofNat ssid.length :: (ssid ++ UInt8.ofNat pass.length :: pass)

/-- The lengths that the board takes. -/
structure Fits (ssid pass : List Byte) : Prop where
  ssid_pos : 1 ≤ ssid.length
  ssid_le : ssid.length ≤ 32
  pass_le : pass.length ≤ 64

/-- Some bytes begin with the credentials `ssid` and `pass`. -/
def Carries (data ssid pass : List Byte) : Prop :=
  Fits ssid pass ∧ wifiSettings ssid pass <+: data

/-- The data of a packet. -/
def Packet.view (p : Packet) : Byte × List Byte := (p.type, p.data.take p.len.toNat)

/-! ## The packets of a stream -/

variable {p : Packet} {bs payload data ssid pass : List Byte} {plen : ℕ}

theorem accepted_eq (r : FeedResult) : r.accepted = r.received.map Packet.view := by
  cases r <;> rfl

theorem run_receive (q : Parser) (bs : List Byte) :
    Mealy.run Parser.step q bs =
      ((Mealy.run Parser.receive q bs).1, (Mealy.run Parser.receive q bs).2.map Packet.view) := by
  induction bs generalizing q with
  | nil => rfl
  | cons b bs ih =>
      rw [Mealy.run_cons, Mealy.run_cons]
      have hfirst : (q.step b).1 = (q.receive b).1 := rfl
      rw [hfirst, ih, List.map_append]
      exact Prod.ext rfl (congrArg (· ++ _) (accepted_eq (q.feed b).2))

/-- The packets are those of the stream. -/
theorem map_view_received (bs : List Byte) : (received bs).map Packet.view = packets bs := by
  rw [← parsed_eq_packets, parsed, run_receive]
  rfl

theorem receive_append (bs bs' : List Byte) :
    received (bs ++ bs') =
      received bs ++ (Mealy.run Parser.receive (Parser.after bs) bs').2 := by
  rw [received, Mealy.run_append, Parser.after, run_receive]
  rfl

/-- `feed` copies the packet it has collected. -/
theorem eq_of_receive {q : Parser} {b : Byte} (h : p ∈ (q.receive b).2) : p = q.pkt := by
  unfold Parser.receive Parser.feed at h
  split_ifs at h <;> simp_all [FeedResult.received]

theorem length_of_received (h : p ∈ received bs) : p.data.length = MAX_DATA := by
  let Whole (q : Parser) (log : List Packet) : Prop :=
    q.Valid ∧ ∀ out ∈ log, out.data.length = MAX_DATA
  have hstep (q : Parser) (log : List Packet) (b : Byte) (hq : Whole q log) :
      Whole (q.receive b).1 (log ++ (q.receive b).2) := by
    refine ⟨(step_spec hq.1 b).1, fun out hout => ?_⟩
    rcases List.mem_append.mp hout with hbefore | hnow
    · exact hq.2 out hbefore
    · rw [eq_of_receive hnow]
      exact hq.1.data
  have hinit : Whole Parser.init [] := ⟨valid_init, by simp⟩
  have hrun : Whole (Mealy.run Parser.receive .init bs).1 ([] ++ received bs) :=
    Mealy.run_log_invariant Whole hstep hinit bs
  exact hrun.2 p h

/-! ## The command of a packet -/

theorem exists_command (h : 2 ≤ data.length) :
    ∃ rest, data = byteAt data 0 :: byteAt data 1 :: rest := by
  match data, h with
  | _ :: _ :: rest, _ => exact ⟨rest, rfl⟩

/-- What `rpc_command` hands on is the command of the packet, and the payload is all there. -/
theorem rpcCommand_sound {cmd : Byte} (hp : p.data.length = MAX_DATA)
    (h : rpcCommand p = some (cmd, payload, plen)) :
    p.type = TYPE_RPC ∧ plen ≤ payload.length ∧
      rpcData cmd (payload.take plen) <+: p.view.2 := by
  have hlen := p.len.toNat_lt
  unfold rpcCommand at h
  split_ifs at h with hshort hover
  rw [Option.some.injEq, Prod.mk.injEq, Prod.mk.injEq] at h
  obtain ⟨rfl, rfl, rfl⟩ := h
  have htwo : 2 ≤ p.data.length := by
    rw [hp]
    decide
  obtain ⟨rest, hdata⟩ := exists_command htwo
  have hrest : rest.length = 253 := by
    have hlength := congrArg List.length hdata
    rw [hp, List.length_cons, List.length_cons, MAX_DATA] at hlength
    omega
  have hle : (byteAt p.data 1).toNat ≤ rest.length := by omega
  refine ⟨not_not.mp (not_or.mp hshort).1, ?_, ?_⟩
  · rw [List.length_drop, hp, MAX_DATA]
    omega
  · have hdrop : p.data.drop 2 = rest := by
      rw [hdata]
      rfl
    obtain ⟨k, hk⟩ := Nat.exists_eq_add_of_le (show 2 ≤ p.len.toNat by omega)
    have htake : p.view.2 = byteAt p.data 0 :: byteAt p.data 1 :: rest.take k := by
      rw [Packet.view, hk, hdata, Nat.add_comm]
      rfl
    rw [htake, hdrop, rpcData, List.length_take_of_le hle, UInt8.ofNat_toNat,
      List.cons_prefix_cons, List.cons_prefix_cons]
    exact ⟨rfl, rfl, List.take_prefix_take_left (by omega)⟩

/-- A command that a packet carries is found. -/
theorem rpcCommand_complete {cmd : Byte} (htype : p.type = TYPE_RPC) (hlen : data.length < 256)
    (h : rpcData cmd data <+: p.view.2) :
    ∃ payload, rpcCommand p = some (cmd, payload, data.length) ∧
      payload.take data.length = data := by
  have hnat : (UInt8.ofNat data.length).toNat = data.length := toNat_ofNat_of_lt hlen
  have hwhole : rpcData cmd data <+: p.data := h.trans (List.take_prefix _ _)
  have hle := h.length_le
  rw [Packet.view, List.length_take, rpcData, List.length_cons, List.length_cons] at hle
  obtain ⟨rest, hdata⟩ := hwhole
  refine ⟨data ++ rest, ?_, List.take_left⟩
  unfold rpcCommand
  rw [← hdata]
  change (if p.type ≠ TYPE_RPC ∨ p.len.toNat < 2 then none
    else if (UInt8.ofNat data.length).toNat + 2 > p.len.toNat then none else _) = _
  rw [if_neg (by rw [not_or, not_not]; exact ⟨htype, by omega⟩), if_neg (by omega), ← hnat]
  rfl

/-! ## The credentials -/

section Credentials

variable {c c' : Byte} {tail rest : List Byte} {b ss pp : MemBlock Byte}

/-- Credentials stand where their lengths say. -/
theorem carries_of (hc : 1 ≤ c.toNat) (hc32 : c.toNat ≤ 32) (hrest : tail.drop c.toNat = c' :: rest)
    (hc64 : c'.toNat ≤ 64) (hlen : c'.toNat ≤ rest.length) :
    Carries (c :: tail) (tail.take c.toNat) (rest.take c'.toNat) := by
  have hdrop := congrArg List.length hrest
  rw [List.length_drop, List.length_cons] at hdrop
  have hssid : (tail.take c.toNat).length = c.toNat := List.length_take_of_le (by omega)
  have hpass : (rest.take c'.toNat).length = c'.toNat := List.length_take_of_le hlen
  constructor
  · constructor
    · rwa [hssid]
    · rwa [hssid]
    · rwa [hpass]
  · rw [wifiSettings, hssid, hpass, UInt8.ofNat_toNat, UInt8.ofNat_toNat, List.cons_prefix_cons]
    refine ⟨rfl, rest.drop c'.toNat, ?_⟩
    rw [List.append_assoc, List.cons_append, List.take_append_drop, ← hrest, List.take_append_drop]

/-- The lengths and the strings of credentials. -/
theorem Carries.parts (h : Carries (c :: tail) ssid pass) :
    c.toNat = ssid.length ∧ ∃ c' rest, tail.drop c.toNat = c' :: rest ∧
      c'.toNat = pass.length ∧ c'.toNat ≤ rest.length ∧
      tail.take c.toNat = ssid ∧ rest.take c'.toNat = pass := by
  obtain ⟨⟨-, hssid, hpass⟩, rest, hdata⟩ := h
  have hc : c.toNat = ssid.length := by
    rw [wifiSettings, List.cons_append, List.cons.injEq] at hdata
    rw [← hdata.1, toNat_ofNat_of_lt (by omega)]
  have hc' : (UInt8.ofNat pass.length).toNat = pass.length := toNat_ofNat_of_lt (by omega)
  rw [wifiSettings, List.cons_append, List.cons.injEq, List.append_assoc, List.cons_append] at hdata
  obtain ⟨-, htail⟩ := hdata
  refine ⟨hc, UInt8.ofNat pass.length, pass ++ rest, ?_, hc', ?_, ?_, ?_⟩
  · rw [← htail, hc, List.drop_left]
  · rw [hc', List.length_append]
    exact Nat.le_add_right _ _
  · rw [← htail, hc, List.take_left]
  · rw [hc', List.take_left]

/-- No other credentials stand in the same bytes. -/
theorem Carries.unique {ssid' pass' : List Byte} (h : Carries data ssid pass)
    (h' : Carries data ssid' pass') : ssid = ssid' ∧ pass = pass' := by
  cases data with
  | nil =>
      obtain ⟨-, rest, hdata⟩ := h
      cases hdata
  | cons c tail =>
      obtain ⟨-, c₁, rest₁, hdrop₁, -, -, hssid₁, hpass₁⟩ := h.parts
      obtain ⟨-, c₂, rest₂, hdrop₂, -, -, hssid₂, hpass₂⟩ := h'.parts
      rw [hdrop₁, List.cons.injEq] at hdrop₂
      obtain ⟨rfl, rfl⟩ := hdrop₂
      exact ⟨hssid₁.symm.trans hssid₂, hpass₁.symm.trans hpass₂⟩

theorem copyString_spec (payload : List Byte) (off n : ℕ) (b : MemBlock Byte)
    (hin : off + n ≤ payload.length) (hn : n < b.size) :
    ∃ b', copyString payload off n b = some b' ∧ b'.size = b.size ∧
      b'.Holds 0 ((payload.drop off).take n ++ [0]) := by
  have hlength : ((payload.drop off).take n).length = n := by
    rw [List.length_take_of_le]
    rw [List.length_drop]
    omega
  obtain ⟨b₁, b₂, hcopy₁, hcopy₂, hwithin, hholds⟩ :=
    exists_copy_terminated b 0 0 ((payload.drop off).take n) (by omega)
  rw [hlength, Nat.zero_add] at hcopy₂
  refine ⟨b₂, ?_, hwithin.size, hholds⟩
  rw [copyString, bytesAt, if_pos hin, Option.bind_some, hcopy₁, Option.bind_some, hcopy₂]

/-- The part of the payload that its length covers. -/
theorem drop_take_tail (plen : ℕ) {k : ℕ} (hrest : tail.drop k = c' :: rest) (hk : k + 2 ≤ plen) :
    (tail.take (plen - 1)).drop k = c' :: rest.take (plen - 2 - k) := by
  rw [List.drop_take, hrest, show plen - 1 - k = plen - 2 - k + 1 by omega, List.take_succ_cons]

/-- `parse_wifi_settings` stays inside the payload and the two buffers. It takes the payloads that
begin with credentials and writes them to the buffers; any other payload leaves the buffers as they
are. -/
theorem parseWifiSettings_spec (hplen : plen ≤ payload.length) (hb : b.size = 33)
    {b' : MemBlock Byte} (hb' : b'.size = 65) :
    (∃ ssid pass ss pp, Carries (payload.take plen) ssid pass ∧
        parseWifiSettings payload plen b b' = some (true, ss, pp) ∧
        ss.Holds 0 (ssid ++ [0]) ∧ pp.Holds 0 (pass ++ [0])) ∨
      parseWifiSettings payload plen b b' = some (false, b, b') ∧
        ∀ ssid pass, ¬ Carries (payload.take plen) ssid pass := by
  unfold parseWifiSettings
  by_cases hshort : plen < 2
  · refine .inr ⟨if_pos hshort, fun ssid pass h => ?_⟩
    have hle := h.2.length_le
    rw [wifiSettings, List.length_cons, List.length_append, List.length_cons] at hle
    have htake := List.length_take_le plen payload
    omega
  rw [if_neg hshort]
  cases payload with
  | nil => exact absurd hplen (by simp; omega)
  | cons c tail =>
      rw [List.length_cons] at hplen
      have hd : (c :: tail).take plen = c :: tail.take (plen - 1) := by
        rw [show plen = plen - 1 + 1 by omega, List.take_succ_cons]
        rfl
      rw [hd, List.getElem?_cons_zero, Option.bind_some]
      dsimp only
      by_cases hssid : c.toNat < 1 ∨ c.toNat > 32 ∨ 1 + c.toNat + 1 > plen
      · refine .inr ⟨if_pos hssid, fun ssid pass h => ?_⟩
        obtain ⟨hc, c', rest, hdrop, -, -, -, -⟩ := h.parts
        obtain ⟨hpos, hle, -⟩ := h.1
        have hlength := congrArg List.length hdrop
        rw [List.length_drop, List.length_take, List.length_cons] at hlength
        omega
      rw [if_neg hssid]
      -- the length of the password is there
      have hlt : c.toNat < tail.length := by omega
      have hrest : tail.drop c.toNat = tail[c.toNat] :: tail.drop (c.toNat + 1) :=
        List.drop_eq_getElem_cons hlt
      have hget : (c :: tail)[1 + c.toNat]? = some tail[c.toNat] := by
        rw [Nat.add_comm, List.getElem?_cons_succ, List.getElem?_eq_getElem hlt]
      rw [hget, Option.bind_some]
      generalize tail[c.toNat] = c', tail.drop (c.toNat + 1) = rest at hrest
      have hkept := drop_take_tail plen hrest (by omega)
      have hlength := congrArg List.length hrest
      rw [List.length_drop, List.length_cons] at hlength
      by_cases hpass : c'.toNat > 64 ∨ 1 + c.toNat + 1 + c'.toNat > plen
      · refine .inr ⟨if_pos hpass, fun ssid pass h => ?_⟩
        obtain ⟨-, c₁, rest₁, hdrop, hc₁, hle₁, -, -⟩ := h.parts
        have hfits := h.1.pass_le
        rw [hkept, List.cons.injEq] at hdrop
        obtain ⟨rfl, rfl⟩ := hdrop
        rw [List.length_take] at hle₁
        omega
      rw [if_neg hpass]
      obtain ⟨ss, hss, -, hholds⟩ :=
        copyString_spec (c :: tail) 1 c.toNat b
          (by rw [List.length_cons]; omega) (by omega)
      obtain ⟨pp, hpp, -, hholds'⟩ :=
        copyString_spec (c :: tail) (2 + c.toNat) c'.toNat b'
          (by rw [List.length_cons]; omega) (by omega)
      have hdrop : (c :: tail).drop (2 + c.toNat) = rest := by
        rw [show 2 + c.toNat = c.toNat + 1 + 1 by omega, List.drop_succ_cons, ← List.drop_drop,
          hrest]
        rfl
      rw [hdrop] at hholds'
      have hcarries := carries_of (by omega) (by omega) hkept
        (by omega) (by rw [List.length_take]; omega)
      rw [List.take_take, List.take_take, Nat.min_eq_left (by omega),
        Nat.min_eq_left (by omega)] at hcarries
      refine .inl ⟨_, _, ss, pp, hcarries, ?_, hholds, hholds'⟩
      rw [hss, Option.bind_some, hpp, Option.bind_some]

end Credentials

/-! ## From the line to the buffers -/

/-- A packet that is sent while the parser is outside a packet is received. -/
theorem received_append_encode {pre : List Byte} (h : (Parser.after pre).Outside) (type : Byte)
    (data : List Byte) (hdata : data.length ≤ MAX_DATA) :
    ∃ p, received (pre ++ encode type data) = received pre ++ [p] ∧ p.view = (type, data) := by
  have hparsed := parsed_append_encode h type hdata
  rw [parsed_eq_packets, parsed_eq_packets, ← map_view_received, ← map_view_received,
    receive_append, List.map_append, List.append_cancel_left_eq, List.map_eq_singleton_iff]
    at hparsed
  obtain ⟨p, hp, hview⟩ := hparsed
  exact ⟨p, by rw [receive_append, hp], hview⟩

theorem length_wifiSettings (ssid pass : List Byte) :
    (wifiSettings ssid pass).length = 2 + ssid.length + pass.length := by
  rw [wifiSettings, List.length_cons, List.length_append, List.length_cons]
  omega

/-- Whatever stands on the line, the credentials of a command are taken out of it without a read
or a write outside of an array, exactly when they are there; and the credentials that are sent
arrive. -/
theorem settings_received {b b' : MemBlock Byte} (hb : b.size = 33) (hb' : b'.size = 65) :
    (∀ bs p cmd payload plen, p ∈ received bs → rpcCommand p = some (cmd, payload, plen) →
      rpcData cmd (payload.take plen) <+: p.view.2 ∧
      ((∃ ssid pass ss pp, Carries (payload.take plen) ssid pass ∧
          parseWifiSettings payload plen b b' = some (true, ss, pp) ∧
          ss.Holds 0 (ssid ++ [0]) ∧ pp.Holds 0 (pass ++ [0])) ∨
        parseWifiSettings payload plen b b' = some (false, b, b') ∧
          ∀ ssid pass, ¬ Carries (payload.take plen) ssid pass)) ∧
    ∀ pre ssid pass, (Parser.after pre).Outside → Fits ssid pass →
      ∃ p payload plen ss pp,
        received (pre ++ encode TYPE_RPC (rpcData CMD_WIFI_SETTINGS (wifiSettings ssid pass))) =
          received pre ++ [p] ∧
        rpcCommand p = some (CMD_WIFI_SETTINGS, payload, plen) ∧
        parseWifiSettings payload plen b b' = some (true, ss, pp) ∧
        ss.Holds 0 (ssid ++ [0]) ∧ pp.Holds 0 (pass ++ [0]) := by
  constructor
  · intro bs p cmd payload plen hp hcmd
    obtain ⟨-, hplen, hdata⟩ := rpcCommand_sound (length_of_received hp) hcmd
    exact ⟨hdata, parseWifiSettings_spec hplen hb hb'⟩
  · intro pre ssid pass hout hfits
    obtain ⟨-, hssid, hpass⟩ := id hfits
    have hlength := length_wifiSettings ssid pass
    obtain ⟨p, hp, hview⟩ := received_append_encode hout TYPE_RPC
      (rpcData CMD_WIFI_SETTINGS (wifiSettings ssid pass))
      (by rw [rpcData, List.length_cons, List.length_cons, MAX_DATA]; omega)
    have hprefix : rpcData CMD_WIFI_SETTINGS (wifiSettings ssid pass) <+: p.view.2 := by
      rw [hview]
    obtain ⟨payload, hcmd, hpayload⟩ :=
      rpcCommand_complete (congrArg Prod.fst hview) (by omega) hprefix
    have hplen : (wifiSettings ssid pass).length ≤ payload.length := by
      have htake := congrArg List.length hpayload
      rw [List.length_take] at htake
      omega
    have hcarries : Carries (payload.take (wifiSettings ssid pass).length) ssid pass := by
      rw [hpayload]
      exact ⟨hfits, List.prefix_refl _⟩
    rcases parseWifiSettings_spec hplen hb hb' with ⟨ssid', pass', ss, pp, h, hparse, hss, hpp⟩ | h
    · obtain ⟨rfl, rfl⟩ := hcarries.unique h
      exact ⟨p, payload, _, ss, pp, hp, hcmd, hparse, hss, hpp⟩
    · exact absurd hcarries (h.2 ssid pass)

/-- Credentials behind a log line of the board, for buffers of the sizes that `ProvisionArgs`
has. -/
theorem settings_received_log :
    ∃ p payload plen ss pp,
      received (ascii "IMPRO: [wifi] down\n" ++ encode TYPE_RPC
          (rpcData CMD_WIFI_SETTINGS
            (wifiSettings (ascii "garden house") (ascii "rain & sun 42")))) =
        received (ascii "IMPRO: [wifi] down\n") ++ [p] ∧
      rpcCommand p = some (CMD_WIFI_SETTINGS, payload, plen) ∧
      parseWifiSettings payload plen (alloc 33) (alloc 65) = some (true, ss, pp) ∧
      ss.Holds 0 (ascii "garden house" ++ [0]) ∧ pp.Holds 0 (ascii "rain & sun 42" ++ [0]) := by
  have hout : (Parser.after (ascii "IMPRO: [wifi] down\n")).pos < 6 := by decide +kernel
  have hfits : Fits (ascii "garden house") (ascii "rain & sun 42") :=
    ⟨by decide, by decide, by decide⟩
  exact (settings_received (b := alloc 33) rfl rfl).2 _ _ _ hout hfits

end Improv

end Voyager
