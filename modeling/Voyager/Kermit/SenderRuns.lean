import Voyager.Kermit.Script

/-!
# The sender follows the script

`SenderAt k s` says that the sender works on packet number `k`, or has not started, or is
through. Each of its operations keeps it at `k` or, on an answer that acknowledges packet
`k`, takes it to `k + 1`; what it writes is the packet of the number it is then at, or an
error packet (`Sender.Does`).
-/

namespace Voyager

namespace Kermit

/-! ## Packets in flight -/

/-- An error packet, whoever sent it. -/
def IsError (bytes : List Byte) : Prop :=
  ∃ seq msg ckType, bytes = buildPacket seq PacketType.E msg ckType ∧
    Sendable PacketType.E msg ckType

def Clean (msg : JsString) : Prop := ∀ b ∈ strBytes msg, isControl b = false

theorem Clean.append {msg msg' : JsString} (h : Clean msg) (h' : Clean msg') :
    Clean (msg ++ msg') := by
  intro b hb
  rw [strBytes, List.map_append] at hb
  rcases List.mem_append.mp hb with hb | hb
  · exact h b hb
  · exact h' b hb

theorem isError_errorPacket {msg : JsString} (h : Clean msg) (seq : ℕ) (neg : Option Neg) :
    IsError (errorPacket seq msg neg) := by
  refine ⟨seq, _, _, rfl, rfl, fun b hb => h b (List.mem_of_mem_take hb), ?_⟩
  have hlen : ((strBytes msg).take 80).length ≤ 80 := List.length_take_le 80 _
  have hck : ckLen (ckTypeOr neg) ≤ 3 := by
    rw [ckLen]
    split <;> omega
  omega

/-- What the sender may have written while at packet `k`. -/
def Forward (o : SenderOptions) (k : ℕ) (bytes : List Byte) : Prop :=
  bytes = packetAt o k ∧ cursorAt o k ≠ .fin ∨ IsError bytes

/-- What the receiver may have written when it had accepted `l` packets. -/
inductive Answer (timeoutMs : ℕ) : ℕ → List Byte → Prop
  | nak (l : ℕ) :
      Answer timeoutMs l (buildPacket (l % 64) PacketType.N [] (if l = 0 then 1 else 3))
  | ack (l : ℕ) (payload : List Byte) (ckType : ℕ) (h : Sendable PacketType.Y payload ckType)
      (hinit : l = 0 → payload = initParams (sessionTimeout timeoutMs) ∧ ckType = 1) :
      Answer timeoutMs (l + 1) (buildPacket (l % 64) PacketType.Y payload ckType)
  | error (l : ℕ) (bytes : List Byte) (h : IsError bytes) : Answer timeoutMs l bytes

/-! ## The packet read from a packet written -/

theorem Packet.type_packetFrame (seq : ℕ) (type : Byte) (data : List Byte) (ckType : ℕ) :
    (packetFrame seq type data ckType).type = type := Packet.seq_packetFrame.2

theorem Packet.seq_packetFrame_mod (l : ℕ) (type : Byte) (data : List Byte) (ckType : ℕ) :
    (packetFrame (l % 64) type data ckType).seq.toNat = l % 64 := by
  rw [Packet.seq_packetFrame.1, Nat.mod_mod]

theorem mod_succ_and (k : ℕ) : (k % 64 + 1) &&& 63 = (k + 1) % 64 := by
  have hand : (k % 64 + 1) &&& 63 = (k % 64 + 1) % 64 := Nat.and_two_pow_sub_one_eq_mod _ 6
  omega

/-- A NAK with the check the negotiation asked for has no right check of type 1, so the
sender cannot take it for the acknowledgement of its parameters. -/
theorem data_nak_one : (packetFrame 1 PacketType.N [] 3).data 1 = none := by decide +kernel

/-! ## The state of the sender -/

section

variable (o : SenderOptions) (timeoutMs : ℕ)

/-- The parameters the sender reads from the receiver's acknowledgement. -/
def senderNeg : Neg := negotiate (initParams (sessionTimeout timeoutMs))

/-- The sender is not through, and its variables are those of packet `k`. -/
structure Entering (k : ℕ) (s : Sender) : Prop where
  done : s.done = false
  seq : s.seq = k % 64
  neg : s.neg = if k = 0 then none else some (senderNeg timeoutMs)

/-- The exchange is that of packet `k`. -/
structure Exchange.For (k : ℕ) (x : Exchange) : Prop where
  notFin : cursorAt o k ≠ .fin
  type : x.type = (cursorAt o k).type
  pkt : x.pkt = packetAt o k
  ckType : x.ckType = (cursorAt o k).ckType
  stage : x.stage = (cursorAt o k).stage o

inductive SenderAt (k : ℕ) (s : Sender) : Prop
  | idle (hk : k = 0) (hdone : s.done = false) (hwaiting : s.waiting = none) (hseq : s.seq = 0)
      (hneg : s.neg = none)
  | working (x : Exchange) (hwaiting : s.waiting = some x) (h : Entering timeoutMs k s)
      (hx : x.For o k)
  | ended (hdone : s.done = true) (hwaiting : s.waiting = none)

/-- An operation of the sender left it at packet `k`, with effects that fit. -/
structure Sender.Does (k : ℕ) (a : Sender × List SenderEffect) : Prop where
  state : SenderAt o timeoutMs k a.1
  written : ∀ e ∈ a.2, ∀ bytes, e.written = some bytes → Forward o k bytes
  completed : ∀ e ∈ a.2, e.completion = some (.sender true) → cursorAt o k = .fin

variable {o timeoutMs} {k : ℕ} {s : Sender} {x : Exchange}

theorem SenderAt.does_nil (h : SenderAt o timeoutMs k s) : Sender.Does o timeoutMs k (s, []) :=
  ⟨h, fun _ he => absurd he List.not_mem_nil, fun _ he => absurd he List.not_mem_nil⟩

theorem SenderAt.withParser (h : SenderAt o timeoutMs k s) (p : Parser) :
    SenderAt o timeoutMs k { s with parser := p } := by
  cases h with
  | idle hk hdone hwaiting hseq hneg => exact .idle hk hdone hwaiting hseq hneg
  | working x hwaiting h hx => exact .working x hwaiting ⟨h.done, h.seq, h.neg⟩ hx
  | ended hdone hwaiting => exact .ended hdone hwaiting

theorem Sender.does_fail (hdone : s.done = false) {msg : JsString} {notifyPeer : Bool}
    (hmsg : notifyPeer = true → Clean msg) :
    Sender.Does o timeoutMs k (s.fail msg notifyPeer) := by
  rw [Sender.fail, if_neg (by rw [hdone]; exact Bool.false_ne_true)]
  refine ⟨.ended rfl rfl, fun e he bytes hbytes => ?_, fun e he hcomplete => ?_⟩
  · rcases List.mem_append.mp he with he | he
    · split at he
      · next hnotify =>
          obtain rfl := List.mem_singleton.mp he
          cases hbytes
          exact .inr (isError_errorPacket (hmsg hnotify) _ _)
      · exact absurd he List.not_mem_nil
    · obtain rfl := List.mem_singleton.mp he
      cases hbytes
  · rcases List.mem_append.mp he with he | he
    · split at he
      · obtain rfl := List.mem_singleton.mp he
        cases hcomplete
      · exact absurd he List.not_mem_nil
    · obtain rfl := List.mem_singleton.mp he
      cases hcomplete

theorem SenderAt.does_cancel (h : SenderAt o timeoutMs k s) :
    Sender.Does o timeoutMs k s.cancel := by
  have hclean : Clean (lit "Cancelled by sender") := by
    unfold Clean
    decide +kernel
  cases hdone : s.done with
  | true =>
      rw [Sender.cancel, Sender.fail, if_pos hdone]
      exact h.does_nil
  | false => exact Sender.does_fail hdone fun _ => hclean

theorem clean_singleton {b : Byte} (h : isControl b = false) : Clean [b.toUInt16] := by
  intro c hc
  have hb : b.toUInt16.toUInt8 = b := by simp
  rw [strBytes, List.map_singleton, List.mem_singleton, hb] at hc
  rw [hc]
  exact h

theorem clean_noResponse {type : Byte} (h : isControl type = false) :
    Clean (lit "No response from receiver (" ++ [type.toUInt16] ++ lit " packet)") := by
  have hhead : Clean (lit "No response from receiver (") := by
    unfold Clean
    decide +kernel
  have htail : Clean (lit " packet)") := by
    unfold Clean
    decide +kernel
  exact (hhead.append (clean_singleton h)).append htail

/-- One more try of packet `k`, or the end of the tries. -/
theorem Entering.does_send (h : Entering timeoutMs k s) (hx : x.For o k) :
    Sender.Does o timeoutMs k (s.send x) := by
  rw [Sender.send, if_neg (by rw [h.done]; exact Bool.false_ne_true)]
  split
  · refine Sender.does_fail h.done fun _ => ?_
    rw [hx.type]
    exact clean_noResponse ((cursorAt o k).sendable (o := o)).type_clean
  · refine ⟨.working { x with tries := x.tries + 1 } rfl ⟨h.done, h.seq, h.neg⟩
      ⟨hx.notFin, hx.type, hx.pkt, hx.ckType, hx.stage⟩, ?_, ?_⟩
    · intro e he bytes hbytes
      obtain rfl := List.mem_singleton.mp he
      cases hbytes
      exact .inl ⟨hx.pkt, hx.notFin⟩
    · intro e he hcomplete
      obtain rfl := List.mem_singleton.mp he
      cases hcomplete

theorem Entering.does_exchange (h : Entering timeoutMs k s) {c : Cursor}
    (hc : cursorAt o k = c) (hfin : c ≠ .fin) {type : Byte} {payload : List Byte} {ckType : ℕ}
    {stage : Stage} (htype : type = c.type) (hpayload : payload = c.payload o)
    (hck : ckType = c.ckType) (hstage : stage = c.stage o) :
    Sender.Does o timeoutMs k (s.exchange type payload ckType stage) := by
  subst hc htype hpayload hck hstage
  refine h.does_send ⟨hfin, rfl, ?_, rfl, rfl⟩
  rw [packetAt, h.seq]

theorem Entering.does_sendData (h : Entering timeoutMs k s) {neg : Neg} (hneg : neg.Ours)
    {pos : ℕ} (hc : cursorAt o k = .dataFrom o pos) :
    Sender.Does o timeoutMs k (s.sendData o neg pos) := by
  rw [Sender.sendData]
  split
  · next hend =>
      rw [Cursor.dataFrom, if_pos hend] at hc
      rw [Sender.sendEof, hneg.ckType]
      exact h.does_exchange hc (by simp) rfl rfl rfl rfl
  · next hmore =>
      rw [Cursor.dataFrom, if_neg hmore] at hc
      rw [hneg.ckType, hneg.room, hneg.quote]
      exact h.does_exchange hc (by simp) rfl rfl rfl rfl

theorem Sender.Does.cons_progress {a : Sender × List SenderEffect}
    (h : Sender.Does o timeoutMs k a) (sent total : ℕ) :
    Sender.Does o timeoutMs k (a.1, .progress sent total :: a.2) := by
  refine ⟨h.state, fun e he => ?_, fun e he => ?_⟩
  · rcases List.mem_cons.mp he with rfl | he
    · exact nofun
    · exact h.written e he
  · rcases List.mem_cons.mp he with rfl | he
    · exact nofun
    · exact h.completed e he

/-- Going on after the acknowledgement of packet `k`. -/
theorem Entering.does_onAck (h : Entering timeoutMs (k + 1) s) {neg : Neg} (hneg : neg.Ours)
    (hfin : cursorAt o k ≠ .fin) (d : List Byte) :
    Sender.Does o timeoutMs (k + 1) (s.onAck o neg ((cursorAt o k).stage o) d) := by
  have hnext : cursorAt o (k + 1) = (cursorAt o k).next o := rfl
  cases hc : cursorAt o k with
  | init =>
      rw [hc] at hnext
      simp only [Cursor.stage, Sender.onAck, Sender.sendFile]
      rw [hneg.ckType, hneg.room, hneg.quote]
      exact h.does_exchange hnext nofun rfl rfl rfl rfl
  | file =>
      rw [hc] at hnext
      simp only [Cursor.stage, Sender.onAck, Sender.afterFile]
      rw [if_pos hneg.attr, hneg.ckType]
      exact h.does_exchange hnext nofun rfl rfl rfl rfl
  | attr =>
      rw [hc] at hnext
      simp only [Cursor.stage, Sender.onAck]
      split
      · refine Sender.does_fail h.done fun _ => ?_
        unfold Clean
        decide +kernel
      · exact h.does_sendData hneg hnext
  | data pos =>
      rw [hc] at hnext
      simp only [Cursor.stage, Sender.onAck]
      split
      · exact Sender.does_fail h.done fun hnot => absurd hnot Bool.false_ne_true
      · exact (h.does_sendData hneg hnext).cons_progress _ _
  | eof =>
      rw [hc] at hnext
      simp only [Cursor.stage, Sender.onAck]
      rw [hneg.ckType]
      exact h.does_exchange hnext nofun rfl rfl rfl rfl
  | brk =>
      rw [hc] at hnext
      simp only [Cursor.stage, Sender.onAck]
      refine ⟨.ended rfl rfl, fun e he bytes hbytes => ?_, fun _ _ _ => hnext⟩
      obtain rfl := List.mem_singleton.mp he
      cases hbytes
  | fin => exact absurd hc hfin

/-- Packet `k` is acknowledged: the sender enters packet `k + 1`. Only for its own
parameters does it matter with what data. -/
theorem Entering.does_ack (h : Entering timeoutMs k s) (hx : x.For o k) {d : List Byte}
    (hinit : k = 0 → d = initParams (sessionTimeout timeoutMs)) :
    Sender.Does o timeoutMs (k + 1) (s.ack o x d) := by
  have hseq : (s.seq + 1) &&& 63 = (k + 1) % 64 := by rw [h.seq, mod_succ_and]
  have hneg : Sender.negFor { s with waiting := none, timer := false, seq := (s.seq + 1) &&& 63 }
      x.stage d = some (senderNeg timeoutMs) := by
    rw [hx.stage]
    by_cases hk : k = 0
    · rw [(cursorAt_eq_init_iff o).mpr hk, Cursor.stage, Sender.negFor, hinit hk]
      rfl
    · have hne := mt (cursorAt_eq_init_iff o).mp hk
      have hsome : s.neg = some (senderNeg timeoutMs) := by rw [h.neg, if_neg hk]
      cases hc : cursorAt o k with
      | init => exact absurd hc hne
      | _ => exact hsome
  have henter : Entering timeoutMs (k + 1)
      { s with waiting := none, timer := false, seq := (s.seq + 1) &&& 63,
               neg := some (senderNeg timeoutMs) } :=
    ⟨h.done, hseq, (if_neg (Nat.succ_ne_zero k)).symm⟩
  simp only [Sender.ack, hneg]
  rw [hx.stage]
  exact henter.does_onAck (ours_negotiate _) hx.notFin d

/-- The sender reads an answer: it stays at `k`, or the answer acknowledged packet `k` and
it goes on. -/
def Sender.Moves (o : SenderOptions) (timeoutMs k l : ℕ) (a : Sender × List SenderEffect) : Prop :=
  Sender.Does o timeoutMs k a ∨ l = k + 1 ∧ Sender.Does o timeoutMs (k + 1) a

theorem type_eq_S_iff {k : ℕ} : (cursorAt o k).type = PacketType.S ↔ k = 0 := by
  rw [← cursorAt_eq_init_iff o]
  cases cursorAt o k <;> simp [Cursor.type, PacketType.S, PacketType.F, PacketType.A,
    PacketType.D, PacketType.Z, PacketType.B]

/-- Before the negotiation an answer has block check `1`, after it `3`. -/
theorem Exchange.For.ckType_eq (hx : x.For o k) :
    (if x.type = PacketType.S then 1 else x.ckType) = if k = 0 then 1 else 3 := by
  rw [hx.type, hx.ckType]
  by_cases hk : k = 0
  · rw [if_pos (type_eq_S_iff.mpr hk), if_pos hk]
  · rw [if_neg (mt type_eq_S_iff.mp hk), if_neg hk]
    have hne := mt (cursorAt_eq_init_iff o).mp hk
    cases hc : cursorAt o k with
    | init => exact absurd hc hne
    | _ => rfl

theorem moves_nak (hwaiting : s.waiting = some x) (h : Entering timeoutMs k s) (hx : x.For o k)
    {l : ℕ} (hl : l = k ∨ l = k + 1) :
    Sender.Moves o timeoutMs k l
      (s.onPacket o x (packetFrame (l % 64) PacketType.N [] (if l = 0 then 1 else 3))) := by
  have hat : SenderAt o timeoutMs k s := .working x hwaiting h hx
  rw [Sender.onPacket]
  cases hcheck : Sender.check x
      (packetFrame (l % 64) PacketType.N [] (if l = 0 then 1 else 3)) with
  | none => exact .inl hat.does_nil
  | some d =>
      dsimp only
      rw [Sender.react, Packet.type_packetFrame, Packet.seq_packetFrame_mod, h.seq, mod_succ_and,
        if_neg (by decide), if_pos rfl]
      rcases hl with rfl | rfl
      · rw [if_neg (StopAndWait.Link.succ_mod_ne (by decide) l), if_pos rfl]
        exact .inl (h.does_send hx)
      · rw [if_pos rfl]
        refine .inr ⟨rfl, h.does_ack hx fun hk => ?_⟩
        -- The NAK of packet 1 is not read before the negotiation.
        subst hk
        rw [Sender.check, hx.ckType_eq, if_pos rfl, if_neg (by decide), data_nak_one,
          Packet.type_packetFrame, if_neg (by decide)] at hcheck
        cases hcheck

theorem moves_ack (hwaiting : s.waiting = some x) (h : Entering timeoutMs k s) (hx : x.For o k)
    {l : ℕ} (hl : l + 1 = k ∨ l + 1 = k + 1) {payload : List Byte} {ckType : ℕ}
    (hinit : l = 0 → payload = initParams (sessionTimeout timeoutMs) ∧ ckType = 1) :
    Sender.Moves o timeoutMs k (l + 1)
      (s.onPacket o x (packetFrame (l % 64) PacketType.Y payload ckType)) := by
  have hat : SenderAt o timeoutMs k s := .working x hwaiting h hx
  rw [Sender.onPacket]
  cases hcheck : Sender.check x (packetFrame (l % 64) PacketType.Y payload ckType) with
  | none => exact .inl hat.does_nil
  | some d =>
      dsimp only
      rw [Sender.react, Packet.type_packetFrame, Packet.seq_packetFrame_mod, h.seq,
        if_neg (by decide), if_neg (by decide)]
      rcases hl with rfl | hl
      · rw [if_neg fun hmod => StopAndWait.Link.succ_mod_ne (by decide) l hmod.2]
        exact .inl hat.does_nil
      · obtain rfl : l = k := Nat.succ.inj hl
        rw [if_pos ⟨rfl, rfl⟩]
        refine .inr ⟨rfl, h.does_ack hx fun hk => ?_⟩
        obtain ⟨rfl, rfl⟩ := hinit hk
        rw [Sender.check, hx.ckType_eq, if_pos hk, Packet.data_packetFrame] at hcheck
        exact (Option.some.inj hcheck).symm

theorem moves_error (hwaiting : s.waiting = some x) (h : Entering timeoutMs k s) (hx : x.For o k)
    (l seq : ℕ) (msg : List Byte) (ckType : ℕ) :
    Sender.Moves o timeoutMs k l
      (s.onPacket o x (packetFrame seq PacketType.E msg ckType)) := by
  have hat : SenderAt o timeoutMs k s := .working x hwaiting h hx
  refine .inl ?_
  rw [Sender.onPacket]
  cases hcheck : Sender.check x (packetFrame seq PacketType.E msg ckType) with
  | none => exact hat.does_nil
  | some d =>
      dsimp only
      rw [Sender.react, Packet.type_packetFrame, if_pos rfl]
      exact Sender.does_fail h.done fun hnot => absurd hnot Bool.false_ne_true

theorem SenderAt.handle_eq (hwaiting : s.waiting = some x) (hdone : s.done = false) (p : Packet) :
    s.handle o p = s.onPacket o x p := by
  rw [Sender.handle, hwaiting]
  exact if_neg (by rw [hdone]; exact Bool.false_ne_true)

/-- The parser's callback, with a packet read from an answer. -/
theorem SenderAt.moves_handle (h : SenderAt o timeoutMs k s) {l : ℕ} {p : Packet}
    (hp : ∀ x, s.waiting = some x → Entering timeoutMs k s → x.For o k →
      Sender.Moves o timeoutMs k l (s.onPacket o x p)) :
    Sender.Moves o timeoutMs k l (s.handle o p) := by
  have hnone : s.waiting = none → s.handle o p = (s, []) := fun hw => by rw [Sender.handle, hw]
  cases h with
  | idle hk hdone hwaiting hseq hneg =>
      rw [hnone hwaiting]
      exact .inl (SenderAt.does_nil (.idle hk hdone hwaiting hseq hneg))
  | ended hdone hwaiting =>
      rw [hnone hwaiting]
      exact .inl (SenderAt.does_nil (.ended hdone hwaiting))
  | working x hwaiting h hx =>
      rw [SenderAt.handle_eq hwaiting h.done]
      exact hp x hwaiting h hx

theorem Sender.deliver_buildPacket {type : Byte} {data : List Byte} {ckType : ℕ}
    (h : Sendable type data ckType) (seq : ℕ) :
    s.deliver o (buildPacket seq type data ckType) = (s, []) ∨
      s.deliver o (buildPacket seq type data ckType) =
        Sender.handle o { s with parser := createParser } (packetFrame seq type data ckType) := by
  rw [Sender.deliver]
  split
  · right
    dsimp only
    rw [Parser.feed_buildPacket _ h, Mealy.run_cons, Mealy.run_nil, List.append_nil]
  · exact .inl rfl

/-- One packet of the receiver arrives. -/
theorem SenderAt.moves_deliver (h : SenderAt o timeoutMs k s) {l : ℕ} {bytes : List Byte}
    (hl : l = k ∨ l = k + 1) (hbytes : Answer timeoutMs l bytes) :
    Sender.Moves o timeoutMs k l (s.deliver o bytes) := by
  have hparser := h.withParser createParser
  cases hbytes with
  | nak l =>
      have hsend : Sendable PacketType.N [] (if l = 0 then 1 else 3) :=
        ⟨rfl, fun _ hb => absurd hb List.not_mem_nil, by split <;> decide⟩
      rcases Sender.deliver_buildPacket hsend (l % 64) with hd | hd
      · rw [hd]
        exact .inl h.does_nil
      · rw [hd]
        exact hparser.moves_handle fun x hw he hx => moves_nak hw he hx hl
  | ack l payload ckType hsend hinit =>
      rcases Sender.deliver_buildPacket hsend (l % 64) with hd | hd
      · rw [hd]
        exact .inl h.does_nil
      · rw [hd]
        exact hparser.moves_handle fun x hw he hx => moves_ack hw he hx hl hinit
  | error l bytes herr =>
      obtain ⟨seq, msg, ckType, rfl, hsend⟩ := herr
      rcases Sender.deliver_buildPacket hsend seq with hd | hd
      · rw [hd]
        exact .inl h.does_nil
      · rw [hd]
        exact hparser.moves_handle fun x hw he hx => moves_error hw he hx l seq msg ckType

/-- Bytes in which the block check rejects every packet change nothing but the parser. -/
theorem SenderAt.does_deliver_damaged (h : SenderAt o timeoutMs k s) {bytes : List Byte}
    (hbad : s.Detects bytes) : Sender.Does o timeoutMs k (s.deliver o bytes) := by
  rw [Sender.deliver]
  split
  · dsimp only
    generalize (s.parser.feed bytes).1 = p at *
    have hrun : ∀ pkts : List Packet, (∀ p ∈ pkts, ∀ x ∈ s.waiting, Sender.check x p = none) →
        Mealy.run (Sender.handle o) { s with parser := p } pkts = ({ s with parser := p }, []) := by
      intro pkts hpkts
      induction pkts with
      | nil => rfl
      | cons pkt pkts ih =>
          have hhandle :
              Sender.handle o { s with parser := p } pkt = ({ s with parser := p }, []) := by
            cases hw : s.waiting with
            | none => simp only [Sender.handle]
            | some x =>
                have hcheck := hpkts pkt List.mem_cons_self x hw
                simp only [Sender.handle, Sender.onPacket, hcheck, ite_self]
          rw [Mealy.run_cons, hhandle, ih fun q hq => hpkts q (List.mem_cons_of_mem _ hq)]
          rfl
    rw [hrun _ hbad]
    exact (h.withParser p).does_nil
  · exact h.does_nil

theorem SenderAt.does_timeout (h : SenderAt o timeoutMs k s) :
    Sender.Does o timeoutMs k s.timeout := by
  cases h with
  | idle hk hdone hwaiting hseq hneg =>
      simp only [Sender.timeout, hwaiting]
      exact SenderAt.does_nil (.idle hk hdone rfl hseq hneg)
  | ended hdone hwaiting =>
      simp only [Sender.timeout, hwaiting]
      exact SenderAt.does_nil (.ended hdone rfl)
  | working x hwaiting h hx =>
      simp only [Sender.timeout, hwaiting]
      exact Entering.does_send ⟨h.done, h.seq, h.neg⟩ hx

/-- Before the start nothing runs; the start sends packet `0`, unless the sender was
cancelled. -/
theorem SenderAt.does_start (h : SenderAt o timeoutMs k s) (hwaiting : s.waiting = none) :
    Sender.Does o timeoutMs k (s.start o) := by
  rw [Sender.start, Sender.sendInit]
  cases h with
  | idle hk hdone hwaiting hseq hneg =>
      subst hk
      have henter : Entering timeoutMs 0 { s with listening := true } := ⟨hdone, hseq, hneg⟩
      exact henter.does_exchange (c := .init) rfl (by simp) rfl rfl rfl rfl
  | ended hdone hwaiting =>
      rw [Sender.exchange, Sender.send, if_pos hdone]
      exact SenderAt.does_nil (.ended hdone hwaiting)
  | working x hw h hx =>
      rw [hwaiting] at hw
      cases hw

end

end Kermit

end Voyager
