import Voyager.Kermit.Events
import Voyager.Kermit.SenderRuns
import Voyager.Lora.Frame

/-!
# Every packet fits a frame

Whatever parameters the peer sends, the prefixes that come out of the negotiation are no
control characters, so encoded data never hold one, and the room for them is bounded by
what we can send at all. So every packet that a sender or a receiver writes begins with its
only `MARK`, ends with its only `EOL`, and is short enough for one LoRa frame (`Framed`).
-/

namespace Voyager

namespace Kermit

/-- One packet on the line. -/
def Framed (bytes : List Byte) : Prop :=
  ∃ inside, bytes = MARK :: (inside ++ [EOL]) ∧ (∀ b ∈ inside, isControl b = false) ∧
    bytes.length ≤ LoraProto.MAX_PAYLOAD

/-! ## Encoded data -/

/-- The prefixes in use are no control characters. -/
structure Quote.Clean (q : Quote) : Prop where
  qbin : q.qbin ≠ 0 → isControl q.qbin = false
  rept : q.rept ≠ 0 → isControl q.rept = false

theorem quote_negotiate_clean (peer : List Byte) : (negotiate peer).quote.Clean where
  qbin h := by
    have hall : ∀ b : Byte, (33 ≤ b ∧ b ≤ 62) ∨ (96 ≤ b ∧ b ≤ 126) → isControl b = false := by
      intro b
      refine forall_byte ?_ b
      unfold isControl
      decide +kernel
    rw [Neg.quote, negotiate] at h ⊢
    dsimp only at h ⊢
    split
    · next hrange => exact hall _ hrange
    · next hrange =>
        rw [if_neg hrange] at h
        exact absurd rfl h
  rept h := by
    rw [Neg.quote, negotiate] at h ⊢
    dsimp only at h ⊢
    split
    · rfl
    · next hrept =>
        rw [if_neg hrept] at h
        exact absurd rfl h

variable {q : Quote}

theorem encodePlain_clean (b : Byte) (q : Quote) : ∀ c ∈ encodePlain b q, isControl c = false := by
  have hqctl : isControl QCTL = false := rfl
  rw [encodePlain]
  split
  · next hctl =>
      have hnot : ¬ Printable b := by rwa [printable_iff_not_control, not_not]
      have hclean := isControl_of_printable (printable_ctl b hnot).1
      simp [hqctl, hclean]
  · next hctl =>
      have hclean := isControl_of_printable ((printable_iff_not_control b).mpr hctl)
      split
      · simp [hqctl, hclean]
      · simp [hclean]

theorem Quote.Clean.encodeByte (hq : q.Clean) (b : Byte) :
    ∀ c ∈ encodeByte b q, isControl c = false := by
  by_cases heighth : q.qbin ≠ 0 ∧ b &&& 0x80 ≠ 0
  · rw [encodeByte_of_eighth heighth]
    exact List.forall_mem_cons.mpr ⟨hq.qbin heighth.1, encodePlain_clean _ q⟩
  · rw [encodeByte_of_not_eighth heighth]
    exact encodePlain_clean b q

theorem Quote.Clean.encodePiece (hq : q.Clean) (b : Byte) (rest : List Byte) :
    ∀ c ∈ (encodePiece b rest q).1, isControl c = false := by
  rcases encodePiece_cases b rest q with ⟨hrept, hpiece⟩ | hpiece
  · rw [hpiece]
    have hcount : isControl (tochar (countRun b 1 rest)) = false :=
      (isControl_tochar (countRun_spec b 1 rest (by decide)).2.1).1
    exact List.forall_mem_cons.mpr
      ⟨hq.rept hrept, List.forall_mem_cons.mpr ⟨hcount, hq.encodeByte b⟩⟩
  · rw [hpiece]
    exact hq.encodeByte b

theorem Quote.Clean.encodeLoop (hq : q.Clean) {maxData : ℕ} {out : List Byte}
    (hout : ∀ c ∈ out, isControl c = false) (hlen : out.length ≤ maxData) (i : ℕ)
    (src : List Byte) :
    (∀ c ∈ (encodeLoop maxData q out i src).bytes, isControl c = false) ∧
      (encodeLoop maxData q out i src).bytes.length ≤ maxData := by
  fun_induction Kermit.encodeLoop maxData q out i src with
  | case1 out i => exact ⟨hout, hlen⟩
  | case2 out i b rest piece h => exact ⟨hout, hlen⟩
  | case3 out i b rest piece h ih =>
      refine ih (fun c hc => ?_) ?_
      · rcases List.mem_append.mp hc with hc | hc
        · exact hout c hc
        · exact hq.encodePiece b rest c hc
      · rw [List.length_append]
        exact Nat.le_of_not_lt h

theorem Quote.Clean.encodeChunk (hq : q.Clean) (src : List Byte) (pos maxData : ℕ) :
    (∀ c ∈ (encodeChunk src pos maxData q).bytes, isControl c = false) ∧
      (encodeChunk src pos maxData q).bytes.length ≤ maxData :=
  hq.encodeLoop (fun _ hc => absurd hc List.not_mem_nil) (Nat.zero_le maxData) pos _

theorem dataRoom_le (neg : Neg) : (dataRoom neg).toNat + ckLen neg.ckType ≤ 225 := by
  have hck : ckLen neg.ckType ≤ 3 := by
    rw [ckLen]
    split <;> omega
  rw [dataRoom, MAX_LONG, MAX_BASIC]
  split <;> omega

/-! ## Packets -/

/-- What a packet is made from when it fits a frame. -/
structure Fits (type : Byte) (payload : List Byte) (ckType : ℕ) : Prop where
  type_clean : isControl type = false
  payload_clean : ∀ b ∈ payload, isControl b = false
  length_le : payload.length + ckLen ckType ≤ 243

theorem Fits.framed {type : Byte} {payload : List Byte} {ckType : ℕ}
    (h : Fits type payload ckType) (seq : ℕ) : Framed (buildPacket seq type payload ckType) := by
  have hlen := h.length_le
  have hsend : Sendable type payload ckType := ⟨h.type_clean, h.payload_clean, by omega⟩
  have hclean := isControl_packetFrame seq hsend
  have hraw := packetFrame_length seq type payload ckType
  have hhdr : (packetFrame seq type payload ckType).hdr ≤ 7 := by
    rw [packetFrame, packetHeader]
    dsimp only
    split <;> simp
  obtain ⟨rest, hrest⟩ := packetFrame_cons seq type payload ckType
  rw [hrest, List.drop_one, List.tail_cons] at hclean
  rw [hrest] at hraw
  refine ⟨rest, ?_, hclean, ?_⟩
  · rw [buildPacket_eq, hrest, List.cons_append]
  · rw [buildPacket_eq, hrest, List.length_append, List.length_singleton, LoraProto.MAX_PAYLOAD]
    omega

theorem ckLen_le (ckType : ℕ) : ckLen ckType ≤ 3 := by
  rw [ckLen]
  split <;> omega

theorem fits_of_length_le {type : Byte} {payload : List Byte} (htype : isControl type = false)
    (hclean : ∀ b ∈ payload, isControl b = false) (hlen : payload.length ≤ 80) (ckType : ℕ) :
    Fits type payload ckType :=
  ⟨htype, hclean, by have := ckLen_le ckType; omega⟩

theorem fits_nil {type : Byte} (htype : isControl type = false) (ckType : ℕ) :
    Fits type [] ckType :=
  fits_of_length_le htype (fun _ hb => absurd hb List.not_mem_nil) (Nat.zero_le 80) ckType

theorem fits_initParams {type : Byte} (htype : isControl type = false) (timeoutMs ckType : ℕ) :
    Fits type (initParams timeoutMs) ckType :=
  fits_of_length_le htype (initParams_clean timeoutMs) (show 13 ≤ 80 by decide) ckType

theorem fits_chunk {type : Byte} (htype : isControl type = false) {neg : Neg}
    (hneg : neg.quote.Clean) (src : List Byte) (pos : ℕ) :
    Fits type (encodeChunk src pos (dataRoom neg).toNat neg.quote).bytes neg.ckType := by
  obtain ⟨hclean, hlen⟩ := hneg.encodeChunk src pos (dataRoom neg).toNat
  have hroom := dataRoom_le neg
  exact ⟨htype, hclean, by omega⟩

theorem framed_errorPacket {msg : JsString} (h : Clean msg) (seq : ℕ) (neg : Option Neg) :
    Framed (errorPacket seq msg neg) :=
  (fits_of_length_le rfl (fun b hb => h b (List.mem_of_mem_take hb)) (List.length_take_le 80 _)
    _).framed seq

/-! ## The sender -/

/-- The running exchange has a packet that fits, and what was negotiated is clean. -/
structure Sender.Tidy (s : Sender) : Prop where
  waiting : ∀ x, s.waiting = some x → isControl x.type = false ∧ Framed x.pkt
  neg : ∀ neg, s.neg = some neg → neg.quote.Clean

def SenderEffect.Framed (e : SenderEffect) : Prop := ∀ bytes, e = .write bytes → Kermit.Framed bytes

def ReceiverEffect.Framed (e : ReceiverEffect) : Prop :=
  ∀ bytes, e = .write bytes → Kermit.Framed bytes

/-- A call leaves the sender tidy, and what it writes is framed. -/
def Sender.Puts (a : Sender × List SenderEffect) : Prop := a.1.Tidy ∧ ∀ e ∈ a.2, e.Framed

variable {o : SenderOptions} {s : Sender}

theorem SenderEffect.framed_write {bytes : List Byte} (h : Kermit.Framed bytes) :
    (SenderEffect.write bytes).Framed := fun _ hb => by
  cases hb
  exact h

theorem Sender.Tidy.puts_nil (h : s.Tidy) : Sender.Puts (s, []) :=
  ⟨h, fun _ he => absurd he List.not_mem_nil⟩

theorem Sender.Tidy.puts_fail (h : s.Tidy) {msg : JsString} {notifyPeer : Bool}
    (hmsg : notifyPeer = true → Clean msg) : Sender.Puts (s.fail msg notifyPeer) := by
  rw [Sender.fail]
  split
  · exact h.puts_nil
  · refine ⟨⟨fun x hx => (by cases hx), h.neg⟩, fun e he => ?_⟩
    rcases List.mem_append.mp he with he | he
    · split at he
      · next hnotify =>
          rw [List.mem_singleton.mp he]
          exact SenderEffect.framed_write (framed_errorPacket (hmsg hnotify) _ _)
      · exact absurd he List.not_mem_nil
    · rw [List.mem_singleton.mp he]
      exact fun _ hb => by cases hb

theorem Sender.Tidy.puts_send (h : s.Tidy) {x : Exchange} (htype : isControl x.type = false)
    (hpkt : Framed x.pkt) : Sender.Puts (s.send x) := by
  rw [Sender.send]
  split
  · exact h.puts_nil
  · split
    · exact h.puts_fail fun _ => clean_noResponse htype
    · refine ⟨⟨fun y hy => ?_, h.neg⟩, fun e he => ?_⟩
      · cases hy
        exact ⟨htype, hpkt⟩
      · rw [List.mem_singleton.mp he]
        exact SenderEffect.framed_write hpkt

theorem Sender.Tidy.puts_exchange (h : s.Tidy) {type : Byte} {payload : List Byte} {ckType : ℕ}
    (hfits : Fits type payload ckType) (stage : Stage) :
    Sender.Puts (s.exchange type payload ckType stage) :=
  h.puts_send hfits.type_clean (hfits.framed s.seq)

theorem Sender.Tidy.puts_sendData (h : s.Tidy) {neg : Neg} (hneg : neg.quote.Clean) (pos : ℕ) :
    Sender.Puts (s.sendData o neg pos) := by
  rw [Sender.sendData]
  split
  · exact h.puts_exchange (fits_nil rfl _) _
  · exact h.puts_exchange (fits_chunk rfl hneg _ pos) _

theorem Sender.Tidy.puts_onAck (h : s.Tidy) {neg : Neg} (hneg : neg.quote.Clean) (stage : Stage)
    (d : List Byte) : Sender.Puts (s.onAck o neg stage d) := by
  cases stage with
  | init => exact h.puts_exchange (fits_chunk rfl hneg _ 0) _
  | file =>
      rw [Sender.onAck, Sender.afterFile]
      split
      · have hlen := (attrs_clean o).1
        exact h.puts_exchange (fits_of_length_le rfl (attrs_clean o).2 (by omega) _) _
      · exact h.puts_sendData hneg 0
  | attr =>
      rw [Sender.onAck]
      split
      · refine h.puts_fail fun _ => ?_
        unfold Clean
        decide +kernel
      · exact h.puts_sendData hneg 0
  | data next =>
      rw [Sender.onAck]
      split
      · exact h.puts_fail fun hnot => absurd hnot Bool.false_ne_true
      · obtain ⟨htidy, hframed⟩ := h.puts_sendData (o := o) hneg next
        refine ⟨htidy, List.forall_mem_cons.mpr ⟨fun _ hb => ?_, hframed⟩⟩
        cases hb
  | eof => exact h.puts_exchange (fits_nil rfl _) _
  | brk =>
      refine ⟨⟨fun x hx => (by cases hx), h.neg⟩, fun e he => ?_⟩
      rw [List.mem_singleton.mp he]
      exact fun _ hb => by cases hb

theorem Sender.Tidy.negFor_clean (h : s.Tidy) {stage : Stage} {d : List Byte} {neg : Neg}
    (hneg : s.negFor stage d = some neg) : neg.quote.Clean := by
  cases stage with
  | init =>
      cases hneg
      exact quote_negotiate_clean d
  | _ => exact h.neg neg hneg

theorem Sender.Tidy.puts_ack (h : s.Tidy) (x : Exchange) (d : List Byte) :
    Sender.Puts (s.ack o x d) := by
  have hidle : Sender.Tidy
      { s with waiting := none, timer := false, seq := (s.seq + 1) &&& 63 } :=
    ⟨fun y hy => (by cases hy), h.neg⟩
  rw [Sender.ack]
  dsimp only
  split
  · next neg hneg =>
      have hclean := hidle.negFor_clean hneg
      have hacked : Sender.Tidy
          { s with waiting := none, timer := false, seq := (s.seq + 1) &&& 63, neg := some neg } :=
        ⟨fun y hy => (by cases hy), fun neg' hneg' => (by cases hneg'; exact hclean)⟩
      exact hacked.puts_onAck hclean x.stage d
  · exact hidle.puts_nil

theorem Sender.Tidy.puts_handle (h : s.Tidy) (p : Packet) : Sender.Puts (s.handle o p) := by
  rw [Sender.handle]
  split
  · next x hx =>
      obtain ⟨htype, hpkt⟩ := h.waiting x hx
      split
      · exact h.puts_nil
      · rw [Sender.onPacket]
        split
        · rw [Sender.react]
          split
          · exact h.puts_fail fun hnot => absurd hnot Bool.false_ne_true
          · split
            · split
              · exact h.puts_ack x []
              · split
                · exact h.puts_send htype hpkt
                · exact h.puts_nil
            · split
              · exact h.puts_ack x _
              · exact h.puts_nil
        · exact h.puts_nil
  · exact h.puts_nil

theorem Sender.Tidy.puts_timeout (h : s.Tidy) : Sender.Puts s.timeout := by
  have hset : Sender.Tidy { s with timer := false } := ⟨h.waiting, h.neg⟩
  rw [Sender.timeout]
  dsimp only
  split
  · next x hx => exact hset.puts_send (h.waiting x hx).1 (h.waiting x hx).2
  · exact hset.puts_nil

theorem Sender.Puts.append {log : List SenderEffect} {a : Sender × List SenderEffect}
    (h : Sender.Puts a) (hlog : ∀ e ∈ log, e.Framed) : a.1.Tidy ∧ ∀ e ∈ log ++ a.2, e.Framed :=
  ⟨h.1, List.forall_mem_append.mpr ⟨hlog, h.2⟩⟩

theorem Sender.keeps_framed :
    Sender.Keeps o fun s log => s.Tidy ∧ ∀ e ∈ log, e.Framed where
  parser s log p h := ⟨⟨h.1.waiting, h.1.neg⟩, h.2⟩
  packet s log p _ h := (h.1.puts_handle p).append h.2
  timeout s log h := h.1.puts_timeout.append h.2
  cancel s log h := by
    have hmsg : Clean (lit "Cancelled by sender") := by
      unfold Clean
      decide +kernel
    exact (h.1.puts_fail fun _ => hmsg).append h.2

/-- Every packet that a sender writes is framed. -/
theorem Sender.effects_framed (calls : List SenderCall) :
    ∀ e ∈ Sender.effects o calls, e.Framed := by
  have hidle : Sender.Tidy { createSender with listening := true } :=
    ⟨fun x hx => (by cases hx), fun neg hneg => (by cases hneg)⟩
  have hstart : Sender.Puts (createSender.start o) :=
    hidle.puts_exchange (fits_initParams rfl _ 1) _
  exact (Sender.run_calls Sender.keeps_framed hstart calls).2

/-! ## The receiver -/

/-- The acknowledgement to repeat is framed, and what was negotiated is clean. -/
structure Receiver.Tidy (r : Receiver) : Prop where
  lastAck : ∀ bytes, r.lastAck = some bytes → Framed bytes
  neg : ∀ neg, r.neg = some neg → neg.quote.Clean

/-- A call leaves the receiver tidy, and what it writes is framed. -/
def Receiver.Puts (a : Receiver × List ReceiverEffect) : Prop := a.1.Tidy ∧ ∀ e ∈ a.2, e.Framed

variable {timeoutMs : ℕ} {r : Receiver} {e : ReceiverEffect}

theorem ReceiverEffect.framed_write {bytes : List Byte} (h : Kermit.Framed bytes) :
    (ReceiverEffect.write bytes).Framed := fun _ hb => by
  cases hb
  exact h

theorem Receiver.Tidy.puts_nil (h : r.Tidy) : Receiver.Puts (r, []) :=
  ⟨h, fun _ he => absurd he List.not_mem_nil⟩

theorem Receiver.Puts.cons {a : Receiver × List ReceiverEffect} (h : Receiver.Puts a)
    (he : e.Framed) : Receiver.Puts (a.1, e :: a.2) := ⟨h.1, List.forall_mem_cons.mpr ⟨he, h.2⟩⟩

theorem Receiver.Tidy.puts_write (h : r.Tidy) {bytes : List Byte} (hbytes : Framed bytes) :
    Receiver.Puts (r, [.write bytes]) :=
  h.puts_nil.cons (ReceiverEffect.framed_write hbytes)

theorem Receiver.framed_nak (r : Receiver) : Framed r.nak := (fits_nil rfl _).framed r.expected

theorem Receiver.Tidy.puts_fail (h : r.Tidy) {msg : JsString} {notifyPeer : Bool}
    (hmsg : notifyPeer = true → Clean msg) : Receiver.Puts (r.fail msg notifyPeer) := by
  rw [Receiver.fail]
  split
  · exact h.puts_nil
  · refine ⟨⟨h.lastAck, h.neg⟩, fun e he => ?_⟩
    rcases List.mem_append.mp he with he | he
    · split at he
      · next hnotify =>
          rw [List.mem_singleton.mp he]
          exact ReceiverEffect.framed_write (framed_errorPacket (hmsg hnotify) _ _)
      · exact absurd he List.not_mem_nil
    · rw [List.mem_singleton.mp he]
      exact fun _ hb => by cases hb

theorem Receiver.Tidy.puts_timeout (h : r.Tidy) : Receiver.Puts r.timeout := by
  have hset : Receiver.Tidy { r with timer := false, tries := r.tries + 1 } := ⟨h.lastAck, h.neg⟩
  rw [Receiver.timeout]
  dsimp only
  split
  · exact Receiver.Tidy.puts_nil (by exact ⟨h.lastAck, h.neg⟩)
  · split
    · refine hset.puts_fail fun _ => ?_
      unfold Clean
      decide +kernel
    · refine Receiver.Tidy.puts_write (by exact ⟨h.lastAck, h.neg⟩) ?_
      cases hlast : r.lastAck with
      | none => exact Receiver.framed_nak _
      | some bytes => exact h.lastAck bytes hlast

theorem Receiver.Tidy.puts_proceed (h : r.Tidy) {seq : ℕ} {payload : List Byte} {ck : ℕ}
    (hfits : Fits PacketType.Y payload ck) : Receiver.Puts (r.proceed seq payload ck) := by
  have hack := hfits.framed seq
  refine ⟨⟨fun bytes hb => ?_, h.neg⟩, fun e he => ?_⟩
  · cases hb
    exact hack
  · rw [List.mem_singleton.mp he]
    exact ReceiverEffect.framed_write hack

theorem fits_ack (ck : ℕ) : Fits PacketType.Y [] ck := fits_nil rfl ck

/-- After the acknowledgement of `B` nothing more is written. -/
theorem Receiver.Tidy.puts_finish (h : r.Tidy) : Receiver.Puts r.finish := by
  rw [Receiver.finish]
  split
  · exact h.puts_fail fun hnot => absurd hnot Bool.false_ne_true
  · have hlinger : r.linger.Tidy := ⟨h.lastAck, h.neg⟩
    dsimp only
    split
    · exact hlinger.puts_nil.cons fun _ hb => by cases hb
    · exact hlinger.puts_nil.cons fun _ hb => by cases hb

theorem Receiver.Tidy.puts_accept (h : r.Tidy) (seq : ℕ) {type : Byte}
    (htype : isControl type = false) (d : List Byte) :
    Receiver.Puts (r.accept timeoutMs seq type d) := by
  have hother : ∀ e : ReceiverEffect, e.written = none → e.Framed := by
    intro e he bytes hb
    rw [hb] at he
    cases he
  have hacked : ∀ t : Receiver, t.neg = r.neg →
      (t.sendAck seq [] t.ckType).1.Tidy ∧
        (ReceiverEffect.write (buildPacket seq PacketType.Y [] t.ckType)).Framed := by
    intro t ht
    have hack := (fits_ack t.ckType).framed seq
    refine ⟨⟨fun bytes hb => ?_, ?_⟩, ReceiverEffect.framed_write hack⟩
    · cases hb
      exact hack
    · change ∀ neg, t.neg = some neg → neg.quote.Clean
      rw [ht]
      exact h.neg
  rw [Receiver.accept]
  split
  · have hneg : Receiver.Tidy { r with neg := some (negotiate d) } :=
      ⟨h.lastAck, fun neg hneg => (by cases hneg; exact quote_negotiate_clean d)⟩
    exact hneg.puts_proceed (fits_initParams rfl _ 1)
  split
  · split
    · exact h.puts_nil
    · next neg hneg =>
        obtain ⟨hclean, hlen⟩ := (h.neg neg hneg).encodeChunk
          (strBytes (if bytesStr (decode neg.quote d) = [] then lit "file"
            else bytesStr (decode neg.quote d))) 0 60
        refine Receiver.Puts.cons (Receiver.Tidy.puts_proceed (by exact ⟨h.lastAck, h.neg⟩) ?_)
          (by exact hother _ rfl)
        exact fits_of_length_le rfl hclean (hlen.trans (by decide)) _
  split
  · refine Receiver.Puts.cons (Receiver.Tidy.puts_proceed (by exact ⟨h.lastAck, h.neg⟩) ?_)
      (by exact hother _ rfl)
    exact fits_of_length_le rfl (by decide +kernel) (by decide) _
  split
  · split
    · exact h.puts_nil.cons (by exact hother _ rfl)
    · exact Receiver.Puts.cons
        (Receiver.Tidy.puts_proceed (by exact ⟨h.lastAck, h.neg⟩) (fits_ack _))
        (by exact hother _ rfl)
  split
  · dsimp only
    split
    · obtain ⟨htidy, hframed⟩ := hacked { r with gotEof := true } rfl
      exact (htidy.puts_fail fun hnot => absurd hnot Bool.false_ne_true).cons hframed
    · exact Receiver.Tidy.puts_proceed (by exact ⟨h.lastAck, h.neg⟩) (fits_ack _)
  split
  · obtain ⟨htidy, hframed⟩ := hacked r rfl
    exact htidy.puts_finish.cons hframed
  · refine h.puts_fail fun _ => ?_
    have hhead : Clean (lit "Unsupported Kermit packet '") := by
      unfold Clean
      decide +kernel
    have htail : Clean (lit "'") := by
      unfold Clean
      decide +kernel
    exact (hhead.append (clean_singleton htype)).append htail

theorem Receiver.Tidy.framed_lastAck (h : r.Tidy) :
    ∀ e ∈ r.lastAck.toList.map ReceiverEffect.write, e.Framed := by
  intro e he
  obtain ⟨bytes, hbytes, rfl⟩ := List.mem_map.mp he
  exact ReceiverEffect.framed_write (h.lastAck bytes (Option.mem_toList.mp hbytes))

theorem Receiver.Tidy.puts_handle (h : r.Tidy) {p : Packet} (htype : isControl p.type = false) :
    Receiver.Puts (r.handle timeoutMs p) := by
  rw [Receiver.handle]
  split
  · exact h.puts_nil
  · rw [Receiver.onPacket]
    split
    · rw [Receiver.react]
      split
      · exact h.puts_fail fun hnot => absurd hnot Bool.false_ne_true
      · split
        · exact ⟨h, h.framed_lastAck⟩
        · split
          · exact h.puts_write r.framed_nak
          · exact Receiver.Tidy.puts_accept (by exact ⟨h.lastAck, h.neg⟩) _ htype _
    · exact h.puts_write r.framed_nak

theorem Receiver.Puts.append {log : List ReceiverEffect} {a : Receiver × List ReceiverEffect}
    (h : Receiver.Puts a) (hlog : ∀ e ∈ log, e.Framed) : a.1.Tidy ∧ ∀ e ∈ log ++ a.2, e.Framed :=
  ⟨h.1, List.forall_mem_append.mpr ⟨hlog, h.2⟩⟩

theorem Receiver.keeps_framed :
    Receiver.Keeps timeoutMs fun r log => r.Tidy ∧ ∀ e ∈ log, e.Framed where
  parser r log p q h := ⟨⟨h.1.lastAck, h.1.neg⟩, h.2⟩
  packet r log p hp h := (h.1.puts_handle hp).append h.2
  timeout r log h := h.1.puts_timeout.append h.2
  cancel r log h := by
    have hmsg : Clean (lit "Cancelled by receiver") := by
      unfold Clean
      decide +kernel
    exact (h.1.puts_fail fun _ => hmsg).append h.2
  lingerParser r log l l' prev _ h := ⟨⟨h.1.lastAck, h.1.neg⟩, h.2⟩
  linger r log l prev p _ h := by
    refine ⟨h.1, List.forall_mem_append.mpr ⟨h.2, ?_⟩⟩
    rw [Receiver.handleLinger]
    split
    · exact h.1.framed_lastAck
    · exact fun _ he => absurd he List.not_mem_nil
  stop r log h := ⟨⟨h.1.lastAck, h.1.neg⟩, h.2⟩

/-- Every packet that a receiver writes is framed. -/
theorem Receiver.effects_framed (calls : List ReceiverCall) :
    ∀ e ∈ Receiver.effects timeoutMs calls, e.Framed := by
  have hidle : (Receiver.wait { createReceiver with listening := true }).Tidy :=
    ⟨fun bytes hb => (by cases hb), fun neg hneg => (by cases hneg)⟩
  have hstart : Receiver.Puts createReceiver.start := hidle.puts_write ((fits_nil rfl 1).framed 0)
  exact (Receiver.run_calls Receiver.keeps_framed hstart calls).2

end Kermit

end Voyager
