import Voyager.Kermit.SenderRuns

/-!
# The receiver follows the script

`ReceiverAt m r` says that the receiver has accepted `m` packets and holds what they
brought, or that it is through. A packet it waits for takes it to `m + 1`; everything
else leaves it at `m`, and whatever it writes is an `Answer` at the number it is then at.
The packet after the last is never waited for: with the `B` packet the transfer is
complete, with the bytes of the file.
-/

namespace Voyager

namespace Kermit

section

variable (o : SenderOptions) (timeoutMs : ℕ)

/-- The parameters the receiver reads from the `S` packet. -/
def receiverNeg : Neg := negotiate (initParams (sessionTimeout o.timeout))

/-- The receiver waits for packet `m`. -/
structure Awaiting (m : ℕ) (r : Receiver) : Prop where
  done : r.done = false
  waiting : r.waiting = true
  lingering : r.lingering = none
  unread : r.unread = []
  expected : r.expected = m % 64
  neg : r.neg = if m = 0 then none else some (receiverNeg o)
  lastAck_zero : m = 0 → r.lastAck = none
  lastAck : m ≠ 0 → ∃ bytes, r.lastAck = some bytes ∧ Answer timeoutMs m bytes
  collected : Collected o (cursorAt o m) r.gotEof r.exactSize r.chunks

inductive ReceiverAt (m : ℕ) (r : Receiver) : Prop
  | idle (hm : m = 0) (hdone : r.done = false) (hlingering : r.lingering = none)
      (hwaiting : r.waiting = false) (hexpected : r.expected = 0) (hneg : r.neg = none)
      (hlastAck : r.lastAck = none) (hchunks : r.chunks.flatten = []) (hunread : r.unread = [])
  | awaiting (h : Awaiting o timeoutMs m r)
  | ended (hdone : r.done = true) (hlingering : r.lingering = none)
  | lingering (hdone : r.done = true) (l : Parser × ℕ) (hlingering : r.lingering = some l)
      (bytes : List Byte) (hlastAck : r.lastAck = some bytes) (h : Answer timeoutMs m bytes)

/-- An operation of the receiver left it at `m`, with effects that fit. -/
structure Receiver.Does (m : ℕ) (a : Receiver × List ReceiverEffect) : Prop where
  state : ReceiverAt o timeoutMs m a.1
  written : ∀ e ∈ a.2, ∀ bytes, e.written = some bytes → Answer timeoutMs m bytes
  completed : ∀ e ∈ a.2, ∀ data, e.completion = some (.receiver true data) →
    data = some o.data.bytes
  throws : .throws ∉ a.2

variable {o timeoutMs} {m : ℕ} {r : Receiver}

theorem ReceiverAt.does_nil (h : ReceiverAt o timeoutMs m r) :
    Receiver.Does o timeoutMs m (r, []) :=
  ⟨h, fun _ he => absurd he List.not_mem_nil, fun _ he => absurd he List.not_mem_nil,
    List.not_mem_nil⟩

theorem Receiver.does_write (h : ReceiverAt o timeoutMs m r) {bytes : List Byte}
    (hbytes : Answer timeoutMs m bytes) : Receiver.Does o timeoutMs m (r, [.write bytes]) := by
  refine ⟨h, fun e he b hb => ?_, fun e he data hdata => ?_, by simp⟩
  · obtain rfl := List.mem_singleton.mp he
    cases hb
    exact hbytes
  · obtain rfl := List.mem_singleton.mp he
    cases hdata

theorem Receiver.Does.cons {a : Receiver × List ReceiverEffect} (h : Receiver.Does o timeoutMs m a)
    {e : ReceiverEffect} (hwritten : e.written = none) (hcompletion : e.completion = none)
    (hthrows : e ≠ .throws) : Receiver.Does o timeoutMs m (a.1, e :: a.2) := by
  refine ⟨h.state, fun e' he bytes hbytes => ?_, fun e' he data hdata => ?_, fun he => ?_⟩
  · rcases List.mem_cons.mp he with rfl | he
    · rw [hwritten] at hbytes
      cases hbytes
    · exact h.written e' he bytes hbytes
  · rcases List.mem_cons.mp he with rfl | he
    · rw [hcompletion] at hdata
      cases hdata
    · exact h.completed e' he data hdata
  · rcases List.mem_cons.mp he with he | he
    · exact hthrows he.symm
    · exact h.throws he

theorem Awaiting.withParser (h : Awaiting o timeoutMs m r) (p : Parser) :
    Awaiting o timeoutMs m { r with parser := p } :=
  ⟨h.done, h.waiting, h.lingering, h.unread, h.expected, h.neg, h.lastAck_zero, h.lastAck,
    h.collected⟩

theorem Receiver.does_fail (hdone : r.done = false) (hlingering : r.lingering = none)
    {msg : JsString} {notifyPeer : Bool} (hmsg : notifyPeer = true → Clean msg) :
    Receiver.Does o timeoutMs m (r.fail msg notifyPeer) := by
  rw [Receiver.fail, if_neg (by rw [hdone]; exact Bool.false_ne_true)]
  refine ⟨.ended rfl hlingering, fun e he bytes hbytes => ?_, fun e he data hdata => ?_, ?_⟩
  · rcases List.mem_append.mp he with he | he
    · split at he
      · next hnotify =>
          obtain rfl := List.mem_singleton.mp he
          cases hbytes
          exact .error _ _ (isError_errorPacket (hmsg hnotify) _ _)
      · exact absurd he List.not_mem_nil
    · obtain rfl := List.mem_singleton.mp he
      cases hbytes
  · rcases List.mem_append.mp he with he | he
    · split at he
      · obtain rfl := List.mem_singleton.mp he
        cases hdata
      · exact absurd he List.not_mem_nil
    · obtain rfl := List.mem_singleton.mp he
      cases hdata
  · split <;> simp

theorem ReceiverAt.does_cancel (h : ReceiverAt o timeoutMs m r) :
    Receiver.Does o timeoutMs m r.cancel := by
  have hclean : Clean (lit "Cancelled by receiver") := by
    unfold Clean
    decide +kernel
  have hdone : r.done = true → Receiver.Does o timeoutMs m r.cancel := by
    intro hdone
    rw [Receiver.cancel, Receiver.fail, if_pos hdone]
    exact h.does_nil
  cases h with
  | idle _ hdone hlingering => exact Receiver.does_fail hdone hlingering fun _ => hclean
  | awaiting h => exact Receiver.does_fail h.done h.lingering fun _ => hclean
  | ended h => exact hdone h
  | lingering h => exact hdone h

theorem Awaiting.ckType_eq (h : Awaiting o timeoutMs m r) :
    r.ckType = if m = 0 then 1 else 3 := by
  rw [Receiver.ckType, h.neg]
  by_cases hm : m = 0
  · rw [if_pos hm, if_pos hm, ckTypeOr]
  · rw [if_neg hm, if_neg hm, ckTypeOr]
    exact (ours_negotiate _).ckType

theorem Awaiting.answer_nak (h : Awaiting o timeoutMs m r) : Answer timeoutMs m r.nak := by
  rw [Receiver.nak, h.expected, h.ckType_eq]
  exact .nak m

theorem Awaiting.does_timeout (h : Awaiting o timeoutMs m r) :
    Receiver.Does o timeoutMs m r.timeout := by
  have htries : Awaiting o timeoutMs m { r with timer := false, tries := r.tries + 1 } :=
    ⟨h.done, h.waiting, h.lingering, h.unread, h.expected, h.neg, h.lastAck_zero, h.lastAck,
      h.collected⟩
  have hwait : Awaiting o timeoutMs m
      (Receiver.wait { r with timer := false, tries := r.tries + 1 }) :=
    ⟨h.done, rfl, h.lingering, h.unread, h.expected, h.neg, h.lastAck_zero, h.lastAck,
      h.collected⟩
  have hgo : ¬ (r.done = true ∨ ¬ r.waiting = true) := by
    rw [h.done, h.waiting]
    decide
  rw [Receiver.timeout]
  dsimp only
  rw [if_neg hgo]
  split
  · refine Receiver.does_fail htries.done htries.lingering fun _ => ?_
    unfold Clean
    decide +kernel
  · refine Receiver.does_write (.awaiting hwait) ?_
    by_cases hm : m = 0
    · rw [h.lastAck_zero hm]
      exact htries.answer_nak
    · obtain ⟨bytes, hlast, hanswer⟩ := h.lastAck hm
      rw [hlast]
      exact hanswer

theorem ReceiverAt.does_timeout (h : ReceiverAt o timeoutMs m r) :
    Receiver.Does o timeoutMs m r.timeout := by
  cases h with
  | idle hm hdone hlingering hwaiting hexpected hneg hlastAck hchunks hunread =>
      rw [Receiver.timeout]
      dsimp only
      rw [if_pos (.inr (by rw [hwaiting]; exact Bool.false_ne_true))]
      exact ReceiverAt.does_nil
        (.idle hm hdone hlingering hwaiting hexpected hneg hlastAck hchunks hunread)
  | awaiting h => exact h.does_timeout
  | ended hdone hlingering =>
      rw [Receiver.timeout]
      dsimp only
      rw [if_pos (.inl hdone)]
      exact ReceiverAt.does_nil (.ended hdone hlingering)
  | lingering hdone l hlingering bytes hlastAck hanswer =>
      rw [Receiver.timeout]
      dsimp only
      rw [if_pos (.inl hdone)]
      exact ReceiverAt.does_nil (.lingering hdone l hlingering bytes hlastAck hanswer)

/-- Before the start nothing was accepted; the start prompts the sender. -/
theorem ReceiverAt.does_start (h : ReceiverAt o timeoutMs 0 r) (hidle : r.waiting = false)
    (hlinger : r.lingering = none) : Receiver.Does o timeoutMs 0 r.start := by
  refine Receiver.does_write ?_ (.nak 0)
  cases h with
  | idle hm hdone hlingering hwaiting hexpected hneg hlastAck hchunks hunread =>
      exact .awaiting ⟨hdone, rfl, hlingering, hunread, hexpected, hneg, fun _ => hlastAck,
        fun hne => absurd rfl hne, hchunks⟩
  | awaiting h =>
      rw [h.waiting] at hidle
      cases hidle
  | ended hdone hlingering => exact .ended hdone hlingering
  | lingering hdone l hlingering =>
      rw [hlinger] at hlingering
      cases hlingering

theorem ReceiverAt.stop (h : ReceiverAt o timeoutMs m r) : ReceiverAt o timeoutMs m r.stop := by
  cases h with
  | idle hm hdone hlingering hwaiting hexpected hneg hlastAck hchunks hunread =>
      exact .idle hm hdone rfl hwaiting hexpected hneg hlastAck hchunks hunread
  | awaiting h =>
      exact .awaiting ⟨h.done, h.waiting, rfl, h.unread, h.expected, h.neg, h.lastAck_zero,
        h.lastAck, h.collected⟩
  | ended hdone hlingering => exact .ended hdone rfl
  | lingering hdone l hlingering bytes hlastAck hanswer => exact .ended hdone rfl

/-! ## Packets -/

/-- The receiver reads a packet: it stays at `m`, or accepts packet `m`. When that was the
last, the transfer is reported complete. -/
def Receiver.Moves (o : SenderOptions) (timeoutMs m j : ℕ) (a : Receiver × List ReceiverEffect) :
    Prop :=
  Receiver.Does o timeoutMs m a ∨
    j = m ∧ Receiver.Does o timeoutMs (m + 1) a ∧
      (cursorAt o (m + 1) = .fin →
        ∃ e ∈ a.2, e.completion = some (.receiver true (some o.data.bytes)))

/-- The part of `Awaiting` that `proceed` does not set. -/
structure Accepting (o : SenderOptions) (m : ℕ) (r : Receiver) : Prop where
  done : r.done = false
  lingering : r.lingering = none
  unread : r.unread = []
  expected : r.expected = m % 64
  neg : r.neg = some (receiverNeg o)
  collected : Collected o (cursorAt o (m + 1)) r.gotEof r.exactSize r.chunks

theorem Accepting.does_proceed (h : Accepting o m r) {payload : List Byte} {ck : ℕ}
    (hsend : Sendable PacketType.Y payload ck)
    (hinit : m = 0 → payload = initParams (sessionTimeout timeoutMs) ∧ ck = 1) :
    Receiver.Does o timeoutMs (m + 1) (r.proceed (m % 64) payload ck) := by
  have hack : Answer timeoutMs (m + 1) (buildPacket (m % 64) PacketType.Y payload ck) :=
    .ack m payload ck hsend hinit
  have hawait : Awaiting o timeoutMs (m + 1) (r.proceed (m % 64) payload ck).1 :=
    { done := h.done,
      waiting := rfl,
      lingering := h.lingering,
      unread := h.unread,
      expected := (congrArg (fun e => (e + 1) &&& 63) h.expected).trans (mod_succ_and m),
      neg := h.neg.trans (if_neg (Nat.succ_ne_zero m)).symm,
      lastAck_zero := fun hm => absurd hm (Nat.succ_ne_zero m),
      lastAck := fun _ => ⟨_, rfl, hack⟩,
      collected := h.collected }
  exact Receiver.does_write (.awaiting hawait) hack

theorem sendable_answer {payload : List Byte} {ck : ℕ} (hlen : payload.length ≤ 60)
    (hclean : ∀ b ∈ payload, isControl b = false) : Sendable PacketType.Y payload ck := by
  refine ⟨rfl, hclean, ?_⟩
  have hck : ckLen ck ≤ 3 := by
    rw [ckLen]
    split <;> omega
  omega

theorem sendable_answer_nil (ck : ℕ) : Sendable PacketType.Y [] ck :=
  sendable_answer (by decide) fun _ hb => absurd hb List.not_mem_nil

theorem sendable_initParams (t ck : ℕ) : Sendable PacketType.Y (initParams t) ck :=
  sendable_answer (show 13 ≤ 60 by decide) (initParams_clean t)

theorem prev_succ {m : ℕ} (h : r.expected = (m + 1) % 64) : r.prev = m % 64 := by
  have hand : ((m + 1) % 64 + 63) &&& 63 = ((m + 1) % 64 + 63) % 64 :=
    Nat.and_two_pow_sub_one_eq_mod _ 6
  rw [Receiver.prev, h, hand]
  omega

theorem Awaiting.neg_some (h : Awaiting o timeoutMs m r) (hm : m ≠ 0) :
    r.neg = some (receiverNeg o) := by rw [h.neg, if_neg hm]

theorem cursorAt_ne_zero {c : Cursor} (hc : cursorAt o m = c) (hinit : c ≠ .init) : m ≠ 0 :=
  fun hm => hinit (hc.symm.trans ((cursorAt_eq_init_iff o).mpr hm))

/-! ## The packets one by one -/

section

variable (r) (seq : ℕ) (d : List Byte)

theorem Receiver.accept_S : r.accept timeoutMs seq PacketType.S d =
    { r with neg := some (negotiate d) }.proceed seq (initParams (sessionTimeout timeoutMs)) 1 := by
  rw [accept, if_pos rfl]

theorem Receiver.accept_F {neg : Neg} (hneg : r.neg = some neg) :
    ∃ name, r.accept timeoutMs seq PacketType.F d =
      (({ r with fileName := name }.proceed seq
          (encodeChunk (strBytes name) 0 60 neg.quote).bytes neg.ckType).1,
        .fileStart name r.fileSize :: ({ r with fileName := name }.proceed seq
          (encodeChunk (strBytes name) 0 60 neg.quote).bytes neg.ckType).2) := by
  refine ⟨if bytesStr (decode neg.quote d) = [] then lit "file"
    else bytesStr (decode neg.quote d), ?_⟩
  rw [accept, if_neg (by decide), if_pos rfl]
  split
  · next hnone => exact absurd (hneg.symm.trans hnone) nofun
  · next neg' hsome =>
      cases hneg.symm.trans hsome
      rfl

theorem Receiver.accept_A : r.accept timeoutMs seq PacketType.A d =
    (((r.parseAttrs d).proceed seq [0x59] (r.parseAttrs d).ckType).1,
      .fileStart (r.parseAttrs d).fileName (r.parseAttrs d).fileSize ::
        ((r.parseAttrs d).proceed seq [0x59] (r.parseAttrs d).ckType).2) := by
  rw [accept, if_neg (by decide), if_neg (by decide), if_pos rfl]

/-- The receiver with the bytes of one more data packet. -/
def Receiver.push (r : Receiver) (bytes : List Byte) : Receiver :=
  { r with chunks := r.chunks ++ [bytes], received := r.received + bytes.length }

theorem Receiver.accept_D {neg : Neg} (hneg : r.neg = some neg) :
    r.accept timeoutMs seq PacketType.D d =
      (((r.push (decode neg.quote d)).proceed seq [] (r.push (decode neg.quote d)).ckType).1,
        .progress (r.push (decode neg.quote d)).received (r.push (decode neg.quote d)).fileSize ::
          ((r.push (decode neg.quote d)).proceed seq [] (r.push (decode neg.quote d)).ckType).2) := by
  have hdecode : decodeWith r.neg d = some (decode neg.quote d) := by rw [hneg, decodeWith]
  rw [accept, if_neg (by decide), if_neg (by decide), if_neg (by decide), if_pos rfl, hdecode]
  rfl

theorem Receiver.accept_Z (hd : d.head? ≠ some 0x44) : r.accept timeoutMs seq PacketType.Z d =
    { r with gotEof := true }.proceed seq [] r.ckType := by
  rw [accept, if_neg (by decide), if_neg (by decide), if_neg (by decide), if_neg (by decide),
    if_pos rfl]
  dsimp only
  rw [if_neg hd]
  rfl

theorem Receiver.accept_B : r.accept timeoutMs seq PacketType.B d =
    ((r.sendAck seq [] r.ckType).1.finish.1,
      (r.sendAck seq [] r.ckType).2 ++ (r.sendAck seq [] r.ckType).1.finish.2) := by
  rw [accept, if_neg (by decide), if_neg (by decide), if_neg (by decide), if_neg (by decide),
    if_neg (by decide), if_pos rfl]

/-- With the end of the file seen and no other size announced, the transfer is complete. -/
theorem Receiver.finish_of_eof (heof : r.gotEof = true)
    (hsize : r.exactSize = r.chunks.flatten.length) :
    r.finish = (r.linger, [.complete true (some r.chunks.flatten) none (some r.fileName)]) := by
  rw [finish, if_neg (not_not_intro heof)]
  dsimp only
  rw [if_neg fun h => h.2 hsize.symm]

end

/-- Packet `m`, whichever it is, is accepted; the transfer is complete with the last. -/
def Awaiting.Accepts (o : SenderOptions) (timeoutMs m : ℕ) (r : Receiver) (c : Cursor) : Prop :=
  Receiver.Does o timeoutMs (m + 1)
      ({ r with tries := 0 }.accept timeoutMs (m % 64) c.type (c.payload o)) ∧
    (cursorAt o (m + 1) = .fin →
      ∃ e ∈ ({ r with tries := 0 }.accept timeoutMs (m % 64) c.type (c.payload o)).2,
        e.completion = some (.receiver true (some o.data.bytes)))

theorem Awaiting.accepts_init (h : Awaiting o timeoutMs m r) (hc : cursorAt o m = .init) :
    Awaiting.Accepts o timeoutMs m r .init := by
  have hnext : cursorAt o (m + 1) = .file := by rw [cursorAt, hc, Cursor.next]
  have hcollected := h.collected
  rw [hc] at hcollected
  refine ⟨?_, fun hfin => Cursor.noConfusion (hnext.symm.trans hfin)⟩
  have haccept : Accepting o m { r with tries := 0, neg := some (receiverNeg o) } :=
    ⟨h.done, h.lingering, h.unread, h.expected, rfl, by rw [hnext]; exact hcollected⟩
  rw [Cursor.type, Receiver.accept_S]
  exact haccept.does_proceed (sendable_initParams _ 1) fun _ => ⟨rfl, rfl⟩

theorem Awaiting.accepts_file (h : Awaiting o timeoutMs m r) (hc : cursorAt o m = .file) :
    Awaiting.Accepts o timeoutMs m r .file := by
  have hnext : cursorAt o (m + 1) = .attr := by rw [cursorAt, hc, Cursor.next]
  have hm := cursorAt_ne_zero hc (by simp)
  have hneg : ({ r with tries := 0 } : Receiver).neg = some (receiverNeg o) := h.neg_some hm
  have hcollected := h.collected
  rw [hc] at hcollected
  refine ⟨?_, fun hfin => Cursor.noConfusion (hnext.symm.trans hfin)⟩
  obtain ⟨name, hname⟩ := Receiver.accept_F { r with tries := 0 } (m % 64)
    (Cursor.file.payload o) hneg
  have haccept : Accepting o m { r with tries := 0, fileName := name } :=
    ⟨h.done, h.lingering, h.unread, h.expected, hneg, by rw [hnext]; exact hcollected⟩
  have hclean := encodeChunk_clean (strBytes name) 0 60
  rw [Cursor.type, hname, receiverNeg, (ours_negotiate _).quote]
  exact (haccept.does_proceed (sendable_answer hclean.1 hclean.2)
    fun hzero => absurd hzero hm).cons rfl rfl (by simp)

theorem Awaiting.accepts_attr (h : Awaiting o timeoutMs m r) (hc : cursorAt o m = .attr) :
    Awaiting.Accepts o timeoutMs m r .attr := by
  have hnext : cursorAt o (m + 1) = .dataFrom o 0 := by rw [cursorAt, hc, Cursor.next]
  have hm := cursorAt_ne_zero hc (by simp)
  have hcollected := h.collected
  rw [hc] at hcollected
  refine ⟨?_, fun hfin => absurd (hnext.symm.trans hfin) (Cursor.dataFrom_ne_fin o 0)⟩
  have hsize : (Receiver.parseAttrs { r with tries := 0 } (Sender.attrs o)).exactSize =
      o.data.bytes.length := by
    rw [Receiver.parseAttrs, attrLoop_attrs, Option.getD_some]
  have hfrom : Collected o (.dataFrom o 0) r.gotEof
      (Receiver.parseAttrs { r with tries := 0 } (Sender.attrs o)).exactSize r.chunks :=
    collected_dataFrom o hsize (by rw [List.take_zero]; exact hcollected)
  have haccept : Accepting o m (Receiver.parseAttrs { r with tries := 0 } (Sender.attrs o)) :=
    ⟨h.done, h.lingering, h.unread, h.expected, h.neg_some hm, by rw [hnext]; exact hfrom⟩
  rw [Cursor.type, Cursor.payload, Receiver.accept_A]
  exact (haccept.does_proceed (sendable_answer (by decide) (by decide +kernel))
    fun hzero => absurd hzero hm).cons rfl rfl (by simp)

theorem Awaiting.accepts_data (h : Awaiting o timeoutMs m r) {pos : ℕ}
    (hc : cursorAt o m = .data pos) : Awaiting.Accepts o timeoutMs m r (.data pos) := by
  have hnext : cursorAt o (m + 1) = .dataFrom o (chunkAt o pos).next := by
    rw [cursorAt, hc, Cursor.next]
  have hm := cursorAt_ne_zero hc (by simp)
  have hneg : ({ r with tries := 0 } : Receiver).neg = some (receiverNeg o) := h.neg_some hm
  have hcollected := h.collected
  rw [hc] at hcollected
  obtain ⟨hsize, hlt, hchunks⟩ := hcollected
  refine ⟨?_, fun hfin => absurd (hnext.symm.trans hfin) (Cursor.dataFrom_ne_fin o _)⟩
  have hflatten : (r.chunks ++ [decode ourQuote (chunkAt o pos).bytes]).flatten =
      o.data.bytes.take (chunkAt o pos).next := by
    rw [List.flatten_append, List.flatten_singleton, hchunks, take_append_decode o hlt]
  have haccept : Accepting o m
      (Receiver.push { r with tries := 0 } (decode ourQuote (chunkAt o pos).bytes)) :=
    ⟨h.done, h.lingering, h.unread, h.expected, hneg, by
      rw [hnext]; exact collected_dataFrom o hsize hflatten⟩
  rw [Cursor.type, Cursor.payload, Receiver.accept_D _ _ _ hneg, receiverNeg,
    (ours_negotiate _).quote]
  exact (haccept.does_proceed (sendable_answer_nil _) fun hzero => absurd hzero hm).cons rfl rfl
    (by simp)

theorem Awaiting.accepts_eof (h : Awaiting o timeoutMs m r) (hc : cursorAt o m = .eof) :
    Awaiting.Accepts o timeoutMs m r .eof := by
  have hnext : cursorAt o (m + 1) = .brk := by rw [cursorAt, hc, Cursor.next]
  have hm := cursorAt_ne_zero hc (by simp)
  have hcollected := h.collected
  rw [hc] at hcollected
  refine ⟨?_, fun hfin => Cursor.noConfusion (hnext.symm.trans hfin)⟩
  have haccept : Accepting o m { r with tries := 0, gotEof := true } :=
    ⟨h.done, h.lingering, h.unread, h.expected, h.neg_some hm,
      by rw [hnext]; exact ⟨rfl, hcollected⟩⟩
  have hpayload : Cursor.eof.payload o = [] := rfl
  have hhead : ([] : List Byte).head? ≠ some 0x44 := by simp
  rw [Cursor.type, hpayload, Receiver.accept_Z _ _ _ hhead]
  exact haccept.does_proceed (sendable_answer_nil _) fun hzero => absurd hzero hm

theorem Awaiting.accepts_brk (h : Awaiting o timeoutMs m r) (hc : cursorAt o m = .brk) :
    Awaiting.Accepts o timeoutMs m r .brk := by
  have hm := cursorAt_ne_zero hc (by simp)
  have hcollected := h.collected
  rw [hc] at hcollected
  obtain ⟨heof, hsize, hchunks⟩ := hcollected
  have hack : Answer timeoutMs (m + 1)
      (buildPacket (m % 64) PacketType.Y [] ({ r with tries := 0 } : Receiver).ckType) :=
    .ack m [] _ (sendable_answer_nil _) fun hzero => absurd hzero hm
  have hfinish := Receiver.finish_of_eof
    (Receiver.sendAck { r with tries := 0 } (m % 64) [] ({ r with tries := 0 } : Receiver).ckType).1
    heof (hsize.trans (by rw [← hchunks]; rfl))
  have hpayload : Cursor.brk.payload o = [] := rfl
  rw [Awaiting.Accepts, Cursor.type, hpayload, Receiver.accept_B, hfinish]
  refine ⟨⟨.lingering rfl _ rfl _ rfl hack, fun e he bytes hbytes => ?_,
    fun e he data hdata => ?_, by simp [Receiver.sendAck]⟩,
    fun _ => ⟨_, List.mem_cons_of_mem _ List.mem_cons_self, ?_⟩⟩
  · rcases List.mem_cons.mp he with rfl | he
    · cases hbytes
      exact hack
    · obtain rfl := List.mem_singleton.mp he
      cases hbytes
  · rcases List.mem_cons.mp he with rfl | he
    · cases hdata
    · obtain rfl := List.mem_singleton.mp he
      cases hdata
      exact congrArg some hchunks
  · rw [← hchunks]
    rfl

theorem Awaiting.accepts (h : Awaiting o timeoutMs m r) (hfin : cursorAt o m ≠ .fin) :
    Awaiting.Accepts o timeoutMs m r (cursorAt o m) := by
  cases hc : cursorAt o m with
  | init => exact h.accepts_init hc
  | file => exact h.accepts_file hc
  | attr => exact h.accepts_attr hc
  | data pos => exact h.accepts_data hc
  | eof => exact h.accepts_eof hc
  | brk => exact h.accepts_brk hc
  | fin => exact absurd hc hfin

/-! ## Arrivals -/

/-- The receiver checks a packet of the sender with the check it was built with. -/
theorem Awaiting.check_packet (h : Awaiting o timeoutMs m r) {j : ℕ} (hj : j = m ∨ j + 1 = m)
    (payload : List Byte) :
    r.check (packetFrame (j % 64) (cursorAt o j).type payload (cursorAt o j).ckType) =
      some payload := by
  have hck : (if (cursorAt o j).type = PacketType.S then 1 else r.ckType) =
      (cursorAt o j).ckType := by
    by_cases hzero : j = 0
    · rw [if_pos (type_eq_S_iff.mpr hzero), (cursorAt_eq_init_iff o).mpr hzero, Cursor.ckType]
    · have hne := mt (cursorAt_eq_init_iff o).mp hzero
      rw [if_neg (mt type_eq_S_iff.mp hzero), h.ckType_eq, if_neg (by omega)]
      cases hc : cursorAt o j with
      | init => exact absurd hc hne
      | _ => rfl
  rw [Receiver.check, Packet.type_packetFrame, hck, Packet.data_packetFrame]

theorem Cursor.type_ne_E (c : Cursor) : c.type ≠ PacketType.E := by
  cases c <;> simp [Cursor.type, PacketType.S, PacketType.F, PacketType.A, PacketType.D,
    PacketType.Z, PacketType.B, PacketType.E]

theorem Awaiting.moves_packet (h : Awaiting o timeoutMs m r) {j : ℕ} (hj : j = m ∨ j + 1 = m)
    (hfin : cursorAt o j ≠ .fin) :
    Receiver.Moves o timeoutMs m j (r.onPacket timeoutMs
      (packetFrame (j % 64) (cursorAt o j).type ((cursorAt o j).payload o)
        (cursorAt o j).ckType)) := by
  rw [Receiver.onPacket, h.check_packet hj]
  dsimp only
  rw [Receiver.react, Packet.type_packetFrame, Packet.seq_packetFrame_mod,
    if_neg (Cursor.type_ne_E _)]
  rcases hj with rfl | rfl
  · rw [if_neg fun hdup => hdup.2.2 h.expected.symm, if_neg (not_not_intro h.expected.symm)]
    have haccepts := h.accepts hfin
    exact .inr ⟨rfl, haccepts.1, haccepts.2⟩
  · obtain ⟨bytes, hlast, hanswer⟩ := h.lastAck (Nat.succ_ne_zero j)
    have hne : j % 64 ≠ r.expected := by
      rw [h.expected]
      exact StopAndWait.Link.succ_mod_ne (by decide) j
    rw [if_pos ⟨(prev_succ h.expected).symm, by rw [hlast]; rfl, hne⟩, hlast]
    exact .inl (Receiver.does_write (.awaiting h) hanswer)

theorem Awaiting.does_error (h : Awaiting o timeoutMs m r) (seq : ℕ) (msg : List Byte)
    (ckType : ℕ) :
    Receiver.Does o timeoutMs m
      (r.onPacket timeoutMs (packetFrame seq PacketType.E msg ckType)) := by
  rw [Receiver.onPacket]
  cases hcheck : r.check (packetFrame seq PacketType.E msg ckType) with
  | none => exact Receiver.does_write (.awaiting h) h.answer_nak
  | some d =>
      dsimp only
      rw [Receiver.react, Packet.type_packetFrame, if_pos rfl]
      exact Receiver.does_fail h.done h.lingering fun hnot => absurd hnot Bool.false_ne_true

theorem Receiver.deliver_of_listening (hlingering : r.lingering = none) (bytes : List Byte) :
    r.deliver timeoutMs bytes = (r, []) ∨
      r.deliver timeoutMs bytes =
        Receiver.handleAll timeoutMs { r with parser := (r.parser.feed bytes).1 }
          (r.unread ++ (r.parser.feed bytes).2) := by
  rw [Receiver.deliver, hlingering]
  dsimp only
  split
  · exact .inr rfl
  · exact .inl rfl

/-- As long as nothing throws, all the packets are handled. -/
theorem Receiver.handleAll_eq_run {pkts : List Packet}
    (h : .throws ∉ (Mealy.run (Receiver.handle timeoutMs) r pkts).2) :
    r.handleAll timeoutMs pkts =
      ({ (Mealy.run (Receiver.handle timeoutMs) r pkts).1 with unread := [] },
        (Mealy.run (Receiver.handle timeoutMs) r pkts).2) := by
  induction pkts generalizing r with
  | nil => rfl
  | cons p pkts ih =>
      rw [Mealy.run_cons] at h ⊢
      rw [List.mem_append, not_or] at h
      rw [Receiver.handleAll]
      dsimp only
      rw [if_neg h.1, ih h.2]

theorem ReceiverAt.withUnread (h : ReceiverAt o timeoutMs m r) :
    ReceiverAt o timeoutMs m { r with unread := [] } := by
  cases h with
  | idle hm hdone hlingering hwaiting hexpected hneg hlastAck hchunks hunread =>
      exact .idle hm hdone hlingering hwaiting hexpected hneg hlastAck hchunks rfl
  | awaiting h =>
      exact .awaiting ⟨h.done, h.waiting, h.lingering, rfl, h.expected, h.neg, h.lastAck_zero,
        h.lastAck, h.collected⟩
  | ended hdone hlingering => exact .ended hdone hlingering
  | lingering hdone l hl bytes hlastAck hanswer =>
      exact .lingering hdone l hl bytes hlastAck hanswer

theorem Receiver.Does.handleAll {pkts : List Packet}
    (h : Receiver.Does o timeoutMs m (Mealy.run (Receiver.handle timeoutMs) r pkts)) :
    Receiver.Does o timeoutMs m (r.handleAll timeoutMs pkts) := by
  rw [Receiver.handleAll_eq_run h.throws]
  exact ⟨h.state.withUnread, h.written, h.completed, h.throws⟩

/-- A receiver that does not wait looks at no packet. -/
theorem Receiver.run_handle_of_not_waiting (h : r.done = true ∨ r.waiting = false) (p : Parser)
    (pkts : List Packet) :
    Mealy.run (Receiver.handle timeoutMs) { r with parser := p } pkts =
      ({ r with parser := p }, []) := by
  have hskip : ∀ pkt, Receiver.handle timeoutMs { r with parser := p } pkt =
      ({ r with parser := p }, []) := by
    intro pkt
    rw [Receiver.handle, if_pos]
    rcases h with hdone | hwaiting
    · exact .inl hdone
    · exact .inr (by rw [hwaiting]; exact Bool.false_ne_true)
  induction pkts with
  | nil => rfl
  | cons pkt pkts ih =>
      rw [Mealy.run_cons, hskip, ih]
      rfl

theorem Awaiting.handle_eq (h : Awaiting o timeoutMs m r) (p : Packet) :
    r.handle timeoutMs p = r.onPacket timeoutMs p := by
  rw [Receiver.handle, if_neg]
  rw [h.done, h.waiting]
  decide

/-- After the end every answer is the last acknowledgement. -/
theorem ReceiverAt.does_linger (h : ReceiverAt o timeoutMs m r) {l : Parser × ℕ}
    (hl : r.lingering = some l) (bytes : List Byte) :
    Receiver.Does o timeoutMs m (r.deliver timeoutMs bytes) := by
  cases h with
  | idle hm hdone hnone =>
      rw [hnone] at hl
      cases hl
  | awaiting h =>
      rw [h.lingering] at hl
      cases hl
  | ended hdone hnone =>
      rw [hnone] at hl
      cases hl
  | lingering hdone l' hl' lastAck hlastAck hanswer =>
      rw [Receiver.deliver, hl]
      have hwrites : ∀ e ∈ ((l.1.feed bytes).2.flatMap (r.handleLinger l.2)),
          e = .write lastAck := by
        intro e he
        obtain ⟨p, -, hp⟩ := List.mem_flatMap.mp he
        rw [Receiver.handleLinger, hlastAck] at hp
        split at hp
        · exact List.mem_singleton.mp hp
        · exact absurd hp List.not_mem_nil
      refine ⟨.lingering hdone _ rfl lastAck hlastAck hanswer, fun e he b hb => ?_,
        fun e he data hdata => ?_, fun he => ?_⟩
      · rw [hwrites e he] at hb
        cases hb
        exact hanswer
      · rw [hwrites e he] at hdata
        cases hdata
      · cases hwrites _ he

/-- What the receiver makes of one packet it makes of bytes with just that packet. -/
theorem Receiver.Moves.handleAll {j : ℕ} {p : Packet}
    (h : Receiver.Moves o timeoutMs m j (r.handle timeoutMs p)) :
    Receiver.Moves o timeoutMs m j (r.handleAll timeoutMs [p]) := by
  have hrun : Mealy.run (Receiver.handle timeoutMs) r [p] = r.handle timeoutMs p := by
    rw [Mealy.run_cons, Mealy.run_nil, List.append_nil]
  rcases h with hdoes | ⟨hj, hdoes, hfin⟩
  · rw [← hrun] at hdoes
    exact .inl hdoes.handleAll
  · rw [← hrun] at hdoes hfin
    refine .inr ⟨hj, hdoes.handleAll, ?_⟩
    rw [Receiver.handleAll_eq_run hdoes.throws]
    exact hfin

/-- One packet of the sender arrives. -/
theorem ReceiverAt.moves_deliver (h : ReceiverAt o timeoutMs m r) {j : ℕ} {bytes : List Byte}
    (hj : j = m ∨ j + 1 = m) (hbytes : Forward o j bytes) :
    Receiver.Moves o timeoutMs m j (r.deliver timeoutMs bytes) := by
  cases hl : r.lingering with
  | some l => exact .inl (h.does_linger hl bytes)
  | none =>
      rcases Receiver.deliver_of_listening hl bytes with hd | hd
      · rw [hd]
        exact .inl h.does_nil
      · rw [hd]
        generalize hfeed : r.parser.feed bytes = f
        cases h with
        | idle hm hdone hlingering hwaiting hexpected hneg hlastAck hchunks hunread =>
            refine .inl (Receiver.Does.handleAll ?_)
            rw [Receiver.run_handle_of_not_waiting (.inr hwaiting)]
            exact ReceiverAt.does_nil
              (.idle hm hdone hlingering hwaiting hexpected hneg hlastAck hchunks hunread)
        | ended hdone hlingering =>
            refine .inl (Receiver.Does.handleAll ?_)
            rw [Receiver.run_handle_of_not_waiting (.inl hdone)]
            exact ReceiverAt.does_nil (.ended hdone hlingering)
        | lingering hdone l hsome =>
            rw [hl] at hsome
            cases hsome
        | awaiting h =>
            have hone := h.withParser createParser
            have hpkts : r.unread ++ f.2 = f.2 := by rw [h.unread, List.nil_append]
            rw [hpkts]
            rcases hbytes with ⟨rfl, hfin⟩ | ⟨seq, msg, ckType, rfl, hsend⟩
            · rw [packetAt, Parser.feed_buildPacket _ (Cursor.sendable o _)] at hfeed
              subst hfeed
              dsimp only
              refine Receiver.Moves.handleAll ?_
              rw [hone.handle_eq]
              exact hone.moves_packet hj hfin
            · rw [Parser.feed_buildPacket _ hsend] at hfeed
              subst hfeed
              dsimp only
              refine Receiver.Moves.handleAll ?_
              rw [hone.handle_eq]
              exact .inl (hone.does_error seq msg ckType)

/-- Bytes in which the block check rejects every packet are answered with NAKs. -/
theorem ReceiverAt.does_deliver_damaged (h : ReceiverAt o timeoutMs m r) {bytes : List Byte}
    (hbad : r.Detects bytes) : Receiver.Does o timeoutMs m (r.deliver timeoutMs bytes) := by
  cases hl : r.lingering with
  | some l => exact h.does_linger hl bytes
  | none =>
      have hbad' := hbad hl
      rcases Receiver.deliver_of_listening hl bytes with hd | hd
      · rw [hd]
        exact h.does_nil
      · rw [hd]
        generalize r.parser.feed bytes = f at *
        refine Receiver.Does.handleAll ?_
        cases h with
        | idle hm hdone hlingering hwaiting hexpected hneg hlastAck hchunks hunread =>
            rw [Receiver.run_handle_of_not_waiting (.inr hwaiting)]
            exact ReceiverAt.does_nil
              (.idle hm hdone hlingering hwaiting hexpected hneg hlastAck hchunks hunread)
        | ended hdone hlingering =>
            rw [Receiver.run_handle_of_not_waiting (.inl hdone)]
            exact ReceiverAt.does_nil (.ended hdone hlingering)
        | lingering hdone l hsome =>
            rw [hl] at hsome
            cases hsome
        | awaiting h =>
            have hone := h.withParser f.1
            have hrun : ∀ pkts : List Packet, (∀ p ∈ pkts, r.check p = none) →
                Mealy.run (Receiver.handle timeoutMs) { r with parser := f.1 } pkts =
                  ({ r with parser := f.1 }, pkts.map fun _ => .write r.nak) := by
              intro pkts hpkts
              induction pkts with
              | nil => rfl
              | cons p pkts ih =>
                  have hcheck : Receiver.check { r with parser := f.1 } p = none :=
                    hpkts p List.mem_cons_self
                  rw [Mealy.run_cons, hone.handle_eq, Receiver.onPacket, hcheck,
                    ih fun q hq => hpkts q (List.mem_cons_of_mem _ hq)]
                  rfl
            have hpkts : r.unread ++ f.2 = f.2 := by rw [h.unread, List.nil_append]
            rw [hpkts, hrun _ hbad']
            refine ⟨.awaiting hone, fun e he b hb => ?_, fun e he data hdata => ?_, fun he => ?_⟩
            · obtain ⟨p, -, rfl⟩ := List.mem_map.mp he
              cases hb
              exact h.answer_nak
            · obtain ⟨p, -, rfl⟩ := List.mem_map.mp he
              cases hdata
            · obtain ⟨p, -, hthrows⟩ := List.mem_map.mp he
              cases hthrows

end

end Kermit

end Voyager
