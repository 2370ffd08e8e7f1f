import Voyager.Kermit.Session

/-!
# Runs of one side

The calls into a started sender or receiver, one after another: bytes arrive, the timer
fires, `cancel`, and for the receiver the end of `linger`. What every one of them keeps of
the state and of all that was done so far holds in every run; for the bytes it is enough
that one packet keeps it (`Sender.run_calls`, `Receiver.run_calls`). A packet that the
parser hands out has no control byte for its type.
-/

namespace Voyager

namespace Kermit

/-! ## The packets of the parser -/

/-- What the parser hands out is a packet without control bytes. -/
def Scan.Clean : Scan → Prop
  | .emit p _ => isControl p.type = false
  | _ => True

theorem scanRange_clean {buf : List Byte} {stop : ℕ} {next : Scan}
    (h : badRange buf 1 stop = none → next.Clean) : (scanRange buf stop next).Clean := by
  cases hbad : badRange buf 1 stop with
  | none =>
      rw [scanRange_of_none hbad]
      exact h hbad
  | some i =>
      rw [scanRange_of_some hbad]
      trivial

theorem scanFrame_clean {buf : List Byte} {hdr total : ℕ} (h : 4 ≤ total) :
    (scanFrame buf hdr total).Clean := by
  rw [scanFrame]
  split
  · exact scanRange_clean fun _ => trivial
  · next hlen =>
      refine scanRange_clean fun hbad => ?_
      rw [badRange, Option.map_eq_none_iff, List.findIdx?_eq_none_iff] at hbad
      refine hbad _ ?_
      have hlt : 3 < (buf.take total).length := by
        rw [List.length_take]
        omega
      have hdrop : 2 < ((buf.take total).drop 1).length := by
        rw [List.length_drop]
        omega
      have htype : byteAt (buf.take total) 3 = ((buf.take total).drop 1)[2] := by
        rw [byteAt, List.getD_eq_getElem?_getD, List.getElem?_eq_getElem hlt, Option.getD_some,
          List.getElem_drop]
      rw [Packet.type, htype, slice]
      exact List.getElem_mem hdrop

theorem parseStep_clean (buf : List Byte) : (parseStep buf).Clean := by
  rw [parseStep]
  split
  · trivial
  · rw [scanMark]
    dsimp only
    split
    · trivial
    · split
      · split
        · exact scanRange_clean fun _ => trivial
        · refine scanRange_clean fun _ => ?_
          split
          · trivial
          · exact scanFrame_clean (by omega)
      · split
        · trivial
        · exact scanFrame_clean (by omega)

theorem parse_clean (buf : List Byte) : ∀ p ∈ (parse buf).1, isControl p.type = false := by
  fun_induction parse buf with
  | case1 buf r h => exact fun _ hp => absurd hp List.not_mem_nil
  | case2 buf r h ih => exact ih
  | case3 buf pkt r h ih =>
      have hclean := parseStep_clean buf
      rw [h] at hclean
      exact List.forall_mem_cons.mpr ⟨hclean, ih⟩

theorem Parser.feed_clean (p : Parser) (bytes : List Byte) :
    ∀ q ∈ (p.feed bytes).2, isControl q.type = false := parse_clean _

/-! ## The calls -/

inductive SenderCall
  | deliver (bytes : List Byte)
  | timeout
  | cancel
  deriving DecidableEq, Repr

inductive ReceiverCall
  | deliver (bytes : List Byte)
  | timeout
  | cancel
  | stop
  deriving DecidableEq, Repr

/-- The timer fires only when it is set. -/
def Sender.call (o : SenderOptions) (s : Sender) : SenderCall → Sender × List SenderEffect
  | .deliver bytes => s.deliver o bytes
  | .timeout => if s.timer then s.timeout else (s, [])
  | .cancel => s.cancel

def Receiver.call (timeoutMs : ℕ) (r : Receiver) : ReceiverCall → Receiver × List ReceiverEffect
  | .deliver bytes => r.deliver timeoutMs bytes
  | .timeout => if r.timer then r.timeout else (r, [])
  | .cancel => r.cancel
  | .stop => (r.stop, [])

/-- All that a sender does that is started and then called so. -/
def Sender.effects (o : SenderOptions) (calls : List SenderCall) : List SenderEffect :=
  (createSender.start o).2 ++ (Mealy.run (Sender.call o) (createSender.start o).1 calls).2

def Receiver.effects (timeoutMs : ℕ) (calls : List ReceiverCall) : List ReceiverEffect :=
  createReceiver.start.2 ++ (Mealy.run (Receiver.call timeoutMs) createReceiver.start.1 calls).2

/-! ## Runs -/

/-- What a call keeps of the sender and of what was done so far. -/
structure Sender.Keeps (o : SenderOptions) (Inv : Sender → List SenderEffect → Prop) : Prop where
  parser : ∀ s log p, Inv s log → Inv { s with parser := p } log
  packet : ∀ s log p, isControl p.type = false → Inv s log →
    Inv (s.handle o p).1 (log ++ (s.handle o p).2)
  timeout : ∀ s log, Inv s log → Inv s.timeout.1 (log ++ s.timeout.2)
  cancel : ∀ s log, Inv s log → Inv s.cancel.1 (log ++ s.cancel.2)

variable {o : SenderOptions} {timeoutMs : ℕ}

theorem Sender.Keeps.call {Inv : Sender → List SenderEffect → Prop} (h : Sender.Keeps o Inv)
    (s : Sender) (log : List SenderEffect) (c : SenderCall) (hs : Inv s log) :
    Inv (s.call o c).1 (log ++ (s.call o c).2) := by
  have hnil : Inv s (log ++ []) := by rwa [List.append_nil]
  cases c with
  | deliver bytes =>
      rw [Sender.call, Sender.deliver]
      split
      · dsimp only
        have hclean := s.parser.feed_clean bytes
        have hstart := h.parser s log (s.parser.feed bytes).1 hs
        generalize (s.parser.feed bytes).2 = pkts at hclean
        generalize { s with parser := (s.parser.feed bytes).1 } = t at hstart
        clear hs hnil
        induction pkts generalizing t log with
        | nil =>
            rw [Mealy.run_nil, List.append_nil]
            exact hstart
        | cons p pkts ih =>
            obtain ⟨hp, hpkts⟩ := List.forall_mem_cons.mp hclean
            rw [Mealy.run_cons, ← List.append_assoc]
            exact ih _ hpkts _ (h.packet t log p hp hstart)
      · exact hnil
  | timeout =>
      rw [Sender.call]
      split
      · exact h.timeout s log hs
      · exact hnil
  | cancel => exact h.cancel s log hs

/-- An invariant of the start that every call keeps holds in every run. -/
theorem Sender.run_calls {Inv : Sender → List SenderEffect → Prop} (h : Sender.Keeps o Inv)
    (hstart : Inv (createSender.start o).1 (createSender.start o).2) (calls : List SenderCall) :
    Inv (Mealy.run (Sender.call o) (createSender.start o).1 calls).1 (Sender.effects o calls) :=
  Mealy.run_log_invariant Inv h.call hstart calls

/-- What a call keeps of the receiver and of what was done so far. -/
structure Receiver.Keeps (timeoutMs : ℕ) (Inv : Receiver → List ReceiverEffect → Prop) : Prop where
  parser : ∀ r log p q, Inv r log → Inv { r with parser := p, unread := q } log
  packet : ∀ r log p, isControl p.type = false → Inv r log →
    Inv (r.handle timeoutMs p).1 (log ++ (r.handle timeoutMs p).2)
  timeout : ∀ r log, Inv r log → Inv r.timeout.1 (log ++ r.timeout.2)
  cancel : ∀ r log, Inv r log → Inv r.cancel.1 (log ++ r.cancel.2)
  lingerParser : ∀ r log l l' prev, r.lingering = some (l, prev) → Inv r log →
    Inv { r with lingering := some (l', prev) } log
  linger : ∀ r log l prev p, r.lingering = some (l, prev) → Inv r log →
    Inv r (log ++ r.handleLinger prev p)
  stop : ∀ r log, Inv r log → Inv r.stop log

/-- The packets that were left in the buffer have no control byte for their type. -/
def Receiver.UnreadClean (r : Receiver) : Prop := ∀ p ∈ r.unread, isControl p.type = false

theorem Receiver.UnreadClean.fail {r : Receiver} (h : r.UnreadClean) (msg : JsString)
    (notifyPeer : Bool) : (r.fail msg notifyPeer).1.UnreadClean := by
  rw [Receiver.fail]
  split
  · exact h
  · exact h

theorem Receiver.UnreadClean.timeout {r : Receiver} (h : r.UnreadClean) :
    r.timeout.1.UnreadClean := by
  rw [Receiver.timeout]
  dsimp only
  split
  · exact h
  · split
    · have hlater : UnreadClean { r with timer := false, tries := r.tries + 1 } := h
      exact hlater.fail _ _
    · exact h

theorem Receiver.Keeps.handleAll {Inv : Receiver → List ReceiverEffect → Prop}
    (h : Receiver.Keeps timeoutMs Inv) {pkts : List Packet}
    (hclean : ∀ p ∈ pkts, isControl p.type = false) {r : Receiver} {log : List ReceiverEffect}
    (hr : Inv r log) :
    Inv (r.handleAll timeoutMs pkts).1 (log ++ (r.handleAll timeoutMs pkts).2) ∧
      (r.handleAll timeoutMs pkts).1.UnreadClean := by
  induction pkts generalizing r log with
  | nil =>
      rw [Receiver.handleAll, List.append_nil]
      exact ⟨h.parser r log r.parser [] hr, fun _ hp => absurd hp List.not_mem_nil⟩
  | cons p pkts ih =>
      obtain ⟨hp, hpkts⟩ := List.forall_mem_cons.mp hclean
      have hone := h.packet r log p hp hr
      rw [Receiver.handleAll]
      dsimp only
      split
      · exact ⟨h.parser _ _ (r.handle timeoutMs p).1.parser pkts hone, hpkts⟩
      · rw [← List.append_assoc]
        exact ih hpkts hone

theorem Receiver.Keeps.call {Inv : Receiver → List ReceiverEffect → Prop}
    (h : Receiver.Keeps timeoutMs Inv) (r : Receiver) (log : List ReceiverEffect)
    (c : ReceiverCall) (hr : Inv r log ∧ r.UnreadClean) :
    Inv (r.call timeoutMs c).1 (log ++ (r.call timeoutMs c).2) ∧
      (r.call timeoutMs c).1.UnreadClean := by
  have hnil : Inv r (log ++ []) ∧ r.UnreadClean := by rwa [List.append_nil]
  cases c with
  | deliver bytes =>
      rw [Receiver.call, Receiver.deliver]
      split
      · rename_i l prev hl
        dsimp only
        refine ⟨h.lingerParser r _ l _ prev hl ?_, hr.2⟩
        generalize (l.feed bytes).2 = pkts
        have hinv := hr.1
        clear hr hnil
        induction pkts generalizing log with
        | nil =>
            rw [List.flatMap_nil, List.append_nil]
            exact hinv
        | cons p pkts ih =>
            rw [List.flatMap_cons, ← List.append_assoc]
            exact ih _ (h.linger r log l prev p hl hinv)
      · dsimp only
        split
        · refine h.handleAll (fun p hp => ?_) (h.parser r log _ r.unread hr.1)
          rcases List.mem_append.mp hp with hp | hp
          · exact hr.2 p hp
          · exact r.parser.feed_clean bytes p hp
        · exact hnil
  | timeout =>
      rw [Receiver.call]
      split
      · exact ⟨h.timeout r log hr.1, hr.2.timeout⟩
      · exact hnil
  | cancel => exact ⟨h.cancel r log hr.1, hr.2.fail _ _⟩
  | stop =>
      refine ⟨?_, hr.2⟩
      rw [Receiver.call, List.append_nil]
      exact h.stop r log hr.1

/-- An invariant of the start that every call keeps holds in every run. -/
theorem Receiver.run_calls {Inv : Receiver → List ReceiverEffect → Prop}
    (h : Receiver.Keeps timeoutMs Inv)
    (hstart : Inv createReceiver.start.1 createReceiver.start.2) (calls : List ReceiverCall) :
    Inv (Mealy.run (Receiver.call timeoutMs) createReceiver.start.1 calls).1
      (Receiver.effects timeoutMs calls) :=
  (Mealy.run_log_invariant (fun r log => Inv r log ∧ r.UnreadClean) h.call
    ⟨hstart, fun _ hp => absurd hp List.not_mem_nil⟩ calls).1

end Kermit

end Voyager
