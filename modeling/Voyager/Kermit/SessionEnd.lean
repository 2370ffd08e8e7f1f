import Voyager.Kermit.Events
import Voyager.Kermit.SenderRuns

/-!
# A session ends once

`onComplete` is the last thing a sender does, and a receiver can then only repeat the
acknowledgement that it wrote just before. The packets that a sender writes are those of
its exchanges one after another, each as often as it was tried; `Sender.Running` counts
them along the run, with the tries of the exchange that is running.
-/

namespace Voyager

namespace Kermit

/-! ## Ending once -/

section

variable {γ : Type*} (completion : γ → Option Completion)

/-- `onComplete` was not called yet. -/
def Quiet (log : List γ) : Prop := ∀ e ∈ log, completion e = none

/-- `onComplete` was called, and then only `after` happened. -/
def Ended (after : List γ → γ → Prop) (log : List γ) : Prop :=
  ∃ before c rest, log = before ++ c :: rest ∧ completion c ≠ none ∧ Quiet completion before ∧
    ∀ e ∈ rest, after before e ∧ completion e = none

/-- `onComplete` is called at most once, and after it only `after` happens. -/
def EndsOnce (after : List γ → γ → Prop) (log : List γ) : Prop :=
  (log.filterMap completion).length ≤ 1 ∧
    ∀ before c rest, log = before ++ c :: rest → completion c ≠ none → ∀ e ∈ rest, after before e

variable {completion} {after : List γ → γ → Prop} {log es : List γ}

theorem quiet_append : Quiet completion (log ++ es) ↔ Quiet completion log ∧ Quiet completion es :=
  List.forall_mem_append

theorem Quiet.append (h : Quiet completion log) (hes : Quiet completion es) :
    Quiet completion (log ++ es) := quiet_append.mpr ⟨h, hes⟩

theorem Quiet.filterMap (h : Quiet completion log) : log.filterMap completion = [] :=
  List.filterMap_eq_nil_iff.mpr h

theorem Quiet.endsOnce (h : Quiet completion log) : EndsOnce completion after log := by
  refine ⟨by rw [h.filterMap]; exact Nat.zero_le 1, fun before c rest hlog hc => ?_⟩
  exact absurd (h c (by rw [hlog]; exact List.mem_append_right _ List.mem_cons_self)) hc

/-- The call of `onComplete` is where the list is split. -/
theorem Ended.endsOnce (h : Ended completion after log) : EndsOnce completion after log := by
  obtain ⟨before, c, rest, hlog, hc, hbefore, hrest⟩ := h
  have hquiet : Quiet completion rest := fun e he => (hrest e he).2
  constructor
  · rw [hlog, List.filterMap_append, hbefore.filterMap, List.nil_append, List.filterMap_cons]
    split
    · rw [hquiet.filterMap]
      exact Nat.zero_le 1
    · rw [hquiet.filterMap]
      exact Nat.le_refl 1
  · intro before' c' rest' hlog' hc'
    rcases List.append_eq_append_iff.mp (hlog.symm.trans hlog') with
      ⟨a, hbefore', ha⟩ | ⟨a, hbefore', ha⟩
    · cases a with
      | nil =>
          rw [List.append_nil] at hbefore'
          rw [List.nil_append, List.cons.injEq] at ha
          rw [hbefore', ← ha.2]
          exact fun e he => (hrest e he).1
      | cons x a =>
          rw [List.cons_append, List.cons.injEq] at ha
          exact absurd (hquiet c' (by rw [ha.2]; exact List.mem_append_right _ List.mem_cons_self))
            hc'
    · cases a with
      | nil =>
          rw [List.append_nil] at hbefore'
          rw [List.nil_append, List.cons.injEq] at ha
          rw [← hbefore', ha.2]
          exact fun e he => (hrest e he).1
      | cons x a =>
          rw [List.cons_append, List.cons.injEq] at ha
          exact absurd (hbefore c' (by rw [hbefore', ha.1]; simp)) hc'

theorem Quiet.ended (h : Quiet completion log) {es : List γ} (hes : Quiet completion es) {c : γ}
    (hc : completion c ≠ none) : Ended completion after (log ++ (es ++ [c])) := by
  refine ⟨log ++ es, c, [], (List.append_assoc _ _ _).symm, hc, h.append hes, ?_⟩
  exact fun _ he => absurd he List.not_mem_nil

end

/-! ## The exchanges of a sender -/

/-- The packets of the exchanges, each with how often it was sent. Exchange `i` has the
sequence number `i` modulo 64. -/
structure Exchanges (sent : List (List Byte × ℕ)) : Prop where
  numbered : ∀ i p, sent[i]? = some p → ∃ type payload ckType, type ≠ PacketType.E ∧
    p.1 = buildPacket (i % 64) type payload ckType
  tries : ∀ p ∈ sent, 1 ≤ p.2 ∧ p.2 ≤ MAX_RETRIES

/-- The packets in the order they are written. -/
def sentTimes (sent : List (List Byte × ℕ)) : List (List Byte) :=
  sent.flatMap fun p => List.replicate p.2 p.1

/-- The packets that were written are those of exchanges, and in the end maybe an error. -/
def Exchanged (log : List SenderEffect) : Prop :=
  ∃ sent tail, Exchanges sent ∧ log.filterMap SenderEffect.written = sentTimes sent ++ tail ∧
    (tail = [] ∨ ∃ seq msg neg, tail = [errorPacket seq msg neg])

variable {sent front : List (List Byte × ℕ)}

theorem sentTimes_append_singleton (pkt : List Byte) (k : ℕ) :
    sentTimes (sent ++ [(pkt, k)]) = sentTimes sent ++ List.replicate k pkt := by
  rw [sentTimes, List.flatMap_append, List.flatMap_singleton]
  rfl

theorem sentTimes_succ (pkt : List Byte) (k : ℕ) :
    sentTimes (front ++ [(pkt, k + 1)]) = sentTimes (front ++ [(pkt, k)]) ++ [pkt] := by
  rw [sentTimes_append_singleton, sentTimes_append_singleton, List.replicate_succ',
    List.append_assoc]

theorem getElem?_append_singleton_cases {p q : List Byte × ℕ} {i : ℕ}
    (h : (sent ++ [q])[i]? = some p) : sent[i]? = some p ∨ i = sent.length ∧ p = q := by
  rw [List.getElem?_append] at h
  split at h
  · exact .inl h
  · rw [List.getElem?_singleton] at h
    split at h
    · cases h
      exact .inr ⟨by omega, rfl⟩
    · cases h

theorem Exchanges.append (h : Exchanges sent) {type : Byte} (payload : List Byte) (ckType : ℕ)
    (htype : type ≠ PacketType.E) :
    Exchanges (sent ++ [(buildPacket (sent.length % 64) type payload ckType, 1)]) where
  numbered i p hp := by
    rcases getElem?_append_singleton_cases hp with hp | ⟨hi, rfl⟩
    · exact h.numbered i p hp
    · exact ⟨type, payload, ckType, htype, by rw [hi]⟩
  tries p hp := by
    rcases List.mem_append.mp hp with hp | hp
    · exact h.tries p hp
    · rw [List.mem_singleton.mp hp, MAX_RETRIES]
      exact ⟨Nat.le_refl 1, Nat.le_add_left 1 9⟩

theorem Exchanges.again {pkt : List Byte} {k : ℕ} (h : Exchanges (front ++ [(pkt, k)]))
    (hk : k + 1 ≤ MAX_RETRIES) : Exchanges (front ++ [(pkt, k + 1)]) where
  numbered i p hp := by
    rcases getElem?_append_singleton_cases hp with hp | ⟨hi, rfl⟩
    · have hlt := (List.getElem?_eq_some_iff.mp hp).1
      exact h.numbered i p (by rwa [List.getElem?_append_left hlt])
    · exact h.numbered i (pkt, k) (by rw [hi, List.getElem?_concat_length])
  tries p hp := by
    rcases List.mem_append.mp hp with hp | hp
    · exact h.tries p (List.mem_append_left _ hp)
    · rw [List.mem_singleton.mp hp]
      exact ⟨Nat.le_add_left 1 k, hk⟩

/-! ## The sender -/

/-- The sender is not through; `sent` are its exchanges so far. -/
structure Sender.Alive (s : Sender) (log : List SenderEffect) (sent : List (List Byte × ℕ)) :
    Prop where
  done : s.done = false
  quiet : Quiet SenderEffect.completion log
  exchanges : Exchanges sent
  written : log.filterMap SenderEffect.written = sentTimes sent

/-- The sender waits with the last of these exchanges, or with none. -/
def Sender.WaitsWith (s : Sender) (sent : List (List Byte × ℕ)) : Prop :=
  ∀ x, s.waiting = some x →
    ∃ front, sent = front ++ [(x.pkt, x.tries)] ∧ s.seq = front.length % 64

/-- `onComplete` was called, and the sender does nothing any more. -/
structure Sender.Over (s : Sender) (log : List SenderEffect) : Prop where
  done : s.done = true
  waiting : s.waiting = none
  ended : Ended SenderEffect.completion (fun _ _ => False) log
  exchanged : Exchanged log

inductive Sender.Inv (s : Sender) (log : List SenderEffect) : Prop
  | running (sent : List (List Byte × ℕ)) (h : s.Alive log sent) (hwaits : s.WaitsWith sent)
  | complete (h : s.Over log)

variable {o : SenderOptions} {s : Sender} {log : List SenderEffect} {x : Exchange}

theorem Sender.Alive.fail (h : s.Alive log sent) (msg : JsString) (notifyPeer : Bool) :
    Sender.Inv (s.fail msg notifyPeer).1 (log ++ (s.fail msg notifyPeer).2) := by
  rw [Sender.fail, if_neg (by rw [h.done]; exact Bool.false_ne_true)]
  have htail : Exchanged (log ++
      ((if notifyPeer then [.write (errorPacket s.seq msg s.neg)] else []) ++
        [.complete false (some msg)])) := by
    refine ⟨sent, if notifyPeer then [errorPacket s.seq msg s.neg] else [], h.exchanges, ?_, ?_⟩
    · rw [List.filterMap_append, h.written]
      cases notifyPeer <;> rfl
    · cases notifyPeer
      · exact .inl rfl
      · exact .inr ⟨_, _, _, rfl⟩
  refine .complete ⟨rfl, rfl, h.quiet.ended ?_ (by simp [SenderEffect.completion]), htail⟩
  cases notifyPeer <;> simp [Quiet, SenderEffect.completion]

/-- One more try of an exchange that was sent `x.tries` times. -/
theorem Sender.Alive.send (h : s.Alive log (front ++ [(x.pkt, x.tries)]))
    (hseq : s.seq = front.length % 64) :
    Sender.Inv (s.send x).1 (log ++ (s.send x).2) := by
  rw [Sender.send, if_neg (by rw [h.done]; exact Bool.false_ne_true)]
  split
  · exact h.fail _ _
  · next htries =>
      refine .running (front ++ [(x.pkt, x.tries + 1)])
        ⟨h.done, h.quiet.append ?_, h.exchanges.again (Nat.le_of_not_lt htries), ?_⟩ ?_
      · simp [Quiet, SenderEffect.completion]
      · rw [List.filterMap_append, h.written, sentTimes_succ]
        rfl
      · intro y hy
        cases hy
        exact ⟨front, rfl, hseq⟩

theorem Sender.Alive.exchange (h : s.Alive log sent) (hseq : s.seq = sent.length % 64) {type : Byte}
    (htype : type ≠ PacketType.E) (payload : List Byte) (ckType : ℕ) (stage : Stage) :
    Sender.Inv (s.exchange type payload ckType stage).1
      (log ++ (s.exchange type payload ckType stage).2) := by
  rw [Sender.exchange, Sender.send, if_neg (by rw [h.done]; exact Bool.false_ne_true),
    if_neg (show ¬ 0 + 1 > MAX_RETRIES by decide)]
  refine .running (sent ++ [(buildPacket s.seq type payload ckType, 1)])
    ⟨h.done, h.quiet.append ?_, ?_, ?_⟩ ?_
  · simp [Quiet, SenderEffect.completion]
  · rw [hseq]
    exact h.exchanges.append payload ckType htype
  · rw [List.filterMap_append, h.written, sentTimes_append_singleton]
    rfl
  · intro y hy
    cases hy
    exact ⟨sent, rfl, hseq⟩

theorem Sender.Alive.sendData (h : s.Alive log sent) (hseq : s.seq = sent.length % 64) (neg : Neg)
    (pos : ℕ) :
    Sender.Inv (s.sendData o neg pos).1 (log ++ (s.sendData o neg pos).2) := by
  rw [Sender.sendData]
  split
  · exact h.exchange hseq (by decide) _ _ _
  · exact h.exchange hseq (by decide) _ _ _

theorem Sender.Alive.afterFile (h : s.Alive log sent) (hseq : s.seq = sent.length % 64)
    (neg : Neg) : Sender.Inv (s.afterFile o neg).1 (log ++ (s.afterFile o neg).2) := by
  rw [Sender.afterFile]
  split
  · exact h.exchange hseq (by decide) _ _ _
  · exact h.sendData hseq neg 0

theorem Sender.Alive.onAck (h : s.Alive log sent) (hseq : s.seq = sent.length % 64) (neg : Neg)
    (stage : Stage) (d : List Byte) :
    Sender.Inv (s.onAck o neg stage d).1 (log ++ (s.onAck o neg stage d).2) := by
  cases stage with
  | init => exact h.exchange hseq (by decide) _ _ _
  | file => exact h.afterFile hseq neg
  | attr =>
      rw [Sender.onAck]
      split
      · exact h.fail _ _
      · exact h.sendData hseq neg 0
  | data next =>
      rw [Sender.onAck]
      split
      · exact h.fail _ _
      · have hprogress : s.Alive (log ++ [.progress next o.data.bytes.length]) sent := by
          refine ⟨h.done, h.quiet.append ?_, h.exchanges, ?_⟩
          · simp [Quiet, SenderEffect.completion]
          · rw [List.filterMap_append, h.written]
            exact List.append_nil _
        have hnext := hprogress.sendData (o := o) hseq neg next
        rw [List.append_assoc] at hnext
        exact hnext
  | eof => exact h.exchange hseq (by decide) _ _ _
  | brk =>
      refine .complete ⟨rfl, rfl, ?_, sent, [], h.exchanges, ?_, .inl rfl⟩
      · have hnil : Quiet SenderEffect.completion [] := fun _ he => absurd he List.not_mem_nil
        exact h.quiet.ended hnil (by simp [SenderEffect.completion])
      · rw [Sender.onAck, List.filterMap_append, h.written]
        rfl

/-- The exchange is acknowledged, and the next one has the next number. -/
theorem Sender.Alive.ack (h : s.Alive log (front ++ [(x.pkt, x.tries)]))
    (hseq : s.seq = front.length % 64) (d : List Byte) :
    Sender.Inv (s.ack o x d).1 (log ++ (s.ack o x d).2) := by
  have hnext : (s.seq + 1) &&& 63 = (front ++ [(x.pkt, x.tries)]).length % 64 := by
    rw [hseq, mod_succ_and, List.length_append, List.length_singleton]
  rw [Sender.ack]
  dsimp only
  split
  · next neg hneg =>
      have hacked : Sender.Alive
          { s with waiting := none, timer := false, seq := (s.seq + 1) &&& 63, neg := some neg }
          log (front ++ [(x.pkt, x.tries)]) :=
        ⟨h.done, h.quiet, h.exchanges, h.written⟩
      exact hacked.onAck hnext neg x.stage d
  · rw [List.append_nil]
    exact .running _ ⟨h.done, h.quiet, h.exchanges, h.written⟩ fun y hy => by cases hy

theorem Sender.Alive.react (h : s.Alive log (front ++ [(x.pkt, x.tries)]))
    (hwaiting : s.waiting = some x) (hseq : s.seq = front.length % 64) (p : Packet)
    (d : List Byte) : Sender.Inv (s.react o x p d).1 (log ++ (s.react o x p d).2) := by
  have hsame : Sender.Inv s (log ++ []) := by
    rw [List.append_nil]
    refine .running _ h fun y hy => ?_
    cases hwaiting.symm.trans hy
    exact ⟨front, rfl, hseq⟩
  rw [Sender.react]
  split
  · exact h.fail _ _
  · split
    · split
      · exact h.ack hseq []
      · split
        · exact h.send hseq
        · exact hsame
    · split
      · exact h.ack hseq d
      · exact hsame

theorem Sender.Inv.handle (h : s.Inv log) (p : Packet) :
    Sender.Inv (s.handle o p).1 (log ++ (s.handle o p).2) := by
  have hsame : Sender.Inv s (log ++ []) := by rwa [List.append_nil]
  cases h with
  | running sent h hwaits =>
      rw [Sender.handle]
      split
      · next x hx =>
          obtain ⟨front, rfl, hseq⟩ := hwaits x hx
          rw [if_neg (by rw [h.done]; exact Bool.false_ne_true), Sender.onPacket]
          split
          · exact h.react hx hseq p _
          · exact hsame
      · exact hsame
  | complete h =>
      rw [Sender.handle, h.waiting]
      exact hsame

theorem Sender.Inv.timeout (h : s.Inv log) :
    Sender.Inv s.timeout.1 (log ++ s.timeout.2) := by
  cases h with
  | running sent h hwaits =>
      have hset : Sender.Alive { s with timer := false } log sent :=
        ⟨h.done, h.quiet, h.exchanges, h.written⟩
      rw [Sender.timeout]
      dsimp only
      split
      · next x hx =>
          obtain ⟨front, rfl, hseq⟩ := hwaits x hx
          exact hset.send hseq
      · rw [List.append_nil]
        exact .running sent hset hwaits
  | complete h =>
      rw [Sender.timeout]
      dsimp only
      rw [h.waiting, List.append_nil]
      exact .complete ⟨h.done, rfl, h.ended, h.exchanged⟩

theorem Sender.Inv.cancel (h : s.Inv log) : Sender.Inv s.cancel.1 (log ++ s.cancel.2) := by
  cases h with
  | running sent h hwaits => exact h.fail _ _
  | complete h =>
      rw [Sender.cancel, Sender.fail, if_pos h.done, List.append_nil]
      exact .complete h

theorem Sender.keeps_inv : Sender.Keeps o Sender.Inv where
  parser s log p h := by
    cases h with
    | running sent h hwaits =>
        exact .running sent ⟨h.done, h.quiet, h.exchanges, h.written⟩ hwaits
    | complete h => exact .complete ⟨h.done, h.waiting, h.ended, h.exchanged⟩
  packet s log p _ h := h.handle p
  timeout s log h := h.timeout
  cancel s log h := h.cancel

theorem Sender.inv_start : Sender.Inv (createSender.start o).1 (createSender.start o).2 := by
  have hnone : Exchanges [] :=
    { numbered := fun _ _ hp => absurd hp (by simp)
      tries := fun _ hp => absurd hp List.not_mem_nil }
  have hempty : Sender.Alive { createSender with listening := true } [] [] :=
    ⟨rfl, fun _ he => absurd he List.not_mem_nil, hnone, rfl⟩
  exact hempty.exchange rfl (by decide) _ _ _

/-! ## The receiver -/

/-- The last thing before was to write an acknowledgement, and this writes it again. -/
def RepeatsAck (before : List ReceiverEffect) (e : ReceiverEffect) : Prop :=
  ∃ seq ckType,
    before.getLast? = some (.write (buildPacket seq PacketType.Y [] ckType)) ∧
      e = .write (buildPacket seq PacketType.Y [] ckType)

/-- `onComplete` was called; while the receiver lingers, `lastAck` is the acknowledgement it
wrote just before. -/
structure Receiver.Over (r : Receiver) (log : List ReceiverEffect) : Prop where
  done : r.done = true
  ended : ∃ before c rest, log = before ++ c :: rest ∧ c.completion ≠ none ∧
    Quiet ReceiverEffect.completion before ∧ (∀ e ∈ rest, RepeatsAck before e) ∧
    ∀ l, r.lingering = some l → ∀ e ∈ r.lastAck.toList.map .write, RepeatsAck before e

inductive Receiver.Inv (r : Receiver) (log : List ReceiverEffect) : Prop
  | running (hdone : r.done = false) (hlingering : r.lingering = none)
      (hquiet : Quiet ReceiverEffect.completion log)
  | complete (h : r.Over log)

variable {timeoutMs : ℕ} {r : Receiver} {log es : List ReceiverEffect}

theorem RepeatsAck.completion {before : List ReceiverEffect} {e : ReceiverEffect}
    (h : RepeatsAck before e) : e.completion = none := by
  obtain ⟨seq, ckType, -, rfl⟩ := h
  rfl

theorem Receiver.Over.ended_log (h : r.Over log) :
    Ended ReceiverEffect.completion RepeatsAck log := by
  obtain ⟨before, c, rest, hlog, hc, hbefore, hrest, -⟩ := h.ended
  exact ⟨before, c, rest, hlog, hc, hbefore, fun e he => ⟨hrest e he, (hrest e he).completion⟩⟩

theorem quiet_singleton {e : ReceiverEffect} (h : e.completion = none) :
    Quiet ReceiverEffect.completion [e] := by simp [Quiet, h]

theorem quiet_nil : Quiet ReceiverEffect.completion [] := fun _ he => absurd he List.not_mem_nil

theorem Receiver.inv_fail (hdone : r.done = false) (hlingering : r.lingering = none)
    (hquiet : Quiet ReceiverEffect.completion log) (msg : JsString) (notifyPeer : Bool) :
    Receiver.Inv (r.fail msg notifyPeer).1 (log ++ (r.fail msg notifyPeer).2) := by
  rw [Receiver.fail, if_neg (by rw [hdone]; exact Bool.false_ne_true), ← List.append_assoc]
  refine .complete ⟨rfl, _, _, [], rfl, by simp [ReceiverEffect.completion], hquiet.append ?_,
    fun _ he => absurd he List.not_mem_nil, fun l hl => ?_⟩
  · cases notifyPeer <;> simp [Quiet, ReceiverEffect.completion]
  · cases hlingering.symm.trans hl

/-- The receiver goes on, with effects that are not the end. -/
theorem Receiver.inv_running (hdone : r.done = false) (hlingering : r.lingering = none)
    (hquiet : Quiet ReceiverEffect.completion log) (hes : Quiet ReceiverEffect.completion es) :
    Receiver.Inv r (log ++ es) := .running hdone hlingering (hquiet.append hes)

theorem Receiver.inv_proceed (hdone : r.done = false) (hlingering : r.lingering = none)
    (hquiet : Quiet ReceiverEffect.completion log) (seq : ℕ) (payload : List Byte) (ck : ℕ) :
    Receiver.Inv (r.proceed seq payload ck).1 (log ++ (r.proceed seq payload ck).2) :=
  Receiver.inv_running hdone hlingering hquiet (quiet_singleton rfl)

/-- After the acknowledgement of `B` the receiver is through. -/
theorem Receiver.inv_finish (hdone : r.done = false) (hlingering : r.lingering = none)
    (hquiet : Quiet ReceiverEffect.completion log) {seq ckType : ℕ}
    (hlast : r.lastAck = some (buildPacket seq PacketType.Y [] ckType))
    (hlog : log.getLast? = some (.write (buildPacket seq PacketType.Y [] ckType))) :
    Receiver.Inv r.finish.1 (log ++ r.finish.2) := by
  have hrepeats : ∀ e ∈ r.lastAck.toList.map .write, RepeatsAck log e := by
    intro e he
    rw [hlast] at he
    exact ⟨seq, ckType, hlog, List.mem_singleton.mp he⟩
  rw [Receiver.finish]
  split
  · exact Receiver.inv_fail hdone hlingering hquiet _ _
  · dsimp only
    split
    · exact .complete ⟨rfl, log, _, [], rfl, by simp [ReceiverEffect.completion], hquiet,
        fun _ he => absurd he List.not_mem_nil, fun _ _ => hrepeats⟩
    · exact .complete ⟨rfl, log, _, [], rfl, by simp [ReceiverEffect.completion], hquiet,
        fun _ he => absurd he List.not_mem_nil, fun _ _ => hrepeats⟩

theorem Receiver.inv_accept (hdone : r.done = false) (hlingering : r.lingering = none)
    (hquiet : Quiet ReceiverEffect.completion log) (seq : ℕ) (type : Byte) (d : List Byte) :
    Receiver.Inv (r.accept timeoutMs seq type d).1 (log ++ (r.accept timeoutMs seq type d).2) := by
  have htwo : ∀ e b, e.completion = none → Quiet ReceiverEffect.completion [e, .write b] :=
    fun e b he => (quiet_singleton he).append (quiet_singleton rfl)
  rw [Receiver.accept]
  split
  · exact Receiver.inv_proceed (by exact hdone) (by exact hlingering) hquiet _ _ _
  split
  · split
    · exact Receiver.inv_running hdone hlingering hquiet quiet_nil
    · exact Receiver.inv_running hdone hlingering hquiet (htwo _ _ rfl)
  split
  · exact Receiver.inv_running hdone hlingering hquiet (htwo _ _ rfl)
  split
  · split
    · exact Receiver.inv_running hdone hlingering hquiet (quiet_singleton rfl)
    · exact Receiver.inv_running hdone hlingering hquiet (htwo _ _ rfl)
  have hack : ∀ r : Receiver,
      Quiet ReceiverEffect.completion (log ++ (r.sendAck seq [] r.ckType).2) :=
    fun _ => hquiet.append (quiet_singleton rfl)
  split
  · dsimp only
    split
    · rw [← List.append_assoc]
      exact Receiver.inv_fail (by exact hdone) (by exact hlingering) (hack _) _ _
    · exact Receiver.inv_proceed (by exact hdone) (by exact hlingering) hquiet _ _ _
  split
  · dsimp only
    rw [← List.append_assoc]
    exact Receiver.inv_finish hdone hlingering (hack _) rfl (by simp [Receiver.sendAck])
  · exact Receiver.inv_fail hdone hlingering hquiet _ _

theorem Receiver.Inv.handle (h : r.Inv log) (p : Packet) :
    Receiver.Inv (r.handle timeoutMs p).1 (log ++ (r.handle timeoutMs p).2) := by
  have hsame : Receiver.Inv r (log ++ []) := by rwa [List.append_nil]
  rw [Receiver.handle]
  split
  · exact hsame
  · next hgo =>
      cases h with
      | complete h => exact absurd (.inl h.done) hgo
      | running hdone hlingering hquiet =>
          rw [Receiver.onPacket]
          split
          · next d hd =>
              rw [Receiver.react]
              split
              · exact Receiver.inv_fail hdone hlingering hquiet _ _
              · split
                · refine Receiver.inv_running hdone hlingering hquiet fun e he => ?_
                  obtain ⟨b, -, rfl⟩ := List.mem_map.mp he
                  rfl
                · split
                  · exact Receiver.inv_running hdone hlingering hquiet (quiet_singleton rfl)
                  · exact Receiver.inv_accept (by exact hdone) (by exact hlingering) hquiet _ _ _
          · exact Receiver.inv_running hdone hlingering hquiet (quiet_singleton rfl)

theorem Receiver.Inv.timeout (h : r.Inv log) :
    Receiver.Inv r.timeout.1 (log ++ r.timeout.2) := by
  rw [Receiver.timeout]
  dsimp only
  split
  · rw [List.append_nil]
    cases h with
    | complete h => exact .complete ⟨h.done, h.ended⟩
    | running hdone hlingering hquiet => exact .running hdone hlingering hquiet
  · next hgo =>
      cases h with
      | complete h => exact absurd (.inl h.done) hgo
      | running hdone hlingering hquiet =>
          split
          · exact Receiver.inv_fail (by exact hdone) (by exact hlingering) hquiet _ _
          · exact Receiver.inv_running hdone hlingering hquiet (quiet_singleton rfl)

theorem Receiver.Inv.cancel (h : r.Inv log) :
    Receiver.Inv r.cancel.1 (log ++ r.cancel.2) := by
  cases h with
  | running hdone hlingering hquiet => exact Receiver.inv_fail hdone hlingering hquiet _ _
  | complete h =>
      rw [Receiver.cancel, Receiver.fail, if_pos h.done, List.append_nil]
      exact .complete h

theorem Receiver.Inv.linger (h : r.Inv log) {l : Parser} {prev : ℕ}
    (hl : r.lingering = some (l, prev)) (p : Packet) :
    Receiver.Inv r (log ++ r.handleLinger prev p) := by
  cases h with
  | running hdone hlingering hquiet => cases hlingering.symm.trans hl
  | complete h =>
      obtain ⟨before, c, rest, hlog, hc, hbefore, hrest, hrepeats⟩ := h.ended
      refine .complete
        ⟨h.done, before, c, rest ++ r.handleLinger prev p, ?_, hc, hbefore, ?_, hrepeats⟩
      · rw [hlog, List.append_assoc, List.cons_append]
      · intro e he
        rcases List.mem_append.mp he with he | he
        · exact hrest e he
        · rw [Receiver.handleLinger] at he
          split at he
          · exact hrepeats _ hl e he
          · exact absurd he List.not_mem_nil

theorem Receiver.keeps_inv : Receiver.Keeps timeoutMs Receiver.Inv where
  parser r log p q h := by
    cases h with
    | running hdone hlingering hquiet => exact .running hdone hlingering hquiet
    | complete h => exact .complete ⟨h.done, h.ended⟩
  packet r log p _ h := h.handle p
  timeout r log h := h.timeout
  cancel r log h := h.cancel
  lingerParser r log l l' prev hl h := by
    cases h with
    | running hdone hlingering hquiet => cases hlingering.symm.trans hl
    | complete h =>
        obtain ⟨before, c, rest, hlog, hc, hbefore, hrest, hrepeats⟩ := h.ended
        exact .complete
          ⟨h.done, before, c, rest, hlog, hc, hbefore, hrest, fun _ _ => hrepeats _ hl⟩
  linger r log l prev p hl h := h.linger hl p
  stop r log h := by
    cases h with
    | running hdone hlingering hquiet => exact .running hdone rfl hquiet
    | complete h =>
        obtain ⟨before, c, rest, hlog, hc, hbefore, hrest, -⟩ := h.ended
        exact .complete ⟨h.done, before, c, rest, hlog, hc, hbefore, hrest, fun _ hl => by cases hl⟩

/-! ## Both -/

/-- Whatever arrives, whenever the timer fires and whenever it is cancelled, `onComplete` of a
session is called at most once. A sender does nothing after it, and has written the packet
of each exchange at most `MAX_RETRIES` times; a receiver only repeats the acknowledgement
that it wrote just before. -/
theorem session_ends_once (o : SenderOptions) (timeoutMs : ℕ) :
    (∀ calls : List SenderCall,
      EndsOnce SenderEffect.completion (fun _ _ => False) (Sender.effects o calls) ∧
        Exchanged (Sender.effects o calls)) ∧
    ∀ calls : List ReceiverCall,
      EndsOnce ReceiverEffect.completion RepeatsAck (Receiver.effects timeoutMs calls) := by
  constructor
  · intro calls
    cases Sender.run_calls Sender.keeps_inv Sender.inv_start calls with
    | running sent h _ =>
        refine ⟨h.quiet.endsOnce, sent, [], h.exchanges, ?_, .inl rfl⟩
        rw [h.written, List.append_nil]
    | complete h => exact ⟨h.ended.endsOnce, h.exchanged⟩
  · intro calls
    have hstart : Receiver.Inv createReceiver.start.1 createReceiver.start.2 :=
      .running rfl rfl (quiet_singleton rfl)
    cases Receiver.run_calls Receiver.keeps_inv hstart calls with
    | running hdone hlingering hquiet => exact hquiet.endsOnce
    | complete h => exact h.ended_log.endsOnce

end Kermit

end Voyager
