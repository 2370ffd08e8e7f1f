import Voyager.Library.Mealy
import Voyager.Lora.Channel

/-!
# The retry machine

`send_with_retry` sends a packet, and `TxRetry` says after every acknowledgement and every
timeout what it does next. Here the machine is given any events in any order, and the loop is
given any answers of the radio and of `ack_queue`: the loop calls `LoRa_send` once for the first
attempt and once for every `Retransmit`.
-/

namespace Voyager

namespace RetryMachine

open LoraProto

/-! ## The machine -/

inductive TxEvent
  | ack (ackSeq value : Byte)
  | timeout
  deriving DecidableEq, Repr

def react (t : TxRetry) : TxEvent → TxAction × TxRetry
  | .ack ackSeq value => txOnAck t ackSeq value
  | .timeout => txOnTimeout t

/-- The machine after the events, and the actions that it returned. -/
def run (seq : Byte) (es : List TxEvent) : TxRetry × List TxAction :=
  Mealy.run (fun t e => ((react t e).2, [(react t e).1])) (txBegin seq) es

def after (seq : Byte) (es : List TxEvent) : TxRetry := (run seq es).1

def actions (seq : Byte) (es : List TxEvent) : List TxAction := (run seq es).2

/-! ## The loop -/

/-- What the loop is given: whether `LoRa_send` sent the frame, what `xQueueReceive` took from
`ack_queue`, and that nothing was there before the timeout. -/
inductive Answer
  | sent (ok : Bool)
  | received (v : UInt16)
  | timeout
  deriving DecidableEq, Repr

inductive Place
  | sending (t : TxRetry)
  | waiting (t : TxRetry)
  | returned (ok : Bool)
  deriving DecidableEq, Repr

/-- The loop of `send_with_retry`, and the `seq` of each of its calls of `LoRa_send`. -/
structure Loop where
  place : Place
  calls : List Byte
  deriving DecidableEq, Repr

def Loop.start (seq : Byte) : Loop := { place := .sending (txBegin seq), calls := [] }

/-- The end of a round. -/
def endRound (a : TxAction × TxRetry) : Place :=
  if a.1 = .success then .returned true else if a.1 = .fail then .returned false else .sending a.2

def Loop.step (s : Loop) (answer : Answer) : Option Loop :=
  match s.place, answer with
  | .sending t, .sent ok =>
      some
        { place := if ok then .waiting t else endRound (txOnTimeout t)
          calls := s.calls ++ [t.seq] }
  | .waiting t, .received v =>
      let a := txOnAck t (wordHi v) (wordLo v)
      some { s with place := if a.1 = .wait then .waiting a.2 else endRound a }
  | .waiting t, .timeout => some { s with place := endRound (txOnTimeout t) }
  | _, _ => none

/-! ## One event -/

section Step

variable {t t' : TxRetry} {e : TxEvent} {a : TxAction} {seq : Byte} {acts : List TxAction}

/-- What the machine does with an event. -/
inductive Reacts (t : TxRetry) (e : TxEvent) : TxAction → TxRetry → Prop
  | ignored (h : t.done = true ∨ ∃ ackSeq value, e = .ack ackSeq value ∧ ackSeq ≠ t.seq) :
      Reacts t e .wait t
  | retransmits (hdone : t.done = false) (hle : t.attempts ≤ MAX_RETRIES) :
      Reacts t e .retransmit { t with attempts := t.attempts + 1 }
  | succeeds (hdone : t.done = false) (he : e = .ack t.seq ACK_OK) :
      Reacts t e .success { t with done := true }
  | fails (hdone : t.done = false) (hlt : MAX_RETRIES < t.attempts) :
      Reacts t e .fail { t with done := true }

theorem reacts_next (e : TxEvent) (hdone : t.done = false) :
    Reacts t e (txNextAttemptOrFail t).1 (txNextAttemptOrFail t).2 := by
  unfold txNextAttemptOrFail
  split
  · next hlt => exact .fails hdone hlt
  · next hle => exact .retransmits hdone (UInt8.not_lt.mp hle)

theorem reacts_react (t : TxRetry) (e : TxEvent) : Reacts t e (react t e).1 (react t e).2 := by
  cases e with
  | ack ackSeq value =>
      rw [react, txOnAck]
      split
      · next hdone => exact .ignored (.inl hdone)
      · next hdone =>
          have hdone : t.done = false := by simpa using hdone
          split
          · next hseq => exact .ignored (.inr ⟨ackSeq, value, rfl, hseq⟩)
          · next hseq =>
              split
              · next hvalue => exact .succeeds hdone (by rw [not_not.mp hseq, hvalue])
              · exact reacts_next _ hdone
  | timeout =>
      rw [react, txOnTimeout]
      split
      · next hdone => exact .ignored (.inl hdone)
      · next hdone => exact reacts_next _ (by simpa using hdone)

theorem exists_reacts (h : (react t e).1 = a) : ∃ t', (react t e).2 = t' ∧ Reacts t e a t' :=
  ⟨_, rfl, h ▸ reacts_react t e⟩

/-- An event that is ignored changes nothing. -/
theorem react_of_wait (h : (react t e).1 = .wait) : (react t e).2 = t := by
  obtain ⟨t', ht, hr⟩ := exists_reacts h
  cases hr with
  | ignored _ => exact ht

/-- What the actions so far say of the machine. -/
structure Inv (seq : Byte) (t : TxRetry) (acts : List TxAction) : Prop where
  sameSeq : t.seq = seq
  attempts : t.attempts.toNat = 1 + acts.count .retransmit
  le : acts.count .retransmit ≤ MAX_RETRIES.toNat
  ends : acts.count .success + acts.count .fail = if t.done then 1 else 0

theorem inv_txBegin (seq : Byte) : Inv seq (txBegin seq) [] := ⟨rfl, rfl, Nat.zero_le _, rfl⟩

/-- The end is counted once. -/
theorem Inv.concat_end (h : Inv seq t acts) (hdone : t.done = false)
    (ha : a = .success ∨ a = .fail) : Inv seq { t with done := true } (acts ++ [a]) := by
  have hends := h.ends
  rw [hdone] at hends
  change _ = 0 at hends
  have hne : a ≠ .retransmit := by
    rcases ha with rfl | rfl <;> simp
  constructor
  · exact h.sameSeq
  · simpa [List.count_append, hne] using h.attempts
  · simpa [List.count_append, hne] using h.le
  · rcases ha with rfl | rfl <;> simp [List.count_append] <;> omega

/-- One event keeps the invariant. -/
theorem Inv.step (h : Inv seq t acts) (hr : Reacts t e a t') : Inv seq t' (acts ++ [a]) := by
  have hends := h.ends
  have hattempts := h.attempts
  have hle := h.le
  have hmax : MAX_RETRIES.toNat = 3 := rfl
  cases hr with
  | ignored _ =>
      constructor
      · exact h.sameSeq
      · simpa [List.count_append] using hattempts
      · simpa [List.count_append] using hle
      · simpa [List.count_append] using hends
  | retransmits hdone hretry =>
      rw [UInt8.le_iff_toNat_le] at hretry
      constructor
      · exact h.sameSeq
      · have hlt : t.attempts.toNat + 1 < 2 ^ 8 := by omega
        rw [List.count_append, List.count_singleton_self, UInt8.toNat_add]
        change (t.attempts.toNat + 1) % 2 ^ 8 = _
        rw [Nat.mod_eq_of_lt hlt]
        omega
      · rw [List.count_append, List.count_singleton_self]
        omega
      · simpa [List.count_append] using hends
  | succeeds hdone _ => exact h.concat_end hdone (.inl rfl)
  | fails hdone _ => exact h.concat_end hdone (.inr rfl)

/-- The invariant after any events. -/
theorem inv_run (seq : Byte) (es : List TxEvent) : Inv seq (after seq es) (actions seq es) :=
  Mealy.run_log_invariant (Inv seq) (fun t _ e h => h.step (reacts_react t e))
    (inv_txBegin seq) es

/-- After an end every event is ignored. -/
theorem react_of_done (h : t.done = true) (e : TxEvent) : react t e = (.wait, t) := by
  cases e with
  | ack ackSeq value => exact if_pos h
  | timeout => exact if_pos h

theorem Inv.done (h : Inv seq t acts) (hend : .success ∈ acts ∨ .fail ∈ acts) :
    t.done = true := by
  have hpos : 0 < acts.count .success + acts.count .fail := by
    rcases hend with hend | hend
    · exact Nat.add_pos_left (List.count_pos_iff.mpr hend) _
    · exact Nat.add_pos_right _ (List.count_pos_iff.mpr hend)
  by_contra hdone
  rw [h.ends, if_neg hdone] at hpos
  exact Nat.lt_irrefl 0 hpos

end Step

/-! ## Any events -/

/-- What holds of the machine after the events `es`, and of its action for the next one. -/
structure Correct (seq : Byte) (es : List TxEvent) : Prop where
  retransmits : (actions seq es).count .retransmit ≤ MAX_RETRIES.toNat
  attempts : (after seq es).attempts.toNat = 1 + (actions seq es).count .retransmit
  sameSeq : (after seq es).seq = seq
  ends : (actions seq es).count .success + (actions seq es).count .fail ≤ 1
  ended : .success ∈ actions seq es ∨ .fail ∈ actions seq es →
    ∀ e, react (after seq es) e = (.wait, after seq es)
  success : ∀ e, (react (after seq es) e).1 = .success → e = .ack seq ACK_OK
  fail : ∀ e, (react (after seq es) e).1 = .fail →
    (actions seq es).count .retransmit = MAX_RETRIES.toNat

theorem correct (seq : Byte) (es : List TxEvent) : Correct seq es := by
  have h := inv_run seq es
  constructor
  · exact h.le
  · exact h.attempts
  · exact h.sameSeq
  · rw [h.ends]
    split <;> decide
  · exact fun hend e => react_of_done (h.done hend) e
  · intro e he
    obtain ⟨t', -, hr⟩ := exists_reacts he
    cases hr with
    | succeeds _ hack => rw [hack, h.sameSeq]
  · intro e he
    obtain ⟨t', -, hr⟩ := exists_reacts he
    cases hr with
    | fails _ hlt =>
        have hle := h.le
        have hattempts := h.attempts
        rw [UInt8.lt_iff_toNat_lt] at hlt
        omega

/-! ## The loop of `send_with_retry` -/

section Loop

variable {seq : Byte} {s s' : Loop} {es : List TxEvent}

/-- The events so far are those of the machine in the loop, which has called `LoRa_send` for each
of its attempts but the one it is about to make. -/
def LoopInv (seq : Byte) (s : Loop) : Prop :=
  (∀ c ∈ s.calls, c = seq) ∧ ∃ es,
    match s.place with
    | .sending t => t = after seq es ∧ t.done = false ∧
        s.calls.length = (actions seq es).count .retransmit
    | .waiting t => t = after seq es ∧ t.done = false ∧
        s.calls.length = 1 + (actions seq es).count .retransmit
    | .returned _ => s.calls.length = 1 + (actions seq es).count .retransmit

theorem loopInv_start (seq : Byte) : LoopInv seq (.start seq) :=
  ⟨fun _ hc => absurd hc List.not_mem_nil, [], rfl, rfl, rfl⟩

theorem run_concat (seq : Byte) (es : List TxEvent) (e : TxEvent) :
    after seq (es ++ [e]) = (react (after seq es) e).2 ∧
      actions seq (es ++ [e]) = actions seq es ++ [(react (after seq es) e).1] := by
  unfold after actions run
  rw [Mealy.run_append]
  exact ⟨rfl, rfl⟩

/-- A round ends with an event that is not ignored. -/
theorem loopInv_endRound {calls : List Byte} (hcalls : ∀ c ∈ calls, c = seq)
    (hdone : (after seq es).done = false)
    (hlength : calls.length = 1 + (actions seq es).count .retransmit) (e : TxEvent)
    (hne : (react (after seq es) e).1 ≠ .wait) :
    LoopInv seq { place := endRound (react (after seq es) e), calls } := by
  refine ⟨hcalls, es ++ [e], ?_⟩
  obtain ⟨hafter, hactions⟩ := run_concat seq es e
  rw [hafter, hactions]
  have hr := reacts_react (after seq es) e
  generalize react (after seq es) e = r at *
  obtain ⟨a, t'⟩ := r
  dsimp only at *
  cases hr with
  | ignored _ => exact absurd rfl hne
  | retransmits _ _ =>
      refine ⟨rfl, hdone, ?_⟩
      rw [hlength, List.count_append, List.count_singleton_self, Nat.add_comm]
  | succeeds _ _ => simpa [endRound, List.count_append] using hlength
  | fails _ _ => simpa [endRound, List.count_append] using hlength

/-- A timeout is never ignored in the loop. -/
theorem txOnTimeout_ne_wait {t : TxRetry} (hdone : t.done = false) : (txOnTimeout t).1 ≠ .wait := by
  rw [txOnTimeout, hdone]
  unfold txNextAttemptOrFail
  simp only [Bool.false_eq_true, if_false]
  split <;> simp

theorem LoopInv.step {answer : Answer} (h : LoopInv seq s) (hs : s.step answer = some s') :
    LoopInv seq s' := by
  obtain ⟨hcalls, es, h⟩ := h
  obtain ⟨place, calls⟩ := s
  cases place with
  | sending t =>
      obtain ⟨rfl, hdone, hlength⟩ := h
      cases answer with
      | sent ok =>
          cases hs
          have hcalls' : ∀ c ∈ calls ++ [(after seq es).seq], c = seq := by
            intro c hc
            rcases List.mem_append.mp hc with hc | hc
            · exact hcalls c hc
            · rw [List.mem_singleton.mp hc, (inv_run seq es).sameSeq]
          have hlength' : (calls ++ [(after seq es).seq]).length =
              1 + (actions seq es).count .retransmit := by
            rw [List.length_append, List.length_singleton, hlength, Nat.add_comm]
          cases ok with
          | true => exact ⟨hcalls', es, rfl, hdone, hlength'⟩
          | false =>
              exact loopInv_endRound hcalls' hdone hlength' .timeout (txOnTimeout_ne_wait hdone)
      | _ => cases hs
  | waiting t =>
      obtain ⟨rfl, hdone, hlength⟩ := h
      cases answer with
      | sent ok => cases hs
      | received v =>
          cases hs
          dsimp only
          split
          · next hwait =>
              have hsame : (txOnAck (after seq es) (wordHi v) (wordLo v)).2 = after seq es :=
                react_of_wait (e := .ack (wordHi v) (wordLo v)) hwait
              exact ⟨hcalls, es, hsame, (congrArg TxRetry.done hsame).trans hdone, hlength⟩
          · next hwait =>
              exact loopInv_endRound hcalls hdone hlength (.ack (wordHi v) (wordLo v)) hwait
      | timeout =>
          cases hs
          exact loopInv_endRound hcalls hdone hlength .timeout (txOnTimeout_ne_wait hdone)
  | returned ok => cases answer <;> cases hs

theorem LoopInv.calls_le (h : LoopInv seq s) : s.calls.length ≤ MAX_RETRIES.toNat + 1 := by
  obtain ⟨-, es, h⟩ := h
  have hle := (inv_run seq es).le
  obtain ⟨place, calls⟩ := s
  cases place with
  | sending t =>
      have hlength := h.2.2
      omega
  | waiting t =>
      have hlength := h.2.2
      omega
  | returned ok =>
      dsimp only at h ⊢
      omega

end Loop

/-- The machine is correct after any events, and the loop, whatever it is given, calls `LoRa_send`
at most once more than there are retries, always with the same `seq`. -/
theorem retries_bounded (seq : Byte) :
    (∀ es, Correct seq es) ∧
      ∀ answers s, Transition.exec Loop.step (.start seq) answers = some s →
        s.calls.length ≤ MAX_RETRIES.toNat + 1 ∧ ∀ c ∈ s.calls, c = seq := by
  refine ⟨correct seq, fun answers s hrun => ?_⟩
  have h := Transition.exec_invariant (fun _ _ _ h hs => LoopInv.step h hs)
    (loopInv_start seq) hrun
  exact ⟨h.calls_le, h.1⟩

/-- The radio is busy, a value asks for a retry, an acknowledgement is of another packet, and two
waits run out. -/
example : Transition.exec Loop.step (.start 7)
    [.sent false, .sent true, .received (word 7 0), .sent true, .received (word 6 ACK_OK), .timeout,
      .sent true, .timeout] =
    some { place := .returned false, calls := [7, 7, 7, 7] } := by decide

end RetryMachine

end Voyager
