import Mathlib.Data.Fintype.Defs
import Mathlib.Logic.Function.Basic
import Voyager.Basic
import Voyager.Library.BoundedQueue
import Voyager.Library.Transition

/-!
# The outbound queue

`send_to_ws` and `send_to_events` put messages into one queue that the sender task drains.
An event is let in only while more than `WS_OUT_RESERVED` slots are free, but that test
and the send are different steps, and every task that logs is a producer.
-/

namespace Voyager

namespace Web

namespace OutQueue

def WS_OUT_QUEUE_LEN : ℕ := 32
def WS_OUT_RESERVED : ℕ := 8

structure OutMsg where
  toWs : Bool
  data : List Byte
  topic : List Byte
  deriving DecidableEq, Repr

/-- `out_queue_admit`. -/
def outQueueAdmit (toWs : Bool) (spacesFree reserved : ℕ) : Bool :=
  if spacesFree = 0 then false else toWs || decide (spacesFree > reserved)

/-- Where a task stands in `enqueue_out`. -/
inductive Producer
  | idle
  /-- The queue and the clients are not looked at yet. -/
  | called (m : OutMsg)
  /-- Someone listens. -/
  | heard (m : OutMsg)
  /-- Let in. -/
  | admitted (m : OutMsg)
  /-- About to call `xQueueSend`. -/
  | allocated (m : OutMsg)
  deriving DecidableEq, Repr

/-- The tasks of type `τ` and what they share. `sent` is what the sender task handed to
the clients. -/
structure State (τ : Type*) where
  queue : Option (BoundedQueue OutMsg WS_OUT_QUEUE_LEN)
  wsClientCount : ℕ
  sseClientCount : ℕ
  outDroppedWs : UInt32
  outDroppedSse : UInt32
  producers : τ → Producer
  sent : List OutMsg

inductive Action (τ : Type*)
  /-- `initWebSocket` creates the queue. -/
  | init
  /-- Clients come and go. -/
  | clients (ws sse : ℕ)
  | enqueueOut (t : τ) (toWs : Bool) (data topic : List Byte)
  | count (t : τ)
  | admission (t : τ)
  | allocate (t : τ) (ok : Bool)
  | send (t : τ)
  /-- The wait of a WS reply for a free slot is over. -/
  | expire (t : τ)
  /-- The sender task takes a message. -/
  | drain

/-- `send_to_ws`. -/
def sendToWs {τ : Type*} (t : τ) (message : List Byte) : Action τ := .enqueueOut t true message []

/-- `send_to_events`. -/
def sendToEvents {τ : Type*} (t : τ) (data topic : List Byte) : Action τ :=
  .enqueueOut t false data topic

def boot (τ : Type*) : State τ :=
  { queue := none, wsClientCount := 0, sseClientCount := 0, outDroppedWs := 0, outDroppedSse := 0,
    producers := fun _ => .idle, sent := [] }

namespace State

variable {τ : Type*}

/-- `ws_client_count` or `sse_client_count`. -/
def clientCount (s : State τ) (toWs : Bool) : ℕ :=
  if toWs then s.wsClientCount else s.sseClientCount

/-- `dropped++`. -/
def drop (s : State τ) (toWs : Bool) : State τ :=
  if toWs then { s with outDroppedWs := s.outDroppedWs + 1 }
  else { s with outDroppedSse := s.outDroppedSse + 1 }

/-- `uxQueueSpacesAvailable`. -/
def spaces (s : State τ) : ℕ := s.queue.elim 0 BoundedQueue.spaces

@[simp] theorem spaces_drop (s : State τ) (toWs : Bool) : (s.drop toWs).spaces = s.spaces := by
  cases toWs with
  | false => rfl
  | true => rfl

@[simp] theorem producers_drop (s : State τ) (toWs : Bool) :
    (s.drop toWs).producers = s.producers := by
  cases toWs with
  | false => rfl
  | true => rfl

variable [DecidableEq τ]

def goto (s : State τ) (t : τ) (p : Producer) : State τ :=
  { s with producers := Function.update s.producers t p }

def step (s : State τ) : Action τ → Option (State τ)
  | .init => some { s with queue := s.queue.or (some .empty) }
  | .clients ws sse => some { s with wsClientCount := ws, sseClientCount := sse }
  | .enqueueOut t toWs data topic =>
      match s.producers t with
      | .idle => some (s.goto t (.called ⟨toWs, data, if toWs then [] else topic⟩))
      | _ => none
  | .count t =>
      match s.producers t with
      | .called m =>
          if s.queue.isNone ∨ s.clientCount m.toWs = 0 then some (s.goto t .idle)
          else some (s.goto t (.heard m))
      | _ => none
  | .admission t =>
      match s.producers t with
      | .heard m =>
          if !m.toWs && !outQueueAdmit false s.spaces WS_OUT_RESERVED then
            some ((s.drop m.toWs).goto t .idle)
          else some (s.goto t (.admitted m))
      | _ => none
  | .allocate t ok =>
      match s.producers t with
      | .admitted m =>
          if ok then some (s.goto t (.allocated m)) else some ((s.drop m.toWs).goto t .idle)
      | _ => none
  | .send t =>
      match s.producers t, s.queue with
      | .allocated m, some q =>
          match q.send m with
          | some q' => some ({ s with queue := some q' }.goto t .idle)
          | none => if m.toWs then none else some ((s.drop m.toWs).goto t .idle)
      | _, _ => none
  | .expire t =>
      match s.producers t, s.queue with
      | .allocated m, some q =>
          if m.toWs ∧ ¬ q.HasRoom then some ((s.drop m.toWs).goto t .idle) else none
      | _, _ => none
  | .drain =>
      (s.queue.bind BoundedQueue.receive).map fun r =>
        { s with
          queue := some r.2
          sent := if s.clientCount r.1.toWs > 0 then s.sent ++ [r.1] else s.sent }

variable {s s' : State τ} {a : Action τ} {t u : τ} {m : OutMsg}

@[simp] theorem spaces_goto (s : State τ) (t : τ) (p : Producer) :
    (s.goto t p).spaces = s.spaces := rfl

@[simp] theorem producers_goto_self (s : State τ) (t : τ) (p : Producer) :
    (s.goto t p).producers t = p :=
  Function.update_self ..

theorem producers_goto_of_ne {s : State τ} {p : Producer} (h : u ≠ t) :
    (s.goto t p).producers u = s.producers u :=
  Function.update_of_ne h ..

/-- The step of a task that is about to send: it takes a slot, or gives up an event. -/
theorem step_send (h : s.step (.send t) = some s') :
    ∃ m q, s.producers t = .allocated m ∧ s.queue = some q ∧
      ((∃ q', q.send m = some q' ∧ s' = { s with queue := some q' }.goto t .idle) ∨
        (q.send m = none ∧ m.toWs = false ∧ s' = (s.drop m.toWs).goto t .idle)) := by
  rw [step] at h
  split at h
  · rename_i m q hm hq
    refine ⟨m, q, hm, hq, ?_⟩
    split at h
    · rename_i q' hsend
      exact .inl ⟨q', hsend, (Option.some.inj h).symm⟩
    · rename_i hsend
      cases hws : m.toWs with
      | true => simp [hws] at h
      | false =>
          rw [hws] at h
          exact .inr ⟨hsend, rfl, (Option.some.inj h).symm⟩
  · cases h

end State

open State

variable {τ : Type*} [DecidableEq τ]

/-- The task has let in an event that it has not sent yet. -/
def Producer.HoldsEvent : Producer → Prop
  | .admitted m | .allocated m => m.toWs = false
  | _ => False

instance : ∀ p : Producer, Decidable p.HoldsEvent
  | .admitted m | .allocated m => inferInstanceAs (Decidable (m.toWs = false))
  | .idle | .called _ | .heard _ => inferInstanceAs (Decidable False)

/-- The task that sends in this step. -/
def Action.sender : Action τ → Option τ
  | .send t => some t
  | _ => none

omit [DecidableEq τ] in
theorem Action.sender_eq_some_iff {a : Action τ} {t : τ} : a.sender = some t ↔ a = .send t := by
  cases a <;> simp [Action.sender]

/-- A send does not take a slot that another task has let in an event for: no other task has
let in an event, or more than one slot is free that is not reserved. -/
def Unshared (s : State τ) (a : Action τ) : Prop :=
  ∀ t ∈ a.sender, ∀ u, u ≠ t → (s.producers u).HoldsEvent → WS_OUT_RESERVED + 1 < s.spaces

instance [Fintype τ] (s : State τ) (a : Action τ) : Decidable (Unshared s a) :=
  inferInstanceAs (Decidable (∀ t ∈ a.sender, _))

/-- While an event is let in and not sent, there is a slot for it that is not reserved. -/
def Inv (s : State τ) : Prop := ∀ u, (s.producers u).HoldsEvent → WS_OUT_RESERVED < s.spaces

variable {s s' : State τ} {a : Action τ} {t u : τ}

/-- A step of one task that leaves the queue alone and lets in nothing keeps the invariant. -/
theorem Inv.goto (h : Inv s) {p : Producer}
    (hp : p.HoldsEvent → (s.producers t).HoldsEvent ∨ WS_OUT_RESERVED < s.spaces) :
    Inv (s.goto t p) := by
  intro u hu
  rw [spaces_goto]
  by_cases hut : u = t
  · rw [hut, producers_goto_self] at hu
    exact (hp hu).elim (h t) id
  · rw [producers_goto_of_ne hut] at hu
    exact h u hu

omit [DecidableEq τ] in
theorem Inv.drop (h : Inv s) (toWs : Bool) : Inv (s.drop toWs) := by
  intro u hu
  rw [producers_drop] at hu
  rw [spaces_drop]
  exact h u hu

theorem Inv.step (h : Inv s) (hok : Unshared s a) (hstep : s.step a = some s') : Inv s' := by
  cases a with
  | init =>
      cases hstep
      intro u hu
      cases hq : s.queue with
      | none => exact (show WS_OUT_RESERVED < WS_OUT_QUEUE_LEN by decide)
      | some q =>
          have hspaces := h u hu
          rw [State.spaces, hq] at hspaces
          exact hspaces
  | clients ws sse =>
      cases hstep
      exact h
  | enqueueOut t toWs data topic =>
      rw [State.step] at hstep
      split at hstep
      · cases hstep
        exact h.goto False.elim
      · cases hstep
  | count t =>
      rw [State.step] at hstep
      split at hstep
      · split at hstep
        · cases hstep
          exact h.goto False.elim
        · cases hstep
          exact h.goto False.elim
      · cases hstep
  | admission t =>
      rw [State.step] at hstep
      split at hstep
      · rename_i m hm
        split at hstep
        · cases hstep
          exact (h.drop m.toWs).goto False.elim
        · -- an event that is let in has seen a slot that is not reserved
          rename_i hadmit
          cases hstep
          refine h.goto fun hevent => .inr ?_
          have hws : m.toWs = false := hevent
          rw [hws] at hadmit
          by_contra hle
          refine hadmit ?_
          unfold outQueueAdmit
          simp [hle]
      · cases hstep
  | allocate t ok =>
      rw [State.step] at hstep
      split at hstep
      · rename_i m hm
        split at hstep
        · cases hstep
          refine h.goto fun hevent => .inl ?_
          rw [hm]
          exact hevent
        · cases hstep
          exact (h.drop m.toWs).goto False.elim
      · cases hstep
  | send t =>
      obtain ⟨m, q, hm, hq, ⟨q', hsend, rfl⟩ | ⟨-, -, rfl⟩⟩ := step_send hstep
      · -- the others keep a slot by the condition
        intro u hu
        by_cases hut : u = t
        · rw [hut, producers_goto_self] at hu
          exact hu.elim
        · rw [producers_goto_of_ne hut] at hu
          have hspaces := hok t rfl u hut hu
          rw [State.spaces, hq, Option.elim_some, BoundedQueue.spaces_of_send hsend] at hspaces
          exact Nat.lt_of_succ_lt_succ hspaces
      · exact (h.drop m.toWs).goto False.elim
  | expire t =>
      rw [State.step] at hstep
      split at hstep
      · rename_i m q hm hq
        split at hstep
        · cases hstep
          exact (h.drop m.toWs).goto False.elim
        · cases hstep
      · cases hstep
  | drain =>
      rw [State.step] at hstep
      obtain ⟨r, hr, rfl⟩ := Option.map_eq_some_iff.mp hstep
      obtain ⟨q, hq, hreceive⟩ := Option.bind_eq_some_iff.mp hr
      intro u hu
      have hspaces := h u hu
      rw [State.spaces, hq, Option.elim_some] at hspaces
      rw [State.spaces, Option.elim_some, BoundedQueue.spaces_of_receive hreceive]
      exact Nat.lt_succ_of_lt hspaces

omit [DecidableEq τ] in
theorem inv_boot : Inv (boot τ) := fun _ => False.elim

/-- The step puts an event into the queue. -/
def EnqueuesEvent (s : State τ) (a : Action τ) : Prop :=
  ∃ t m, a = .send t ∧ s.producers t = .allocated m ∧ m.toWs = false ∧ 0 < s.spaces

/-- No event of the run takes a reserved slot. -/
def KeepsReserve (as : List (Action τ)) : Prop :=
  ∀ before a after s s', as = before ++ a :: after →
    Transition.exec State.step (boot τ) before = some s → s.step a = some s' →
      EnqueuesEvent s a → WS_OUT_RESERVED ≤ s'.spaces

theorem spaces_of_enqueuesEvent (h : EnqueuesEvent s a) (hstep : s.step a = some s') :
    s.spaces = s'.spaces + 1 := by
  obtain ⟨t, m, rfl, hm, -, hspaces⟩ := h
  obtain ⟨m', q, hm', hq, ⟨q', hsend, rfl⟩ | ⟨hfull, -, rfl⟩⟩ := step_send hstep
  · rw [State.spaces, hq, Option.elim_some, BoundedQueue.spaces_of_send hsend]
    rfl
  · rw [State.spaces, hq, Option.elim_some, ← BoundedQueue.hasRoom_iff] at hspaces
    exact absurd hspaces (BoundedQueue.send_eq_none_iff.mp hfull)

/-- In every run in which no task sends into the slot that another task has let in an event
for, the events leave the reserved slots free. -/
theorem events_leave_reserved (as : List (Action τ))
    (hok : Transition.Meets State.step Unshared (boot τ) as) : KeepsReserve as := by
  rintro before a after s s' rfl hrun hstep hevent
  have hinv := Transition.exec_invariant_of_meets (fun _ _ _ h hok hstep => Inv.step h hok hstep)
    inv_boot hok.of_append hrun
  have hspaces := spaces_of_enqueuesEvent hevent hstep
  obtain ⟨t, m, rfl, hm, hws, -⟩ := hevent
  have hslot : WS_OUT_RESERVED < s.spaces := by
    refine hinv t ?_
    rw [hm]
    exact hws
  rw [hspaces] at hslot
  exact Nat.le_of_lt_succ hslot

/-- A task that has its message allocated puts it in when there is room. -/
theorem step_send_of_spaces {m : OutMsg} (hm : s.producers t = .allocated m)
    (hspaces : 0 < s.spaces) :
    ∃ s', s.step (.send t) = some s' ∧ s.spaces = s'.spaces + 1 ∧
      ∀ u, u ≠ t → s'.producers u = s.producers u := by
  cases hq : s.queue with
  | none =>
      rw [State.spaces, hq] at hspaces
      exact absurd hspaces (Nat.lt_irrefl 0)
  | some q =>
      rw [State.spaces, hq, Option.elim_some] at hspaces
      obtain ⟨q', hsend, -⟩ := (BoundedQueue.hasRoom_iff.mpr hspaces).exists_send m
      refine ⟨{ s with queue := some q' }.goto t .idle, ?_, ?_, fun u hu => producers_goto_of_ne hu⟩
      · rw [State.step, hm, hq]
        dsimp only
        rw [hsend]
      · rw [State.spaces, hq, Option.elim_some, BoundedQueue.spaces_of_send hsend]
        rfl

/-- The condition cannot be less: after a send that breaks it, the event that was let in
takes a reserved slot when its task goes on first. -/
theorem exists_enqueuesEvent_of_not_unshared (hinv : Inv s) (hok : ¬ Unshared s a)
    (hstep : s.step a = some s') :
    ∃ as r b r', Transition.exec State.step s' as = some r ∧ r.step b = some r' ∧
      EnqueuesEvent r b ∧ r'.spaces < WS_OUT_RESERVED := by
  unfold Unshared at hok
  push Not at hok
  obtain ⟨t, ht, u, hut, hevent, hle⟩ := hok
  have hspaces : s.spaces = WS_OUT_RESERVED + 1 := Nat.le_antisymm hle (hinv u hevent)
  obtain rfl := Action.sender_eq_some_iff.mp ht
  obtain ⟨m, -, hm, -⟩ := step_send hstep
  obtain ⟨s₁, hstep₁, hspaces₁, hothers⟩ :=
    step_send_of_spaces hm (hspaces ▸ Nat.succ_pos WS_OUT_RESERVED)
  obtain rfl : s₁ = s' := Option.some.inj (hstep₁.symm.trans hstep)
  have hleft : s₁.spaces = WS_OUT_RESERVED := by omega
  -- the other task goes on up to its send
  have hgo : ∃ as r n, Transition.exec State.step s₁ as = some r ∧ r.spaces = WS_OUT_RESERVED ∧
      r.producers u = .allocated n ∧ n.toWs = false := by
    rw [← hothers u hut] at hevent
    cases hu : s₁.producers u with
    | admitted n =>
        rw [hu] at hevent
        refine ⟨[.allocate u true], s₁.goto u (.allocated n), n, ?_, hleft,
          producers_goto_self .., hevent⟩
        rw [Transition.exec_cons, State.step, hu]
        rfl
    | allocated n =>
        rw [hu] at hevent
        exact ⟨[], s₁, n, rfl, hleft, hu, hevent⟩
    | idle | called n | heard n =>
        rw [hu] at hevent
        exact hevent.elim
  obtain ⟨as, r, n, hrun, hr, hn, hws⟩ := hgo
  have hpos : 0 < r.spaces := by
    rw [hr]
    decide
  obtain ⟨r', hstep', hspaces', -⟩ := step_send_of_spaces hn hpos
  exact ⟨as, r, .send u, r', hrun, hstep', ⟨u, n, rfl, hn, hws, hpos⟩, by omega⟩

/-! ## Two tasks at the last free slot -/

/-- A task goes through `enqueue_out`. -/
def through (t : Bool) (call : Action Bool) : List (Action Bool) :=
  [call, .count t, .admission t, .allocate t true, .send t]

/-- One reply and one event, each put in by its own task, the event while the reply is
under way. -/
def calmRun : List (Action Bool) :=
  [.init, .clients 1 1, sendToWs true [], .count true, .admission true] ++
    through false (sendToEvents false [] []) ++ [.allocate true true, .send true, .drain]

/-- Replies until `WS_OUT_RESERVED + 1` slots are free, and then two tasks that log. -/
def racingRun : List (Action Bool) :=
  [.init, .clients 1 1] ++ (List.replicate 23 (through true (sendToWs true []))).flatten ++
    [sendToEvents true [] [], .count true, .admission true] ++
    through false (sendToEvents false [] []) ++ [.allocate true true]

theorem events_leave_reserved_calmRun : KeepsReserve calmRun :=
  events_leave_reserved calmRun (by decide)

/-- Both see the last slot that is not reserved, and the second one takes a reserved one. -/
theorem racing_events_take_reserved : ¬ KeepsReserve (racingRun ++ [.send true]) := by
  intro h
  have hsome : ((Transition.exec State.step (boot Bool) racingRun).map fun s =>
      (s.producers true, s.spaces)) = some (.allocated ⟨false, [], []⟩, WS_OUT_RESERVED) := by
    decide +kernel
  obtain ⟨s, hrun, hs⟩ := Option.map_eq_some_iff.mp hsome
  obtain ⟨hm, hspaces⟩ := Prod.mk.inj hs
  have hpos : 0 < s.spaces := by
    rw [hspaces]
    decide
  obtain ⟨s', hstep, hspaces', -⟩ := step_send_of_spaces hm hpos
  have hkept := h racingRun (.send true) [] s s' rfl hrun hstep ⟨true, _, rfl, hm, rfl, hpos⟩
  omega

end OutQueue

end Web

end Voyager
