import Mathlib.Algebra.BigOperators.Group.List.Basic
import Mathlib.Algebra.Order.Ring.Int
import Voyager.Library.Transition
import Voyager.Net.Gateway

/-!
# The number of flows of the gateway

`handleTCP` and `handleUDP` look at the number of flows first; the flow is counted when its
`pipe` starts, which is after a dial and after the stack has made an endpoint. Meanwhile
other calls look at the number. A step is one access of one call.
-/

namespace Voyager

namespace NetCore

namespace GatewayFlows

/-- The two handlers. -/
inductive Handler
  | tcp
  | udp
  deriving DecidableEq, Repr

/-- Where a call stands that has passed the tests of its handler. -/
inductive Phase
  | tested (h : Handler)
  /-- TCP has its connection, UDP its endpoint. -/
  | half (h : Handler)
  /-- It has both, and `pipe` is called. -/
  | connected (h : Handler)
  /-- In `pipe`. -/
  | flow
  /-- The goroutine of `pipe` has closed both ends, and the flow is still counted. -/
  | stopped
  deriving DecidableEq, Repr

/-- The flow has entered `pipe` and is not finished. -/
def Phase.isOpen : Phase → Bool
  | .flow | .stopped => true
  | .tested _ | .half _ | .connected _ => false

/-- `calls` holds the calls that have passed the tests and are not over; `flows`, `tcp`, `udp`
and `refused` are the counters. -/
structure State where
  flows : ℤ
  tcp : ℕ
  udp : ℕ
  refused : ℕ
  calls : List Phase
  deriving DecidableEq, Repr

inductive Event
  /-- A handler makes its tests; `allowed` is what `allow` says of the destination. -/
  | handle (h : Handler) (allowed : Bool)
  /-- `dial` returns for the call with this index. -/
  | dial (i : ℕ) (ok : Bool)
  /-- `CreateEndpoint` returns. -/
  | endpoint (i : ℕ) (ok : Bool)
  | pipe (i : ℕ)
  /-- One side ends, or the gateway is closed. -/
  | stop (i : ℕ)
  /-- The deferred `flows.Add(-1)`. -/
  | finish (i : ℕ)
  deriving DecidableEq, Repr

namespace State

def boot : State := { flows := 0, tcp := 0, udp := 0, refused := 0, calls := [] }

/-- The flows that are open at once. -/
def openFlows (s : State) : ℕ := s.calls.countP Phase.isOpen

def setCall (s : State) (i : ℕ) (p : Phase) : State := { s with calls := s.calls.set i p }

def dropCall (s : State) (i : ℕ) : State := { s with calls := s.calls.eraseIdx i }

/-- `g.TCP.Add(1)` or `g.UDP.Add(1)`. -/
def count (s : State) : Handler → State
  | .tcp => { s with tcp := s.tcp + 1 }
  | .udp => { s with udp := s.udp + 1 }

/-- The tests at the start of `handleTCP` and `handleUDP`. -/
def handle (s : State) (h : Handler) (allowed : Bool) : State :=
  if !allowed || s.flows ≥ gwMaxFlows then { s with refused := s.refused + 1 }
  else { s with calls := s.calls ++ [.tested h] }

def step (s : State) : Event → Option State
  | .handle h allowed => some (s.handle h allowed)
  | .dial i ok =>
      match s.calls[i]? with
      -- TCP dials first, UDP last
      | some (.tested .tcp) => some (if ok then s.setCall i (.half .tcp) else s.dropCall i)
      | some (.half .udp) =>
          some (if ok then (s.setCall i (.connected .udp)).count .udp else s.dropCall i)
      | _ => none
  | .endpoint i ok =>
      match s.calls[i]? with
      | some (.tested .udp) => some (if ok then s.setCall i (.half .udp) else s.dropCall i)
      | some (.half .tcp) =>
          some (if ok then (s.setCall i (.connected .tcp)).count .tcp else s.dropCall i)
      | _ => none
  | .pipe i =>
      match s.calls[i]? with
      | some (.connected _) => some { s.setCall i .flow with flows := s.flows + 1 }
      | _ => none
  | .stop i =>
      match s.calls[i]? with
      | some .flow => some (s.setCall i .stopped)
      | _ => none
  | .finish i =>
      match s.calls[i]? with
      | some .stopped => some { s.dropCall i with flows := s.flows - 1 }
      | _ => none

end State

variable {s s' : State} {i : ℕ} {p q : Phase}

/-! ## What a step does to the calls -/

theorem openFlows_setCall (h : s.calls[i]? = some p) (q : Phase) :
    (s.setCall i q).openFlows + (if p.isOpen then 1 else 0) =
      s.openFlows + (if q.isOpen then 1 else 0) := by
  obtain ⟨hi, hp⟩ := List.getElem?_eq_some_iff.mp h
  have hset := (List.set_perm_cons_eraseIdx hi q).countP_eq Phase.isOpen
  have hold := (List.getElem_cons_eraseIdx_perm hi).countP_eq Phase.isOpen
  rw [List.countP_cons] at hset hold
  rw [hp] at hold
  simp only [State.openFlows, State.setCall]
  omega

theorem openFlows_dropCall (h : s.calls[i]? = some p) :
    (s.dropCall i).openFlows + (if p.isOpen then 1 else 0) = s.openFlows := by
  obtain ⟨hi, hp⟩ := List.getElem?_eq_some_iff.mp h
  have hold := (List.getElem_cons_eraseIdx_perm hi).countP_eq Phase.isOpen
  rw [List.countP_cons, hp] at hold
  exact hold

/-- A call goes on that is not in `pipe`. -/
theorem openFlows_setCall_of_not (h : s.calls[i]? = some p) (hp : p.isOpen = false)
    (hq : q.isOpen = false) : (s.setCall i q).openFlows = s.openFlows := by
  have hset := openFlows_setCall h q
  rw [hp, hq] at hset
  simpa using hset

theorem openFlows_dropCall_of_not (h : s.calls[i]? = some p) (hp : p.isOpen = false) :
    (s.dropCall i).openFlows = s.openFlows := by
  have hdrop := openFlows_dropCall h
  rw [hp] at hdrop
  simpa using hdrop

@[simp] theorem count_calls (s : State) (h : Handler) : (s.count h).calls = s.calls := by
  cases h with
  | tcp => rfl
  | udp => rfl

@[simp] theorem count_flows (s : State) (h : Handler) : (s.count h).flows = s.flows := by
  cases h with
  | tcp => rfl
  | udp => rfl

theorem openFlows_count (s : State) (h : Handler) : (s.count h).openFlows = s.openFlows := by
  rw [State.openFlows, count_calls]
  rfl

/-- The counter of the flows. -/
def Counted (s : State) : Prop := s.flows = s.openFlows

theorem Counted.of_eq (h : Counted s) (hflows : s'.flows = s.flows)
    (hopen : s'.openFlows = s.openFlows) : Counted s' := by
  rw [Counted, hflows, hopen]
  exact h

theorem counted_handle (h : Counted s) (handler : Handler) (allowed : Bool) :
    Counted (s.handle handler allowed) := by
  rw [State.handle]
  split
  · exact h.of_eq rfl rfl
  · refine h.of_eq rfl ?_
    simp [State.openFlows, List.countP_append, Phase.isOpen]

theorem Counted.step {e : Event} (h : Counted s) (hstep : s.step e = some s') : Counted s' := by
  cases e with
  | handle handler allowed =>
      cases hstep
      exact counted_handle h handler allowed
  | dial i ok =>
      rw [State.step] at hstep
      split at hstep
      · rename_i hcall
        cases hstep
        split
        · exact h.of_eq rfl (openFlows_setCall_of_not hcall rfl rfl)
        · exact h.of_eq rfl (openFlows_dropCall_of_not hcall rfl)
      · rename_i hcall
        cases hstep
        split
        · refine h.of_eq (count_flows _ _) ?_
          rw [openFlows_count]
          exact openFlows_setCall_of_not hcall rfl rfl
        · exact h.of_eq rfl (openFlows_dropCall_of_not hcall rfl)
      · cases hstep
  | endpoint i ok =>
      rw [State.step] at hstep
      split at hstep
      · rename_i hcall
        cases hstep
        split
        · exact h.of_eq rfl (openFlows_setCall_of_not hcall rfl rfl)
        · exact h.of_eq rfl (openFlows_dropCall_of_not hcall rfl)
      · rename_i hcall
        cases hstep
        split
        · refine h.of_eq (count_flows _ _) ?_
          rw [openFlows_count]
          exact openFlows_setCall_of_not hcall rfl rfl
        · exact h.of_eq rfl (openFlows_dropCall_of_not hcall rfl)
      · cases hstep
  | pipe i =>
      rw [State.step] at hstep
      split at hstep
      · rename_i hcall
        cases hstep
        have hset := openFlows_setCall hcall .flow
        simp only [Phase.isOpen, Bool.false_eq_true, if_false, if_true, Nat.add_zero] at hset
        have hcount : s.flows = (s.openFlows : ℤ) := h
        have hflows : s.flows + 1 = ((s.setCall i .flow).openFlows : ℤ) := by omega
        exact hflows
      · cases hstep
  | stop i =>
      rw [State.step] at hstep
      split at hstep
      · rename_i hcall
        cases hstep
        have hset := openFlows_setCall hcall .stopped
        simp only [Phase.isOpen, if_true, Nat.add_right_cancel_iff] at hset
        exact h.of_eq rfl hset
      · cases hstep
  | finish i =>
      rw [State.step] at hstep
      split at hstep
      · rename_i hcall
        cases hstep
        have hdrop := openFlows_dropCall hcall
        simp only [Phase.isOpen, if_true] at hdrop
        have hcount : s.flows = (s.openFlows : ℤ) := h
        have hflows : s.flows - 1 = ((s.dropCall i).openFlows : ℤ) := by omega
        exact hflows
      · cases hstep

theorem counted_boot : Counted .boot := rfl

theorem counted_exec {events : List Event}
    (hrun : Transition.exec State.step .boot events = some s) : Counted s :=
  Transition.exec_invariant (fun _ _ _ h hstep => h.step hstep) counted_boot hrun

/-! ## The limit -/

/-- A call that passes the test finds room for itself, when all calls that have passed it
before are counted, and not the open flows alone. -/
def Room (s : State) : Event → Prop
  | .handle _ allowed => allowed = true → s.flows < gwMaxFlows → s.calls.length < gwMaxFlows
  | _ => True

instance (s : State) : DecidablePred (Room s)
  | .handle _ allowed =>
      inferInstanceAs (Decidable (allowed = true → s.flows < gwMaxFlows →
        s.calls.length < gwMaxFlows))
  | .dial _ _ | .endpoint _ _ | .pipe _ | .stop _ | .finish _ => isTrue trivial

theorem length_dropCall_le (s : State) (i : ℕ) : (s.dropCall i).calls.length ≤ s.calls.length :=
  (List.eraseIdx_sublist s.calls i).length_le

theorem length_setCall (s : State) (i : ℕ) (q : Phase) :
    (s.setCall i q).calls.length = s.calls.length := List.length_set

/-- Only a handler's test makes the calls more. -/
theorem length_calls_le {e : Event} (hroom : Room s e) (h : s.calls.length ≤ gwMaxFlows)
    (hstep : s.step e = some s') : s'.calls.length ≤ gwMaxFlows := by
  have hset : ∀ i q, (s.setCall i q).calls.length ≤ gwMaxFlows := fun i q =>
    (length_setCall s i q).trans_le h
  have hdrop : ∀ i, (s.dropCall i).calls.length ≤ gwMaxFlows := fun i =>
    (length_dropCall_le s i).trans h
  cases e with
  | handle handler allowed =>
      cases hstep
      rw [State.handle]
      split
      · exact h
      · rename_i hpass
        rw [Bool.or_eq_true, not_or, Bool.not_eq_true', Bool.not_eq_false, decide_eq_true_eq,
          ge_iff_le, not_le] at hpass
        rw [List.length_append, List.length_singleton]
        exact hroom hpass.1 hpass.2
  | dial i ok =>
      rw [State.step] at hstep
      split at hstep
      · cases hstep
        split
        · exact hset i _
        · exact hdrop i
      · cases hstep
        split
        · rw [count_calls]
          exact hset i _
        · exact hdrop i
      · cases hstep
  | endpoint i ok =>
      rw [State.step] at hstep
      split at hstep
      · cases hstep
        split
        · exact hset i _
        · exact hdrop i
      · cases hstep
        split
        · rw [count_calls]
          exact hset i _
        · exact hdrop i
      · cases hstep
  | pipe i =>
      rw [State.step] at hstep
      split at hstep
      · cases hstep
        exact hset i _
      · cases hstep
  | stop i =>
      rw [State.step] at hstep
      split at hstep
      · cases hstep
        exact hset i _
      · cases hstep
  | finish i =>
      rw [State.step] at hstep
      split at hstep
      · cases hstep
        exact hdrop i
      · cases hstep

theorem openFlows_le_length (s : State) : s.openFlows ≤ s.calls.length := List.countP_le_length

/-! ## What happens without room -/

/-- The steps that are left until the call is in `pipe`. -/
def Phase.left : Phase → ℕ
  | .tested _ => 3
  | .half _ => 2
  | .connected _ => 1
  | .flow | .stopped => 0

/-- When dials are successful, every call goes on. -/
theorem exists_step (h : s.calls[i]? = some p) (hp : p.isOpen = false) :
    ∃ e s' q, s.step e = some s' ∧ s'.calls = s.calls.set i q ∧ q.left < p.left := by
  cases p with
  | tested handler =>
      cases handler with
      | tcp =>
          exact ⟨.dial i true, s.setCall i (.half .tcp), .half .tcp, by simp [State.step, h], rfl,
            by decide⟩
      | udp =>
          exact ⟨.endpoint i true, s.setCall i (.half .udp), .half .udp,
            by simp [State.step, h], rfl, by decide⟩
  | half handler =>
      cases handler with
      | tcp =>
          exact ⟨.endpoint i true, (s.setCall i (.connected .tcp)).count .tcp, .connected .tcp,
            by simp [State.step, h], rfl, by decide⟩
      | udp =>
          exact ⟨.dial i true, (s.setCall i (.connected .udp)).count .udp, .connected .udp,
            by simp [State.step, h], rfl, by decide⟩
  | connected handler =>
      exact ⟨.pipe i, { s.setCall i .flow with flows := s.flows + 1 }, .flow,
        by simp [State.step, h], rfl, Nat.zero_lt_one⟩
  | flow => cases hp
  | stopped => cases hp

/-- The steps that are left for all calls. -/
def State.left (s : State) : ℕ := (s.calls.map Phase.left).sum

theorem left_lt (h : s.calls[i]? = some p) (hset : s'.calls = s.calls.set i q)
    (hlt : q.left < p.left) : s'.left < s.left := by
  obtain ⟨hi, hp⟩ := List.getElem?_eq_some_iff.mp h
  have hnew := ((List.set_perm_cons_eraseIdx hi q).map Phase.left).sum_eq
  have hold := ((List.getElem_cons_eraseIdx_perm hi).map Phase.left).sum_eq
  rw [List.map_cons, List.sum_cons] at hnew hold
  rw [hp] at hold
  rw [State.left, State.left, hset]
  omega

/-- All calls that have passed the test can be open flows at once. -/
theorem exists_all_open (s : State) : ∃ events s', Transition.exec State.step s events = some s' ∧
    s'.openFlows = s.calls.length := by
  induction hn : s.left using Nat.strong_induction_on generalizing s with
  | h n ih =>
      by_cases hall : ∀ p ∈ s.calls, p.isOpen = true
      · exact ⟨[], s, rfl, List.countP_eq_length.mpr hall⟩
      · obtain ⟨p, hp, hnot⟩ := by simpa only [not_forall, Bool.not_eq_true, exists_prop] using hall
        obtain ⟨i, hi⟩ := List.mem_iff_getElem?.mp hp
        obtain ⟨e, s', q, hstep, hset, hlt⟩ := exists_step hi hnot
        obtain ⟨events, t, hrun, hopen⟩ := ih s'.left (hn ▸ left_lt hi hset hlt) s' rfl
        refine ⟨e :: events, t, ?_, ?_⟩
        · rw [Transition.exec_cons, hstep, Option.bind_some, hrun]
        · rw [hopen, hset, List.length_set]

/-- After a test without room, more flows can be open than the limit allows. -/
theorem exists_too_many_open {h : Handler} (hroom : ¬ Room s (.handle h true)) :
    ∃ events s', Transition.exec State.step s (.handle h true :: events) = some s' ∧
      gwMaxFlows < s'.openFlows := by
  simp only [Room, true_imp_iff, not_forall, exists_prop, not_lt] at hroom
  have htest : s.step (.handle h true) = some { s with calls := s.calls ++ [.tested h] } := by
    have hpass : ¬ s.flows ≥ gwMaxFlows := not_le.mpr hroom.1
    simp [State.step, State.handle, hpass]
  obtain ⟨events, s', hrun, hopen⟩ := exists_all_open { s with calls := s.calls ++ [.tested h] }
  refine ⟨events, s', ?_, ?_⟩
  · rw [Transition.exec_cons, htest, Option.bind_some, hrun]
  · rw [hopen, List.length_append, List.length_singleton]
    exact Nat.lt_succ_of_le hroom.2

/-! ## The flow limit -/

/-- The counter is the number of open flows, and in a run where every call that passes the test
finds room for itself, that number is within the limit. Without room it can get past it. -/
theorem openFlows_le_of_room {events : List Event}
    (hroom : Transition.Meets State.step Room .boot events)
    (hrun : Transition.exec State.step .boot events = some s) :
    s.flows = s.openFlows ∧ s.openFlows ≤ gwMaxFlows ∧
      ∀ h, ¬ Room s (.handle h true) →
        ∃ more s', Transition.exec State.step s (.handle h true :: more) = some s' ∧
          gwMaxFlows < s'.openFlows := by
  have hlength : s.calls.length ≤ gwMaxFlows :=
    Transition.exec_invariant_of_meets
      (fun _ _ _ h hroom hstep => length_calls_le hroom h hstep) (Nat.zero_le _) hroom hrun
  exact ⟨counted_exec hrun, (openFlows_le_length s).trans hlength,
    fun h hnot => exists_too_many_open hnot⟩

/-- One call after the other, each with its dial and its endpoint. -/
def oneByOne (n : ℕ) : List Event :=
  (List.range n).flatMap fun i => [.handle .tcp true, .dial i true, .endpoint i true, .pipe i]

theorem openFlows_le_of_room_oneByOne :
    ∃ s, Transition.exec State.step .boot (oneByOne 3) = some s ∧ s.openFlows = 3 ∧
      s.openFlows ≤ gwMaxFlows := by
  have hview : (Transition.exec State.step .boot (oneByOne 3)).map State.openFlows = some 3 := by
    decide +kernel
  obtain ⟨s, hs, hopen⟩ := Option.map_eq_some_iff.mp hview
  have hroom : Transition.Meets State.step Room .boot (oneByOne 3) := by decide +kernel
  exact ⟨s, hs, hopen, (openFlows_le_of_room hroom hs).2.1⟩

/-- With 33 flows open, 32 calls pass the test before the first of them is counted. -/
def together : List Event :=
  oneByOne 33 ++ List.replicate 32 (.handle .tcp true) ++
    (List.range' 33 32).flatMap fun i => [.dial i true, .endpoint i true, .pipe i]

theorem not_openFlows_le :
    ¬ ∀ events s, Transition.exec State.step .boot events = some s →
      s.openFlows ≤ gwMaxFlows ∧ s.flows = s.openFlows := by
  intro h
  have hview : (Transition.exec State.step .boot together).map State.openFlows = some 65 := by
    decide +kernel
  obtain ⟨s, hs, hopen⟩ := Option.map_eq_some_iff.mp hview
  have hle := (h together s hs).1
  rw [hopen] at hle
  exact absurd hle (by decide)

end GatewayFlows

end NetCore

end Voyager
