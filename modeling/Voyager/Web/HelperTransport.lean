import Mathlib.Data.List.Nodup
import Mathlib.Logic.Function.Basic
import Voyager.Basic
import Voyager.Library.Transition

/-!
# Calls through Voyager Link

The page asks the PC helper for its ports, or to open one, and gets a promise. There is one
place for a call that waits for its answer, whatever connection it was sent on, and an answer
does not say to which request it belongs. The helper answers the requests of a connection in
order and may end the connection at any time; what it has sent before that arrives before the
end.

Calls and sockets are numbered in the order they are made. A promise callback runs right after
the event that resolves its promise, and is part of that step.
-/

namespace Voyager

namespace Web

namespace HelperTransport

/-- What `listPorts` and `open` send. -/
inductive Req
  | list
  | openPort (name : List Byte)
  deriving DecidableEq, Repr

/-- `m.op` of an answer. -/
inductive Op
  | ports
  | opened
  | error
  deriving DecidableEq, Repr

def Req.expect : Req → Op
  | .list => .ports
  | .openPort _ => .opened

/-- The `readyState` of a WebSocket. -/
inductive Phase
  | connecting
  | open
  | closing
  | closed
  deriving DecidableEq, Repr

/-- A socket, and the connection behind it. `call` is the call that `connectWs` has made it
for, `sent` the calls whose requests were sent on it, `requests` those of them that the helper
has not answered, and `replies` its answers on their way, with whether they are errors. -/
structure Sock where
  phase : Phase
  call : ℕ
  sent : List ℕ
  requests : List ℕ
  replies : List (ℕ × Bool)
  ended : Bool
  deriving DecidableEq, Repr

/-- How a promise is settled. -/
inductive Outcome
  /-- With the answer to the request of this call. -/
  | reply (n : ℕ) (ok : Bool)
  /-- Rejected, since this socket was closed. -/
  | closed (k : ℕ)
  /-- Rejected, since there is no connection. -/
  | notConnected
  deriving DecidableEq, Repr

/-- `settled` are the promises that were settled, in order, and `answered` what the helper has
answered. -/
structure State where
  ws : Option ℕ
  pending : Option ℕ
  calls : List Req
  sock : ℕ → Sock
  made : ℕ
  answered : List (ℕ × Bool)
  settled : List (ℕ × Outcome)

inductive Event
  | call (req : Req)
  | sockOpen (k : ℕ)
  /-- The connection fails: `onerror`, and `onclose` after it. -/
  | sockError (k : ℕ)
  /-- The helper answers its next request; `ok` is whether not with an error. -/
  | answer (k : ℕ) (ok : Bool)
  | helperEnds (k : ℕ)
  | message (k : ℕ)
  /-- `readyState` becomes `CLOSING`. -/
  | closing (k : ℕ)
  | closed (k : ℕ)
  deriving DecidableEq, Repr

/-- A socket that was not made yet. -/
def noSock : Sock :=
  { phase := .closed, call := 0, sent := [], requests := [], replies := [], ended := true }

namespace State

/-- `createHelperTransport`. -/
def create : State :=
  { ws := none, pending := none, calls := [], sock := fun _ => noSock, made := 0, answered := [],
    settled := [] }

def setSock (s : State) (k : ℕ) (x : Sock) : State := { s with sock := Function.update s.sock k x }

/-- The callback of `call`: the request of the call `n` is sent, and `n` is pending. -/
def send (s : State) (k n : ℕ) : State :=
  { s.setSock k { s.sock k with
      requests := (s.sock k).requests ++ [n], sent := (s.sock k).sent ++ [n] } with
    pending := some n }

def settle (s : State) (n : ℕ) (o : Outcome) : State := { s with settled := s.settled ++ [(n, o)] }

/-- `onclose`. -/
def onclose (s : State) (k : ℕ) : State :=
  let s := { s with ws := if s.ws = some k then none else s.ws }
  match s.pending with
  | none => s
  | some n => { s.settle n (.closed k) with pending := none }

/-- `m.op` of the answer to the request of a call. -/
def opOf (s : State) (n : ℕ) (ok : Bool) : Op :=
  match s.calls[n]? with
  | none => .error
  | some req => if ok then req.expect else .error

/-- `onmessage`, for an answer. -/
def onmessage (s : State) (n : ℕ) (ok : Bool) : State :=
  match s.pending with
  | none => s
  | some p =>
      if s.opOf n ok = s.opOf p true ∨ s.opOf n ok = .error then
        { s.settle p (.reply n ok) with pending := none }
      else s

/-- `listPorts` and `open`, with `connectWs`. -/
def call (s : State) (req : Req) : State :=
  let n := s.calls.length
  let s := { s with calls := s.calls ++ [req] }
  match s.ws.filter fun k => (s.sock k).phase = .open with
  | some k => s.send k n
  | none =>
      { s.setSock s.made { phase := .connecting, call := n, sent := [], requests := [],
                           replies := [], ended := false } with
        made := s.made + 1 }

def step (s : State) : Event → Option State
  | .call req => some (s.call req)
  | .sockOpen k =>
      if (s.sock k).phase = .connecting then
        some ({ s.setSock k { s.sock k with phase := .open } with ws := some k }.send k
          (s.sock k).call)
      else none
  | .sockError k =>
      if (s.sock k).phase = .connecting then
        some (((s.setSock k { s.sock k with phase := .closed }).settle (s.sock k).call
          .notConnected).onclose k)
      else none
  | .answer k ok =>
      match (s.sock k).requests with
      | [] => none
      | n :: rest =>
          if (s.sock k).ended then none
          else
            some { s.setSock k { s.sock k with
                     requests := rest, replies := (s.sock k).replies ++ [(n, ok)] } with
                   answered := s.answered ++ [(n, ok)] }
  | .helperEnds k =>
      if (s.sock k).ended then none else some (s.setSock k { s.sock k with ended := true })
  | .message k =>
      match (s.sock k).replies with
      | [] => none
      | (n, ok) :: rest =>
          if (s.sock k).phase = .open then
            some ((s.setSock k { s.sock k with replies := rest }).onmessage n ok)
          else none
  | .closing k =>
      if (s.sock k).phase = .open ∧ (s.sock k).ended ∧ (s.sock k).replies = [] then
        some (s.setSock k { s.sock k with phase := .closing })
      else none
  | .closed k =>
      if ((s.sock k).phase = .open ∨ (s.sock k).phase = .closing) ∧ (s.sock k).ended ∧
          (s.sock k).replies = [] then
        some ((s.setSock k { s.sock k with phase := .closed, requests := [] }).onclose k)
      else none

/-- The calls whose promises were settled. -/
def done (s : State) : List ℕ := s.settled.map Prod.fst

end State

/-! ## What the promises are settled with -/

/-- Every promise is settled at most once, and with the answer to its own request, or when its
own connection ends without an answer, or when there is none. -/
structure Outcomes (s : State) : Prop where
  once : s.done.Nodup
  reply : ∀ c n ok, (c, Outcome.reply n ok) ∈ s.settled → n = c ∧ (c, ok) ∈ s.answered
  closed : ∀ c k, (c, Outcome.closed k) ∈ s.settled →
    c ∈ (s.sock k).sent ∧ c ∉ s.answered.map Prod.fst
  notConnected : ∀ c, (c, Outcome.notConnected) ∈ s.settled → c ∉ s.answered.map Prod.fst

/-- The call waits for a connection that is being made for it. -/
def Connecting (s : State) (c : ℕ) : Prop :=
  ∃ k, (s.sock k).phase = .connecting ∧ (s.sock k).call = c

/-- The call is the pending one, and its request or the answer is on its connection. -/
def Outstanding (s : State) (c : ℕ) : Prop :=
  s.pending = some c ∧ ∃ k, ((s.sock k).phase = .open ∨ (s.sock k).phase = .closing) ∧
    (c ∈ (s.sock k).requests ∨ c ∈ (s.sock k).replies.map Prod.fst)

/-- Every promise is settled as it should be, or will be. -/
structure Good (s : State) : Prop where
  outcomes : Outcomes s
  waiting : ∀ c < s.calls.length, c ∉ s.done → Connecting s c ∨ Outstanding s c

/-- A call becomes the pending one only when none is pending, and a socket ends only when the
pending call, if there is one, has its request on it. -/
def Alone (s : State) : Event → Prop
  | .call _ => (s.ws.filter fun k => (s.sock k).phase = .open) ≠ none → s.pending = none
  | .sockOpen _ => s.pending = none
  | .sockError _ => s.pending = none
  | .closed k => ∀ c ∈ s.pending, c ∈ (s.sock k).requests
  | _ => True

variable {s s' : State} {c k n : ℕ} {o : Outcome} {x : Sock}

/-! ## Outcomes -/

theorem mem_done (h : (c, o) ∈ s.settled) : c ∈ s.done := List.mem_map_of_mem h

theorem done_eq (h : s'.settled = s.settled) : s'.done = s.done := by
  rw [State.done, h, State.done]

theorem done_eq_append (h : s'.settled = s.settled ++ [(c, o)]) : s'.done = s.done ++ [c] := by
  rw [State.done, h, List.map_append, List.map_singleton, State.done]

/-- Nothing is settled. -/
theorem Outcomes.keep (h : Outcomes s) (hsettled : s'.settled = s.settled)
    (hanswered : ∀ p ∈ s.answered, p ∈ s'.answered)
    (hnew : ∀ c ∈ s.done, c ∈ s'.answered.map Prod.fst → c ∈ s.answered.map Prod.fst)
    (hsent : ∀ k, ∀ c ∈ (s.sock k).sent, c ∈ (s'.sock k).sent) : Outcomes s' where
  once := by
    rw [done_eq hsettled]
    exact h.once
  reply c n ok hc := by
    rw [hsettled] at hc
    exact ⟨(h.reply c n ok hc).1, hanswered _ (h.reply c n ok hc).2⟩
  closed c k hc := by
    rw [hsettled] at hc
    exact ⟨hsent k c (h.closed c k hc).1, fun hin => (h.closed c k hc).2 (hnew c (mem_done hc) hin)⟩
  notConnected c hc := by
    rw [hsettled] at hc
    exact fun hin => h.notConnected c hc (hnew c (mem_done hc) hin)

/-- One promise is settled. -/
theorem Outcomes.add (h : Outcomes s) (hsettled : s'.settled = s.settled ++ [(c, o)])
    (hanswered : s'.answered = s.answered) (hsent : ∀ k, (s'.sock k).sent = (s.sock k).sent)
    (hc : c ∉ s.done) (hreply : ∀ n ok, o = .reply n ok → n = c ∧ (c, ok) ∈ s.answered)
    (hclosed : ∀ k, o = .closed k → c ∈ (s.sock k).sent ∧ c ∉ s.answered.map Prod.fst)
    (hnot : o = .notConnected → c ∉ s.answered.map Prod.fst) : Outcomes s' where
  once := by
    rw [done_eq_append hsettled]
    refine List.nodup_append.mpr ⟨h.once, List.nodup_singleton _, fun a ha b hb heq => ?_⟩
    rw [heq, List.mem_singleton.mp hb] at ha
    exact hc ha
  reply c' n ok hc' := by
    rw [hsettled] at hc'
    rw [hanswered]
    rcases List.mem_append.mp hc' with hc' | hc'
    · exact h.reply c' n ok hc'
    · cases List.mem_singleton.mp hc'
      exact hreply n ok rfl
  closed c' k hc' := by
    rw [hsettled] at hc'
    rw [hanswered, hsent]
    rcases List.mem_append.mp hc' with hc' | hc'
    · exact h.closed c' k hc'
    · cases List.mem_singleton.mp hc'
      exact hclosed k rfl
  notConnected c' hc' := by
    rw [hsettled] at hc'
    rw [hanswered]
    rcases List.mem_append.mp hc' with hc' | hc'
    · exact h.notConnected c' hc'
    · cases List.mem_singleton.mp hc'
      exact hnot rfl

/-! ## The invariant -/

/-- Nothing is on its way on this connection. -/
def Quiet (x : Sock) : Prop := x.requests = [] ∧ x.replies = []

/-- The request of the call or its answer is on this connection, and nothing else. -/
structure Carries (s : State) (k c : ℕ) : Prop where
  phase : (s.sock k).phase = .open ∨ (s.sock k).phase = .closing
  sent : c ∈ (s.sock k).sent
  outstanding :
    ((s.sock k).requests = [c] ∧ (s.sock k).replies = [] ∧ c ∉ s.answered.map Prod.fst) ∨
      ((s.sock k).requests = [] ∧ ∃ ok, (s.sock k).replies = [(c, ok)] ∧ (c, ok) ∈ s.answered)

/-- The pending call. -/
structure Busy (s : State) (k c : ℕ) : Prop where
  lt : c < s.calls.length
  notDone : c ∉ s.done
  carries : Carries s k c
  others : ∀ k', k' ≠ k → Quiet (s.sock k') ∧ c ∉ (s.sock k').sent

/-- A call that nothing was sent for yet. -/
structure Unsent (s : State) (c : ℕ) : Prop where
  lt : c < s.calls.length
  notDone : c ∉ s.done
  notAnswered : c ∉ s.answered.map Prod.fst
  notPending : s.pending ≠ some c
  notSent : ∀ k, c ∉ (s.sock k).sent

structure Numbers (s : State) : Prop where
  answered : (s.answered.map Prod.fst).Nodup
  doneLt : ∀ c ∈ s.done, c < s.calls.length
  answeredLt : ∀ c ∈ s.answered.map Prod.fst, c < s.calls.length
  sentLt : ∀ k, ∀ c ∈ (s.sock k).sent, c < s.calls.length

/-- The connections that are being made. -/
structure Connections (s : State) : Prop where
  unsent : ∀ k, (s.sock k).phase = .connecting → Unsent s (s.sock k).call
  distinct : ∀ k k', (s.sock k).phase = .connecting → (s.sock k').phase = .connecting →
    (s.sock k).call = (s.sock k').call → k = k'
  notMade : ∀ k, s.made ≤ k → s.sock k = noSock

/-- What is on its way. -/
structure Line (s : State) : Prop where
  idle : s.pending = none → ∀ k, Quiet (s.sock k)
  busy : ∀ c, s.pending = some c → ∃ k, Busy s k c

structure Inv (s : State) : Prop where
  outcomes : Outcomes s
  numbers : Numbers s
  connections : Connections s
  line : Line s
  unsettled : ∀ c < s.calls.length, c ∉ s.done → Connecting s c ∨ s.pending = some c

theorem inv_create : Inv .create where
  outcomes := ⟨List.nodup_nil, fun _ _ _ h => absurd h List.not_mem_nil,
    fun _ _ h => absurd h List.not_mem_nil, fun _ h => absurd h List.not_mem_nil⟩
  numbers := ⟨List.nodup_nil, fun _ h => absurd h List.not_mem_nil,
    fun _ h => absurd h List.not_mem_nil, fun _ _ h => absurd h List.not_mem_nil⟩
  connections := ⟨fun _ h => Phase.noConfusion h, fun _ _ h => Phase.noConfusion h, fun _ _ => rfl⟩
  line := ⟨fun _ _ => ⟨rfl, rfl⟩, fun c h => absurd h.symm (Option.some_ne_none c)⟩
  unsettled c hc := absurd hc (Nat.not_lt_zero c)

theorem Inv.lt_made (h : Inv s) (hk : s.sock k ≠ noSock) : k < s.made := by
  by_contra hge
  exact hk (h.connections.notMade k (Nat.le_of_not_lt hge))

theorem Inv.good (h : Inv s) : Good s where
  outcomes := h.outcomes
  waiting c hc hdone := by
    refine (h.unsettled c hc hdone).imp_right fun hpending => ?_
    obtain ⟨k, hbusy⟩ := h.line.busy c hpending
    refine ⟨hpending, k, hbusy.carries.phase, ?_⟩
    rcases hbusy.carries.outstanding with ⟨hreq, -, -⟩ | ⟨-, ok, hrep, -⟩
    · exact Or.inl (by simp [hreq])
    · exact Or.inr (by simp [hrep])

/-- A port that the helper has opened is never reported as an error. -/
theorem Inv.opened (h : Inv s) {ok : Bool} (hanswered : (c, ok) ∈ s.answered)
    (hsettled : (c, o) ∈ s.settled) : o = .reply c ok := by
  have hkey : c ∈ s.answered.map Prod.fst := List.mem_map_of_mem hanswered
  cases o with
  | reply n ok' =>
      obtain ⟨rfl, hin⟩ := h.outcomes.reply c n ok' hsettled
      have heq := List.inj_on_of_nodup_map h.numbers.answered hin hanswered rfl
      cases heq
      rfl
  | closed k => exact absurd hkey (h.outcomes.closed c k hsettled).2
  | notConnected => exact absurd hkey (h.outcomes.notConnected c hsettled)

/-- Only the connection of the pending call is not quiet. -/
theorem Inv.busy_of_not_quiet (h : Inv s) (hk : ¬ Quiet (s.sock k)) :
    ∃ c, s.pending = some c ∧ Busy s k c := by
  cases hpending : s.pending with
  | none => exact absurd (h.line.idle hpending k) hk
  | some c =>
      obtain ⟨k', hbusy⟩ := h.line.busy c hpending
      have heq : k = k' := by
        by_contra hne
        exact hk (hbusy.others k hne).1
      exact ⟨c, rfl, heq ▸ hbusy⟩

theorem Busy.not_connecting (h : Busy s k c) : (s.sock k).phase ≠ .connecting := by
  intro hphase
  rcases h.carries.phase with hopen | hclosing
  · rw [hopen] at hphase
    cases hphase
  · rw [hclosing] at hphase
    cases hphase

/-- The new numbers are those of calls that were made. -/
theorem Numbers.of_old (h : Numbers s) (hlength : s.calls.length ≤ s'.calls.length)
    (hnodup : (s'.answered.map Prod.fst).Nodup)
    (hdone : ∀ c ∈ s'.done, c ∈ s.done ∨ c < s'.calls.length)
    (hanswered : ∀ c ∈ s'.answered.map Prod.fst,
      c ∈ s.answered.map Prod.fst ∨ c < s'.calls.length)
    (hsent : ∀ k, ∀ c ∈ (s'.sock k).sent, c ∈ (s.sock k).sent ∨ c < s'.calls.length) :
    Numbers s' where
  answered := hnodup
  doneLt c hc := by
    rcases hdone c hc with hc | hc
    · exact Nat.lt_of_lt_of_le (h.doneLt c hc) hlength
    · exact hc
  answeredLt c hc := by
    rcases hanswered c hc with hc | hc
    · exact Nat.lt_of_lt_of_le (h.answeredLt c hc) hlength
    · exact hc
  sentLt k c hc := by
    rcases hsent k c hc with hc | hc
    · exact Nat.lt_of_lt_of_le (h.sentLt k c hc) hlength
    · exact hc

/-- The pending call stays where it is. -/
theorem Busy.of_same (h : Busy s k c) (hlength : s.calls.length ≤ s'.calls.length)
    (hdone : s'.done = s.done) (hanswered : s'.answered = s.answered)
    (hsent : ∀ j, (s'.sock j).sent = (s.sock j).sent)
    (hquiet : ∀ j, Quiet (s.sock j) → Quiet (s'.sock j))
    (hphase : (s'.sock k).phase = .open ∨ (s'.sock k).phase = .closing)
    (hrequests : (s'.sock k).requests = (s.sock k).requests)
    (hreplies : (s'.sock k).replies = (s.sock k).replies) : Busy s' k c where
  lt := Nat.lt_of_lt_of_le h.lt hlength
  notDone := by
    rw [hdone]
    exact h.notDone
  carries := by
    refine ⟨hphase, ?_, ?_⟩
    · rw [hsent k]
      exact h.carries.sent
    · rw [hrequests, hreplies, hanswered]
      exact h.carries.outstanding
  others j hj := by
    rw [hsent j]
    exact ⟨hquiet j (h.others j hj).1, (h.others j hj).2⟩

/-! ## Sockets that change -/

@[simp] theorem setSock_self (s : State) (k : ℕ) (x : Sock) : (s.setSock k x).sock k = x :=
  Function.update_self ..

theorem setSock_of_ne {k' : ℕ} (h : k' ≠ k) (s : State) (x : Sock) :
    (s.setSock k x).sock k' = s.sock k' := Function.update_of_ne h ..

/-- What becomes of the sockets in a step that sends nothing: one of them changes. -/
structure Changes (s s' : State) (k : ℕ) : Prop where
  calls : s'.calls = s.calls
  made : s'.made = s.made
  lt : k < s.made
  call : (s'.sock k).call = (s.sock k).call
  sent : (s'.sock k).sent = (s.sock k).sent
  connecting : (s'.sock k).phase = .connecting → (s.sock k).phase = .connecting
  others : ∀ k', k' ≠ k → s'.sock k' = s.sock k'

namespace Changes

variable (hs : Changes s s' k) (k' : ℕ)

include hs

omit k' in
theorem length_le : s.calls.length ≤ s'.calls.length :=
  Nat.le_of_eq (congrArg List.length hs.calls.symm)

theorem call_eq : (s'.sock k').call = (s.sock k').call := by
  by_cases heq : k' = k
  · rw [heq, hs.call]
  · rw [hs.others k' heq]

theorem sent_eq : (s'.sock k').sent = (s.sock k').sent := by
  by_cases heq : k' = k
  · rw [heq, hs.sent]
  · rw [hs.others k' heq]

theorem connecting_of (h : (s'.sock k').phase = .connecting) :
    (s.sock k').phase = .connecting := by
  by_cases heq : k' = k
  · rw [heq] at h ⊢
    exact hs.connecting h
  · rwa [hs.others k' heq] at h

/-- The calls whose connections are being made are not touched. -/
theorem connections (h : Connections s)
    (hdone : ∀ c, Unsent s c → (∃ j, (s'.sock j).phase = .connecting ∧ (s.sock j).call = c) →
      c ∉ s'.done)
    (hanswered : ∀ c, Unsent s c → c ∉ s'.answered.map Prod.fst)
    (hpending : ∀ c, Unsent s c → s'.pending ≠ some c) : Connections s' where
  unsent j hj := by
    have hunsent := h.unsent j (hs.connecting_of j hj)
    rw [hs.call_eq j]
    refine ⟨hs.calls ▸ hunsent.lt, hdone _ hunsent ⟨j, hj, rfl⟩, hanswered _ hunsent,
      hpending _ hunsent, fun i => ?_⟩
    rw [hs.sent_eq i]
    exact hunsent.notSent i
  distinct i j hi hj heq := by
    rw [hs.call_eq i, hs.call_eq j] at heq
    exact h.distinct i j (hs.connecting_of i hi) (hs.connecting_of j hj) heq
  notMade j hj := by
    rw [hs.made] at hj
    have hlt := hs.lt
    rw [hs.others j (by omega)]
    exact h.notMade j hj

/-- A connection that is still being made. -/
theorem connecting_iff (hk : (s.sock k).phase = .connecting → (s'.sock k).phase = .connecting)
    (c : ℕ) (h : Connecting s c) : Connecting s' c := by
  obtain ⟨j, hphase, hcall⟩ := h
  refine ⟨j, ?_, (hs.call_eq j).trans hcall⟩
  by_cases heq : j = k
  · rw [heq] at hphase ⊢
    exact hk hphase
  · rw [hs.others j heq]
    exact hphase

theorem quiet (h : ∀ j, j ≠ k → Quiet (s.sock j)) (hk : Quiet (s'.sock k)) (j : ℕ) :
    Quiet (s'.sock j) := by
  by_cases heq : j = k
  · rw [heq]
    exact hk
  · rw [hs.others j heq]
    exact h j heq

end Changes

theorem changes_setSock (hk : k < s.made) {x : Sock} (hsock : s'.sock = (s.setSock k x).sock)
    (hcalls : s'.calls = s.calls) (hmade : s'.made = s.made) (hcall : x.call = (s.sock k).call)
    (hsent : x.sent = (s.sock k).sent)
    (hconnecting : x.phase = .connecting → (s.sock k).phase = .connecting) : Changes s s' k := by
  have hself : s'.sock k = x := by rw [hsock, setSock_self]
  refine ⟨hcalls, hmade, hk, hself ▸ hcall, hself ▸ hsent, hself ▸ hconnecting, fun j hj => ?_⟩
  rw [hsock, setSock_of_ne hj]

/-- One promise is settled, of a call that was made. -/
theorem Numbers.of_settled (h : Numbers s) (hs : Changes s s' k)
    (hanswered : s'.answered = s.answered) (hdone : s'.done = s.done ++ [c]) (hc : c < s.calls.length) : Numbers s' := by
  refine h.of_old hs.length_le (hanswered ▸ h.answered) (fun n hn => ?_)
    (fun n hn => Or.inl (hanswered ▸ hn)) fun j n hn => Or.inl (hs.sent_eq j ▸ hn)
  rw [hdone] at hn
  refine (List.mem_append.mp hn).imp_right fun hn => ?_
  rw [List.mem_singleton.mp hn, hs.calls]
  exact hc

/-! ## What a step preserves -/

/-- The helper ends a connection, or a socket closes that carries nothing. -/
theorem Inv.keep (h : Inv s) (hs : Changes s s' k) (hanswered : s'.answered = s.answered)
    (hsettled : s'.settled = s.settled) (hpending : s'.pending = s.pending)
    (hrequests : (s'.sock k).requests = (s.sock k).requests)
    (hreplies : (s'.sock k).replies = (s.sock k).replies)
    (hconnecting : (s.sock k).phase = .connecting → (s'.sock k).phase = .connecting)
    (hlive : s.pending ≠ none → (s.sock k).phase = .open ∨ (s.sock k).phase = .closing →
      (s'.sock k).phase = .open ∨ (s'.sock k).phase = .closing) : Inv s' := by
  have hdone := done_eq hsettled
  have hquiet : ∀ j, Quiet (s.sock j) → Quiet (s'.sock j) := by
    intro j hj
    by_cases heq : j = k
    · rw [heq] at hj ⊢
      exact ⟨hrequests.trans hj.1, hreplies.trans hj.2⟩
    · rw [hs.others j heq]
      exact hj
  refine ⟨?_, ?_, ?_, ⟨fun hnone j => ?_, fun c hc => ?_⟩, fun c hc hnot => ?_⟩
  · refine h.outcomes.keep hsettled (fun p hp => hanswered ▸ hp) (fun c _ hc => hanswered ▸ hc) ?_
    exact fun j c hc => (hs.sent_eq j).symm ▸ hc
  · exact h.numbers.of_old hs.length_le (hanswered ▸ h.numbers.answered)
      (fun c hc => Or.inl (hdone ▸ hc)) (fun c hc => Or.inl (hanswered ▸ hc))
      fun j c hc => Or.inl (hs.sent_eq j ▸ hc)
  · refine hs.connections h.connections (fun c hc _ => ?_) (fun c hc => ?_) fun c hc => ?_
    · rw [hdone]
      exact hc.notDone
    · rw [hanswered]
      exact hc.notAnswered
    · rw [hpending]
      exact hc.notPending
  · rw [hpending] at hnone
    exact hquiet j (h.line.idle hnone j)
  · rw [hpending] at hc
    obtain ⟨j, hbusy⟩ := h.line.busy c hc
    refine ⟨j, ?_⟩
    by_cases heq : j = k
    · rw [heq] at hbusy ⊢
      exact hbusy.of_same hs.length_le hdone hanswered hs.sent_eq hquiet
        (hlive (hc ▸ Option.some_ne_none c) hbusy.carries.phase) hrequests hreplies
    · have hsame := hs.others j heq
      refine hbusy.of_same hs.length_le hdone hanswered hs.sent_eq hquiet ?_ (by rw [hsame])
        (by rw [hsame])
      rw [hsame]
      exact hbusy.carries.phase
  · rw [hs.calls] at hc
    rw [hdone] at hnot
    rw [hpending]
    exact (h.unsettled c hc hnot).imp_left (hs.connecting_iff hconnecting c)

/-- The helper answers the request of the pending call. -/
theorem Inv.answer (h : Inv s) (hs : Changes s s' k) {rest : List ℕ} {ok : Bool}
    (hreq : (s.sock k).requests = n :: rest) (hsettled : s'.settled = s.settled)
    (hanswered : s'.answered = s.answered ++ [(n, ok)]) (hpending : s'.pending = s.pending)
    (hphase : (s'.sock k).phase = (s.sock k).phase) (hrequests : (s'.sock k).requests = rest)
    (hreplies : (s'.sock k).replies = (s.sock k).replies ++ [(n, ok)]) : Inv s' := by
  obtain ⟨c, hc, hbusy⟩ := h.busy_of_not_quiet (k := k) fun hquiet => by
    rw [hquiet.1] at hreq
    cases hreq
  have hout : n = c ∧ rest = [] ∧ (s.sock k).replies = [] ∧ c ∉ s.answered.map Prod.fst := by
    rcases hbusy.carries.outstanding with ⟨hone, hrep, hnot⟩ | ⟨hnone, -⟩
    · rw [hreq, List.cons.injEq] at hone
      exact ⟨hone.1, hone.2, hrep, hnot⟩
    · rw [hnone] at hreq
      cases hreq
  obtain ⟨rfl, rfl, hrep, hfresh⟩ := hout
  have hdone := done_eq hsettled
  have hkeys : s'.answered.map Prod.fst = s.answered.map Prod.fst ++ [n] := by
    rw [hanswered, List.map_append, List.map_singleton]
  have hkey : ∀ c, c ∈ s'.answered.map Prod.fst → c ∈ s.answered.map Prod.fst ∨ c = n := by
    intro c hc
    rw [hkeys] at hc
    exact (List.mem_append.mp hc).imp_right List.mem_singleton.mp
  refine ⟨?_, ?_, ?_, ⟨fun hnone => ?_, fun c' hc' => ⟨k, ?_⟩⟩, fun c' hc' hnot => ?_⟩
  · refine h.outcomes.keep hsettled (fun p hp => ?_) (fun c hd hin => ?_) fun j c hin => ?_
    · rw [hanswered]
      exact List.mem_append_left _ hp
    · refine (hkey c hin).resolve_right fun heq => hbusy.notDone (heq ▸ hd)
    · exact (hs.sent_eq j).symm ▸ hin
  · refine h.numbers.of_old hs.length_le ?_ (fun c hin => Or.inl (hdone ▸ hin))
      (fun c hin => (hkey c hin).imp_right fun heq => ?_) fun j c hin => Or.inl (hs.sent_eq j ▸ hin)
    · rw [hkeys]
      refine List.nodup_append.mpr
        ⟨h.numbers.answered, List.nodup_singleton _, fun a ha b hb heq => ?_⟩
      rw [heq, List.mem_singleton.mp hb] at ha
      exact hfresh ha
    · rw [heq, hs.calls]
      exact hbusy.lt
  · refine hs.connections h.connections (fun c hc _ => ?_) (fun c hu hin => ?_) fun c hc => ?_
    · rw [hdone]
      exact hc.notDone
    · rcases hkey c hin with hin | rfl
      · exact hu.notAnswered hin
      · exact hu.notPending hc
    · rw [hpending]
      exact hc.notPending
  · exact absurd ((hpending.trans hc).symm.trans hnone) (Option.some_ne_none n)
  · cases (hpending.trans hc).symm.trans hc'
    refine ⟨hs.calls ▸ hbusy.lt, hdone ▸ hbusy.notDone, ⟨?_, ?_, Or.inr ⟨hrequests, ok, ?_, ?_⟩⟩,
      fun j hj => ?_⟩
    · rw [hphase]
      exact hbusy.carries.phase
    · rw [hs.sent_eq k]
      exact hbusy.carries.sent
    · rw [hreplies, hrep]
      rfl
    · rw [hanswered]
      exact List.mem_append_right _ List.mem_cons_self
    · rw [hs.others j hj]
      exact hbusy.others j hj
  · rw [hs.calls] at hc'
    rw [hdone] at hnot
    rw [hpending]
    refine (h.unsettled c' hc' hnot).imp_left (hs.connecting_iff (fun hcon => ?_) c')
    exact absurd hcon hbusy.not_connecting

/-- The pending call is settled, with what is on its connection. -/
theorem Inv.settled (h : Inv s) (hs : Changes s s' k) (hbusy : Busy s k c)
    (hc : s.pending = some c) (hanswered : s'.answered = s.answered)
    (hsettled : s'.settled = s.settled ++ [(c, o)]) (hpending : s'.pending = none)
    (hquiet : Quiet (s'.sock k))
    (hreply : ∀ n ok, o = .reply n ok → n = c ∧ (c, ok) ∈ s.answered)
    (hclosed : ∀ j, o = .closed j → c ∈ (s.sock j).sent ∧ c ∉ s.answered.map Prod.fst)
    (hnot : o ≠ .notConnected) : Inv s' := by
  have hdone := done_eq_append hsettled
  refine ⟨?_, ?_, ?_, ⟨fun _ => hs.quiet (fun j hj => (hbusy.others j hj).1) hquiet,
    fun c' hc' => ?_⟩, fun c' hc' hno => ?_⟩
  · exact h.outcomes.add hsettled hanswered hs.sent_eq hbusy.notDone hreply hclosed
      fun heq => absurd heq hnot
  · exact h.numbers.of_settled hs hanswered hdone hbusy.lt
  · refine hs.connections h.connections (fun c' hu _ hin => ?_) (fun c' hu => ?_) fun c' _ heq => ?_
    · rw [hdone] at hin
      rcases List.mem_append.mp hin with hin | hin
      · exact hu.notDone hin
      · rw [List.mem_singleton.mp hin] at hu
        exact hu.notPending hc
    · rw [hanswered]
      exact hu.notAnswered
    · rw [hpending] at heq
      cases heq
  · rw [hpending] at hc'
    cases hc'
  · rw [hs.calls] at hc'
    rw [hdone, List.mem_append, not_or, List.mem_singleton] at hno
    rcases h.unsettled c' hc' hno.1 with hcon | hpend
    · refine Or.inl (hs.connecting_iff (fun hphase => ?_) c' hcon)
      exact absurd hphase hbusy.not_connecting
    · exact absurd (Option.some.inj (hc.symm.trans hpend)).symm hno.2

/-- A connection could not be made, and no call is pending. -/
theorem Inv.refused (h : Inv s) (hs : Changes s s' k) (hphase : (s.sock k).phase = .connecting)
    (hphase' : (s'.sock k).phase = .closed) (hnone : s.pending = none)
    (hanswered : s'.answered = s.answered)
    (hsettled : s'.settled = s.settled ++ [((s.sock k).call, .notConnected)])
    (hpending : s'.pending = none) (hrequests : (s'.sock k).requests = (s.sock k).requests)
    (hreplies : (s'.sock k).replies = (s.sock k).replies) : Inv s' := by
  have hunsent := h.connections.unsent k hphase
  have hdone := done_eq_append hsettled
  have hne : ∀ j, (s'.sock j).phase = .connecting → j ≠ k := by
    rintro j hj rfl
    rw [hphase'] at hj
    cases hj
  have hidle := h.line.idle hnone
  refine ⟨?_, ?_, ?_, ⟨fun _ => hs.quiet (fun j _ => hidle j) ?_, fun c hc => ?_⟩,
    fun c hc hno => ?_⟩
  · exact h.outcomes.add hsettled hanswered hs.sent_eq hunsent.notDone
      (fun _ _ heq => Outcome.noConfusion heq) (fun _ heq => Outcome.noConfusion heq)
      fun _ => hunsent.notAnswered
  · exact h.numbers.of_settled hs hanswered hdone hunsent.lt
  · refine hs.connections h.connections (fun c hu hcon hin => ?_) (fun c hu => ?_) fun c _ heq => ?_
    · obtain ⟨j, hj, hcall⟩ := hcon
      rw [hdone] at hin
      rcases List.mem_append.mp hin with hin | hin
      · exact hu.notDone hin
      · exact hne j hj (h.connections.distinct j k (hs.connecting_of j hj) hphase
          (hcall.trans (List.mem_singleton.mp hin)))
    · rw [hanswered]
      exact hu.notAnswered
    · rw [hpending] at heq
      cases heq
  · exact ⟨hrequests.trans (hidle k).1, hreplies.trans (hidle k).2⟩
  · rw [hpending] at hc
    cases hc
  · rw [hs.calls] at hc
    rw [hdone, List.mem_append, not_or, List.mem_singleton] at hno
    rcases h.unsettled c hc hno.1 with ⟨j, hj, hcall⟩ | hpend
    · have hjk : j ≠ k := by
        rintro rfl
        exact hno.2 hcall.symm
      exact Or.inl ⟨j, by rw [hs.others j hjk]; exact hj, (hs.call_eq j).trans hcall⟩
    · rw [hnone] at hpend
      cases hpend

/-- The request of a call is sent, and no call is pending. -/
theorem Inv.sent (h : Inv s) (hnone : s.pending = none) (hk : k < s.made)
    (hlength : s.calls.length ≤ s'.calls.length) (hn : n < s'.calls.length)
    (hdone : n ∉ s.done) (hfresh : n ∉ s.answered.map Prod.fst)
    (hnew : ∀ j, n ∉ (s.sock j).sent)
    (hself : s'.sock k = { s.sock k with
      phase := .open, requests := (s.sock k).requests ++ [n], sent := (s.sock k).sent ++ [n] })
    (hothers : ∀ j, j ≠ k → s'.sock j = s.sock j) (hmade : s'.made = s.made)
    (hanswered : s'.answered = s.answered) (hsettled : s'.settled = s.settled)
    (hpending : s'.pending = some n)
    (hcall : ∀ j, j ≠ k → (s.sock j).phase = .connecting → (s.sock j).call ≠ n)
    (hunsettled : ∀ c < s'.calls.length, c ≠ n → c ∉ s.done →
      ∃ j, j ≠ k ∧ (s.sock j).phase = .connecting ∧ (s.sock j).call = c) : Inv s' := by
  have hdone' := done_eq hsettled
  have hidle := h.line.idle hnone
  have hsent : ∀ j, ∀ c ∈ (s'.sock j).sent, c ∈ (s.sock j).sent ∨ c = n := by
    intro j c hc
    by_cases heq : j = k
    · rw [heq, hself] at hc
      rw [heq]
      exact (List.mem_append.mp hc).imp_right List.mem_singleton.mp
    · rw [hothers j heq] at hc
      exact Or.inl hc
  have hcon : ∀ j, (s'.sock j).phase = .connecting → j ≠ k := by
    rintro j hj rfl
    rw [hself] at hj
    cases hj
  refine ⟨?_, ?_, ⟨fun j hj => ?_, fun i j hi hj heq => ?_, fun j hj => ?_⟩,
    ⟨fun hno => ?_, fun c hc => ⟨k, ?_⟩⟩, fun c hc hno => ?_⟩
  · refine h.outcomes.keep hsettled (fun p hp => hanswered ▸ hp) (fun c _ hc => hanswered ▸ hc)
      fun j c hc => ?_
    by_cases heq : j = k
    · rw [heq] at hc ⊢
      rw [hself]
      exact List.mem_append_left _ hc
    · rw [hothers j heq]
      exact hc
  · exact h.numbers.of_old hlength (hanswered ▸ h.numbers.answered)
      (fun c hc => Or.inl (hdone' ▸ hc)) (fun c hc => Or.inl (hanswered ▸ hc))
      fun j c hc => (hsent j c hc).imp_right fun heq => by rwa [heq]
  · have hjk := hcon j hj
    rw [hothers j hjk] at hj ⊢
    have hunsent := h.connections.unsent j hj
    have hne := hcall j hjk hj
    refine ⟨Nat.lt_of_lt_of_le hunsent.lt hlength, ?_, ?_, ?_, fun i hi => ?_⟩
    · rw [hdone']
      exact hunsent.notDone
    · rw [hanswered]
      exact hunsent.notAnswered
    · rw [hpending]
      exact fun heq => hne (Option.some.inj heq).symm
    · rcases hsent i _ hi with hi | hi
      · exact hunsent.notSent i hi
      · exact hne hi
  · have hik := hcon i hi
    have hjk := hcon j hj
    rw [hothers i hik] at hi heq
    rw [hothers j hjk] at hj heq
    exact h.connections.distinct i j hi hj heq
  · rw [hmade] at hj
    rw [hothers j (by omega)]
    exact h.connections.notMade j hj
  · rw [hpending] at hno
    cases hno
  · rw [hpending] at hc
    cases hc
    refine ⟨hn, hdone' ▸ hdone, ⟨?_, ?_, Or.inl ⟨?_, ?_, ?_⟩⟩, fun j hj => ?_⟩
    · rw [hself]
      exact Or.inl rfl
    · rw [hself]
      exact List.mem_append_right _ List.mem_cons_self
    · rw [hself]
      dsimp only
      rw [(hidle k).1]
      rfl
    · rw [hself]
      exact (hidle k).2
    · rw [hanswered]
      exact hfresh
    · rw [hothers j hj]
      exact ⟨hidle j, hnew j⟩
  · rw [hdone'] at hno
    by_cases heq : c = n
    · rw [heq]
      exact Or.inr hpending
    · obtain ⟨j, hjk, hj, hcall'⟩ := hunsettled c hc heq hno
      refine Or.inl ⟨j, ?_⟩
      rw [hothers j hjk]
      exact ⟨hj, hcall'⟩

/-- A socket is made for a new call. -/
theorem Inv.dial (h : Inv s) (req : Req) (hcalls : s'.calls = s.calls ++ [req])
    (hself : s'.sock s.made = { phase := .connecting, call := s.calls.length, sent := [],
                                requests := [], replies := [], ended := false })
    (hothers : ∀ j, j ≠ s.made → s'.sock j = s.sock j) (hmade : s'.made = s.made + 1)
    (hanswered : s'.answered = s.answered) (hsettled : s'.settled = s.settled)
    (hpending : s'.pending = s.pending) : Inv s' := by
  have hdone' := done_eq hsettled
  have hlength : s'.calls.length = s.calls.length + 1 := by
    rw [hcalls, List.length_append, List.length_singleton]
  have hsent : ∀ j, (s'.sock j).sent = (s.sock j).sent := by
    intro j
    by_cases heq : j = s.made
    · rw [heq, hself, h.connections.notMade _ (Nat.le_refl _)]
      rfl
    · rw [hothers j heq]
  have hcon : ∀ j, (s.sock j).phase = .connecting → j ≠ s.made := by
    rintro j hj rfl
    rw [h.connections.notMade _ (Nat.le_refl _)] at hj
    cases hj
  have hquiet : ∀ j, Quiet (s.sock j) → Quiet (s'.sock j) := by
    intro j hj
    by_cases heq : j = s.made
    · rw [heq, hself]
      exact ⟨rfl, rfl⟩
    · rw [hothers j heq]
      exact hj
  have hle : s.calls.length ≤ s'.calls.length := by
    rw [hlength]
    exact Nat.le_succ _
  refine ⟨?_, ?_, ⟨fun j hj => ?_, fun i j hi hj heq => ?_, fun j hj => ?_⟩,
    ⟨fun hno j => ?_, fun c hc => ?_⟩, fun c hc hno => ?_⟩
  · exact h.outcomes.keep hsettled (fun p hp => hanswered ▸ hp) (fun c _ hc => hanswered ▸ hc)
      fun j c hc => (hsent j).symm ▸ hc
  · exact h.numbers.of_old hle (hanswered ▸ h.numbers.answered)
      (fun c hc => Or.inl (hdone' ▸ hc)) (fun c hc => Or.inl (hanswered ▸ hc))
      fun j c hc => Or.inl (hsent j ▸ hc)
  · by_cases heq : j = s.made
    · rw [heq, hself]
      refine ⟨?_, ?_, ?_, ?_, fun i hi => ?_⟩
      · rw [hlength]
        exact Nat.lt_succ_self _
      · rw [hdone']
        exact fun hin => Nat.lt_irrefl _ (h.numbers.doneLt _ hin)
      · rw [hanswered]
        exact fun hin => Nat.lt_irrefl _ (h.numbers.answeredLt _ hin)
      · rw [hpending]
        intro hpend
        obtain ⟨_, hbusy⟩ := h.line.busy _ hpend
        exact Nat.lt_irrefl _ hbusy.lt
      · rw [hsent i] at hi
        exact Nat.lt_irrefl _ (h.numbers.sentLt i _ hi)
    · rw [hothers j heq] at hj ⊢
      have hunsent := h.connections.unsent j hj
      refine ⟨?_, hdone' ▸ hunsent.notDone, hanswered ▸ hunsent.notAnswered,
        hpending ▸ hunsent.notPending, fun i => ?_⟩
      · rw [hlength]
        exact Nat.lt_succ_of_lt hunsent.lt
      · rw [hsent i]
        exact hunsent.notSent i
  · -- the new call has a number of its own
    have hnew : ∀ i, i ≠ s.made → (s'.sock i).phase = .connecting →
        (s'.sock i).call ≠ s.calls.length := by
      intro i hi hphase heq
      rw [hothers i hi] at hphase heq
      exact Nat.ne_of_lt (h.connections.unsent i hphase).lt heq
    have hcall : (s'.sock s.made).call = s.calls.length := by rw [hself]
    by_cases hi' : i = s.made
    · by_cases hj' : j = s.made
      · rw [hi', hj']
      · rw [hi', hcall] at heq
        exact absurd heq.symm (hnew j hj' hj)
    · by_cases hj' : j = s.made
      · rw [hj', hcall] at heq
        exact absurd heq (hnew i hi' hi)
      · rw [hothers i hi'] at hi heq
        rw [hothers j hj'] at hj heq
        exact h.connections.distinct i j hi hj heq
  · rw [hmade] at hj
    rw [hothers j (by omega)]
    exact h.connections.notMade j (by omega)
  · rw [hpending] at hno
    exact hquiet j (h.line.idle hno j)
  · rw [hpending] at hc
    obtain ⟨j, hbusy⟩ := h.line.busy c hc
    have hj : j ≠ s.made := by
      rintro rfl
      have hphase := hbusy.carries.phase
      rw [h.connections.notMade _ (Nat.le_refl _)] at hphase
      rcases hphase with hphase | hphase
      · cases hphase
      · cases hphase
    have hsame := hothers j hj
    refine ⟨j, hbusy.of_same hle hdone' hanswered hsent hquiet ?_ (by rw [hsame])
      (by rw [hsame])⟩
    rw [hsame]
    exact hbusy.carries.phase
  · rw [hdone'] at hno
    rw [hlength] at hc
    rcases Nat.lt_succ_iff_lt_or_eq.mp hc with hc | rfl
    · rw [hpending]
      refine (h.unsettled c hc hno).imp_left ?_
      rintro ⟨j, hj, hcall⟩
      refine ⟨j, ?_⟩
      rw [hothers j (hcon j hj)]
      exact ⟨hj, hcall⟩
    · exact Or.inl ⟨s.made, by rw [hself], by rw [hself]⟩

theorem onclose_of_none (h : s.pending = none) (k : ℕ) :
    s.onclose k = { s with ws := if s.ws = some k then none else s.ws } := by
  simp only [State.onclose, h]

theorem onclose_of_some (h : s.pending = some c) (k : ℕ) :
    s.onclose k = { s.settle c (.closed k) with
      ws := if s.ws = some k then none else s.ws, pending := none } := by
  simp only [State.onclose, h]
  rfl

/-- A socket on which something happens was made. -/
theorem Inv.lt_made_of_phase (h : Inv s) (hk : (s.sock k).phase ≠ .closed) : k < s.made :=
  h.lt_made fun heq => hk (by rw [heq]; rfl)

theorem Inv.message (h : Inv s) {rest : List (ℕ × Bool)} {ok : Bool}
    (hrep : (s.sock k).replies = (n, ok) :: rest) (hphase : (s.sock k).phase = .open) :
    Inv ((s.setSock k { s.sock k with replies := rest }).onmessage n ok) := by
  obtain ⟨c, hc, hbusy⟩ := h.busy_of_not_quiet (k := k) fun hquiet => by
    rw [hquiet.2] at hrep
    cases hrep
  have hout : (s.sock k).requests = [] ∧ n = c ∧ rest = [] ∧ (c, ok) ∈ s.answered := by
    rcases hbusy.carries.outstanding with ⟨-, hnil, -⟩ | ⟨hreq, ok', hone, hin⟩
    · rw [hnil] at hrep
      cases hrep
    · rw [hrep, List.cons.injEq, Prod.mk.injEq] at hone
      obtain ⟨⟨rfl, rfl⟩, hrest⟩ := hone
      exact ⟨hreq, rfl, hrest, hin⟩
  obtain ⟨hreq, rfl, rfl, hin⟩ := hout
  have hlt : k < s.made := h.lt_made_of_phase (by rw [hphase]; exact Phase.noConfusion)
  have hop : ∀ t : State, t.opOf n ok = t.opOf n true ∨ t.opOf n ok = .error := by
    intro t
    cases ok with
    | true => exact Or.inl rfl
    | false =>
        refine Or.inr ?_
        rw [State.opOf]
        split
        · rfl
        · rfl
  have hpend : (s.setSock k { s.sock k with replies := [] }).pending = some n := hc
  rw [State.onmessage, hpend]
  dsimp only
  rw [if_pos (hop _)]
  refine h.settled (changes_setSock hlt rfl rfl rfl rfl rfl fun hcon => hcon) hbusy hc rfl rfl rfl
    ⟨?_, ?_⟩ (fun n' ok' heq => ?_) (fun _ heq => Outcome.noConfusion heq) Outcome.noConfusion
  · change ((s.setSock k { s.sock k with replies := [] }).sock k).requests = []
    rw [setSock_self]
    exact hreq
  · change ((s.setSock k { s.sock k with replies := [] }).sock k).replies = []
    rw [setSock_self]
  · cases heq
    exact ⟨rfl, hin⟩

theorem Inv.closed (h : Inv s) (hphase : (s.sock k).phase = .open ∨ (s.sock k).phase = .closing)
    (hrep : (s.sock k).replies = []) (halone : ∀ c, s.pending = some c → c ∈ (s.sock k).requests) :
    Inv ((s.setSock k { s.sock k with phase := .closed, requests := [] }).onclose k) := by
  have hlt : k < s.made := by
    apply h.lt_made_of_phase
    rcases hphase with hphase | hphase
    · rw [hphase]
      exact Phase.noConfusion
    · rw [hphase]
      exact Phase.noConfusion
  have hself : ((s.setSock k { s.sock k with phase := .closed, requests := [] }).sock k) =
      { s.sock k with phase := .closed, requests := [] } := setSock_self ..
  cases hpending : s.pending with
  | none =>
      have hidle := h.line.idle hpending k
      rw [onclose_of_none (by exact hpending)]
      refine h.keep (changes_setSock hlt rfl rfl rfl rfl rfl Phase.noConfusion) rfl rfl rfl ?_ ?_
        (fun hcon => ?_) fun hne => absurd hpending hne
      · dsimp only
        rw [hself, hidle.1]
      · dsimp only
        rw [hself]
      · rw [hcon] at hphase
        rcases hphase with hphase | hphase
        · cases hphase
        · cases hphase
  | some c =>
      have hin := halone c hpending
      obtain ⟨c', hc', hbusy⟩ := h.busy_of_not_quiet (k := k) fun hquiet => by
        rw [hquiet.1] at hin
        cases hin
      cases hpending.symm.trans hc'
      have hfresh : c ∉ s.answered.map Prod.fst := by
        rcases hbusy.carries.outstanding with ⟨-, -, hnot⟩ | ⟨-, ok, hone, -⟩
        · exact hnot
        · rw [hrep] at hone
          cases hone
      rw [onclose_of_some (by exact hpending)]
      refine h.settled (changes_setSock hlt rfl rfl rfl rfl rfl Phase.noConfusion) hbusy hpending
        rfl rfl rfl ⟨?_, ?_⟩ (fun _ _ heq => Outcome.noConfusion heq) (fun j heq => ?_)
        Outcome.noConfusion
      · dsimp only [State.settle]
        rw [hself]
      · dsimp only [State.settle]
        rw [hself]
        exact hrep
      · cases heq
        exact ⟨hbusy.carries.sent, hfresh⟩

theorem Inv.sockError (h : Inv s) (hphase : (s.sock k).phase = .connecting)
    (hnone : s.pending = none) :
    Inv (((s.setSock k { s.sock k with phase := .closed }).settle (s.sock k).call
      .notConnected).onclose k) := by
  have hlt : k < s.made := h.lt_made_of_phase (by rw [hphase]; exact Phase.noConfusion)
  have hself : ((s.setSock k { s.sock k with phase := .closed }).sock k) =
      { s.sock k with phase := .closed } := setSock_self ..
  rw [onclose_of_none (by exact hnone)]
  refine h.refused (changes_setSock hlt rfl rfl rfl rfl rfl Phase.noConfusion) hphase ?_ hnone rfl
    rfl hnone ?_ ?_
  · change ((s.setSock k { s.sock k with phase := .closed }).sock k).phase = .closed
    rw [hself]
  · change ((s.setSock k { s.sock k with phase := .closed }).sock k).requests = _
    rw [hself]
  · change ((s.setSock k { s.sock k with phase := .closed }).sock k).replies = _
    rw [hself]

theorem Inv.sockOpen (h : Inv s) (hphase : (s.sock k).phase = .connecting)
    (hnone : s.pending = none) :
    Inv ({ s.setSock k { s.sock k with phase := .open } with ws := some k }.send k
      (s.sock k).call) := by
  have hlt : k < s.made := h.lt_made_of_phase (by rw [hphase]; exact Phase.noConfusion)
  have hunsent := h.connections.unsent k hphase
  have hself : (s.setSock k { s.sock k with phase := .open }).sock k =
      { s.sock k with phase := .open } := setSock_self ..
  refine h.sent hnone hlt (Nat.le_refl _) hunsent.lt hunsent.notDone hunsent.notAnswered
    hunsent.notSent ?_ (fun j hj => ?_) rfl rfl rfl rfl (fun j hj hcon heq => ?_)
    fun c hc hne hdone => ?_
  · rw [State.send]
    dsimp only
    rw [setSock_self, hself]
  · rw [State.send]
    dsimp only
    rw [setSock_of_ne hj]
    exact setSock_of_ne hj ..
  · exact hj (h.connections.distinct j k hcon hphase heq)
  · rcases h.unsettled c hc hdone with ⟨j, hcon, hcall⟩ | hpend
    · refine ⟨j, ?_, hcon, hcall⟩
      rintro rfl
      exact hne hcall.symm
    · rw [hnone] at hpend
      cases hpend

/-- A call on an open connection, or one for which a connection is made. -/
theorem Inv.call (h : Inv s) (req : Req) (halone : Alone s (.call req)) : Inv (s.call req) := by
  rw [State.call]
  dsimp only
  split
  · rename_i k hk
    rw [Option.filter_eq_some_iff] at hk
    have hnone : s.pending = none := by
      refine halone ?_
      rw [Option.filter_eq_some_iff.mpr hk]
      exact Option.some_ne_none k
    have hphase : (s.sock k).phase = .open := of_decide_eq_true hk.2
    have hlt : k < s.made := h.lt_made_of_phase (by rw [hphase]; exact Phase.noConfusion)
    have hlength : (s.calls ++ [req]).length = s.calls.length + 1 := by
      rw [List.length_append, List.length_singleton]
    refine h.sent (n := s.calls.length) hnone hlt ?_ ?_ ?_ ?_ (fun j hj => ?_) ?_ (fun j hj => ?_)
      rfl rfl rfl rfl (fun j _ hcon heq => ?_) fun c hc hne hdone => ?_
    · change s.calls.length ≤ (s.calls ++ [req]).length
      omega
    · change s.calls.length < (s.calls ++ [req]).length
      omega
    · exact fun hin => Nat.lt_irrefl _ (h.numbers.doneLt _ hin)
    · exact fun hin => Nat.lt_irrefl _ (h.numbers.answeredLt _ hin)
    · exact Nat.lt_irrefl _ (h.numbers.sentLt j _ hj)
    · rw [State.send]
      dsimp only
      rw [setSock_self, hphase]
    · rw [State.send]
      dsimp only
      rw [setSock_of_ne hj]
    · exact Nat.ne_of_lt (h.connections.unsent j hcon).lt heq
    · change c < (s.calls ++ [req]).length at hc
      rcases h.unsettled c (by omega) hdone with ⟨j, hcon, hcall⟩ | hpend
      · refine ⟨j, ?_, hcon, hcall⟩
        rintro rfl
        rw [hphase] at hcon
        cases hcon
      · rw [hnone] at hpend
        cases hpend
  · refine h.dial req rfl ?_ (fun j hj => ?_) rfl rfl rfl rfl
    · dsimp only
      rw [setSock_self]
    · dsimp only
      rw [setSock_of_ne hj]

theorem Inv.step {e : Event} (h : Inv s) (halone : Alone s e) (hstep : s.step e = some s') :
    Inv s' := by
  cases e with
  | call req =>
      cases hstep
      exact h.call req halone
  | sockOpen k =>
      rw [State.step] at hstep
      split at hstep
      · rename_i hphase
        cases hstep
        exact h.sockOpen hphase halone
      · cases hstep
  | sockError k =>
      rw [State.step] at hstep
      split at hstep
      · rename_i hphase
        cases hstep
        exact h.sockError hphase halone
      · cases hstep
  | answer k ok =>
      rw [State.step] at hstep
      split at hstep
      · cases hstep
      · rename_i n rest hreq
        split at hstep
        · cases hstep
        · cases hstep
          have hlt : k < s.made := h.lt_made fun heq => by
            rw [heq] at hreq
            cases hreq
          have hself : ∀ x, (s.setSock k x).sock k = x := fun x => setSock_self s k x
          refine h.answer (changes_setSock hlt rfl rfl rfl rfl rfl fun hcon => hcon) hreq rfl rfl
            rfl ?_ ?_ ?_
          · dsimp only
            rw [hself]
          · dsimp only
            rw [hself]
          · dsimp only
            rw [hself]
  | helperEnds k =>
      rw [State.step] at hstep
      split at hstep
      · cases hstep
      · rename_i hended
        cases hstep
        have hlt : k < s.made := h.lt_made fun heq => hended (by rw [heq]; rfl)
        have hself : ∀ x, (s.setSock k x).sock k = x := fun x => setSock_self s k x
        refine h.keep (changes_setSock hlt rfl rfl rfl rfl rfl fun hcon => hcon) rfl rfl rfl ?_ ?_
          (fun hcon => ?_) fun _ hlive => ?_
        · rw [hself]
        · rw [hself]
        · rw [hself]
          exact hcon
        · rw [hself]
          exact hlive
  | message k =>
      rw [State.step] at hstep
      split at hstep
      · cases hstep
      · rename_i n ok rest hrep
        split at hstep
        · rename_i hphase
          cases hstep
          exact h.message hrep hphase
        · cases hstep
  | closing k =>
      rw [State.step] at hstep
      split at hstep
      · rename_i hopen
        cases hstep
        have hlt : k < s.made :=
          h.lt_made_of_phase (by rw [hopen.1]; exact Phase.noConfusion)
        have hself : ∀ x, (s.setSock k x).sock k = x := fun x => setSock_self s k x
        refine h.keep (changes_setSock hlt rfl rfl rfl rfl rfl Phase.noConfusion) rfl rfl rfl ?_ ?_
          (fun hcon => ?_) fun _ _ => ?_
        · rw [hself]
        · rw [hself]
        · rw [hopen.1] at hcon
          cases hcon
        · rw [hself]
          exact Or.inr rfl
      · cases hstep
  | closed k =>
      rw [State.step] at hstep
      split at hstep
      · rename_i hclosed
        cases hstep
        exact h.closed hclosed.1 hclosed.2.2 halone
      · cases hstep

/-! ## When calls are mixed up -/

/-- The pending call of the state before is forgotten, if another one takes its place. -/
theorem not_good_of_send (hgood : Good s') (hconnections : Connections s) (hbusy : Busy s k c)
    (hpending : s.pending = some c) (hlength : s.calls.length ≤ s'.calls.length)
    (hsettled : s'.settled = s.settled) (hne : s'.pending ≠ some c)
    (hcon : ∀ j, (s'.sock j).phase = .connecting → (s'.sock j) = s.sock j) : False := by
  have hnot : c ∉ s'.done := by
    rw [done_eq hsettled]
    exact hbusy.notDone
  rcases hgood.waiting c (Nat.lt_of_lt_of_le hbusy.lt hlength) hnot with ⟨j, hj, hcall⟩ | hout
  · have hsame := hcon j hj
    rw [hsame] at hj hcall
    exact (hconnections.unsent j hj).notPending (hcall ▸ hpending)
  · exact hne hout.1

/-- The pending call is rejected, when a socket ends that its request is not on. -/
theorem Inv.not_good_of_closed (h : Inv s) (hpending : s.pending = some c)
    (hin : (c, Outcome.closed k) ∈ s'.settled) (hsent : (s'.sock k).sent = (s.sock k).sent)
    (hreq : c ∉ (s.sock k).requests) (hrep : (s.sock k).replies = []) : ¬ Good s' := by
  intro hgood
  obtain ⟨hmem, -⟩ := hgood.outcomes.closed c k hin
  rw [hsent] at hmem
  obtain ⟨j, hbusy⟩ := h.line.busy c hpending
  by_cases heq : k = j
  · rw [← heq] at hbusy
    rcases hbusy.carries.outstanding with ⟨hone, -, -⟩ | ⟨-, ok, hone, -⟩
    · exact hreq (by simp [hone])
    · rw [hrep] at hone
      cases hone
  · exact (hbusy.others k heq).2 hmem

/-- A step leads to a state that is as it should be exactly when it keeps the calls apart. -/
theorem Inv.good_iff {e : Event} (h : Inv s) (hstep : s.step e = some s') :
    Good s' ↔ Alone s e := by
  refine ⟨fun hgood => ?_, fun halone => (h.step halone hstep).good⟩
  by_contra hnot
  have hsome : s.pending ≠ none → ∃ c k, s.pending = some c ∧ Busy s k c := by
    intro hne
    obtain ⟨c, hc⟩ := Option.ne_none_iff_exists'.mp hne
    obtain ⟨k, hbusy⟩ := h.line.busy c hc
    exact ⟨c, k, hc, hbusy⟩
  cases e with
  | call req =>
      simp only [Alone, Classical.not_imp] at hnot
      obtain ⟨hws, hne⟩ := hnot
      obtain ⟨c, j, hc, hbusy⟩ := hsome hne
      obtain ⟨k, hk⟩ := Option.ne_none_iff_exists'.mp hws
      rw [Option.filter_eq_some_iff] at hk
      have hphase : (s.sock k).phase = .open := of_decide_eq_true hk.2
      rw [State.step, State.call] at hstep
      dsimp only at hstep
      rw [Option.filter_eq_some_iff.mpr hk] at hstep
      dsimp only at hstep
      cases hstep
      refine not_good_of_send hgood h.connections hbusy hc ?_ rfl (fun heq => ?_) fun i hi => ?_
      · exact (List.sublist_append_left s.calls [req]).length_le
      · exact Nat.ne_of_gt hbusy.lt (Option.some.inj heq)
      · rw [State.send] at hi ⊢
        dsimp only at hi ⊢
        have hik : i ≠ k := by
          rintro rfl
          rw [setSock_self] at hi
          dsimp only at hi
          rw [hphase] at hi
          cases hi
        rw [setSock_of_ne hik]
  | sockOpen k =>
      obtain ⟨c, j, hc, hbusy⟩ := hsome hnot
      rw [State.step] at hstep
      split at hstep
      · rename_i hphase
        cases hstep
        refine not_good_of_send hgood h.connections hbusy hc (Nat.le_refl _) rfl (fun heq => ?_)
          fun i hi => ?_
        · exact (h.connections.unsent k hphase).notPending (hc.trans heq.symm)
        · rw [State.send] at hi ⊢
          dsimp only at hi ⊢
          have hik : i ≠ k := by
            rintro rfl
            rw [setSock_self, setSock_self] at hi
            cases hi
          rw [setSock_of_ne hik]
          exact setSock_of_ne hik ..
      · cases hstep
  | sockError k =>
      obtain ⟨c, j, hc, hbusy⟩ := hsome hnot
      rw [State.step] at hstep
      split at hstep
      · rename_i hphase
        cases hstep
        have hkj : k ≠ j := by
          rintro rfl
          exact hbusy.not_connecting hphase
        have hquiet := (hbusy.others k hkj).1
        refine h.not_good_of_closed hc ?_ ?_ ?_ hquiet.2 hgood
        · rw [onclose_of_some (by exact hc)]
          exact List.mem_append_right _ List.mem_cons_self
        · rw [onclose_of_some (by exact hc)]
          change ((s.setSock k { s.sock k with phase := .closed }).sock k).sent = _
          rw [setSock_self]
        · rw [hquiet.1]
          exact List.not_mem_nil
      · cases hstep
  | answer k ok => exact hnot trivial
  | helperEnds k => exact hnot trivial
  | message k => exact hnot trivial
  | closing k => exact hnot trivial
  | closed k =>
      simp only [Alone, not_forall] at hnot
      obtain ⟨c, hc, hreq⟩ := hnot
      rw [State.step] at hstep
      split at hstep
      · rename_i hclosed
        cases hstep
        refine h.not_good_of_closed hc ?_ ?_ hreq hclosed.2.2 hgood
        · rw [onclose_of_some (by exact hc)]
          exact List.mem_append_right _ List.mem_cons_self
        · rw [onclose_of_some (by exact hc)]
          change ((s.setSock k { s.sock k with phase := .closed, requests := [] }).sock k).sent = _
          rw [setSock_self]
      · cases hstep

/-! ## Whole runs -/

/-- As long as the steps keep the calls apart, every promise is settled as it should be or will
be, and a port that the helper has opened is reported as opened. The first step that does not
is the first after which this fails. -/
theorem good_of_alone {events : List Event}
    (halone : Transition.Meets State.step Alone .create events)
    (hrun : Transition.exec State.step .create events = some s) :
    Good s ∧
      (∀ c ok o, (c, ok) ∈ s.answered → (c, o) ∈ s.settled → o = .reply c ok) ∧
      ∀ e s', s.step e = some s' → (Good s' ↔ Alone s e) := by
  have h : Inv s := Transition.exec_invariant_of_meets
    (fun _ _ _ h halone hstep => h.step halone hstep) inv_create halone hrun
  exact ⟨h.good, fun c ok o hanswered hsettled => h.opened hanswered hsettled,
    fun e s' hstep => h.good_iff hstep⟩

instance (s : State) : DecidablePred (Alone s)
  | .call _ => inferInstanceAs
      (Decidable ((s.ws.filter fun k => (s.sock k).phase = .open) ≠ none → s.pending = none))
  | .sockOpen _ => inferInstanceAs (Decidable (s.pending = none))
  | .sockError _ => inferInstanceAs (Decidable (s.pending = none))
  | .closed k => inferInstanceAs (Decidable (∀ c ∈ s.pending, c ∈ (s.sock k).requests))
  | .answer _ _ | .helperEnds _ | .message _ | .closing _ => isTrue trivial

/-- The ports are listed and then a port is opened; the connection ends before the next list. -/
def oneByOne : List Event :=
  [.call .list, .sockOpen 0, .answer 0 true, .message 0, .call (.openPort (ascii "COM3")),
    .answer 0 true, .message 0, .call .list, .helperEnds 0, .closed 0]

theorem good_of_alone_oneByOne :
    ∃ s, Transition.exec State.step .create oneByOne = some s ∧
      s.settled = [(0, .reply 0 true), (1, .reply 1 true), (2, .closed 0)] ∧ Good s := by
  have hview : (Transition.exec State.step .create oneByOne).map State.settled =
      some [(0, .reply 0 true), (1, .reply 1 true), (2, .closed 0)] := by decide +kernel
  obtain ⟨s, hs, hsettled⟩ := Option.map_eq_some_iff.mp hview
  have halone : Transition.Meets State.step Alone .create oneByOne := by decide +kernel
  exact ⟨s, hs, hsettled, (good_of_alone halone hs).1⟩

/-- A port is opened before the list has arrived, and the ports cannot be listed. -/
def overlapping : List Event :=
  [.call .list, .sockOpen 0, .call (.openPort (ascii "COM3")), .answer 0 false, .answer 0 true,
    .message 0]

theorem not_good :
    ¬ ∀ events s, Transition.exec State.step .create events = some s → Good s := by
  intro h
  have hview : (Transition.exec State.step .create overlapping).map State.settled =
      some [(1, .reply 0 false)] := by decide +kernel
  obtain ⟨s, hs, hsettled⟩ := Option.map_eq_some_iff.mp hview
  have hgood := h overlapping s hs
  have hmem : (1, Outcome.reply 0 false) ∈ s.settled := by
    rw [hsettled]
    exact List.mem_cons_self
  exact absurd (hgood.outcomes.reply 1 0 false hmem).1 (by decide)

end HelperTransport

end Web

end Voyager
