import Voyager.Library.EvictingMap
import Voyager.Basic

/-!
# The page's record of transmissions

`createTxTracker` of `lib.js`. A callback is known by a value of `κ`, so what the tracker
does is a list of calls of callbacks. The key of an id is its decimal text, which tells
the ids apart just as the ids themselves do.
-/

namespace Voyager

namespace Web

/-- A TX id; `0` is reserved for what the device sends on its own. -/
abbrev TxId := UInt32

abbrev TX_RESULT_TIMEOUT_MS : ℕ := 30000
abbrev TX_QUEUE_TIMEOUT_MS : ℕ := 600000
abbrev TX_START_SLACK_MS : ℕ := 5000
abbrev EARLY_MAX : ℕ := 50

/-- `tx_started`. A number that is missing, not a number or out of its range is `none`. -/
structure TxStarted where
  id : TxId
  expectedMs : Option ℕ
  attempts : Option ℕ
  deriving DecidableEq, Repr

structure TxResult where
  id : TxId
  akn : ℕ
  username : String
  deriving DecidableEq, Repr

inductive Phase where
  | queued | sending
  deriving DecidableEq, Repr

/-- What `cb` is called with; a `phase` is there only after a timeout. -/
structure Outcome where
  id : TxId
  akn : ℕ
  username : String
  timeout : Bool
  phase : Option Phase
  deriving DecidableEq, Repr

/-- A call of a callback. -/
inductive Callback (κ : Type) where
  | cb (k : κ) (r : Outcome)
  | onState (k : κ) (phase : Phase) (expectedMs attempts : Option ℕ)
  deriving DecidableEq

/-- An entry of `pending`; `timer` is the length of the timer that is armed. -/
structure Pending (κ : Type) where
  id : TxId
  cb : κ
  state : Phase
  timer : Option ℕ

structure TxTracker (κ : Type) where
  pending : TxId → Option (Pending κ)
  earlyResult : EvictingMap TxId TxResult EARLY_MAX
  earlyStarted : EvictingMap TxId TxStarted EARLY_MAX

def normalizeTxResult (msg : TxResult) : Outcome where
  id := msg.id
  akn := if msg.akn = 1 then 1 else 0
  username := msg.username
  timeout := false
  phase := none

def txSendingWindowMs (expectedMs : Option ℕ) (slackMs : ℕ) : ℕ :=
  min (expectedMs.getD TX_RESULT_TIMEOUT_MS) TX_QUEUE_TIMEOUT_MS + slackMs

namespace Pending

variable {κ : Type}

def arm (p : Pending κ) (ms : ℕ) : Pending κ := { p with timer := some ms }

/-- `expected_ms` of `0` is an unknown time: the timer that runs is kept. -/
def markStarted (p : Pending κ) (msg : TxStarted) : Pending κ × List (Callback κ) :=
  let sending : Pending κ := { p with state := .sending }
  (if msg.expectedMs = some 0 then
      if p.timer = none then sending.arm TX_QUEUE_TIMEOUT_MS else sending
    else sending.arm (txSendingWindowMs msg.expectedMs TX_START_SLACK_MS),
    [.onState p.cb .sending msg.expectedMs msg.attempts])

@[simp] theorem markStarted_cb (p : Pending κ) (msg : TxStarted) :
    (p.markStarted msg).1.cb = p.cb := by
  unfold markStarted
  dsimp only
  split
  · split <;> rfl
  · rfl

end Pending

namespace TxTracker

variable {κ : Type}

/-- `createTxTracker`. -/
def create : TxTracker κ where
  pending := fun _ => none
  earlyResult := .empty
  earlyStarted := .empty

def setPending (t : TxTracker κ) (key : TxId) (p : Option (Pending κ)) : TxTracker κ :=
  { t with pending := Function.update t.pending key p }

/-- A result that came early is reported at once, with the callback. -/
def register (t : TxTracker κ) (id : TxId) (cb : κ) : TxTracker κ × List (Callback κ) :=
  match t.earlyResult.take id with
  | (some r, earlyResult) =>
      ({ t with earlyResult, earlyStarted := (t.earlyStarted.take id).2 },
        [.cb cb (normalizeTxResult r)])
  | (none, _) =>
      let p : Pending κ := { id, cb, state := .queued, timer := none }
      match t.earlyStarted.take id with
      | (some s, earlyStarted) =>
          let r := p.markStarted s
          ({ t with earlyStarted }.setPending id (some r.1), .onState cb .queued none none :: r.2)
      | (none, _) =>
          (t.setPending id (some (p.arm TX_QUEUE_TIMEOUT_MS)), [.onState cb .queued none none])

def started (t : TxTracker κ) (msg : TxStarted) : TxTracker κ × List (Callback κ) :=
  match t.pending msg.id with
  | none => ({ t with earlyStarted := t.earlyStarted.put msg.id msg }, [])
  | some p =>
      let r := p.markStarted msg
      (t.setPending msg.id (some r.1), r.2)

def resolve (t : TxTracker κ) (msg : TxResult) : TxTracker κ × List (Callback κ) :=
  match t.pending msg.id with
  | none => ({ t with earlyResult := t.earlyResult.put msg.id msg }, [])
  | some p => (t.setPending msg.id none, [.cb p.cb (normalizeTxResult msg)])

/-- The timer of the entry under `key` fires. The timer of an entry that `register` has
replaced finds another entry there and does nothing. -/
def timerFired (t : TxTracker κ) (key : TxId) : TxTracker κ × List (Callback κ) :=
  match t.pending key with
  | none => (t, [])
  | some p =>
      if p.timer = none then (t, [])
      else
        (t.setPending key none,
          [.cb p.cb { id := p.id, akn := 0, username := "", timeout := true, phase := p.state }])

/-! ### What each operation does -/

@[simp] theorem setPending_earlyResult (t : TxTracker κ) (key : TxId) (p : Option (Pending κ)) :
    (t.setPending key p).earlyResult = t.earlyResult := rfl

theorem setPending_setPending (t : TxTracker κ) (key : TxId) (p q : Option (Pending κ)) :
    (t.setPending key p).setPending key q = t.setPending key q := by
  rw [setPending, setPending, setPending, Function.update_idem]

theorem setPending_eq_some {t : TxTracker κ} {key k : TxId} {p : Option (Pending κ)}
    {q : Pending κ} (h : (t.setPending key p).pending k = some q) :
    (k = key ∧ p = some q) ∨ t.pending k = some q := by
  have hupdate : Function.update t.pending key p k = some q := h
  by_cases hk : k = key
  · subst hk
    rw [Function.update_self] at hupdate
    exact .inl ⟨rfl, hupdate⟩
  · rw [Function.update_of_ne hk] at hupdate
    exact .inr hupdate

theorem normalizeTxResult_akn {msg : TxResult} (h : (normalizeTxResult msg).akn = 1) :
    msg.akn = 1 := by
  unfold normalizeTxResult at h
  split at h
  · assumption
  · cases h

/-- `register` waits for the id, or reports the early result that it takes. -/
theorem register_spec (t : TxTracker κ) (id : TxId) (cb : κ) :
    (∀ k p, (t.register id cb).1.pending k = some p →
      (k = id ∧ p.cb = cb) ∨ t.pending k = some p) ∧
    (∀ k msg, (t.register id cb).1.earlyResult.get k = some msg →
      t.earlyResult.get k = some msg) ∧
    ∀ k r, .cb k r ∈ (t.register id cb).2 →
      k = cb ∧ ∃ msg, t.earlyResult.get id = some msg ∧ r = normalizeTxResult msg := by
  unfold register
  split
  · rename_i r earlyResult htake
    obtain ⟨hget, rfl⟩ := Prod.mk.inj htake
    refine ⟨fun k p hp => .inr hp, fun k msg hmsg => ?_, fun k r' hr => ?_⟩
    · exact (EvictingMap.get_take_iff.mp hmsg).2
    · cases List.mem_singleton.mp hr
      exact ⟨rfl, r, hget, rfl⟩
  · split
    · refine ⟨fun k p hp => ?_, fun k msg hmsg => hmsg, fun k r hr => ?_⟩
      · rcases setPending_eq_some hp with ⟨rfl, heq⟩ | hp
        · cases Option.some.inj heq
          exact .inl ⟨rfl, Pending.markStarted_cb _ _⟩
        · exact .inr hp
      · simp [Pending.markStarted] at hr
    · refine ⟨fun k p hp => ?_, fun k msg hmsg => hmsg, fun k r hr => ?_⟩
      · rcases setPending_eq_some hp with ⟨rfl, heq⟩ | hp
        · cases Option.some.inj heq
          exact .inl ⟨rfl, rfl⟩
        · exact .inr hp
      · simp at hr

/-- `started` reports nothing and waits for what was waited for. -/
theorem started_spec (t : TxTracker κ) (msg : TxStarted) :
    (∀ k p, (t.started msg).1.pending k = some p → ∃ q, t.pending k = some q ∧ q.cb = p.cb) ∧
    (t.started msg).1.earlyResult = t.earlyResult ∧ ∀ k r, .cb k r ∉ (t.started msg).2 := by
  unfold started
  split
  · exact ⟨fun k p hp => ⟨p, hp, rfl⟩, rfl, fun k r => List.not_mem_nil⟩
  · rename_i q hq
    dsimp only
    refine ⟨fun k p hp => ?_, rfl, fun k r hr => ?_⟩
    · rcases setPending_eq_some hp with ⟨rfl, heq⟩ | hp
      · cases Option.some.inj heq
        exact ⟨q, hq, (Pending.markStarted_cb _ _).symm⟩
      · exact ⟨p, hp, rfl⟩
    · simp [Pending.markStarted] at hr

/-- `resolve` reports to whoever waits for the id, or keeps the result. -/
theorem resolve_spec (t : TxTracker κ) (msg : TxResult) :
    (∀ k p, (t.resolve msg).1.pending k = some p → t.pending k = some p) ∧
    (∀ k m, (t.resolve msg).1.earlyResult.get k = some m →
      (k = msg.id ∧ m = msg) ∨ t.earlyResult.get k = some m) ∧
    ∀ k r, .cb k r ∈ (t.resolve msg).2 →
      r = normalizeTxResult msg ∧ ∃ p, t.pending msg.id = some p ∧ p.cb = k := by
  unfold resolve
  split
  · exact ⟨fun k p hp => hp, fun k m hm => EvictingMap.get_put hm, fun k r hr => nomatch hr⟩
  · rename_i p hp
    refine ⟨fun k q hq => ?_, fun k m hm => .inr hm, fun k r hr => ?_⟩
    · rcases setPending_eq_some hq with ⟨-, hq⟩ | hq
      · cases hq
      · exact hq
    · cases List.mem_singleton.mp hr
      exact ⟨rfl, p, hp, rfl⟩

/-- A timeout is reported to whoever waits, and as no acknowledgement. -/
theorem timerFired_spec (t : TxTracker κ) (key : TxId) :
    (∀ k p, (t.timerFired key).1.pending k = some p → t.pending k = some p) ∧
    (t.timerFired key).1.earlyResult = t.earlyResult ∧
    ∀ k r, .cb k r ∈ (t.timerFired key).2 →
      r.akn = 0 ∧ ∃ p, t.pending key = some p ∧ p.cb = k := by
  unfold timerFired
  split
  · exact ⟨fun k p hp => hp, rfl, fun k r hr => nomatch hr⟩
  · rename_i p hp
    split
    · exact ⟨fun k p hp => hp, rfl, fun k r hr => nomatch hr⟩
    · refine ⟨fun k q hq => ?_, rfl, fun k r hr => ?_⟩
      · rcases setPending_eq_some hq with ⟨-, hq⟩ | hq
        · cases hq
        · exact hq
      · cases List.mem_singleton.mp hr
        exact ⟨rfl, p, hp, rfl⟩

end TxTracker

end Web

end Voyager
