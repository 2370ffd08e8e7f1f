import Voyager.Library.EvictingMap
import Voyager.Library.Transition
import Voyager.Web.TxTracker

/-!
# One report for each transmission

`createTxTracker` again, with the timers it arms and clears, for ids that are numbers of
any kind: the text of a number tells it from every other. A run is any order of calls and
of timers firing. The object that `register` makes is known by `ref`, a timer by its
handle; `calls` and `fired` are the history of the callbacks called and of the ids whose
timer has fired.
-/

namespace Voyager

namespace Web

namespace TxTimers

structure StartedMsg (ι : Type) where
  id : ι
  expectedMs : Option ℕ
  attempts : Option ℕ

structure ResultMsg (ι : Type) where
  id : ι
  akn : ℕ
  username : String

/-- What `cb` is called with. -/
structure Report (ι : Type) where
  id : ι
  akn : ℕ
  username : String
  timeout : Bool
  phase : Option Phase

inductive Call (ι κ : Type) where
  | cb (k : κ) (r : Report ι)
  | onState (k : κ) (phase : Phase) (expectedMs attempts : Option ℕ)

/-- The object that stands in `pending`. -/
structure Item (ι κ : Type) where
  ref : ℕ
  id : ι
  cb : κ
  onState : Option κ
  state : Phase
  timer : Option ℕ

/-- What the function given to `setTimeout` refers to. -/
structure Timer (ι : Type) where
  key : ι
  ref : ℕ
  ms : ℕ

structure Tracker (ι κ : Type) where
  queuedMs : ℕ
  slackMs : ℕ
  pending : ι → Option (Item ι κ)
  earlyResult : EvictingMap ι (ResultMsg ι) EARLY_MAX
  earlyStarted : EvictingMap ι (StartedMsg ι) EARLY_MAX
  armed : ℕ → Option (Timer ι)
  nextHandle : ℕ
  nextRef : ℕ
  calls : List (Call ι κ)
  fired : List ι

inductive Event (ι κ : Type) where
  | register (id : ι) (cb : κ) (onState : Option κ)
  | started (msg : StartedMsg ι)
  | result (msg : ResultMsg ι)
  | fire (handle : ℕ)

variable {ι κ : Type}

def normalizeTxResult (msg : ResultMsg ι) : Report ι where
  id := msg.id
  akn := if msg.akn = 1 then 1 else 0
  username := msg.username
  timeout := false
  phase := none

/-- The id of a `tx_started` or a `tx_result`. -/
def Event.about : Event ι κ → Option ι
  | .started msg => some msg.id
  | .result msg => some msg.id
  | _ => none

def Event.registered : Event ι κ → Option ι
  | .register id _ _ => some id
  | _ => none

def Event.resulted : Event ι κ → Option ι
  | .result msg => some msg.id
  | _ => none

def Call.report : Call ι κ → Option (κ × Report ι)
  | .cb k r => some (k, r)
  | .onState _ _ _ _ => none

namespace Tracker

/-- `createTxTracker`; an option that is missing, or a `timeoutMs` of `0`, has its default. -/
def create (timeoutMs slackMs : Option ℕ) : Tracker ι κ where
  queuedMs := if timeoutMs.getD 0 = 0 then TX_QUEUE_TIMEOUT_MS else timeoutMs.getD 0
  slackMs := slackMs.getD TX_START_SLACK_MS
  pending := fun _ => none
  earlyResult := .empty
  earlyStarted := .empty
  armed := fun _ => none
  nextHandle := 0
  nextRef := 0
  calls := []
  fired := []

/-- The reports made so far, each with the callback it was made to. -/
def reports (t : Tracker ι κ) : List (κ × Report ι) := t.calls.filterMap Call.report

section Operations

variable [DecidableEq ι] (t : Tracker ι κ)

def call (c : Call ι κ) : Tracker ι κ := { t with calls := t.calls ++ [c] }

def setPending (key : ι) (p : Option (Item ι κ)) : Tracker ι κ :=
  { t with pending := Function.update t.pending key p }

/-- `clearT`, of a timer that may be `null`. -/
def clearT (timer : Option ℕ) : Tracker ι κ :=
  match timer with
  | none => t
  | some h => { t with armed := Function.update t.armed h none }

/-- `setT`; the handle is `t.nextHandle`. -/
def setT (timer : Timer ι) : Tracker ι κ :=
  { t with armed := Function.update t.armed t.nextHandle (some timer), nextHandle := t.nextHandle + 1 }

/-- `arm`, after which the object has the new timer. -/
def arm (key : ι) (p : Item ι κ) (ms : ℕ) : Tracker ι κ × Item ι κ :=
  ((t.clearT p.timer).setT { key, ref := p.ref, ms }, { p with timer := some t.nextHandle })

def notify (p : Item ι κ) (phase : Phase) (expectedMs attempts : Option ℕ) : Tracker ι κ :=
  match p.onState with
  | none => t
  | some k => t.call (.onState k phase expectedMs attempts)

/-- `expected_ms` of `0` is an unknown time: the timer that runs is kept. -/
def markStarted (key : ι) (p : Item ι κ) (msg : StartedMsg ι) : Tracker ι κ :=
  let p := { p with state := .sending }
  let r :=
    if msg.expectedMs = some 0 then
      if p.timer = none then t.arm key p t.queuedMs else (t, p)
    else t.arm key p (txSendingWindowMs msg.expectedMs t.slackMs)
  (r.1.setPending key (some r.2)).notify p .sending msg.expectedMs msg.attempts

def register (id : ι) (cb : κ) (onState : Option κ) : Tracker ι κ :=
  match t.earlyResult.take id with
  | (some r, earlyResult) =>
      { t with earlyResult, earlyStarted := (t.earlyStarted.take id).2 }.call
        (.cb cb (normalizeTxResult r))
  | (none, _) =>
      let p : Item ι κ := { ref := t.nextRef, id, cb, onState, state := .queued, timer := none }
      let t := ({ t with nextRef := t.nextRef + 1 }.setPending id (some p)).notify p .queued none none
      match t.earlyStarted.take id with
      | (some s, earlyStarted) => { t with earlyStarted }.markStarted id p s
      | (none, _) =>
          let r := t.arm id p t.queuedMs
          r.1.setPending id (some r.2)

def started (msg : StartedMsg ι) : Tracker ι κ :=
  match t.pending msg.id with
  | none => { t with earlyStarted := t.earlyStarted.put msg.id msg }
  | some p => t.markStarted msg.id p msg

def resolve (msg : ResultMsg ι) : Tracker ι κ :=
  match t.pending msg.id with
  | none => { t with earlyResult := t.earlyResult.put msg.id msg }
  | some p => ((t.clearT p.timer).setPending msg.id none).call (.cb p.cb (normalizeTxResult msg))

/-- The timer with the handle fires: it is armed no more, and its function runs. -/
def fire (handle : ℕ) : Option (Tracker ι κ) :=
  (t.armed handle).map fun timer =>
    let t := { t.clearT (some handle) with fired := t.fired ++ [timer.key] }
    match t.pending timer.key with
    | none => t
    | some p =>
        if p.ref = timer.ref then
          (t.setPending timer.key none).call
            (.cb p.cb { id := p.id, akn := 0, username := "", timeout := true, phase := some p.state })
        else t

def step (t : Tracker ι κ) : Event ι κ → Option (Tracker ι κ)
  | .register id cb onState => some (t.register id cb onState)
  | .started msg => some (t.started msg)
  | .result msg => some (t.resolve msg)
  | .fire handle => t.fire handle

end Operations

/-! ## Timers -/

/-- The armed timers are the ones that the pending objects have, one each. -/
structure Linked (t : Tracker ι κ) : Prop where
  armed_iff : ∀ h k, (∃ timer, t.armed h = some timer ∧ timer.key = k) ↔
    ∃ p, t.pending k = some p ∧ p.timer = some h
  ref_eq : ∀ h timer p, t.armed h = some timer → t.pending timer.key = some p → p.ref = timer.ref
  unused : ∀ h, t.nextHandle ≤ h → t.armed h = none

variable {t : Tracker ι κ} {key : ι} {p q : Item ι κ} {h : ℕ}

theorem linked_create (timeoutMs slackMs : Option ℕ) :
    (create timeoutMs slackMs : Tracker ι κ).Linked where
  armed_iff h k := by simp [create]
  ref_eq h timer p harmed := by simp [create] at harmed
  unused h _ := rfl

/-- A timer belongs to one pending object. -/
theorem Linked.key_eq (hl : t.Linked) {k : ι} (hp : t.pending key = some p)
    (hq : t.pending k = some q) (hptimer : p.timer = some h) (hqtimer : q.timer = some h) :
    k = key := by
  obtain ⟨timer, harmed, hkey⟩ := (hl.armed_iff h key).mpr ⟨p, hp, hptimer⟩
  obtain ⟨timer', harmed', hkey'⟩ := (hl.armed_iff h k).mpr ⟨q, hq, hqtimer⟩
  rw [harmed, Option.some.injEq] at harmed'
  rw [← hkey, ← hkey', harmed']

theorem armed_clearT (t : Tracker ι κ) (timer : Option ℕ) (h : ℕ) :
    (t.clearT timer).armed h = if timer = some h then none else t.armed h := by
  cases timer with
  | none => rfl
  | some h' =>
      change Function.update t.armed h' none h = _
      rw [Function.update_apply]
      exact if_congr (by rw [Option.some.injEq, eq_comm]) rfl rfl

@[simp] theorem nextHandle_clearT (t : Tracker ι κ) (timer : Option ℕ) :
    (t.clearT timer).nextHandle = t.nextHandle := by
  cases timer <;> rfl

@[simp] theorem pending_clearT (t : Tracker ι κ) (timer : Option ℕ) :
    (t.clearT timer).pending = t.pending := by
  cases timer <;> rfl

@[simp] theorem earlyResult_clearT (t : Tracker ι κ) (timer : Option ℕ) :
    (t.clearT timer).earlyResult = t.earlyResult := by
  cases timer <;> rfl

@[simp] theorem calls_clearT (t : Tracker ι κ) (timer : Option ℕ) :
    (t.clearT timer).calls = t.calls := by
  cases timer <;> rfl

@[simp] theorem fired_clearT (t : Tracker ι κ) (timer : Option ℕ) :
    (t.clearT timer).fired = t.fired := by
  cases timer <;> rfl

section Notify

variable (t) (p) (phase : Phase) (e a : Option ℕ)

@[simp] theorem pending_notify : (t.notify p phase e a).pending = t.pending := by
  unfold notify
  split <;> rfl

@[simp] theorem armed_notify : (t.notify p phase e a).armed = t.armed := by
  unfold notify
  split <;> rfl

@[simp] theorem nextHandle_notify : (t.notify p phase e a).nextHandle = t.nextHandle := by
  unfold notify
  split <;> rfl

@[simp] theorem earlyResult_notify : (t.notify p phase e a).earlyResult = t.earlyResult := by
  unfold notify
  split <;> rfl

@[simp] theorem fired_notify : (t.notify p phase e a).fired = t.fired := by
  unfold notify
  split <;> rfl

@[simp] theorem earlyStarted_notify : (t.notify p phase e a).earlyStarted = t.earlyStarted := by
  unfold notify
  split <;> rfl

end Notify

theorem calls_arm (t : Tracker ι κ) (key : ι) (p : Item ι κ) (ms : ℕ) :
    (t.arm key p ms).1.calls = t.calls :=
  calls_clearT t p.timer

theorem earlyResult_arm (t : Tracker ι κ) (key : ι) (p : Item ι κ) (ms : ℕ) :
    (t.arm key p ms).1.earlyResult = t.earlyResult :=
  earlyResult_clearT t p.timer

variable [DecidableEq ι]

/-- An object without a timer may be put where there is none. -/
theorem Linked.setPending_new (hl : t.Linked) (hnone : t.pending key = none)
    (htimer : p.timer = none) : (t.setPending key (some p)).Linked where
  armed_iff h k := by
    change _ ↔ ∃ q, Function.update t.pending key (some p) k = some q ∧ _
    by_cases hk : k = key
    · subst hk
      rw [Function.update_self]
      constructor
      · intro harmed
        obtain ⟨q, hq, -⟩ := (hl.armed_iff h k).mp harmed
        rw [hnone] at hq
        cases hq
      · rintro ⟨q, hq, hqtimer⟩
        cases hq
        rw [htimer] at hqtimer
        cases hqtimer
    · rw [Function.update_of_ne hk]
      exact hl.armed_iff h k
  ref_eq h timer q harmed hq := by
    change Function.update t.pending key (some p) timer.key = some q at hq
    by_cases hk : timer.key = key
    · obtain ⟨q', hq', -⟩ := (hl.armed_iff h key).mp ⟨timer, harmed, hk⟩
      rw [hnone] at hq'
      cases hq'
    · rw [Function.update_of_ne hk] at hq
      exact hl.ref_eq h timer q harmed hq
  unused := hl.unused

/-- Arming clears the timer that the object has and gives it a new one. -/
theorem Linked.arm (hl : t.Linked) (hq : t.pending key = some q) (htimer : p.timer = q.timer)
    (ms : ℕ) :
    ((t.arm key p ms).1.setPending key (some (t.arm key p ms).2)).Linked := by
  have harmed : ∀ h, ((t.arm key p ms).1.setPending key (some (t.arm key p ms).2)).armed h =
      if h = t.nextHandle then some { key, ref := p.ref, ms }
      else if p.timer = some h then none else t.armed h := by
    intro h
    change Function.update (t.clearT p.timer).armed (t.clearT p.timer).nextHandle _ h = _
    rw [Function.update_apply, nextHandle_clearT, armed_clearT]
  have hpending : ∀ k, ((t.arm key p ms).1.setPending key (some (t.arm key p ms).2)).pending k =
      if k = key then some { p with timer := some t.nextHandle } else t.pending k := by
    intro k
    change Function.update (t.clearT p.timer).pending key _ k = _
    rw [Function.update_apply, pending_clearT]
    rfl
  -- the object's old timer is the only one for its key
  have hold : ∀ h timer, t.armed h = some timer → timer.key = key → p.timer = some h := by
    intro h timer htimer' hkey
    obtain ⟨q', hq', hq'timer⟩ := (hl.armed_iff h key).mp ⟨timer, htimer', hkey⟩
    rw [hq, Option.some.injEq] at hq'
    rw [htimer, hq', hq'timer]
  constructor
  · intro h k
    rw [harmed]
    simp only [hpending]
    by_cases hh : h = t.nextHandle
    · rw [if_pos hh]
      by_cases hk : k = key
      · simp [hk, hh]
      · simp only [Option.some.injEq, if_neg hk]
        constructor
        · rintro ⟨timer, rfl, hkey⟩
          exact absurd hkey.symm hk
        · intro hpend
          obtain ⟨timer, htimer', -⟩ := (hl.armed_iff h k).mpr hpend
          rw [hl.unused h (Nat.le_of_eq hh.symm)] at htimer'
          cases htimer'
    · rw [if_neg hh]
      by_cases hk : k = key
      · simp only [hk, if_true, Option.some.injEq]
        constructor
        · rintro ⟨timer, htimer', hkey⟩
          split at htimer'
          · cases htimer'
          · rename_i hne
            exact absurd (hold h timer htimer' hkey) hne
        · rintro ⟨p', rfl, hp'⟩
          exact absurd (Option.some.inj hp').symm hh
      · rw [if_neg hk]
        by_cases hcleared : p.timer = some h
        · rw [if_pos hcleared]
          constructor
          · rintro ⟨timer, htimer', -⟩
            cases htimer'
          · rintro ⟨q', hq', hq'timer⟩
            exact absurd (hl.key_eq hq hq' (htimer ▸ hcleared) hq'timer) hk
        · rw [if_neg hcleared]
          exact hl.armed_iff h k
  · intro h timer p' htimer' hp'
    rw [harmed] at htimer'
    rw [hpending] at hp'
    split at htimer'
    · cases htimer'
      rw [if_pos rfl] at hp'
      cases hp'
      rfl
    · split at htimer'
      · cases htimer'
      · rename_i hne
        rw [if_neg fun hkey => hne (hold h timer htimer' hkey)] at hp'
        exact hl.ref_eq h timer p' htimer' hp'
  · intro h hle
    change (t.clearT p.timer).nextHandle + 1 ≤ h at hle
    rw [nextHandle_clearT] at hle
    rw [harmed, if_neg (Nat.ne_of_gt hle)]
    split
    · rfl
    · exact hl.unused h (Nat.le_of_succ_le hle)

/-- An object is taken out together with its timer. -/
theorem Linked.finish (hl : t.Linked) (hp : t.pending key = some p) :
    ((t.clearT p.timer).setPending key none).Linked := by
  have hpending : ∀ k, ((t.clearT p.timer).setPending key none).pending k =
      if k = key then none else t.pending k := by
    intro k
    change Function.update (t.clearT p.timer).pending key none k = _
    rw [Function.update_apply, pending_clearT]
  have harmed : ∀ h, ((t.clearT p.timer).setPending key none).armed h =
      if p.timer = some h then none else t.armed h := armed_clearT t p.timer
  constructor
  · intro h k
    simp only [harmed, hpending]
    by_cases hcleared : p.timer = some h
    · rw [if_pos hcleared]
      constructor
      · rintro ⟨timer, htimer, -⟩
        cases htimer
      · rintro ⟨q, hq, hqtimer⟩
        split at hq
        · cases hq
        · rename_i hk
          exact absurd (hl.key_eq hp hq hcleared hqtimer) hk
    · rw [if_neg hcleared]
      by_cases hk : k = key
      · rw [if_pos hk, hk, hl.armed_iff h key]
        constructor
        · rintro ⟨q, hq, hqtimer⟩
          rw [hp, Option.some.injEq] at hq
          exact absurd (hq ▸ hqtimer) hcleared
        · rintro ⟨q, hq, -⟩
          cases hq
      · rw [if_neg hk]
        exact hl.armed_iff h k
  · intro h timer q htimer hq
    rw [harmed] at htimer
    rw [hpending] at hq
    split at htimer
    · cases htimer
    · split at hq
      · cases hq
      · exact hl.ref_eq h timer q htimer hq
  · intro h hle
    change (t.clearT p.timer).nextHandle ≤ h at hle
    rw [nextHandle_clearT] at hle
    rw [harmed]
    split
    · rfl
    · exact hl.unused h hle

end Tracker

end TxTimers

end Web

end Voyager
