import Voyager.Library.Mealy
import Voyager.Web.TxTimers

/-!
# What the timers are for

The record of `TxTracker` knows a timer by its length and has no handles. The tracker with
handles does in every run what that record does: the timer that fires is the one of the
object that waits, or nothing happens.
-/

namespace Voyager

namespace Web

namespace TxTimers

variable {κ : Type}

def StartedMsg.plain (msg : StartedMsg TxId) : TxStarted where
  id := msg.id
  expectedMs := msg.expectedMs
  attempts := msg.attempts

def ResultMsg.plain (msg : ResultMsg TxId) : TxResult where
  id := msg.id
  akn := msg.akn
  username := msg.username

def Report.ofOutcome (r : Outcome) : Report TxId where
  id := r.id
  akn := r.akn
  username := r.username
  timeout := r.timeout
  phase := r.phase

/-- The two callbacks of `register` are one value of the record; the second may be missing. -/
def shown : Callback (κ × Option κ) → Option (Call TxId κ)
  | .cb k r => some (.cb k.1 (.ofOutcome r))
  | .onState k phase expectedMs attempts => k.2.map fun o => .onState o phase expectedMs attempts

/-- The object without its handle; `timer` is the length of the timer that is armed. -/
def Item.plain (armed : ℕ → Option (Timer TxId)) (p : Item TxId κ) : Pending (κ × Option κ) where
  id := p.id
  cb := (p.cb, p.onState)
  state := p.state
  timer := p.timer.bind fun h => (armed h).map Timer.ms

/-- What can be done to a record. -/
inductive Operation (κ : Type) where
  | register (id : TxId) (cb : κ)
  | started (msg : TxStarted)
  | result (msg : TxResult)
  | timerFired (key : TxId)

def Operation.apply (t : TxTracker κ) : Operation κ → TxTracker κ × List (Callback κ)
  | .register id cb => t.register id cb
  | .started msg => t.started msg
  | .result msg => t.resolve msg
  | .timerFired key => t.timerFired key

namespace Tracker

/-- The tracker without its handles. -/
def plain (t : Tracker TxId κ) : TxTracker (κ × Option κ) where
  pending := fun key => (t.pending key).map (Item.plain t.armed)
  earlyResult := t.earlyResult.map ResultMsg.plain
  earlyStarted := t.earlyStarted.map StartedMsg.plain

/-- A pending object's timer is armed, and no other timer is for that object. A timer whose
object `register` has replaced may still be armed. -/
structure Owned (t : Tracker TxId κ) : Prop where
  queuedMs_eq : t.queuedMs = TX_QUEUE_TIMEOUT_MS
  slackMs_eq : t.slackMs = TX_START_SLACK_MS
  armed_of : ∀ key p h, t.pending key = some p → p.timer = some h →
    ∃ timer, t.armed h = some timer ∧ timer.key = key ∧ timer.ref = p.ref
  timer_of : ∀ h timer p, t.armed h = some timer → t.pending timer.key = some p →
    p.ref = timer.ref → p.timer = some h
  handle_lt : ∀ h timer, t.armed h = some timer → h < t.nextHandle
  armed_ref_lt : ∀ h timer, t.armed h = some timer → timer.ref < t.nextRef
  pending_ref_lt : ∀ key p, t.pending key = some p → p.ref < t.nextRef

/-- `s` is `t` after a step whose record and calls are `r`. -/
structure Follows (t s : Tracker TxId κ)
    (r : TxTracker (κ × Option κ) × List (Callback (κ × Option κ))) : Prop where
  owned : s.Owned
  plain_eq : s.plain = r.1
  calls_eq : s.calls = t.calls ++ r.2.filterMap shown

theorem owned_create : (create none none : Tracker TxId κ).Owned where
  queuedMs_eq := rfl
  slackMs_eq := rfl
  armed_of key p h hp := by cases hp
  timer_of h timer p harmed := by cases harmed
  handle_lt h timer harmed := by cases harmed
  armed_ref_lt h timer harmed := by cases harmed
  pending_ref_lt key p hp := by cases hp

theorem plain_create : (create none none : Tracker TxId κ).plain = .create := rfl

variable {t s : Tracker TxId κ} {key : TxId} {p q : Item TxId κ}

/-! ## Updates -/

theorem clearT_eq (t : Tracker TxId κ) (timer : Option ℕ) :
    t.clearT timer = { t with armed := fun h => if timer = some h then none else t.armed h } := by
  have harmed : (t.clearT timer).armed = fun h => if timer = some h then none else t.armed h :=
    funext (armed_clearT t timer)
  rw [← harmed]
  cases timer <;> rfl

theorem arm_eq (t : Tracker TxId κ) (key : TxId) (p : Item TxId κ) (ms : ℕ) :
    t.arm key p ms =
      ({ t with
          armed := fun h =>
            if h = t.nextHandle then some { key, ref := p.ref, ms }
            else if p.timer = some h then none else t.armed h
          nextHandle := t.nextHandle + 1 },
        { p with timer := some t.nextHandle }) := by
  rw [arm, setT, clearT_eq]
  refine Prod.ext ?_ rfl
  dsimp only
  congr 1
  funext h
  exact Function.update_apply _ _ _ h

/-- An object is seen through its own timer only. -/
theorem map_plain_congr {armed armed' : ℕ → Option (Timer TxId)} {o : Option (Item TxId κ)}
    (h : ∀ p, o = some p → ∀ handle, p.timer = some handle → armed' handle = armed handle) :
    o.map (Item.plain armed') = o.map (Item.plain armed) := by
  cases o with
  | none => rfl
  | some p =>
      have htimer : (p.timer.bind fun h => (armed' h).map Timer.ms) =
          p.timer.bind fun h => (armed h).map Timer.ms := by
        cases hp : p.timer with
        | none => rfl
        | some handle =>
            rw [Option.bind_some, Option.bind_some, h p rfl handle hp]
      rw [Option.map_some, Option.map_some, Item.plain, Item.plain, htimer]

/-- What the record holds after an update of one key. -/
theorem plain_eq_setPending {o : Option (Pending (κ × Option κ))}
    (hkey : (s.pending key).map (Item.plain s.armed) = o)
    (hother : ∀ k, k ≠ key → (s.pending k).map (Item.plain s.armed) =
      (t.pending k).map (Item.plain t.armed))
    (hresult : s.earlyResult = t.earlyResult) (hstarted : s.earlyStarted = t.earlyStarted) :
    s.plain = t.plain.setPending key o := by
  have hpending : (fun k => (s.pending k).map (Item.plain s.armed)) =
      Function.update (fun k => (t.pending k).map (Item.plain t.armed)) key o := by
    funext k
    by_cases hk : k = key
    · subst hk
      rw [Function.update_self, hkey]
    · rw [Function.update_of_ne hk, hother k hk]
  rw [plain, hpending, hresult, hstarted]
  rfl

theorem plain_setPending (t : Tracker TxId κ) (key : TxId) (o : Option (Item TxId κ)) :
    (t.setPending key o).plain = t.plain.setPending key (o.map (Item.plain t.armed)) := by
  refine plain_eq_setPending ?_ (fun k hk => ?_) rfl rfl
  · change (Function.update t.pending key o key).map _ = _
    rw [Function.update_self]
    rfl
  · change (Function.update t.pending key o k).map _ = _
    rw [Function.update_of_ne hk]
    rfl

theorem setPending_eq_some {o : Option (Item TxId κ)} {k : TxId}
    (h : (t.setPending key o).pending k = some q) :
    (k = key ∧ o = some q) ∨ (k ≠ key ∧ t.pending k = some q) := by
  change Function.update t.pending key o k = some q at h
  by_cases hk : k = key
  · rw [hk, Function.update_self] at h
    exact .inl ⟨hk, h⟩
  · rw [Function.update_of_ne hk] at h
    exact .inr ⟨hk, h⟩

/-- The handles say nothing about the early messages and the history. -/
theorem Owned.others (ho : t.Owned) (earlyResult : EvictingMap TxId (ResultMsg TxId) EARLY_MAX)
    (earlyStarted : EvictingMap TxId (StartedMsg TxId) EARLY_MAX) (calls : List (Call TxId κ))
    (fired : List TxId) : Owned { t with earlyResult, earlyStarted, calls, fired } :=
  ⟨ho.queuedMs_eq, ho.slackMs_eq, ho.armed_of, ho.timer_of, ho.handle_lt, ho.armed_ref_lt,
    ho.pending_ref_lt⟩

/-- Timers and objects may go, as long as no object that stays loses its timer. -/
theorem Owned.shrink (ho : t.Owned) {armed : ℕ → Option (Timer TxId)}
    {pending : TxId → Option (Item TxId κ)}
    (harmed : ∀ h timer, armed h = some timer → t.armed h = some timer)
    (hpending : ∀ k p, pending k = some p → t.pending k = some p)
    (hkept : ∀ k p h, pending k = some p → p.timer = some h → armed h = t.armed h) :
    Owned { t with armed, pending } where
  queuedMs_eq := ho.queuedMs_eq
  slackMs_eq := ho.slackMs_eq
  armed_of k p h hp htimer := by
    have hstill := hkept k p h hp htimer
    obtain ⟨timer, harmed', hof⟩ := ho.armed_of k p h (hpending k p hp) htimer
    exact ⟨timer, hstill.trans harmed', hof⟩
  timer_of h timer p harmed' hp := ho.timer_of h timer p (harmed h timer harmed') (hpending _ p hp)
  handle_lt h timer harmed' := ho.handle_lt h timer (harmed h timer harmed')
  armed_ref_lt h timer harmed' := ho.armed_ref_lt h timer (harmed h timer harmed')
  pending_ref_lt k p hp := ho.pending_ref_lt k p (hpending k p hp)

/-- Two pending objects have different timers. -/
theorem Owned.key_eq (ho : t.Owned) {k : TxId} {h : ℕ} (hp : t.pending key = some p)
    (hq : t.pending k = some q) (hptimer : p.timer = some h) (hqtimer : q.timer = some h) :
    k = key := by
  obtain ⟨timer, harmed, hkey, -⟩ := ho.armed_of key p h hp hptimer
  obtain ⟨timer', harmed', hkey', -⟩ := ho.armed_of k q h hq hqtimer
  rw [harmed, Option.some.injEq] at harmed'
  rw [← hkey, ← hkey', harmed']

/-- A timer that no remaining object has is cleared. -/
theorem Owned.drop (ho : t.Owned) (timer : Option ℕ) {pending : TxId → Option (Item TxId κ)}
    (hpending : ∀ k q, pending k = some q → t.pending k = some q)
    (hfree : ∀ k q h, pending k = some q → q.timer = some h → timer ≠ some h) :
    Owned { t.clearT timer with pending } ∧
      plain { t.clearT timer with pending } = plain { t with pending } := by
  have hkept : ∀ k q h, pending k = some q → q.timer = some h →
      (if timer = some h then none else t.armed h) = t.armed h :=
    fun k q h hq hqtimer => if_neg (hfree k q h hq hqtimer)
  rw [clearT_eq]
  refine ⟨ho.shrink (fun h x hx => ?_) hpending hkept, ?_⟩
  · dsimp only at hx
    split at hx
    · cases hx
    · exact hx
  · have hsame := fun k => map_plain_congr fun q hq h hqtimer => hkept k q h hq hqtimer
    rw [plain, plain, ← funext hsame]

/-- An object is taken out together with its timer. -/
theorem Owned.finish (ho : t.Owned) (hp : t.pending key = some p) :
    t.Follows ((t.clearT p.timer).setPending key none) (t.plain.setPending key none, []) := by
  have hsome : ∀ k q, (t.setPending key none).pending k = some q →
      k ≠ key ∧ t.pending k = some q := by
    intro k q hq
    rcases setPending_eq_some hq with ⟨-, heq⟩ | hq
    · cases heq
    · exact hq
  obtain ⟨howned, hplain⟩ := ho.drop p.timer (fun k q hq => (hsome k q hq).2)
    fun k q h hq hqtimer hptimer =>
      (hsome k q hq).1 (ho.key_eq hp (hsome k q hq).2 hptimer hqtimer)
  have hset : (t.clearT p.timer).setPending key none =
      { t.clearT p.timer with pending := (t.setPending key none).pending } := by
    rw [setPending, pending_clearT]
    rfl
  rw [hset]
  exact ⟨howned, hplain.trans (plain_setPending t key none),
    (calls_clearT t p.timer).trans (List.append_nil _).symm⟩

/-- An object takes the place of one with the same timer. -/
theorem Owned.replace (ho : t.Owned) (hp : t.pending key = some p) (href : q.ref = p.ref)
    (htimer : q.timer = p.timer) : (t.setPending key (some q)).Owned := by
  have hof : ∀ k r, (t.setPending key (some q)).pending k = some r →
      ∃ r', t.pending k = some r' ∧ r.ref = r'.ref ∧ r.timer = r'.timer := by
    intro k r hr
    rcases setPending_eq_some hr with ⟨rfl, heq⟩ | ⟨-, hr⟩
    · cases heq
      exact ⟨p, hp, href, htimer⟩
    · exact ⟨r, hr, rfl, rfl⟩
  exact
    { queuedMs_eq := ho.queuedMs_eq
      slackMs_eq := ho.slackMs_eq
      armed_of := by
        intro k r h hr hrtimer
        obtain ⟨r', hr', hrefs, htimers⟩ := hof k r hr
        obtain ⟨timer, harmed, hkey, hrefeq⟩ := ho.armed_of k r' h hr' (htimers ▸ hrtimer)
        exact ⟨timer, harmed, hkey, hrefeq.trans hrefs.symm⟩
      timer_of := by
        intro h timer r harmed hr hrref
        obtain ⟨r', hr', hrefs, htimers⟩ := hof timer.key r hr
        exact htimers.trans (ho.timer_of h timer r' harmed hr' (hrefs.symm.trans hrref))
      handle_lt := ho.handle_lt
      armed_ref_lt := ho.armed_ref_lt
      pending_ref_lt := by
        intro k r hr
        obtain ⟨r', hr', hrefs, -⟩ := hof k r hr
        exact hrefs ▸ ho.pending_ref_lt k r' hr' }

/-- A new object has no timer yet. -/
theorem Owned.create (ho : t.Owned) (href : p.ref = t.nextRef) (htimer : p.timer = none) :
    ({ t with nextRef := t.nextRef + 1 }.setPending key (some p)).Owned where
  queuedMs_eq := ho.queuedMs_eq
  slackMs_eq := ho.slackMs_eq
  armed_of k r h hr hrtimer := by
    rcases setPending_eq_some hr with ⟨rfl, heq⟩ | ⟨-, hr⟩
    · cases heq
      rw [htimer] at hrtimer
      cases hrtimer
    · exact ho.armed_of k r h hr hrtimer
  timer_of h timer r harmed hr hrref := by
    rcases setPending_eq_some hr with ⟨-, heq⟩ | ⟨-, hr⟩
    · cases heq
      exact absurd (hrref.symm.trans href) (Nat.ne_of_lt (ho.armed_ref_lt h timer harmed))
    · exact ho.timer_of h timer r harmed hr hrref
  handle_lt := ho.handle_lt
  armed_ref_lt h timer harmed := Nat.lt_succ_of_lt (ho.armed_ref_lt h timer harmed)
  pending_ref_lt k r hr := by
    rcases setPending_eq_some hr with ⟨-, heq⟩ | ⟨-, hr⟩
    · cases heq
      exact Nat.lt_succ_of_le (Nat.le_of_eq href)
    · exact Nat.lt_succ_of_lt (ho.pending_ref_lt k r hr)

/-- What is armed after `arm`: the new timer, and the old ones but the object's own. -/
theorem armed_arm_eq_some {ms h : ℕ} {timer : Timer TxId}
    (harmed : (t.arm key q ms).1.armed h = some timer) :
    (h = t.nextHandle ∧ timer = { key, ref := q.ref, ms }) ∨
      (q.timer ≠ some h ∧ t.armed h = some timer) := by
  rw [arm_eq] at harmed
  dsimp only at harmed
  split at harmed
  · rename_i hh
    exact .inl ⟨hh, (Option.some.inj harmed).symm⟩
  · split at harmed
    · cases harmed
    · rename_i hq
      exact .inr ⟨hq, harmed⟩

theorem armed_arm_nextHandle (t : Tracker TxId κ) (key : TxId) (q : Item TxId κ) (ms : ℕ) :
    (t.arm key q ms).1.armed t.nextHandle = some { key, ref := q.ref, ms } := by
  rw [arm_eq]
  exact if_pos rfl

/-- `arm` leaves the timers of the other objects. -/
theorem Owned.armed_arm (ho : t.Owned) (hp : t.pending key = some p) (htimer : q.timer = p.timer)
    {ms h : ℕ} {k : TxId} {r : Item TxId κ} (hk : k ≠ key) (hr : t.pending k = some r)
    (hrtimer : r.timer = some h) : (t.arm key q ms).1.armed h = t.armed h := by
  obtain ⟨timer, harmed, -⟩ := ho.armed_of k r h hr hrtimer
  rw [arm_eq]
  dsimp only
  rw [if_neg (Nat.ne_of_lt (ho.handle_lt h timer harmed)),
    if_neg fun hq => hk (ho.key_eq hp hr (htimer ▸ hq) hrtimer)]

/-- Arming clears the timer that the object has and gives it a new one. -/
theorem Owned.arm (ho : t.Owned) (hp : t.pending key = some p) (href : q.ref = p.ref)
    (htimer : q.timer = p.timer) (ms : ℕ) :
    ((t.arm key q ms).1.setPending key (some (t.arm key q ms).2)).Owned := by
  have hpending : (t.arm key q ms).1.pending = t.pending := pending_clearT t q.timer
  have hnext : (t.arm key q ms).1.nextHandle = t.nextHandle + 1 := by rw [arm_eq]
  have href' : (t.arm key q ms).1.nextRef = t.nextRef := by rw [arm_eq]
  have hcases : ∀ k r, ((t.arm key q ms).1.setPending key (some (t.arm key q ms).2)).pending k =
      some r → (k = key ∧ r = { q with timer := some t.nextHandle }) ∨
        (k ≠ key ∧ t.pending k = some r) := by
    intro k r hr
    rw [← hpending]
    rcases setPending_eq_some hr with ⟨hk, heq⟩ | hr
    · rw [arm_eq] at heq
      exact .inl ⟨hk, (Option.some.inj heq).symm⟩
    · exact .inr hr
  exact
    { queuedMs_eq := by
        rw [arm_eq]
        exact ho.queuedMs_eq
      slackMs_eq := by
        rw [arm_eq]
        exact ho.slackMs_eq
      armed_of := by
        intro k r h hr hrtimer
        rcases hcases k r hr with ⟨rfl, rfl⟩ | ⟨hk, hr⟩
        · cases hrtimer
          exact ⟨_, armed_arm_nextHandle t k q ms, rfl, rfl⟩
        · obtain ⟨timer, harmed, hof⟩ := ho.armed_of k r h hr hrtimer
          exact ⟨timer, (ho.armed_arm hp htimer hk hr hrtimer).trans harmed, hof⟩
      timer_of := by
        intro h timer r harmed hr hrref
        rcases armed_arm_eq_some harmed with ⟨rfl, rfl⟩ | ⟨hne, harmed⟩
        · rcases hcases key r hr with ⟨-, rfl⟩ | ⟨hk, -⟩
          · rfl
          · exact absurd rfl hk
        · rcases hcases timer.key r hr with ⟨hk, rfl⟩ | ⟨-, hr⟩
          · have hold := ho.timer_of h timer p harmed (hk ▸ hp) (href.symm.trans hrref)
            exact absurd (htimer.trans hold) hne
          · exact ho.timer_of h timer r harmed hr hrref
      handle_lt := by
        intro h timer harmed
        change h < (t.arm key q ms).1.nextHandle
        rw [hnext]
        rcases armed_arm_eq_some harmed with ⟨rfl, -⟩ | ⟨-, harmed⟩
        · exact Nat.lt_succ_self _
        · exact Nat.lt_succ_of_lt (ho.handle_lt h timer harmed)
      armed_ref_lt := by
        intro h timer harmed
        change timer.ref < (t.arm key q ms).1.nextRef
        rw [href']
        rcases armed_arm_eq_some harmed with ⟨-, rfl⟩ | ⟨-, harmed⟩
        · exact href ▸ ho.pending_ref_lt key p hp
        · exact ho.armed_ref_lt h timer harmed
      pending_ref_lt := by
        intro k r hr
        change r.ref < (t.arm key q ms).1.nextRef
        rw [href']
        rcases hcases k r hr with ⟨-, rfl⟩ | ⟨-, hr⟩
        · exact href ▸ ho.pending_ref_lt key p hp
        · exact ho.pending_ref_lt k r hr }

theorem Owned.plain_arm (ho : t.Owned) (hp : t.pending key = some p) (htimer : q.timer = p.timer)
    (ms : ℕ) :
    ((t.arm key q ms).1.setPending key (some (t.arm key q ms).2)).plain =
      t.plain.setPending key (some ((q.plain t.armed).arm ms)) := by
  have hpending : (t.arm key q ms).1.pending = t.pending := pending_clearT t q.timer
  refine plain_eq_setPending ?_ (fun k hk => ?_) (earlyResult_clearT t q.timer) ?_
  · change (Function.update (t.arm key q ms).1.pending key _ key).map _ = _
    rw [Function.update_self]
    exact congrArg (fun x : Option (Timer TxId) =>
      some { q.plain t.armed with timer := x.map Timer.ms }) (armed_arm_nextHandle t key q ms)
  · change (Function.update (t.arm key q ms).1.pending key _ k).map _ = _
    rw [Function.update_of_ne hk, hpending]
    exact map_plain_congr fun r hr h hrtimer => ho.armed_arm hp htimer hk hr hrtimer
  · rw [arm_eq]
    rfl

theorem Owned.follows_replace (ho : t.Owned) (hp : t.pending key = some p) (href : q.ref = p.ref)
    (htimer : q.timer = p.timer) :
    t.Follows (t.setPending key (some q))
      (t.plain.setPending key (some (q.plain t.armed)), []) where
  owned := ho.replace hp href htimer
  plain_eq := plain_setPending t key (some q)
  calls_eq := (List.append_nil _).symm

theorem Owned.follows_create (ho : t.Owned) (href : p.ref = t.nextRef) (htimer : p.timer = none) :
    t.Follows ({ t with nextRef := t.nextRef + 1 }.setPending key (some p))
      (t.plain.setPending key (some (p.plain t.armed)), []) where
  owned := ho.create href htimer
  plain_eq := plain_setPending _ key (some p)
  calls_eq := (List.append_nil _).symm

theorem Owned.follows_arm (ho : t.Owned) (hp : t.pending key = some p) (href : q.ref = p.ref)
    (htimer : q.timer = p.timer) (ms : ℕ) :
    t.Follows ((t.arm key q ms).1.setPending key (some (t.arm key q ms).2))
      (t.plain.setPending key (some ((q.plain t.armed).arm ms)), []) where
  owned := ho.arm hp href htimer ms
  plain_eq := ho.plain_arm hp htimer ms
  calls_eq := by
    rw [arm_eq]
    exact (List.append_nil _).symm

/-! ## Operations -/

theorem Owned.plain_timer_eq_none_iff (ho : t.Owned) (hp : t.pending key = some p) :
    (p.plain t.armed).timer = none ↔ p.timer = none := by
  rw [Item.plain]
  dsimp only
  cases htimer : p.timer with
  | none => exact Iff.rfl
  | some h =>
      obtain ⟨timer, harmed, -⟩ := ho.armed_of key p h hp htimer
      rw [Option.bind_some, harmed]
      exact iff_of_false (Option.some_ne_none _) (Option.some_ne_none _)

theorem Follows.call {r : TxTracker (κ × Option κ)} {l : List (Callback (κ × Option κ))}
    (hs : t.Follows s (r, l)) (k : κ) (report : Outcome) (o : Option κ) :
    t.Follows (s.call (.cb k (.ofOutcome report))) (r, l ++ [.cb (k, o) report]) where
  owned := hs.owned.others s.earlyResult s.earlyStarted _ s.fired
  plain_eq := hs.plain_eq
  calls_eq := by
    rw [Tracker.call, hs.calls_eq, List.filterMap_append, List.append_assoc]
    rfl

theorem Follows.notify {r : TxTracker (κ × Option κ)} {l : List (Callback (κ × Option κ))}
    (hs : t.Follows s (r, l)) (p : Item TxId κ) (phase : Phase) (expectedMs attempts : Option ℕ) :
    t.Follows (s.notify p phase expectedMs attempts)
      (r, l ++ [.onState (p.cb, p.onState) phase expectedMs attempts]) := by
  rw [Tracker.notify]
  cases hstate : p.onState with
  | none =>
      refine ⟨hs.owned, hs.plain_eq, ?_⟩
      rw [hs.calls_eq, List.filterMap_append]
      exact congrArg (t.calls ++ ·) (List.append_nil _).symm
  | some k =>
      refine ⟨hs.owned.others s.earlyResult s.earlyStarted _ s.fired, hs.plain_eq, ?_⟩
      change s.calls ++ [.onState k phase expectedMs attempts] = _
      rw [hs.calls_eq, List.filterMap_append, List.append_assoc]
      rfl

theorem Follows.trans {u : Tracker TxId κ} {r r' : TxTracker (κ × Option κ)}
    {l l' : List (Callback (κ × Option κ))} (hs : t.Follows s (r, l)) (hu : s.Follows u (r', l')) :
    t.Follows u (r', l ++ l') where
  owned := hu.owned
  plain_eq := hu.plain_eq
  calls_eq := by
    rw [hu.calls_eq, hs.calls_eq, List.filterMap_append, List.append_assoc]

theorem Owned.markStarted (ho : t.Owned) (hp : t.pending key = some p) (msg : StartedMsg TxId) :
    t.Follows (t.markStarted key p msg)
      (t.plain.setPending key (some ((p.plain t.armed).markStarted msg.plain).1),
        ((p.plain t.armed).markStarted msg.plain).2) := by
  obtain ⟨sending, hsending⟩ : ∃ sending : Item TxId κ, sending = { p with state := .sending } :=
    ⟨_, rfl⟩
  have href : sending.ref = p.ref := hsending ▸ rfl
  have hsame : sending.timer = p.timer := hsending ▸ rfl
  have hplain : sending.plain t.armed = { p.plain t.armed with state := .sending } := hsending ▸ rfl
  have hcall : (p.plain t.armed).cb = (sending.cb, sending.onState) := hsending ▸ rfl
  have hkept := (ho.follows_replace hp href hsame).notify sending .sending msg.expectedMs
    msg.attempts
  have harmed := fun ms => (ho.follows_arm hp href hsame ms).notify sending .sending msg.expectedMs
    msg.attempts
  have htimer := ho.plain_timer_eq_none_iff hp
  rw [Tracker.markStarted, Pending.markStarted, ← hsending]
  dsimp only
  rw [← hplain, hcall]
  by_cases hzero : msg.expectedMs = some 0
  · have hzero' : msg.plain.expectedMs = some 0 := hzero
    rw [if_pos hzero, if_pos hzero', hsame]
    by_cases hnone : p.timer = none
    · rw [if_pos hnone, if_pos (htimer.mpr hnone), ho.queuedMs_eq]
      exact harmed TX_QUEUE_TIMEOUT_MS
    · rw [if_neg hnone, if_neg fun h => hnone (htimer.mp h)]
      exact hkept
  · have hzero' : ¬ msg.plain.expectedMs = some 0 := hzero
    rw [if_neg hzero, if_neg hzero', ho.slackMs_eq]
    exact harmed (txSendingWindowMs msg.expectedMs TX_START_SLACK_MS)

theorem Owned.started (ho : t.Owned) (msg : StartedMsg TxId) :
    t.Follows (t.started msg) (t.plain.started msg.plain) := by
  have hpending : t.plain.pending msg.plain.id = (t.pending msg.id).map (Item.plain t.armed) := rfl
  rw [Tracker.started, TxTracker.started, hpending]
  cases hp : t.pending msg.id with
  | none =>
      refine ⟨ho.others t.earlyResult _ t.calls t.fired, ?_, (List.append_nil _).symm⟩
      rw [Tracker.plain]
      dsimp only
      rw [EvictingMap.map_put]
      rfl
  | some p => exact ho.markStarted hp msg

theorem Owned.resolve (ho : t.Owned) (msg : ResultMsg TxId) :
    t.Follows (t.resolve msg) (t.plain.resolve msg.plain) := by
  have hpending : t.plain.pending msg.plain.id = (t.pending msg.id).map (Item.plain t.armed) := rfl
  rw [Tracker.resolve, TxTracker.resolve, hpending]
  cases hp : t.pending msg.id with
  | none =>
      refine ⟨ho.others _ t.earlyStarted t.calls t.fired, ?_, (List.append_nil _).symm⟩
      rw [Tracker.plain]
      dsimp only
      rw [EvictingMap.map_put]
      rfl
  | some p =>
      exact (ho.finish hp).call p.cb (Web.normalizeTxResult msg.plain) p.onState

theorem Owned.register (ho : t.Owned) (id : TxId) (cb : κ) (onState : Option κ) :
    t.Follows (t.register id cb onState) (t.plain.register id (cb, onState)) := by
  have hresult : t.plain.earlyResult.take id =
      ((t.earlyResult.take id).1.map ResultMsg.plain,
        (t.earlyResult.take id).2.map ResultMsg.plain) :=
    EvictingMap.map_take ResultMsg.plain t.earlyResult id
  have hstarted : t.plain.earlyStarted.take id =
      ((t.earlyStarted.take id).1.map StartedMsg.plain,
        (t.earlyStarted.take id).2.map StartedMsg.plain) :=
    EvictingMap.map_take StartedMsg.plain t.earlyStarted id
  rw [Tracker.register, TxTracker.register, hresult, hstarted]
  obtain ⟨early, earlyResult⟩ := t.earlyResult.take id
  cases early with
  | some r =>
      have hfollows : t.Follows
          { t with earlyResult, earlyStarted := (t.earlyStarted.take id).2 }
          ({ t.plain with
              earlyResult := earlyResult.map ResultMsg.plain
              earlyStarted := (t.earlyStarted.take id).2.map StartedMsg.plain }, []) :=
        ⟨ho.others _ _ t.calls t.fired, rfl, (List.append_nil _).symm⟩
      exact hfollows.call cb (Web.normalizeTxResult r.plain) onState
  | none =>
      obtain ⟨p, hp⟩ : ∃ p : Item TxId κ, p =
          { ref := t.nextRef, id, cb, onState, state := .queued, timer := none } := ⟨_, rfl⟩
      have hplain : ∀ armed, p.plain armed =
          { id, cb := (cb, onState), state := .queued, timer := none } := fun armed => hp ▸ rfl
      have hnew : t.Follows ({ t with nextRef := t.nextRef + 1 }.setPending id (some p))
          (t.plain.setPending id (some (p.plain t.armed)), []) :=
        ho.follows_create (hp ▸ rfl) (hp ▸ rfl)
      have hqueued := hnew.notify p .queued none none
      dsimp only
      rw [← hp]
      generalize hu : Tracker.notify _ p .queued none none = u at hqueued ⊢
      have hpending : u.pending id = some p := by
        rw [← hu, pending_notify]
        exact Function.update_self ..
      have hearly : u.earlyStarted = t.earlyStarted := by
        rw [← hu, earlyStarted_notify]
        rfl
      rw [hearly]
      obtain ⟨early, earlyStarted⟩ := t.earlyStarted.take id
      cases early with
      | some s =>
          have htaken : t.Follows { u with earlyStarted }
              (({ t.plain with earlyStarted := earlyStarted.map StartedMsg.plain } :
                TxTracker (κ × Option κ)).setPending id (some (p.plain t.armed)),
                [.onState (p.cb, p.onState) .queued none none]) := by
            refine ⟨hqueued.owned.others _ _ _ _, ?_, hqueued.calls_eq⟩
            exact congrArg (fun x : TxTracker (κ × Option κ) =>
              { x with earlyStarted := earlyStarted.map StartedMsg.plain }) hqueued.plain_eq
          have hmarked := htaken.owned.markStarted hpending s
          rw [htaken.plain_eq, TxTracker.setPending_setPending, hplain] at hmarked
          have hboth := htaken.trans hmarked
          rw [hp] at hboth ⊢
          exact hboth
      | none =>
          have hboth := hqueued.trans (hqueued.owned.follows_arm hpending rfl rfl u.queuedMs)
          rw [hqueued.plain_eq, TxTracker.setPending_setPending, hplain, hqueued.owned.queuedMs_eq,
            hp] at hboth
          rw [hqueued.owned.queuedMs_eq, hp]
          exact hboth

theorem fire_of_ref_eq {handle : ℕ} {timer : Timer TxId} (harmed : t.armed handle = some timer)
    (hp : t.pending timer.key = some p) (href : p.ref = timer.ref) :
    t.fire handle = some
      (({ t.clearT (some handle) with fired := t.fired ++ [timer.key] }.setPending
          timer.key none).call
        (.cb p.cb
          { id := p.id, akn := 0, username := "", timeout := true, phase := some p.state })) := by
  have hsame : (t.clearT (some handle)).pending timer.key = some p := hp
  rw [fire, harmed, Option.map_some]
  simp only [hsame, href, if_true]

/-- The object of the timer waits no more. -/
theorem fire_of_ref_ne {handle : ℕ} {timer : Timer TxId} (harmed : t.armed handle = some timer)
    (href : ∀ p, t.pending timer.key = some p → p.ref ≠ timer.ref) :
    t.fire handle = some { t.clearT (some handle) with fired := t.fired ++ [timer.key] } := by
  have hsame : (t.clearT (some handle)).pending timer.key = t.pending timer.key := rfl
  rw [fire, harmed, Option.map_some]
  cases hp : t.pending timer.key with
  | none => simp only [hsame, hp]
  | some p => simp only [hsame, hp, if_neg (href p hp)]

theorem Owned.fire (ho : t.Owned) {handle : ℕ} (hfire : t.fire handle = some s) :
    t.Follows s (t.plain, []) ∨ ∃ key, t.Follows s (t.plain.timerFired key) := by
  obtain ⟨timer, harmed, -⟩ := Option.map_eq_some_iff.mp hfire
  by_cases hmatch : ∃ p, t.pending timer.key = some p ∧ p.ref = timer.ref
  · obtain ⟨p, hp, href⟩ := hmatch
    have htimer := ho.timer_of handle timer p harmed hp href
    rw [fire_of_ref_eq harmed hp href] at hfire
    cases hfire
    have hfinish := ho.finish hp
    rw [htimer] at hfinish
    have hfollows : t.Follows
        ({ t.clearT (some handle) with fired := t.fired ++ [timer.key] }.setPending timer.key none)
        (t.plain.setPending timer.key none, []) :=
      ⟨hfinish.owned.others _ _ _ _, hfinish.plain_eq, hfinish.calls_eq⟩
    have hpending : t.plain.pending timer.key = some (p.plain t.armed) :=
      congrArg (Option.map (Item.plain t.armed)) hp
    have harm : (p.plain t.armed).timer ≠ none := by
      rw [ne_eq, ho.plain_timer_eq_none_iff hp, htimer]
      exact Option.some_ne_none handle
    have hplainFired : t.plain.timerFired timer.key =
        (t.plain.setPending timer.key none,
          [.cb (p.cb, p.onState)
            { id := p.id, akn := 0, username := "", timeout := true, phase := some p.state }]) := by
      rw [TxTracker.timerFired, hpending]
      exact if_neg harm
    refine .inr ⟨timer.key, ?_⟩
    rw [hplainFired]
    exact hfollows.call p.cb
      { id := p.id, akn := 0, username := "", timeout := true, phase := some p.state } p.onState
  · have hne : ∀ p, t.pending timer.key = some p → p.ref ≠ timer.ref :=
      fun p hp href => hmatch ⟨p, hp, href⟩
    rw [fire_of_ref_ne harmed hne] at hfire
    cases hfire
    obtain ⟨howned, hplain⟩ := ho.drop (some handle) (fun k q hq => hq)
      fun k q h hq hqtimer hh => by
        obtain ⟨timer', harmed', hkey, href⟩ := ho.armed_of k q h hq hqtimer
        cases hh
        rw [harmed, Option.some.injEq] at harmed'
        subst harmed'
        exact hne q (hkey ▸ hq) href.symm
    refine .inl ⟨howned.others _ _ _ _, ?_, (List.append_nil _).symm⟩
    exact hplain

/-- Every step of the tracker is one of the record, or none. -/
theorem Owned.step (ho : t.Owned) {e : Event TxId κ} (hstep : t.step e = some s) :
    ∃ ops, t.Follows s (Mealy.run Operation.apply t.plain ops) := by
  have hone : ∀ op : Operation (κ × Option κ), t.Follows s (op.apply t.plain) →
      ∃ ops, t.Follows s (Mealy.run Operation.apply t.plain ops) := by
    intro op hop
    refine ⟨[op], ?_⟩
    rw [Mealy.run_cons, Mealy.run_nil, List.append_nil]
    exact hop
  cases e with
  | register id cb onState =>
      cases hstep
      exact hone (.register id (cb, onState)) (ho.register id cb onState)
  | started msg =>
      cases hstep
      exact hone (.started msg.plain) (ho.started msg)
  | result msg =>
      cases hstep
      exact hone (.result msg.plain) (ho.resolve msg)
  | fire handle =>
      rcases ho.fire hstep with hstale | ⟨key, hfired⟩
      · exact ⟨[], hstale⟩
      · exact hone (.timerFired key) hfired

/-- The tracker with handles makes the calls of the record, in every run. -/
theorem refines_run {events : List (Event TxId κ)}
    (hrun : Transition.exec step (create none none : Tracker TxId κ) events = some t) :
    ∃ ops, (Mealy.run Operation.apply (.create : TxTracker (κ × Option κ)) ops).1 = t.plain ∧
      t.calls = (Mealy.run Operation.apply .create ops).2.filterMap shown := by
  obtain ⟨ops, hplain, hcalls⟩ :=
    Mealy.exists_run_of_exec plain Tracker.calls shown
      (fun u e v hu hv => by
        obtain ⟨ops, hfollows⟩ := Owned.step hu hv
        exact ⟨hfollows.owned, ops, hfollows.plain_eq.symm, hfollows.calls_eq⟩)
      owned_create hrun
  rw [plain_create] at hplain hcalls
  exact ⟨ops, hplain, hcalls⟩

end Tracker

end TxTimers

end Web

end Voyager
