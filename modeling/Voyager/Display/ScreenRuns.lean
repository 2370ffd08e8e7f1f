import Voyager.Display.Screen
import Voyager.Library.Clock

/-!
# Runs of the display task

When the screen sleeps, which press only wakes it, and what its list of messages holds, in every
run. The times of a run are those of a clock that never wraps; the task reads them modulo `2 ^ 32`.
-/

namespace Voyager

namespace Screen

open AsciiFold Clock

open MessageRing (MSG_RING_SIZE MSG_FROM_LEN MSG_TEXT_LEN shownMessage newest)

open WrapText (Text)

/-! ## Activity -/

/-- The messages that wake the screen or restart its timer. -/
def OledMsg.wakes : OledMsg → Bool
  | .message _ _ => true
  | .alert _ _ _ => true
  | .progress _ pct => pct ≠ PROGRESS_HIDE
  | .button _ _ => true
  | _ => false

/-- An alert or a progress bar is still visible when the timers are served. -/
def keepsAwake (ui : UiState) (now : UInt32) : Bool :=
  let ui := expireProgress (expireMessage (expireAlert ui now) now) now
  ui.alertOn || ui.progOn

/-- What restarts the timer of the screen. -/
def restarts (d : Display) (t : ℕ) : Event → Bool
  | .apply m => m.wakes
  | .service => keepsAwake d.ui (at_ t)

/-- The time at which the timer was restarted last. -/
def lastRestart : Display → ℕ → List (ℕ × Event) → ℕ
  | _, last, [] => last
  | d, last, (t, e) :: es =>
      lastRestart (step d (at_ t) e) (if restarts d t e then t else last) es

def readings (es : List (ℕ × Event)) : List (UInt32 × Event) := es.map fun e => (at_ e.1, e.2)

/-- The time of the last service, after the event `e` at `t`. -/
def nextServed (served t : ℕ) : Event → ℕ
  | .apply _ => served
  | .service => t

/-- The times do not decrease, and from one service to the next it is at most `2 ^ 32` less the
timeout of the screen. -/
def Timed : ℕ → ℕ → List (ℕ × Event) → Prop
  | _, _, [] => True
  | t, served, (t', e) :: es =>
      t ≤ t' ∧ t' + SLEEP_TIMEOUT_MS.toNat ≤ served + 2 ^ 32 ∧
        Timed t' (nextServed served t' e) es

section Sleep

variable {d : Display} {ui : UiState} {m : OledMsg} {now : UInt32} {t served last : ℕ}
  {es : List (ℕ × Event)}

theorem sleep_apply_of_not_wakes (h : m.wakes = false) : (apply ui now m).sleep = ui.sleep := by
  cases m with
  | message sender text => cases h
  | alert title text ms => cases h
  | button btn longPress => cases h
  | progress title pct =>
      rw [apply, if_pos (by simpa [OledMsg.wakes] using h)]
      split <;> rfl
  | loraPkt tx ok rssi snr =>
      rw [apply]
      split
      · split <;> rfl
      · rfl
  | wifiRssi rssi =>
      rw [apply]
      split <;> rfl
  | lora s =>
      rw [apply]
      split <;> rfl
  | status text =>
      rw [apply]
      split <;> rfl
  | wifi s ssid ip => rfl
  | ap ssid pass ip => rfl
  | loraParams freq sf bw => rfl

theorem lastActivity_sleepButton (s : SleepState) (btn : UInt8) (longPress : Bool) (now : UInt32) :
    (sleepButton s btn longPress now).1.lastActivity = now := by
  unfold sleepButton
  dsimp only
  split
  · rfl
  · split
    · rfl
    · split
      · rfl
      · split
        · rfl
        · split <;> rfl

theorem lastActivity_sleepWakeProgress (s : SleepState) (now : UInt32) :
    (sleepWakeProgress s now).lastActivity = now := by
  unfold sleepWakeProgress
  split <;> rfl

theorem lastActivity_apply (h : m.wakes = true) : (apply ui now m).sleep.lastActivity = now := by
  cases m with
  | message sender text => rfl
  | alert title text ms => rfl
  | button btn longPress => exact lastActivity_sleepButton ui.sleep btn longPress now
  | progress title pct =>
      rw [apply, if_neg (by simpa [OledMsg.wakes] using h)]
      exact lastActivity_sleepWakeProgress ui.sleep now
  | _ => cases h

theorem sleep_expireAlert (ui : UiState) (now : UInt32) : (expireAlert ui now).sleep = ui.sleep := by
  unfold expireAlert
  split <;> rfl

theorem sleep_expireMessage (ui : UiState) (now : UInt32) :
    (expireMessage ui now).sleep = ui.sleep := by
  unfold expireMessage
  split <;> rfl

theorem sleep_expireProgress (ui : UiState) (now : UInt32) :
    (expireProgress ui now).sleep = ui.sleep := by
  unfold expireProgress
  split <;> rfl

theorem sleep_expired (ui : UiState) (now : UInt32) :
    (expired ui now).sleep =
      if keepsAwake ui now then { ui.sleep with lastActivity := now } else ui.sleep := by
  have hsleep : (expireProgress (expireMessage (expireAlert ui now) now) now).sleep = ui.sleep := by
    rw [sleep_expireProgress, sleep_expireMessage, sleep_expireAlert]
  unfold expired keepAwake keepsAwake
  generalize expireProgress (expireMessage (expireAlert ui now) now) now = ui' at *
  dsimp only
  by_cases hvisible : ui'.alertOn = true ∨ ui'.progOn = true
  · rw [if_pos hvisible, if_pos (Bool.or_eq_true_iff.mpr hvisible), hsleep]
  · rw [if_neg hvisible, if_neg (mt Bool.or_eq_true_iff.mp hvisible), hsleep]

theorem sleep_service (d : Display) (now : UInt32) :
    (service d now).ui.sleep = sleepTick (expired d.ui now).sleep now ∧
      (service d now).ui.panelOn = (service d now).ui.sleep.on := by
  have hsleep : (serveTimers d.ui now).sleep = sleepTick (expired d.ui now).sleep now :=
    (switchPanel_fields _).2.1
  have hpanel := (serveTimers_spec d.ui now).2.1
  unfold service
  dsimp only
  split <;> exact ⟨hsleep, hpanel⟩

/-- The timer of the screen, and how late it is at most. -/
structure SleepInv (d : Display) (last t served : ℕ) : Prop where
  activity : d.ui.sleep.lastActivity = at_ last
  le : last ≤ t
  order : served ≤ t
  awake : d.ui.sleep.on = true → served < last + SLEEP_TIMEOUT_MS.toNat

theorem SleepInv.apply (h : SleepInv d last t served) {t' : ℕ} (hle : t ≤ t') (m : OledMsg) :
    SleepInv (step d (at_ t') (.apply m)) (if m.wakes then t' else last) t' served := by
  cases hm : m.wakes with
  | true =>
      have hserved := h.order
      refine ⟨lastActivity_apply hm, Nat.le_refl _, hserved.trans hle, fun _ => ?_⟩
      rw [if_pos rfl]
      exact Nat.lt_of_le_of_lt (hserved.trans hle) (Nat.lt_add_of_pos_right (by decide))
  | false =>
      have hsleep : (step d (at_ t') (.apply m)).ui.sleep = d.ui.sleep :=
        sleep_apply_of_not_wakes hm
      rw [if_neg Bool.false_ne_true]
      exact ⟨hsleep ▸ h.activity, h.le.trans hle, h.order.trans hle, hsleep ▸ h.awake⟩

/-- The screen goes to sleep when its time is over, and not before. -/
theorem SleepInv.service_on (h : SleepInv d last t served) {t' : ℕ} (hle : t ≤ t')
    (hgap : t' + SLEEP_TIMEOUT_MS.toNat ≤ served + 2 ^ 32) :
    (service d (at_ t')).ui.sleep.lastActivity =
        at_ (if keepsAwake d.ui (at_ t') then t' else last) ∧
      ((service d (at_ t')).ui.sleep.on = true ↔
        d.ui.sleep.on = true ∧
          t' < (if keepsAwake d.ui (at_ t') then t' else last) + SLEEP_TIMEOUT_MS.toNat) := by
  have hlast := h.le.trans hle
  have hawake := h.awake
  have hactivity := h.activity
  rw [(sleep_service d (at_ t')).1, sleep_expired]
  generalize hs : d.ui.sleep = s at *
  have hkey : ∀ last' ≤ t', (s.on = true → t' < last' + 2 ^ 32) → ∀ s' : SleepState,
      s'.on = s.on → s'.lastActivity = at_ last' →
      (sleepTick s' (at_ t')).lastActivity = at_ last' ∧
        ((sleepTick s' (at_ t')).on = true ↔
          s.on = true ∧ t' < last' + SLEEP_TIMEOUT_MS.toNat) := by
    intro last' hle' hlt s' hon hact
    unfold sleepTick
    cases hs' : s.on with
    | false =>
        rw [hs'] at hon
        simp [hon, hact]
    | true =>
        rw [hs'] at hon
        have hiff := le_sub_at_iff hle' (hlt hs') SLEEP_TIMEOUT_MS
        rw [← hact] at hiff
        split
        · next hoff => simp [hact, Nat.not_lt.mpr (hiff.mp hoff.2)]
        · next hstay =>
            have hlate := mt hiff.mpr fun hover => hstay ⟨hon, hover⟩
            simp [hon, hact, Nat.not_le.mp hlate]
  split
  · exact hkey t' (Nat.le_refl _) (fun _ => by omega) _ rfl rfl
  · refine hkey last hlast (fun hon => ?_) s rfl hactivity
    have := hawake hon
    omega

theorem SleepInv.service (h : SleepInv d last t served) {t' : ℕ} (hle : t ≤ t')
    (hgap : t' + SLEEP_TIMEOUT_MS.toNat ≤ served + 2 ^ 32) :
    SleepInv (step d (at_ t') .service) (if keepsAwake d.ui (at_ t') then t' else last) t' t' := by
  obtain ⟨hactivity, hon⟩ := h.service_on hle hgap
  refine ⟨hactivity, ?_, Nat.le_refl _, fun h => (hon.mp h).2⟩
  split
  · exact Nat.le_refl _
  · exact h.le.trans hle

/-- Every run keeps the timer. -/
theorem SleepInv.run (h : SleepInv d last t served) (htimed : Timed t served es) :
    ∃ t' served', SleepInv (run d (readings es)) (lastRestart d last es) t' served' ∧
      ∀ es', Timed t served (es ++ es') → Timed t' served' es' := by
  induction es generalizing d last t served with
  | nil => exact ⟨t, served, h, fun _ => id⟩
  | cons e es ih =>
      obtain ⟨t₁, e⟩ := e
      obtain ⟨hle, hgap, hrest⟩ := htimed
      have hstep : SleepInv (step d (at_ t₁) e) (if restarts d t₁ e then t₁ else last) t₁
          (nextServed served t₁ e) := by
        cases e with
        | apply m => exact h.apply hle m
        | service => exact h.service hle hgap
      obtain ⟨t', served', hinv, happend⟩ := ih hstep hrest
      exact ⟨t', served', hinv, fun es' htimed' => happend es' htimed'.2.2⟩

theorem Timed.of_append {es' : List (ℕ × Event)} (h : Timed t served (es ++ es')) :
    Timed t served es := by
  induction es generalizing t served with
  | nil => trivial
  | cons e es ih => exact ⟨h.1, h.2.1, ih h.2.2⟩

theorem lastRestart_append (d : Display) (last : ℕ) (es : List (ℕ × Event)) (t : ℕ) (e : Event) :
    lastRestart d last (es ++ [(t, e)]) =
      if restarts (run d (readings es)) t e then t else lastRestart d last es := by
  induction es generalizing d last with
  | nil => rfl
  | cons e' es ih => exact ih _ _

theorem sleepInv_start (boot : List (UInt32 × OledMsg)) (t₀ : ℕ) :
    SleepInv (start boot (at_ t₀)) t₀ t₀ t₀ :=
  ⟨rfl, Nat.le_refl _, Nat.le_refl _, fun _ => Nat.lt_add_of_pos_right (by decide)⟩

/-- In every run the panel is on after a service just when the screen was not put to sleep before
it and its timer was restarted less than a minute ago: by a message, an alert, a progress bar or a
button, or by a service that saw an alert or a progress bar. -/
theorem panelOn_iff (boot : List (UInt32 × OledMsg)) (t₀ : ℕ) (es : List (ℕ × Event)) (t : ℕ)
    (htimed : Timed t₀ t₀ (es ++ [(t, .service)])) :
    (run (start boot (at_ t₀)) (readings (es ++ [(t, .service)]))).ui.panelOn = true ↔
      (run (start boot (at_ t₀)) (readings es)).ui.sleep.on = true ∧
        t < lastRestart (start boot (at_ t₀)) t₀ (es ++ [(t, .service)]) +
          SLEEP_TIMEOUT_MS.toNat := by
  obtain ⟨t', served', hinv, happend⟩ := (sleepInv_start boot t₀).run htimed.of_append
  obtain ⟨hle, hgap, -⟩ := happend _ htimed
  obtain ⟨-, hon⟩ := hinv.service_on hle hgap
  have hrun : run (start boot (at_ t₀)) (readings (es ++ [(t, .service)])) =
      service (run (start boot (at_ t₀)) (readings es)) (at_ t) := by
    rw [readings, List.map_append, run, List.foldl_append]
    rfl
  rw [hrun, (sleep_service _ _).2, hon, lastRestart_append]
  rfl

theorem panelOn_iff_minute :
    (run (start [] (at_ 7)) (readings ([(60006, .service)] ++ [(60007, .service)]))).ui.panelOn =
        true ↔
      (run (start [] (at_ 7)) (readings [(60006, .service)])).ui.sleep.on = true ∧
        60007 < lastRestart (start [] (at_ 7)) 7 ([(60006, .service)] ++ [(60007, .service)]) +
          SLEEP_TIMEOUT_MS.toNat :=
  panelOn_iff [] 7 [(60006, .service)] 60007
    (by simp [Timed, nextServed, SLEEP_TIMEOUT_MS])

end Sleep

/-! ## The press behind a progress bar -/

section Hold

variable {d : Display} {t₀ t : ℕ} {es : List (ℕ × Event)}

def Event.isButton : Event → Bool
  | .apply (.button _ _) => true
  | _ => false

/-- A progress bar woke the screen at `t₀`, not long before `t`. -/
structure Held (d : Display) (t₀ t : ℕ) : Prop where
  on : d.ui.sleep.on = true
  woke : d.ui.sleep.holdWake = true
  at_woke : d.ui.sleep.holdWakeAt = at_ t₀
  activity : ∃ last, d.ui.sleep.lastActivity = at_ last ∧ t₀ ≤ last ∧ last ≤ t

/-- What keeps the screen on and its timer going leaves the hold as it is. -/
theorem Held.of_sleep {d' : Display} {t' : ℕ} (h : Held d t₀ t) (hle : t ≤ t')
    (hsleep : d'.ui.sleep = d.ui.sleep ∨ d'.ui.sleep = sleepWake d.ui.sleep (at_ t')) :
    Held d' t₀ t' := by
  obtain ⟨last, hlast, hge, hle'⟩ := h.activity
  rcases hsleep with hsleep | hsleep
  · rw [← hsleep] at hlast
    exact ⟨hsleep ▸ h.on, hsleep ▸ h.woke, hsleep ▸ h.at_woke, last, hlast, hge, hle'.trans hle⟩
  · refine ⟨?_, ?_, ?_, t', ?_, (hge.trans hle').trans hle, Nat.le_refl _⟩
    · rw [hsleep]
      rfl
    · rw [hsleep]
      exact h.woke
    · rw [hsleep]
      exact h.at_woke
    · rw [hsleep]
      rfl

theorem sleep_apply_of_on {ui : UiState} {m : OledMsg} (hon : ui.sleep.on = true)
    (hm : (Event.apply m).isButton = false) (now : UInt32) :
    (apply ui now m).sleep = ui.sleep ∨ (apply ui now m).sleep = sleepWake ui.sleep now := by
  cases hwakes : m.wakes with
  | false => exact .inl (sleep_apply_of_not_wakes hwakes)
  | true =>
      right
      cases m with
      | message sender text => rfl
      | alert title text ms => rfl
      | button btn longPress => cases hm
      | progress title pct =>
          rw [apply, if_neg (by simpa [OledMsg.wakes] using hwakes)]
          exact if_pos hon
      | _ => cases hwakes

theorem Held.service (h : Held d t₀ t) {t' : ℕ} (hle : t ≤ t')
    (hsoon : t' ≤ t₀ + HOLD_WAKE_WINDOW_MS.toNat) : Held (service d (at_ t')) t₀ t' := by
  obtain ⟨last, hlast, hge, hle'⟩ := h.activity
  have hwindow : HOLD_WAKE_WINDOW_MS.toNat = 2500 := rfl
  have htimeout : SLEEP_TIMEOUT_MS.toNat = 60000 := rfl
  -- it is too early for the screen to sleep
  have hstay (last' : ℕ) (hge : t₀ ≤ last') (hle : last' ≤ t') (s : SleepState)
      (hact : s.lastActivity = at_ last') : sleepTick s (at_ t') = s := by
    refine if_neg fun hoff => ?_
    have hover := hoff.2
    rw [hact, le_sub_at_iff hle (by omega)] at hover
    omega
  refine h.of_sleep hle ?_
  rw [(sleep_service d (at_ t')).1, sleep_expired]
  split
  · right
    rw [hstay t' (by omega) (Nat.le_refl _) _ rfl]
    dsimp only [sleepWake]
    rw [h.on]
  · exact .inl (hstay last hge (by omega) _ hlast)

theorem Held.run (h : Held d t₀ t) (hbutton : ∀ e ∈ es, e.2.isButton = false)
    (hsorted : (t :: es.map Prod.fst).Pairwise (· ≤ ·))
    (hsoon : ∀ e ∈ es, e.1 ≤ t₀ + HOLD_WAKE_WINDOW_MS.toNat) :
    ∃ t', Held (run d (readings es)) t₀ t' := by
  induction es generalizing d t with
  | nil => exact ⟨t, h⟩
  | cons e es ih =>
      obtain ⟨t', e⟩ := e
      obtain ⟨hbutton₁, hbutton⟩ := List.forall_mem_cons.mp hbutton
      obtain ⟨hsoon₁, hsoon⟩ := List.forall_mem_cons.mp hsoon
      rw [List.map_cons, List.pairwise_cons] at hsorted
      obtain ⟨hfirst, hsorted⟩ := hsorted
      have hle : t ≤ t' := hfirst t' List.mem_cons_self
      have hstep : Held (step d (at_ t') e) t₀ t' := by
        cases e with
        | apply m => exact h.of_sleep hle (sleep_apply_of_on h.on hbutton₁ (at_ t'))
        | service => exact h.service hle hsoon₁
      exact ih hstep hbutton hsorted hsoon

/-- A progress bar that wakes the screen takes the short press behind it with it, whatever else
happens in between: the press does not turn a page, does not choose a message and does not dismiss
an alert. -/
theorem hold_press_consumed (hoff : d.ui.sleep.on = false) {title : Text} {pct : UInt8}
    (hpct : pct ≠ PROGRESS_HIDE) (hbutton : ∀ e ∈ es, e.2.isButton = false) {t₁ : ℕ}
    (hsorted : (t₀ :: (es.map Prod.fst ++ [t₁])).Pairwise (· ≤ ·))
    (hsoon : t₁ ≤ t₀ + HOLD_WAKE_WINDOW_MS.toNat) :
    let before := run d (readings ((t₀, .apply (.progress title pct)) :: es))
    let after := step before (at_ t₁) (.apply (.button 1 false))
    after.ui.toContent = before.ui.toContent ∧ after.ui.sleep.on = true := by
  intro before after
  have hfirst : Held (step d (at_ t₀) (.apply (.progress title pct))) t₀ t₀ := by
    have hsleep : (step d (at_ t₀) (.apply (.progress title pct))).ui.sleep =
        { sleepWake d.ui.sleep (at_ t₀) with holdWake := true, holdWakeAt := at_ t₀ } := by
      rw [step, apply, if_neg hpct]
      exact if_neg (by simp [hoff])
    exact ⟨by rw [hsleep]; rfl, by rw [hsleep], by rw [hsleep], t₀, by rw [hsleep]; rfl,
      Nat.le_refl _, Nat.le_refl _⟩
  rw [← List.cons_append, List.pairwise_append] at hsorted
  obtain ⟨hsorted, -, hlast⟩ := hsorted
  have hle (t : ℕ) (ht : t ∈ t₀ :: es.map Prod.fst) : t ≤ t₁ := hlast t ht t₁ List.mem_cons_self
  obtain ⟨t', hheld⟩ := hfirst.run hbutton hsorted fun e he =>
    (hle e.1 (List.mem_cons_of_mem _ (List.mem_map_of_mem he))).trans hsoon
  change Held before t₀ t' at hheld
  have hwoke : before.ui.sleep.HoldWoke 1 false (at_ t₁) := by
    refine ⟨hheld.woke, rfl, rfl, ?_⟩
    have hwindow : HOLD_WAKE_WINDOW_MS.toNat = 2500 := rfl
    rw [hheld.at_woke, sub_at_le_iff (hle t₀ List.mem_cons_self) (by omega)]
    exact hsoon
  have hpress : sleepButton before.ui.sleep 1 false (at_ t₁) =
      ({ before.ui.sleep with holdWake := false, lastActivity := at_ t₁, on := true }, .wake) :=
    if_pos hwoke
  change press before.ui.toContent (sleepButton before.ui.sleep 1 false (at_ t₁)).2 = _ ∧
    (sleepButton before.ui.sleep 1 false (at_ t₁)).1.on = true
  rw [hpress]
  exact ⟨rfl, rfl⟩

/-- The bar is shown at the press, hidden at the release, and an alert comes in between. -/
theorem hold_press_consumed_alert :
    let before := run ⟨uiInit, none⟩ (readings ((10, .apply (.progress ⟨[72], by decide⟩ 0)) ::
      [(600, .apply (.alert ⟨[65], by decide⟩ ⟨[66], by decide⟩ 0)), (700, .service),
        (800, .apply (.progress ⟨[], by decide⟩ 255))]))
    let after := step before (at_ 900) (.apply (.button 1 false))
    after.ui.toContent = before.ui.toContent ∧ after.ui.sleep.on = true :=
  hold_press_consumed rfl (by decide) (by simp [Event.isButton]) (by simp) (by decide)

end Hold

/-! ## The list of messages -/

section Messages

variable {ui : UiState} {ms : List (Text × Text)}

def Event.message? : Event → Option (Text × Text)
  | .apply (.message sender text) => some (sender, text)
  | _ => none

def messages (es : List (UInt32 × Event)) : List (Text × Text) := es.filterMap fun e => e.2.message?

/-- The messages as the memory of the ring takes them. -/
def received (ms : List (Text × Text)) : List (Option Text × Option Text) :=
  ms.map fun m => (some m.1, some m.2)

/-- The list holds the last five of the messages `ms`, and the one that is chosen is in it. -/
structure Listed (ms : List (Text × Text)) (c : Content) : Prop where
  ring : c.ring = (((received ms).map shownMessage).reverse).take MSG_RING_SIZE
  least : -1 ≤ c.msgSel
  lt : c.msgSel < c.ring.length

theorem Listed.land {c : Content} (h : Listed ms c) : Listed ms (landOnMessages c) := by
  have hlt := h.lt
  refine ⟨h.ring, ?_, ?_⟩
  · change -1 ≤ if 0 < c.ring.length then 0 else -1
    split <;> omega
  · change (if 0 < c.ring.length then 0 else -1) < (c.ring.length : ℤ)
    split <;> omega

theorem Listed.press {c : Content} (h : Listed ms c) (act : ButtonAction) :
    Listed ms (press c act) := by
  have hleast := h.least
  have hlt := h.lt
  unfold Screen.press
  split
  · split
    · exact ⟨h.ring, h.least, h.lt⟩
    · split
      · exact h.land
      · exact ⟨h.ring, Int.le_refl _, by change -1 < (c.ring.length : ℤ); omega⟩
  · split
    · exact ⟨h.ring, h.least, h.lt⟩
    · split
      · exact h.land
      · split
        · refine ⟨h.ring, ?_, ?_⟩
          · change -1 ≤ msgSelectNext c.msgSel c.ring.length
            unfold msgSelectNext
            split
            · exact Int.le_refl _
            · split <;> omega
          · change msgSelectNext c.msgSel c.ring.length < c.ring.length
            unfold msgSelectNext
            split
            · omega
            · split <;> omega
        · exact h
  · exact h

theorem Listed.message {c : Content} (h : Listed ms c) (sender text : Text)
    {c' : Content}
    (hring : c'.ring = ((shown MSG_FROM_LEN sender, shown MSG_TEXT_LEN text) :: c.ring).take
      MSG_RING_SIZE)
    (hsel : c'.msgSel = if 0 ≤ c.msgSel then 0 else c.msgSel) :
    Listed (ms ++ [(sender, text)]) c' := by
  have hleast := h.least
  refine ⟨?_, ?_, ?_⟩
  · have hnew : ((received (ms ++ [(sender, text)])).map shownMessage).reverse =
        (shown MSG_FROM_LEN sender, shown MSG_TEXT_LEN text) ::
          ((received ms).map shownMessage).reverse := by
      rw [received, List.map_append, List.map_append, List.reverse_append]
      rfl
    rw [hring, h.ring, hnew, MSG_RING_SIZE, List.take_succ_cons, List.take_succ_cons,
      List.take_take]
    rfl
  · rw [hsel]
    split <;> omega
  · rw [hsel, hring, List.length_take, List.length_cons, MSG_RING_SIZE]
    split <;> omega

theorem Listed.apply (h : Listed ms ui.toContent) (now : UInt32) (m : OledMsg) :
    Listed (ms ++ (Event.apply m).message?.toList) (apply ui now m).toContent := by
  have hsame {c : Content} (hring : c.ring = ui.ring) (hsel : c.msgSel = ui.msgSel) :
      Listed (ms ++ []) c := by
    rw [List.append_nil]
    exact ⟨hring.trans h.ring, hsel ▸ h.least, hring ▸ hsel ▸ h.lt⟩
  cases m with
  | message sender text => exact h.message sender text rfl rfl
  | button btn longPress =>
      change Listed (ms ++ []) (Screen.press ui.toContent _)
      rw [List.append_nil]
      exact h.press _
  | progress title pct =>
      rw [Screen.apply]
      split
      · split <;> exact hsame rfl rfl
      · exact hsame rfl rfl
  | loraPkt tx ok rssi snr =>
      rw [Screen.apply]
      split
      · split <;> exact hsame rfl rfl
      · exact hsame rfl rfl
  | wifiRssi rssi =>
      rw [Screen.apply]
      split <;> exact hsame rfl rfl
  | lora s =>
      rw [Screen.apply]
      split <;> exact hsame rfl rfl
  | status text =>
      rw [Screen.apply]
      split <;> exact hsame rfl rfl
  | _ => exact hsame rfl rfl

theorem Listed.expired (h : Listed ms ui.toContent) (now : UInt32) :
    Listed ms (expired ui now).toContent := by
  have halert : Listed ms (expireAlert ui now).toContent := by
    unfold expireAlert
    split
    · exact ⟨h.ring, h.least, h.lt⟩
    · exact h
  have hmessage : Listed ms (expireMessage (expireAlert ui now) now).toContent := by
    unfold expireMessage
    split
    · exact halert.land
    · exact halert
  have hprogress :
      Listed ms (expireProgress (expireMessage (expireAlert ui now) now) now).toContent := by
    unfold expireProgress
    split
    · exact ⟨hmessage.ring, hmessage.least, hmessage.lt⟩
    · exact hmessage
  unfold Screen.expired keepAwake
  split <;> exact hprogress

theorem Listed.service {d : Display} (h : Listed ms d.ui.toContent) (now : UInt32) :
    Listed ms (service d now).ui.toContent := by
  have hserved : Listed ms (serveTimers d.ui now).toContent := by
    rw [serveTimers_eq, (switchPanel_fields _).1]
    exact h.expired now
  unfold Screen.service
  dsimp only
  split <;> exact hserved

theorem Listed.run {d : Display} (h : Listed ms d.ui.toContent) (es : List (UInt32 × Event)) :
    Listed (ms ++ messages es) (run d es).ui.toContent := by
  induction es generalizing d ms with
  | nil => rwa [messages, List.filterMap_nil, List.append_nil]
  | cons e es ih =>
      have hstep : Listed (ms ++ e.2.message?.toList) (step d e.1 e.2).ui.toContent := by
        obtain ⟨now, e⟩ := e
        cases e with
        | apply m => exact h.apply now m
        | service => exact (List.append_nil ms).symm ▸ h.service now
      have hcons : messages (e :: es) = e.2.message?.toList ++ messages es := by
        rw [messages, List.filterMap_cons]
        cases e.2.message? <;> rfl
      rw [hcons, ← List.append_assoc]
      exact ih hstep

/-- What is applied while the splash is shown. -/
def booted (boot : List (UInt32 × OledMsg)) : List (UInt32 × Event) :=
  boot.map fun e => (e.1, .apply e.2)

theorem listed_start (boot : List (UInt32 × OledMsg)) (now : UInt32) :
    Listed (messages (booted boot)) (start boot now).ui.toContent := by
  have hinit : Listed [] (⟨uiInit, none⟩ : Display).ui.toContent :=
    ⟨rfl, Int.le_refl _, by decide⟩
  have hrun : ∀ d : Display, (run d (booted boot)).ui =
      boot.foldl (fun ui e => Screen.apply ui e.1 e.2) d.ui := by
    intro d
    induction boot generalizing d with
    | nil => rfl
    | cons e boot ih => exact ih _
  have h := hinit.run (booted boot)
  rw [hrun, List.nil_append] at h
  exact h

theorem newest_natCast (ms : List (List Byte × List Byte)) (i : ℕ) :
    newest ms i = (ms.reverse.take MSG_RING_SIZE)[i]? := by
  unfold newest
  rw [List.getElem?_take]
  split
  · next h => rw [if_pos (by exact_mod_cast h.2), Int.toNat_natCast]
  · next h => rw [if_neg fun hlt => h ⟨Int.natCast_nonneg i, by exact_mod_cast hlt⟩]

/-- In every run the messages page shows the last five messages that the task was given, cut and
folded, as the arrays of the ring hold them, and the message that is chosen is one of them. -/
theorem list_of_messages (boot : List (UInt32 × OledMsg)) (t₀ : UInt32)
    (es : List (UInt32 × Event)) :
    let c := (run (start boot t₀) es).ui.toContent
    c.ring = (((received (messages (booted boot ++ es))).map shownMessage).reverse).take
        MSG_RING_SIZE ∧
    ∃ r, (received (messages (booted boot ++ es))).foldlM MessageRing.receive
        MessageRing.ringInit = some r ∧
      r.count.toNat = c.ring.length ∧
      (∀ i : ℕ, MessageRing.ringFrom r i = some (c.ring[i]?.elim [] Prod.fst) ∧
        MessageRing.ringText r i = some (c.ring[i]?.elim [] Prod.snd)) ∧
      -1 ≤ c.msgSel ∧ c.msgSel < c.ring.length := by
  intro c
  have hlisted : Listed (messages (booted boot ++ es)) c := by
    rw [messages, List.filterMap_append]
    exact (listed_start boot t₀).run es
  obtain ⟨r, hr, h⟩ := MessageRing.exists_receive (received (messages (booted boot ++ es)))
  refine ⟨hlisted.ring, r, hr, ?_, fun i => ?_, hlisted.least, hlisted.lt⟩
  · rw [h.count, hlisted.ring, List.length_take, List.length_reverse, Nat.min_comm]
  · rw [hlisted.ring, ← newest_natCast]
    exact h.read i

end Messages

end Screen

end Voyager
