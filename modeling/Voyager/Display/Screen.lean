import Voyager.Display.MessageRing

/-!
# The display task

One task owns the display. It applies the messages that other tasks queue, serves its timers, puts
the panel to sleep, and draws at most ten times a second. The frame on the panel is kept here as
the content it was drawn from. It is behind what the task knows only while the task still has to
draw.
-/

namespace Voyager

namespace Screen

open AsciiFold

open MessageRing (MSG_RING_SIZE MSG_FROM_LEN MSG_TEXT_LEN shownIn)

open WrapText (Text)

/-! ## Sleeping and waking -/

def SLEEP_TIMEOUT_MS : UInt32 := 60000
def HOLD_WAKE_WINDOW_MS : UInt32 := 2500

structure SleepState where
  on : Bool
  lastActivity : UInt32
  /-- a progress update woke the screen at `holdWakeAt` -/
  holdWake : Bool
  holdWakeAt : UInt32
  deriving DecidableEq

def sleepInit (now : UInt32) : SleepState where
  on := true
  lastActivity := now
  holdWake := false
  holdWakeAt := 0

/-- What the display task does with a button press. -/
inductive ButtonAction
  | none
  | wake
  | screenOff
  | nextPage
  | btn1
  deriving DecidableEq

/-- The press behind a progress update that woke the screen. -/
def SleepState.HoldWoke (s : SleepState) (btn : UInt8) (longPress : Bool) (now : UInt32) : Prop :=
  s.holdWake = true ∧ btn = 1 ∧ longPress = false ∧ now - s.holdWakeAt ≤ HOLD_WAKE_WINDOW_MS

instance (s : SleepState) (btn : UInt8) (longPress : Bool) (now : UInt32) :
    Decidable (s.HoldWoke btn longPress now) := inferInstanceAs (Decidable (_ ∧ _))

def sleepButton (s : SleepState) (btn : UInt8) (longPress : Bool) (now : UInt32) :
    SleepState × ButtonAction :=
  let s' := { s with holdWake := false, lastActivity := now }
  if s.HoldWoke btn longPress now then ({ s' with on := true }, .wake)
  else if btn = 2 ∧ longPress = true then
    ({ s' with on := !s.on }, if s.on then .screenOff else .wake)
  else if s.on = false then ({ s' with on := true }, .wake)
  else if btn = 2 then (s', .nextPage)
  else if btn = 1 ∧ longPress = false then (s', .btn1)
  else (s', .none)

def sleepWake (s : SleepState) (now : UInt32) : SleepState :=
  { s with on := true, lastActivity := now }

/-- A progress update remembers that it woke the screen. -/
def sleepWakeProgress (s : SleepState) (now : UInt32) : SleepState :=
  if s.on then sleepWake s now else { sleepWake s now with holdWake := true, holdWakeAt := now }

def sleepTick (s : SleepState) (now : UInt32) : SleepState :=
  if s.on = true ∧ SLEEP_TIMEOUT_MS ≤ now - s.lastActivity then { s with on := false } else s

/-! ## What is drawn -/

inductive WiFiStatus
  | disconnected
  | connecting
  | connectedAp
  | connectedSta
  deriving DecidableEq

inductive LoRaStatus
  | idle
  | transmitting
  | receiving
  | error
  deriving DecidableEq

inductive Page
  | status
  | messages
  | lora
  | network
  | system
  deriving DecidableEq

def nextPage : Page → Page
  | .status => .messages
  | .messages => .lora
  | .lora => .network
  | .network => .system
  | .system => .status

/-- The part of `UiState` that `render` reads. A `char` array is the string in it, and the ring of
messages the list of those it holds, the newest first. -/
structure Content where
  wifi : WiFiStatus
  ssid : List Byte
  ip : List Byte
  apKnown : Bool
  apSsid : List Byte
  apPass : List Byte
  apIp : List Byte
  wifiRssi : ℤ
  lora : LoRaStatus
  paramsKnown : Bool
  freq : ℤ
  bw : ℤ
  sf : ℤ
  rxSeen : Bool
  lastRssi : ℤ
  /-- the bits of a `float` -/
  lastSnr : UInt32
  txOk : UInt32
  txFail : UInt32
  rx : UInt32
  status : List Byte
  ring : List (List Byte × List Byte)
  /-- `-1` for the list, else the message of which all is shown -/
  msgSel : ℤ
  page : Page
  alertOn : Bool
  alertTitle : List Byte
  alertText : List Byte
  progOn : Bool
  progPct : UInt8
  progTitle : List Byte
  msgovOn : Bool
  msgovFrom : List Byte
  msgovText : List Byte

structure UiState extends Content where
  alertSticky : Bool
  alertUntil : UInt32
  progLast : UInt32
  msgovUntil : UInt32
  sleep : SleepState
  panelOn : Bool
  dirty : Bool
  lastDraw : UInt32

/-! ## Messages to the task -/

/-- The strings in a message are those in its `char` arrays. -/
inductive OledMsg
  | wifi (s : WiFiStatus) (ssid ip : Option Text)
  | ap (ssid pass ip : Text)
  | wifiRssi (rssi : ℤ)
  | lora (s : LoRaStatus)
  | loraPkt (tx ok : Bool) (rssi : ℤ) (snr : UInt32)
  | loraParams (freq sf bw : ℤ)
  | message (sender text : Text)
  | alert (title text : Text) (ms : UInt32)
  | progress (title : Text) (pct : UInt8)
  | button (btn : UInt8) (longPress : Bool)
  | status (text : Text)

def MSG_OVERLAY_MS : UInt32 := 2500
def PROGRESS_STALE_MS : UInt32 := 60000
def PROGRESS_HIDE : UInt8 := 255
def MIN_FRAME_MS : UInt32 := 100
def IDLE_TICK_MS : UInt32 := 1000
def BLINK_MS : UInt32 := 500

/-- `safe_copy` into an array of `n` bytes. -/
def cut (n : ℕ) (s : Text) : List Byte := copied n (some s)

/-- `safe_copy` and `ascii_fold` there. -/
def shown (n : ℕ) (s : Text) : List Byte := shownIn n (some s)

def clampPct (pct : UInt8) : UInt8 := if 100 < pct then 100 else pct

def msgSelectNext (sel : ℤ) (count : ℕ) : ℤ :=
  if count = 0 then -1 else if count ≤ sel + 1 then -1 else sel + 1

def landOnMessages (c : Content) : Content :=
  { c with msgovOn := false, page := .messages, msgSel := if 0 < c.ring.length then 0 else -1 }

/-- The `switch` of `handle_button`. -/
def press (c : Content) : ButtonAction → Content
  | .nextPage =>
      if c.alertOn then { c with alertOn := false }
      else if c.msgovOn then landOnMessages c
      else { c with page := nextPage c.page, msgSel := -1 }
  | .btn1 =>
      if c.alertOn then { c with alertOn := false }
      else if c.msgovOn then landOnMessages c
      else if c.page = .messages then { c with msgSel := msgSelectNext c.msgSel c.ring.length }
      else c
  | _ => c

def handleButton (ui : UiState) (btn : UInt8) (longPress : Bool) (now : UInt32) : UiState :=
  let (sleep, act) := sleepButton ui.sleep btn longPress now
  { ui with toContent := press ui.toContent act, sleep }

def apply (ui : UiState) (now : UInt32) : OledMsg → UiState
  | .wifi s ssid ip =>
      { ui with
        wifi := s
        ssid := ssid.elim ui.ssid (shown MSG_FROM_LEN)
        ip := ip.elim ui.ip (cut 16)
        dirty := true }
  | .ap ssid pass ip =>
      { ui with
        apKnown := true
        apSsid := shown MSG_FROM_LEN ssid
        apPass := cut 65 pass
        apIp := cut 16 ip
        dirty := true }
  | .wifiRssi rssi =>
      if ui.wifiRssi = rssi then ui else { ui with wifiRssi := rssi, dirty := true }
  | .lora s => if ui.lora = s then ui else { ui with lora := s, dirty := true }
  | .loraPkt tx ok rssi snr =>
      if tx then
        if ok then { ui with txOk := ui.txOk + 1, dirty := true }
        else { ui with txFail := ui.txFail + 1, dirty := true }
      else
        { ui with rx := ui.rx + 1, rxSeen := true, lastRssi := rssi, lastSnr := snr, dirty := true }
  | .loraParams freq sf bw => { ui with paramsKnown := true, freq, sf, bw, dirty := true }
  | .message sender text =>
      { ui with
        ring := ((shown MSG_FROM_LEN sender, shown MSG_TEXT_LEN text) :: ui.ring).take MSG_RING_SIZE
        msgSel := if 0 ≤ ui.msgSel then 0 else ui.msgSel
        msgovOn := true
        msgovUntil := now + MSG_OVERLAY_MS
        msgovFrom := shown MSG_FROM_LEN sender
        msgovText := shown MSG_TEXT_LEN text
        sleep := sleepWake ui.sleep now
        dirty := true }
  | .alert title text ms =>
      { ui with
        alertOn := true
        alertSticky := ms = 0
        alertUntil := now + ms
        alertTitle := shown MSG_FROM_LEN title
        alertText := shown MSG_TEXT_LEN text
        sleep := sleepWake ui.sleep now
        dirty := true }
  | .progress title pct =>
      if pct = PROGRESS_HIDE then
        if ui.progOn then { ui with progOn := false, dirty := true } else ui
      else
        { ui with
          progOn := true
          progPct := clampPct pct
          progLast := now
          progTitle := shown MSG_FROM_LEN title
          sleep := sleepWakeProgress ui.sleep now
          -- the same bar again is not drawn again
          dirty :=
            if ui.progOn ∧ ui.progPct = clampPct pct ∧ ui.progTitle = title.bytes then ui.dirty
            else true }
  | .button btn longPress => { handleButton ui btn longPress now with dirty := true }
  | .status text =>
      if ui.status = text.bytes then ui else { ui with status := shown MSG_TEXT_LEN text, dirty := true }

/-! ## Timers -/

/-- `(int32_t)(now - until) >= 0` -/
def due (now until_ : UInt32) : Prop := now - until_ < 0x80000000

instance (now until_ : UInt32) : Decidable (due now until_) := inferInstanceAs (Decidable (_ < _))

def expireAlert (ui : UiState) (now : UInt32) : UiState :=
  if ui.alertOn = true ∧ ui.alertSticky = false ∧ due now ui.alertUntil then
    { ui with alertOn := false, dirty := true }
  else ui

def expireMessage (ui : UiState) (now : UInt32) : UiState :=
  if ui.msgovOn = true ∧ due now ui.msgovUntil then 
    { ui with toContent := landOnMessages ui.toContent, dirty := true }
  else ui

def expireProgress (ui : UiState) (now : UInt32) : UiState :=
  if ui.progOn = true ∧ PROGRESS_STALE_MS ≤ now - ui.progLast then
    { ui with progOn := false, dirty := true }
  else ui

/-- A visible alert or progress bar keeps the screen awake. -/
def keepAwake (ui : UiState) (now : UInt32) : UiState :=
  if ui.alertOn ∨ ui.progOn then { ui with sleep := { ui.sleep with lastActivity := now } } else ui

/-- The panel follows the sleep state. -/
def switchPanel (ui : UiState) : UiState :=
  if ui.sleep.on = ui.panelOn then ui
  else { ui with panelOn := ui.sleep.on, dirty := if ui.sleep.on then true else ui.dirty }

/-- All that `service` does before it draws. -/
def serveTimers (ui : UiState) (now : UInt32) : UiState :=
  let ui := expireAlert ui now
  let ui := expireMessage ui now
  let ui := expireProgress ui now
  let ui := keepAwake ui now
  switchPanel { ui with sleep := sleepTick ui.sleep now }

def overlay (ui : UiState) : Bool := ui.alertOn || ui.progOn || ui.msgovOn

/-- Whether `service` calls `render`. -/
def Draws (ui : UiState) (now : UInt32) : Prop :=
  let since := now - ui.lastDraw
  ui.panelOn = true ∧
    (ui.dirty = true ∧ MIN_FRAME_MS ≤ since ∨
      overlay ui = false ∧ ui.page = .system ∧ IDLE_TICK_MS ≤ since ∨
      overlay ui = false ∧ ui.wifi = .connecting ∧ BLINK_MS ≤ since)

instance (ui : UiState) (now : UInt32) : Decidable (Draws ui now) :=
  inferInstanceAs (Decidable (_ ∧ (_ ∨ _ ∨ _)))

/-- The task, and what the frame on the panel was drawn from. -/
structure Display where
  ui : UiState
  frame : Option Content

def service (d : Display) (now : UInt32) : Display :=
  let ui := serveTimers d.ui now
  if Draws ui now then
    { ui := { ui with lastDraw := now, dirty := false }, frame := some ui.toContent }
  else { d with ui }

/-- `(int32_t)(until - now)`, or `0` when that is negative -/
def timeLeft (now until_ : UInt32) : UInt32 :=
  if until_ - now < 0x80000000 then until_ - now else 0

/-- How long the task may sleep before `service` is due. -/
def nextWaitMs (ui : UiState) (now : UInt32) : UInt32 :=
  let wait := if ui.wifi = .connecting then BLINK_MS else IDLE_TICK_MS
  let wait :=
    if ui.dirty = true ∧ ui.panelOn = true then
      let since := now - ui.lastDraw
      min wait (if MIN_FRAME_MS ≤ since then 0 else MIN_FRAME_MS - since)
    else wait
  let wait :=
    if ui.alertOn = true ∧ ui.alertSticky = false then
      min wait (timeLeft now ui.alertUntil)
    else wait
  if ui.msgovOn = true then min wait (timeLeft now ui.msgovUntil) else wait

def uiInit : UiState where
  wifi := .disconnected
  ssid := []
  ip := []
  apKnown := false
  apSsid := []
  apPass := []
  apIp := []
  wifiRssi := 0
  lora := .idle
  paramsKnown := false
  freq := 0
  bw := 0
  sf := 0
  rxSeen := false
  lastRssi := 0
  lastSnr := 0
  txOk := 0
  txFail := 0
  rx := 0
  status := []
  ring := []
  msgSel := -1
  page := .status
  alertOn := false
  alertTitle := []
  alertText := []
  progOn := false
  progPct := 0
  progTitle := []
  msgovOn := false
  msgovFrom := []
  msgovText := []
  alertSticky := false
  alertUntil := 0
  progLast := 0
  msgovUntil := 0
  sleep := { on := false, lastActivity := 0, holdWake := false, holdWakeAt := 0 }
  panelOn := true
  dirty := false
  lastDraw := 0

/-! ## Runs -/

/-- What the task does next: it applies a message, or it serves its timers. -/
inductive Event
  | apply (m : OledMsg)
  | service

def step (d : Display) (now : UInt32) : Event → Display
  | .apply m => { d with ui := apply d.ui now m }
  | .service => service d now

/-- The task when its loop begins: some messages are applied while the splash is shown. -/
def start (boot : List (UInt32 × OledMsg)) (now : UInt32) : Display where
  ui :=
    { boot.foldl (fun ui e => apply ui e.1 e.2) uiInit with
      sleep := sleepInit now, dirty := true, lastDraw := now - MIN_FRAME_MS }
  frame := none

def run (d : Display) (es : List (UInt32 × Event)) : Display :=
  es.foldl (fun d e => step d e.1 e.2) d

/-! ## The frame -/

section Frame

variable {ui : UiState} {d : Display} {now : UInt32}

/-- What was copied and folded is not changed by that again. -/
theorem shown_of_eq_shown {n : ℕ} (hn : 0 < n) {s s' : Text} (h : shown n s = s'.bytes) :
    shown n s' = s'.bytes := by
  have hle : (shown n s).length ≤ (copied n (some s)).length := length_folded_le false _
  have hlt := length_copied_lt hn (some s)
  have hcopied : copied n (some s') = s'.bytes := List.take_of_length_le (by rw [← h]; omega)
  rw [shown, shownIn, hcopied, ← h]
  exact folded_folded false (copied n (some s))

/-- The title of the progress bar was folded in its array. -/
def TitleFolded (title : List Byte) : Prop := title = [] ∨ ∃ s, title = shown MSG_FROM_LEN s

theorem TitleFolded.shown_eq {title : Text} (h : TitleFolded title.bytes) :
    shown MSG_FROM_LEN title = title.bytes := by
  rcases h with hnil | ⟨s, hs⟩
  · rw [shown, shownIn, copied, hnil]
    rfl
  · exact shown_of_eq_shown (by decide) hs.symm

theorem progTitle_press (c : Content) (act : ButtonAction) :
    (press c act).progTitle = c.progTitle := by
  unfold press
  split
  · split
    · rfl
    · split <;> rfl
  · split
    · rfl
    · split
      · rfl
      · split <;> rfl
  · rfl

/-- A message that changes what is drawn asks for a new frame. -/
theorem apply_dirty (now : UInt32) (h : TitleFolded ui.progTitle) (m : OledMsg) :
    (apply ui now m).panelOn = ui.panelOn ∧
      ((apply ui now m).dirty = true ∨
        (apply ui now m).toContent = ui.toContent ∧ (apply ui now m).dirty = ui.dirty) := by
  cases m with
  | wifi s ssid ip => exact ⟨rfl, .inl rfl⟩
  | ap ssid pass ip => exact ⟨rfl, .inl rfl⟩
  | wifiRssi rssi =>
      rw [apply]
      split
      · exact ⟨rfl, .inr ⟨rfl, rfl⟩⟩
      · exact ⟨rfl, .inl rfl⟩
  | lora s =>
      rw [apply]
      split
      · exact ⟨rfl, .inr ⟨rfl, rfl⟩⟩
      · exact ⟨rfl, .inl rfl⟩
  | loraPkt tx ok rssi snr =>
      rw [apply]
      split
      · split <;> exact ⟨rfl, .inl rfl⟩
      · exact ⟨rfl, .inl rfl⟩
  | loraParams freq sf bw => exact ⟨rfl, .inl rfl⟩
  | message sender text => exact ⟨rfl, .inl rfl⟩
  | alert title text ms => exact ⟨rfl, .inl rfl⟩
  | progress title pct =>
      rw [apply]
      split
      · split
        · exact ⟨rfl, .inl rfl⟩
        · exact ⟨rfl, .inr ⟨rfl, rfl⟩⟩
      · refine ⟨rfl, ?_⟩
        dsimp only
        split
        · next hsame =>
            obtain ⟨hon, hpct, htitle⟩ := hsame
            rw [htitle] at h
            right
            rw [h.shown_eq, ← htitle, ← hpct, ← hon]
            exact ⟨rfl, rfl⟩
        · exact .inl rfl
  | button btn longPress =>
      exact ⟨rfl, .inl rfl⟩
  | status text =>
      rw [apply]
      split
      · exact ⟨rfl, .inr ⟨rfl, rfl⟩⟩
      · exact ⟨rfl, .inl rfl⟩

theorem progTitle_apply (ui : UiState) (now : UInt32) (m : OledMsg) :
    (apply ui now m).progTitle = ui.progTitle ∨ TitleFolded (apply ui now m).progTitle := by
  cases m with
  | progress title pct =>
      rw [apply]
      split
      · split <;> exact .inl rfl
      · exact .inr (.inr ⟨title, rfl⟩)
  | button btn longPress => exact .inl (progTitle_press ui.toContent _)
  | loraPkt tx ok rssi snr =>
      rw [apply]
      split
      · split <;> exact .inl rfl
      · exact .inl rfl
  | wifiRssi rssi =>
      rw [apply]
      split <;> exact .inl rfl
  | lora s =>
      rw [apply]
      split <;> exact .inl rfl
  | status text =>
      rw [apply]
      split <;> exact .inl rfl
  | _ => exact .inl rfl

/-- What the timers do to the content, and whether it is drawn anew. -/
structure Served (ui ui' : UiState) : Prop where
  title : ui'.progTitle = ui.progTitle
  panelOn : ui'.panelOn = ui.panelOn
  lastDraw : ui'.lastDraw = ui.lastDraw
  dirty : ui'.dirty = true ∨ ui'.toContent = ui.toContent ∧ ui'.dirty = ui.dirty

theorem served_refl (ui : UiState) : Served ui ui := ⟨rfl, rfl, rfl, .inr ⟨rfl, rfl⟩⟩

theorem Served.trans {ui ui' ui'' : UiState} (h : Served ui ui') (h' : Served ui' ui'') :
    Served ui ui'' where
  title := h'.title.trans h.title
  panelOn := h'.panelOn.trans h.panelOn
  lastDraw := h'.lastDraw.trans h.lastDraw
  dirty := by
    rcases h'.dirty with hdirty | ⟨hcontent, hsame⟩
    · exact .inl hdirty
    · rw [hcontent, hsame]
      exact h.dirty

theorem served_expireAlert (ui : UiState) (now : UInt32) : Served ui (expireAlert ui now) := by
  unfold expireAlert
  split
  · exact ⟨rfl, rfl, rfl, .inl rfl⟩
  · exact served_refl ui

theorem served_expireMessage (ui : UiState) (now : UInt32) : Served ui (expireMessage ui now) := by
  unfold expireMessage
  split
  · exact ⟨rfl, rfl, rfl, .inl rfl⟩
  · exact served_refl ui

theorem served_expireProgress (ui : UiState) (now : UInt32) :
    Served ui (expireProgress ui now) := by
  unfold expireProgress
  split
  · exact ⟨rfl, rfl, rfl, .inl rfl⟩
  · exact served_refl ui

theorem served_keepAwake (ui : UiState) (now : UInt32) : Served ui (keepAwake ui now) := by
  unfold keepAwake
  split
  · exact ⟨rfl, rfl, rfl, .inr ⟨rfl, rfl⟩⟩
  · exact served_refl ui

/-- The state when the timers are served and the panel is still as it was. -/
def expired (ui : UiState) (now : UInt32) : UiState :=
  keepAwake (expireProgress (expireMessage (expireAlert ui now) now) now) now

theorem served_expired (ui : UiState) (now : UInt32) : Served ui (expired ui now) :=
  (((served_expireAlert ui now).trans (served_expireMessage _ now)).trans
    (served_expireProgress _ now)).trans (served_keepAwake _ now)

theorem serveTimers_eq (ui : UiState) (now : UInt32) :
    serveTimers ui now =
      switchPanel { expired ui now with sleep := sleepTick (expired ui now).sleep now } := rfl

theorem switchPanel_fields (ui : UiState) :
    (switchPanel ui).toContent = ui.toContent ∧ (switchPanel ui).sleep = ui.sleep ∧
      (switchPanel ui).panelOn = ui.sleep.on ∧ (switchPanel ui).lastDraw = ui.lastDraw ∧
      ((switchPanel ui).dirty = true ∨ (switchPanel ui).dirty = ui.dirty ∧
        ((switchPanel ui).panelOn = true → ui.panelOn = true)) := by
  unfold switchPanel
  split
  · next h => exact ⟨rfl, rfl, h.symm, rfl, .inr ⟨rfl, id⟩⟩
  · refine ⟨rfl, rfl, rfl, rfl, ?_⟩
    cases hon : ui.sleep.on with
    | true => exact .inl rfl
    | false => exact .inr ⟨rfl, fun h => absurd h Bool.false_ne_true⟩

/-- When the timers are served the panel is on or off as it is to be, and if it is on it shows what
it showed, or the content has to be drawn. -/
theorem serveTimers_spec (ui : UiState) (now : UInt32) :
    (serveTimers ui now).progTitle = ui.progTitle ∧
      (serveTimers ui now).panelOn = (serveTimers ui now).sleep.on ∧
      (serveTimers ui now).lastDraw = ui.lastDraw ∧
      ((serveTimers ui now).panelOn = true → (serveTimers ui now).dirty = true ∨
        ui.panelOn = true ∧ (serveTimers ui now).toContent = ui.toContent ∧
          (serveTimers ui now).dirty = ui.dirty) := by
  have hserved := served_expired ui now
  rw [serveTimers_eq]
  generalize expired ui now = ui₁ at *
  obtain ⟨hcontent, hsleep, hpanel, hlast, hdirty⟩ :=
    switchPanel_fields { ui₁ with sleep := sleepTick ui₁.sleep now }
  generalize switchPanel { ui₁ with sleep := sleepTick ui₁.sleep now } = ui₂ at *
  refine ⟨?_, ?_, hlast.trans hserved.lastDraw, fun hon => ?_⟩
  · rw [hcontent]
    exact hserved.title
  · rw [hpanel, hsleep]
  · rcases hdirty with hdirty | ⟨hsame, hwas⟩
    · exact .inl hdirty
    · rcases hserved.dirty with hdirty | ⟨hcontent', hsame'⟩
      · exact .inl (hsame.trans hdirty)
      · right
        rw [hcontent, hsame]
        exact ⟨hserved.panelOn ▸ hwas hon, hcontent', hsame'⟩

/-- The frame is behind only while the task still has to draw. -/
structure Current (d : Display) : Prop where
  title : TitleFolded d.ui.progTitle
  frame : d.ui.panelOn = true → d.ui.dirty = false → d.frame = some d.ui.toContent

theorem Current.apply (h : Current d) (now : UInt32) (m : OledMsg) :
    Current { d with ui := apply d.ui now m } := by
  obtain ⟨hpanel, hdirty⟩ := apply_dirty now h.title m
  constructor
  · rcases progTitle_apply d.ui now m with htitle | htitle
    · exact htitle ▸ h.title
    · exact htitle
  · intro hon hclean
    rcases hdirty with hdirty | ⟨hcontent, hsame⟩
    · exact absurd (hclean.symm.trans hdirty) Bool.false_ne_true
    · exact (h.frame (hpanel.symm.trans hon) (hsame.symm.trans hclean)).trans
        (congrArg some hcontent.symm)

theorem Current.service (h : Current d) (now : UInt32) : Current (service d now) := by
  obtain ⟨htitle, -, -, hserved⟩ := serveTimers_spec d.ui now
  unfold Screen.service
  dsimp only
  split
  · exact ⟨htitle ▸ h.title, fun _ _ => rfl⟩
  · refine ⟨htitle ▸ h.title, fun hon hclean => ?_⟩
    rcases hserved hon with hdirty | ⟨hwas, hcontent, hsame⟩
    · exact absurd (hclean.symm.trans hdirty) Bool.false_ne_true
    · exact (h.frame hwas (hsame.symm.trans hclean)).trans (congrArg some hcontent.symm)

theorem Current.run (h : Current d) (es : List (UInt32 × Event)) : Current (run d es) := by
  induction es generalizing d with
  | nil => exact h
  | cons e es ih =>
      apply ih
      obtain ⟨now, e⟩ := e
      cases e with
      | apply m => exact h.apply now m
      | service => exact h.service now

theorem current_start (boot : List (UInt32 × OledMsg)) (now : UInt32) :
    Current (start boot now) := by
  constructor
  · change TitleFolded (boot.foldl (fun ui e => apply ui e.1 e.2) uiInit).progTitle
    have hinit : TitleFolded uiInit.progTitle := .inl rfl
    generalize uiInit = ui at hinit ⊢
    induction boot generalizing ui with
    | nil => exact hinit
    | cons e boot ih =>
        apply ih
        rcases progTitle_apply ui e.1 e.2 with htitle | htitle
        · exact htitle ▸ hinit
        · exact htitle
  · exact fun _ hclean => absurd hclean.symm Bool.false_ne_true

theorem min_le_left' (a b : UInt32) : min a b ≤ a := by
  change (if a ≤ b then a else b) ≤ a
  split
  · exact UInt32.le_refl a
  · next h => exact UInt32.le_of_lt (UInt32.not_le.mp h)

theorem min_le_right' (a b : UInt32) : min a b ≤ b := by
  change (if a ≤ b then a else b) ≤ b
  split
  · assumption
  · exact UInt32.le_refl b

/-- What is left of the time for which the last frame stays on the panel. -/
def frameLeft (ui : UiState) (now : UInt32) : UInt32 :=
  if MIN_FRAME_MS ≤ now - ui.lastDraw then 0 else MIN_FRAME_MS - (now - ui.lastDraw)

/-- While there is something to draw the task sleeps no longer than until it may draw. -/
theorem nextWaitMs_le (hdirty : ui.dirty = true) (hon : ui.panelOn = true) (now : UInt32) :
    nextWaitMs ui now ≤ frameLeft ui now := by
  unfold nextWaitMs
  dsimp only
  rw [if_pos (⟨hdirty, hon⟩ : _ ∧ _)]
  have hframe (wait : UInt32) : min wait (frameLeft ui now) ≤ frameLeft ui now := min_le_right' _ _
  have hless (p : Prop) [Decidable p] (wait left : UInt32) (h : wait ≤ frameLeft ui now) :
      (if p then min wait left else wait) ≤ frameLeft ui now := by
    split
    · exact UInt32.le_trans (min_le_left' _ _) h
    · exact h
  exact hless _ _ _ (hless _ _ _ (hframe _))

/-- After every service of every run the panel is off, or it shows the content that the task has,
or the last frame is not yet a tenth of a second old and the task, whenever it then looks at the
clock, sleeps no longer than what is left of that. -/
theorem frame_current (boot : List (UInt32 × OledMsg)) (t₀ : UInt32)
    (es : List (UInt32 × Event)) (now : UInt32) :
    let d := run (start boot t₀) (es ++ [(now, .service)])
    d.ui.panelOn = true → d.frame = some d.ui.toContent ∨
      now - d.ui.lastDraw < MIN_FRAME_MS ∧
        ∀ later, nextWaitMs d.ui later ≤ frameLeft d.ui later := by
  intro d hon
  have hd : d = service (run (start boot t₀) es) now := by
    change run _ _ = _
    rw [run, List.foldl_append]
    rfl
  have hcurrent : Current d := hd ▸ ((current_start boot t₀).run es).service now
  by_cases hdirty : d.ui.dirty = true
  · right
    generalize run (start boot t₀) es = d₀ at hd
    have hwait : ¬ MIN_FRAME_MS ≤ now - d.ui.lastDraw := by
      by_cases hdraws : Draws (serveTimers d₀.ui now) now
      · rw [hd, service, if_pos hdraws] at hdirty
        exact absurd hdirty Bool.false_ne_true
      · rw [service, if_neg hdraws] at hd
        rw [hd] at hon hdirty ⊢
        exact fun hle => hdraws ⟨hon, .inl ⟨hdirty, hle⟩⟩
    exact ⟨UInt32.not_le.mp hwait, nextWaitMs_le hdirty hon⟩
  · exact .inl (hcurrent.frame hon (by simpa using hdirty))

end Frame

end Screen

end Voyager
