import Voyager.Core.Button
import Voyager.Display.Received
import Voyager.Library.Mealy

/-!
# The task of the buttons

The task polls both buttons and answers their events. It shows on the display how far the first
button has been held, sends an alarm when that is long enough, and otherwise hands the press to
the display. A press of the second button is handed to the display once, when it is released or
when it has become a long one.
-/

namespace Voyager

open AsciiFold (charGlyph)
open Button (BtnOutput CoreButton Cycle Sample)
open Kermit (JsString lit)
open LoraProto
open Payload
open Received (Posts Reads glyphs nameChars oledAlert sosText)
open Screen (OledMsg UiState)
open TextMessage
open Utf16 (encode utf8)

namespace ButtonTask

/-! ## The code -/

def CORE_SOS_HOLD_MS : UInt32 := 2000
def CORE_BTN2_LONG_MS : UInt32 := 1000

inductive Effect where
  /-- `oled_progress`, under `SOS_TITLE`. -/
  | oledProgress (pct : UInt8)
  | oledButton (btn : UInt8) (longPress : Bool)
  /-- `serial_print`. -/
  | log (text : String)
  | sendSos
  deriving DecidableEq, Repr

structure Task where
  b1 : CoreButton
  b2 : CoreButton
  /-- throttles the progress to steps of ten percent -/
  shownStep : UInt8

def start : Task where
  b1 := .new CORE_SOS_HOLD_MS
  b2 := .new CORE_BTN2_LONG_MS
  shownStep := 255

/-- The `switch` over what the first button reports. -/
def answer1 (shownStep : UInt8) (o : BtnOutput) : UInt8 × List Effect :=
  match o.ev with
  | .pressed | .progress =>
      if o.pct / 10 ≠ shownStep then (o.pct / 10, [.oledProgress o.pct]) else (shownStep, [])
  | .holdFired => (255, [.oledProgress 255, .log "BUTTON 1 held: SOS", .sendSos])
  | .shortRelease =>
      (255, [.oledProgress 255, .log "BUTTON 1 short press (SOS not sent)", .oledButton 1 false])
  | .longRelease | .none => (shownStep, [])

/-- What is done for the second button, which needs no state. -/
def answer2 (_ : Unit) (o : BtnOutput) : Unit × List Effect :=
  ((), if o.ev = .shortRelease then [.oledButton 2 false]
    else if o.ev = .holdFired then [.oledButton 2 true] else [])

/-- The levels of the buttons and the time at which they are read, without bound. -/
structure Poll where
  level1 : Bool
  level2 : Bool
  time : ℕ
  deriving DecidableEq, Repr

namespace Poll

variable (p : Poll)

def sample1 : Sample := ⟨p.level1, p.time⟩
def sample2 : Sample := ⟨p.level2, p.time⟩

end Poll

/-- One turn of the loop of `btn_intrupt`. -/
def poll (t : Task) (p : Poll) : Task × List Effect :=
  let now := UInt32.ofNat p.time
  let (b1, o1) := t.b1.update p.level1 now
  let (shownStep, effects1) := answer1 t.shownStep o1
  let (b2, o2) := t.b2.update p.level2 now
  ({ b1, b2, shownStep }, effects1 ++ (answer2 () o2).2)

/-- The task after some polls, the last one first. -/
def after : List Poll → Task
  | [] => start
  | p :: past => (poll (after past) p).1

/-- What it has done, the first thing first. -/
def effects : List Poll → List Effect
  | [] => []
  | p :: past => effects past ++ (poll (after past) p).2

/-! ## The two buttons apart -/

/-- What is done for the first button. -/
def Effect.ofFirst : Effect → Bool
  | .oledButton btn _ => btn = 1
  | _ => true

section Apart

variable {past : List Poll}

theorem ofFirst_answer1 (shownStep : UInt8) (o : BtnOutput) :
    ∀ e ∈ (answer1 shownStep o).2, e.ofFirst = true := by
  rw [answer1]
  cases o.ev with
  | pressed | progress =>
      dsimp only
      split
      · simp [Effect.ofFirst]
      · simp
  | _ => simp [Effect.ofFirst]

theorem ofFirst_answer2 (u : Unit) (o : BtnOutput) :
    ∀ e ∈ (answer2 u o).2, e.ofFirst = false := by
  unfold answer2
  split_ifs <;> simp [Effect.ofFirst]

theorem effects_poll (t : Task) (p : Poll) :
    (poll t p).2 = (answer1 t.shownStep (t.b1.update p.level1 (UInt32.ofNat p.time)).2).2 ++
      (answer2 () (t.b2.update p.level2 (UInt32.ofNat p.time)).2).2 := rfl

theorem filter_ofFirst_poll (t : Task) (p : Poll) :
    (poll t p).2.filter Effect.ofFirst =
        (answer1 t.shownStep (t.b1.update p.level1 (UInt32.ofNat p.time)).2).2 ∧
      (poll t p).2.filter (fun e => !e.ofFirst) =
        (answer2 () (t.b2.update p.level2 (UInt32.ofNat p.time)).2).2 := by
  have h1 := ofFirst_answer1 t.shownStep (t.b1.update p.level1 (UInt32.ofNat p.time)).2
  have h2 := ofFirst_answer2 () (t.b2.update p.level2 (UInt32.ofNat p.time)).2
  rw [effects_poll, List.filter_append, List.filter_append]
  constructor
  · rw [List.filter_eq_self.mpr h1, List.filter_eq_nil_iff.mpr fun e he => by simp [h2 e he],
      List.append_nil]
  · rw [List.filter_eq_nil_iff.mpr fun e he => by simp [h1 e he], List.nil_append,
      List.filter_eq_self.mpr fun e he => by simp [h2 e he]]

/-- A poll that reports nothing changes nothing. -/
theorem run_answer {σ : Type} {answer : σ → BtnOutput → σ × List Effect}
    (hnone : ∀ s o, o.ev = .none → answer s o = (s, [])) (s : σ) (o : BtnOutput) :
    Mealy.run answer s (if o.ev = .none then [] else [o]) = answer s o := by
  split
  · next h => rw [Mealy.run_nil, hnone s o h]
  · rw [Mealy.run_cons, Mealy.run_nil, List.append_nil]

theorem answer1_none {shownStep : UInt8} {o : BtnOutput} (h : o.ev = .none) :
    answer1 shownStep o = (shownStep, []) := by
  rw [answer1, h]

theorem answer2_none {u : Unit} {o : BtnOutput} (h : o.ev = .none) : answer2 u o = (u, []) := by
  rw [answer2, h]
  rfl

/-- Each button is answered as if the other one did not exist. -/
theorem after_eq (past : List Poll) :
    let events1 := Button.events CORE_SOS_HOLD_MS (past.map Poll.sample1)
    let events2 := Button.events CORE_BTN2_LONG_MS (past.map Poll.sample2)
    (after past).b1 = Button.after CORE_SOS_HOLD_MS (past.map Poll.sample1) ∧
      (after past).b2 = Button.after CORE_BTN2_LONG_MS (past.map Poll.sample2) ∧
      Mealy.run answer1 255 events1 =
        ((after past).shownStep, (effects past).filter Effect.ofFirst) ∧
      (Mealy.run answer2 () events2).2 = (effects past).filter (fun e => !e.ofFirst) := by
  induction past with
  | nil => exact ⟨rfl, rfl, rfl, rfl⟩
  | cons p past ih =>
      obtain ⟨hb1, hb2, hrun1, hrun2⟩ := ih
      obtain ⟨hpoll1, hpoll2⟩ := filter_ofFirst_poll (after past) p
      have hout1 : Button.output CORE_SOS_HOLD_MS (past.map Poll.sample1) p.sample1 =
          ((after past).b1.update p.level1 (UInt32.ofNat p.time)).2 := by
        rw [Button.output, hb1]
        rfl
      have hout2 : Button.output CORE_BTN2_LONG_MS (past.map Poll.sample2) p.sample2 =
          ((after past).b2.update p.level2 (UInt32.ofNat p.time)).2 := by
        rw [Button.output, hb2]
        rfl
      refine ⟨?_, ?_, ?_, ?_⟩
      · rw [List.map_cons, Button.after, ← hb1]
        rfl
      · rw [List.map_cons, Button.after, ← hb2]
        rfl
      · rw [List.map_cons, Button.events, Mealy.run_append, hrun1,
          run_answer (fun _ _ h => answer1_none h), hout1, effects, List.filter_append, hpoll1]
        rfl
      · rw [List.map_cons, Button.events, Mealy.run_append, hrun2,
          run_answer (fun _ _ h => answer2_none h), hout2, effects, List.filter_append, hpoll2]

end Apart

/-! ## Presses -/

/-- The percentages that are shown: the first one in each ten percent. -/
def throttled : UInt8 → List UInt8 → List UInt8
  | _, [] => []
  | step, p :: ps => if p / 10 ≠ step then p :: throttled (p / 10) ps else throttled step ps

/-- What is done for one press of the first button. The gauge begins at zero and grows by steps of
ten percent. -/
structure Press where
  gauge : List UInt8
  sos : Bool
  first : gauge.head? = some 0
  steps : gauge.Pairwise fun p q => p / 10 < q / 10
  range : ∀ p ∈ gauge, p ≤ 99

/-- The gauge of a press. -/
def Press.shown (p : Press) : List Effect := p.gauge.map Effect.oledProgress

/-- The gauge is taken away, and the alarm sent or the press handed to the display. -/
def Press.ends (p : Press) : List Effect :=
  .oledProgress 255 ::
    if p.sos then [.log "BUTTON 1 held: SOS", .sendSos]
    else [.log "BUTTON 1 short press (SOS not sent)", .oledButton 1 false]

def Press.effects (p : Press) : List Effect := p.shown ++ p.ends

section Presses

variable {step : UInt8} {ps : List UInt8} {c : Cycle}

theorem toNat_div_ten (p : UInt8) : (p / 10).toNat = p.toNat / 10 := UInt8.toNat_div p 10

/-- What is shown of growing percentages grows by steps of ten percent. -/
theorem throttled_steps (step : UInt8) (hps : ps.Pairwise (· < ·)) (hstep : ∀ p ∈ ps, step ≤ p / 10) :
    (∀ p ∈ throttled step ps, p ∈ ps ∧ step < p / 10) ∧
      (throttled step ps).Pairwise fun p q => p / 10 < q / 10 := by
  induction ps generalizing step with
  | nil => exact ⟨fun _ hp => absurd hp List.not_mem_nil, List.Pairwise.nil⟩
  | cons p ps ih =>
      obtain ⟨hlt, hps⟩ := List.pairwise_cons.mp hps
      obtain ⟨hle, hrest⟩ := List.forall_mem_cons.mp hstep
      rw [throttled]
      split
      · next hne =>
          have hgrows : ∀ q ∈ ps, p / 10 ≤ q / 10 := by
            intro q hq
            have hpq := UInt8.lt_iff_toNat_lt.mp (hlt q hq)
            rw [UInt8.le_iff_toNat_le, toNat_div_ten, toNat_div_ten]
            omega
          obtain ⟨hmem, hsteps⟩ := ih _ hps hgrows
          have hfirst : step < p / 10 := UInt8.lt_of_le_of_ne hle hne.symm
          refine ⟨List.forall_mem_cons.mpr ⟨⟨List.mem_cons_self, hfirst⟩, fun q hq => ?_⟩, ?_⟩
          · exact ⟨List.mem_cons_of_mem p (hmem q hq).1, UInt8.lt_trans hfirst (hmem q hq).2⟩
          · exact List.pairwise_cons.mpr ⟨fun q hq => (hmem q hq).2, hsteps⟩
      · obtain ⟨hmem, hsteps⟩ := ih _ hps hrest
        exact ⟨fun q hq => ⟨List.mem_cons_of_mem p (hmem q hq).1, (hmem q hq).2⟩, hsteps⟩

/-- The press with the events of `c`. -/
def pressOf (c : Cycle) : Press where
  gauge := 0 :: throttled 0 c.pcts
  sos := c.fired
  first := rfl
  steps := by
    obtain ⟨hmem, hsteps⟩ := throttled_steps 0 c.increasing fun p _ => UInt8.zero_le
    exact List.pairwise_cons.mpr ⟨fun q hq => (hmem q hq).2, hsteps⟩
  range := by
    obtain ⟨hmem, -⟩ := throttled_steps 0 c.increasing fun p _ => UInt8.zero_le
    exact List.forall_mem_cons.mpr ⟨by decide, fun q hq => (c.range q (hmem q hq).1).2⟩

theorem run_progress (hps : ∀ p ∈ ps, p ≤ 99) (hstep : step ≠ 255) :
    ∃ step', step' ≠ 255 ∧ Mealy.run answer1 step (ps.map fun p => ⟨.progress, p⟩) =
      (step', (throttled step ps).map Effect.oledProgress) := by
  induction ps generalizing step with
  | nil => exact ⟨step, hstep, rfl⟩
  | cons p ps ih =>
      obtain ⟨hp, hrest⟩ := List.forall_mem_cons.mp hps
      rw [List.map_cons, Mealy.run_cons, throttled]
      by_cases hne : p / 10 ≠ step
      · have hsmall : p / 10 ≠ 255 := by
          rw [ne_eq, ← UInt8.toNat_inj, toNat_div_ten]
          have hp := UInt8.le_iff_toNat_le.mp hp
          change p.toNat ≤ 99 at hp
          change ¬ p.toNat / 10 = 255
          omega
        obtain ⟨step', hstep', hrun⟩ := ih hrest hsmall
        have hanswer : answer1 step ⟨.progress, p⟩ = (p / 10, [.oledProgress p]) := if_pos hne
        refine ⟨step', hstep', ?_⟩
        rw [hanswer, hrun, if_pos hne]
        rfl
      · obtain ⟨step', hstep', hrun⟩ := ih hrest hstep
        have hanswer : answer1 step ⟨.progress, p⟩ = (step, []) := if_neg hne
        refine ⟨step', hstep', ?_⟩
        rw [hanswer, hrun, if_neg hne]
        rfl

/-- A press that is held: its gauge, and all there is to it once it has fired. -/
theorem run_held (c : Cycle) : ∃ step, (step = 255 ↔ c.fired = true) ∧
    Mealy.run answer1 255 c.held =
      (step, if c.fired then (pressOf c).effects else (pressOf c).shown) := by
  obtain ⟨step, hstep, hrun⟩ :=
    run_progress (fun p hp => (c.range p hp).2) (by decide : (0 : UInt8) ≠ 255)
  have hpressed : answer1 255 ⟨.pressed, 0⟩ = (0, [.oledProgress 0]) := by decide
  rw [Cycle.held, List.cons_append, Mealy.run_cons, hpressed, Mealy.run_append, hrun]
  cases hfired : c.fired with
  | false =>
      refine ⟨step, by simp [hstep], ?_⟩
      simp [pressOf, Press.shown]
  | true =>
      refine ⟨255, by simp, ?_⟩
      simp [pressOf, Press.effects, Press.shown, Press.ends, hfired, Mealy.run_cons, answer1]

theorem run_events (c : Cycle) : Mealy.run answer1 255 c.events = (255, (pressOf c).effects) := by
  obtain ⟨step, hstep, hrun⟩ := run_held c
  rw [Cycle.events, Mealy.run_append, hrun, Mealy.run_cons, Mealy.run_nil, Cycle.release]
  cases hfired : c.fired with
  | false => simp [answer1, Press.effects, Press.ends, pressOf, hfired]
  | true => simp [answer1, hstep.mpr hfired]

theorem run_cycles (cycles : List Cycle) :
    Mealy.run answer1 255 (cycles.flatMap Cycle.events) =
      (255, (cycles.map pressOf).flatMap Press.effects) := by
  induction cycles with
  | nil => rfl
  | cons c cycles ih =>
      rw [List.flatMap_cons, Mealy.run_append, run_events, ih, List.map_cons, List.flatMap_cons]

/-- The second button is answered once, at the end of the hold time or at the release. -/
theorem run_held2 (c : Cycle) : (Mealy.run answer2 () c.held).2 =
    if c.fired then [.oledButton 2 true] else [] := by
  have hprogress : ∀ ps : List UInt8,
      (Mealy.run answer2 () (ps.map fun p => ⟨.progress, p⟩)).2 = [] := by
    intro ps
    induction ps with
    | nil => rfl
    | cons p ps ih =>
        rw [List.map_cons, Mealy.run_cons, ih]
        rfl
  have hpressed : answer2 () ⟨.pressed, 0⟩ = ((), []) := rfl
  rw [Cycle.held, List.cons_append, Mealy.run_cons, hpressed, Mealy.run_append, hprogress]
  cases c.fired <;> rfl

theorem run_cycles2 (cycles : List Cycle) :
    (Mealy.run answer2 () (cycles.flatMap Cycle.events)).2 =
      cycles.map fun c => .oledButton 2 c.fired := by
  induction cycles with
  | nil => rfl
  | cons c cycles ih =>
      rw [List.flatMap_cons, Mealy.run_append, ih, Cycle.events, Mealy.run_append, run_held2,
        Cycle.release, List.map_cons]
      cases c.fired <;> rfl

/-! ## Runs -/

/-- How often a button was pressed. -/
def presses (hold : UInt32) (past : List Sample) : ℕ :=
  (Button.events hold past).countP fun o => o.ev = .pressed

/-- The button is held, and not for its hold time yet. -/
def Charging (b : CoreButton) : Prop := b.stable = true ∧ b.fired = false

theorem countP_held (c : Cycle) : c.held.countP (fun o => o.ev = .pressed) = 1 := by
  have hprogress : (c.pcts.map fun p => (⟨.progress, p⟩ : BtnOutput)).countP
      (fun o => o.ev = .pressed) = 0 := by
    rw [List.countP_eq_zero]
    intro o ho
    obtain ⟨p, -, rfl⟩ := List.mem_map.mp ho
    simp
  rw [Cycle.held, List.cons_append, List.countP_cons_of_pos (by simp), List.countP_append,
    hprogress]
  cases c.fired <;> simp

theorem countP_cycles (cycles : List Cycle) :
    (cycles.flatMap Cycle.events).countP (fun o => o.ev = .pressed) = cycles.length := by
  induction cycles with
  | nil => rfl
  | cons c cycles ih =>
      have hrelease : [c.release].countP (fun o => o.ev = .pressed) = 0 := by
        rw [Cycle.release]
        cases c.fired <;> simp
      rw [List.flatMap_cons, List.countP_append, ih, Cycle.events, List.countP_append, countP_held,
        hrelease, List.length_cons]
      omega

/-- What the events of a button look like: whole presses, and the one that is held. -/
theorem events_shape (hold : UInt32) (hpos : 1 ≤ hold.toNat) (hhold : hold.toNat ≤ 2 ^ 31)
    {past : List Sample} (ht : Button.Timed past) :
    ∃ cycles : List Cycle,
      (Button.events hold past = cycles.flatMap Cycle.events ∧
          (Button.after hold past).stable = false) ∨
        ∃ c : Cycle, Button.events hold past = cycles.flatMap Cycle.events ++ c.held ∧
          (Button.after hold past).stable = true ∧ c.fired = (Button.after hold past).fired := by
  have hinv := Button.inv_after hpos hhold ht
  cases hstable : (Button.after hold past).stable with
  | false =>
      obtain ⟨-, cycles, hevents⟩ := hinv.idle hstable
      exact ⟨cycles, .inl ⟨hevents, rfl⟩⟩
  | true =>
      obtain ⟨c, -, ⟨-, ⟨cycles, rfl⟩, hevents⟩, hfired, -⟩ := hinv.held hstable
      exact ⟨cycles, .inr ⟨c, hevents, rfl, hfired⟩⟩

/-- Less than `2 ^ 31` milliseconds lie between two polls. -/
def Timed (past : List Poll) : Prop :=
  past.IsChain fun later earlier => earlier.time ≤ later.time ∧ later.time < earlier.time + 2 ^ 31

theorem Timed.samples {past : List Poll} (ht : Timed past) :
    Button.Timed (past.map Poll.sample1) ∧ Button.Timed (past.map Poll.sample2) :=
  ⟨List.isChain_map_of_isChain Poll.sample1 (fun _ _ h => h) ht,
    List.isChain_map_of_isChain Poll.sample2 (fun _ _ h => h) ht⟩

/-- The button was pressed at least `hold` milliseconds before the poll `p`. -/
def HeldFor (hold : UInt32) (past : List Sample) (time : ℕ) : Prop :=
  ∃ t, Button.lastPressed hold past = some t ∧ t + hold.toNat ≤ time

/-- The presses of the first button are answered one after the other, and the gauge of one is on
the display exactly while it is held and has not fired. -/
def FirstAnswered (past : List Poll) : Prop :=
  ∃ ps : List Press,
    (¬ Charging (after past).b1 →
      (effects past).filter Effect.ofFirst = ps.flatMap Press.effects ∧
        (after past).shownStep = 255 ∧
        presses CORE_SOS_HOLD_MS (past.map Poll.sample1) = ps.length) ∧
    (Charging (after past).b1 → ∃ p : Press,
      (effects past).filter Effect.ofFirst = ps.flatMap Press.effects ++ p.shown ∧
        (after past).shownStep ≠ 255 ∧
        presses CORE_SOS_HOLD_MS (past.map Poll.sample1) = ps.length + 1)

/-- Each press of the second button is handed to the display once, `longs` saying which of them
were long. -/
def SecondAnswered (past : List Poll) : Prop :=
  ∃ longs : List Bool,
    (effects past).filter (fun e => !e.ofFirst) = longs.map (Effect.oledButton 2) ∧
      (¬ Charging (after past).b2 →
        presses CORE_BTN2_LONG_MS (past.map Poll.sample2) = longs.length) ∧
      (Charging (after past).b2 →
        presses CORE_BTN2_LONG_MS (past.map Poll.sample2) = longs.length + 1)

theorem firstAnswered {past : List Poll} (ht : Timed past) : FirstAnswered past := by
  obtain ⟨hb1, -, hrun, -⟩ := after_eq past
  obtain ⟨cycles, hshape⟩ := events_shape CORE_SOS_HOLD_MS (by decide) (by decide)
    ht.samples.1
  rw [← hb1] at hshape
  rcases hshape with ⟨hevents, hstable⟩ | ⟨c, hevents, hstable, hfired⟩
  · have hnot : ¬ Charging (after past).b1 := fun h =>
      Bool.false_ne_true (hstable.symm.trans h.1)
    rw [hevents, run_cycles, Prod.mk.injEq] at hrun
    refine ⟨cycles.map pressOf, fun _ => ⟨hrun.2.symm, hrun.1.symm, ?_⟩, fun h => absurd h hnot⟩
    rw [presses, hevents, countP_cycles, List.length_map]
  · obtain ⟨step, hstep, hheld⟩ := run_held c
    have hcount : presses CORE_SOS_HOLD_MS (past.map Poll.sample1) = cycles.length + 1 := by
      rw [presses, hevents, List.countP_append, countP_cycles, countP_held]
    rw [hevents, Mealy.run_append, run_cycles, hheld, Prod.mk.injEq] at hrun
    cases hcharged : c.fired with
    | true =>
        have hnot : ¬ Charging (after past).b1 := fun h =>
          Bool.false_ne_true (h.2.symm.trans (hfired.symm.trans hcharged))
        refine ⟨(cycles ++ [c]).map pressOf, fun _ => ⟨?_, ?_, ?_⟩, fun h => absurd h hnot⟩
        · rw [← hrun.2, if_pos hcharged, List.map_append, List.flatMap_append]
          simp
        · rw [← hrun.1]
          exact hstep.mpr hcharged
        · rw [hcount, List.length_map, List.length_append, List.length_singleton]
    | false =>
        have hcharging : Charging (after past).b1 := ⟨hstable, hfired.symm.trans hcharged⟩
        refine ⟨cycles.map pressOf, fun h => absurd hcharging h, fun _ => ⟨pressOf c, ?_, ?_, ?_⟩⟩
        · rw [← hrun.2, if_neg (by simp [hcharged])]
        · rw [← hrun.1]
          exact fun h => Bool.false_ne_true (hcharged.symm.trans (hstep.mp h))
        · rw [hcount, List.length_map]

theorem secondAnswered {past : List Poll} (ht : Timed past) : SecondAnswered past := by
  obtain ⟨-, hb2, -, hrun⟩ := after_eq past
  obtain ⟨cycles, hshape⟩ := events_shape CORE_BTN2_LONG_MS (by decide) (by decide)
    ht.samples.2
  rw [← hb2] at hshape
  rcases hshape with ⟨hevents, hstable⟩ | ⟨c, hevents, hstable, hfired⟩
  · have hnot : ¬ Charging (after past).b2 := fun h =>
      Bool.false_ne_true (hstable.symm.trans h.1)
    rw [hevents, run_cycles2] at hrun
    refine ⟨cycles.map Cycle.fired, ?_, fun _ => ?_, fun h => absurd h hnot⟩
    · rw [← hrun, List.map_map]
      rfl
    · rw [presses, hevents, countP_cycles, List.length_map]
  · have hcount : presses CORE_BTN2_LONG_MS (past.map Poll.sample2) = cycles.length + 1 := by
      rw [presses, hevents, List.countP_append, countP_cycles, countP_held]
    rw [hevents, Mealy.run_append, run_cycles2, run_held2] at hrun
    cases hcharged : c.fired with
    | true =>
        have hnot : ¬ Charging (after past).b2 := fun h =>
          Bool.false_ne_true (h.2.symm.trans (hfired.symm.trans hcharged))
        refine ⟨(cycles ++ [c]).map Cycle.fired, ?_, fun _ => ?_, fun h => absurd h hnot⟩
        · rw [← hrun, hcharged, List.map_append, List.map_append, List.map_map]
          simp [hcharged]
        · rw [hcount, List.length_map, List.length_append, List.length_singleton]
    | false =>
        have hcharging : Charging (after past).b2 := ⟨hstable, hfired.symm.trans hcharged⟩
        refine ⟨cycles.map Cycle.fired, ?_, fun h => absurd hcharging h, fun _ => ?_⟩
        · rw [← hrun, hcharged, List.map_map]
          simp
        · rw [hcount, List.length_map]

theorem holdFired_of_sendSos {step : UInt8} {o : BtnOutput}
    (h : Effect.sendSos ∈ (answer1 step o).2) : o.ev = .holdFired := by
  rw [answer1] at h
  cases hev : o.ev with
  | holdFired => rfl
  | pressed | progress =>
      simp only [hev] at h
      split at h <;> simp at h
  | _ => simp [hev] at h

theorem holdFired_of_long {u : Unit} {o : BtnOutput}
    (h : Effect.oledButton 2 true ∈ (answer2 u o).2) : o.ev = .holdFired := by
  unfold answer2 at h
  split_ifs at h with hshort hhold
  · simp at h
  · exact hhold
  · simp at h

/-- In every run each press of a button is answered once and in its turn: a press of the first one
with its gauge, which is taken away again, and then the alarm or a short press, a press of the
second one with a short or a long press. The alarm and the long press come only when the button
has been held for two seconds and for one. -/
theorem presses_answered {past : List Poll} (ht : Timed past) :
    FirstAnswered past ∧ SecondAnswered past ∧ ∀ p rest, p :: rest <:+ past →
      (Effect.sendSos ∈ (poll (after rest) p).2 →
        HeldFor CORE_SOS_HOLD_MS (rest.map Poll.sample1) p.time) ∧
      (Effect.oledButton 2 true ∈ (poll (after rest) p).2 →
        HeldFor CORE_BTN2_LONG_MS (rest.map Poll.sample2) p.time) := by
  refine ⟨firstAnswered ht, secondAnswered ht, fun p rest hsuffix => ?_⟩
  have ht : Timed (p :: rest) := ht.suffix hsuffix
  have htail : Timed rest := List.IsChain.tail ht
  obtain ⟨hb1, hb2, -, -⟩ := after_eq rest
  have hof1 := ofFirst_answer1 (after rest).shownStep
    ((after rest).b1.update p.level1 (UInt32.ofNat p.time)).2
  have hof2 := ofFirst_answer2 () ((after rest).b2.update p.level2 (UInt32.ofNat p.time)).2
  rw [effects_poll]
  constructor
  · intro h
    have hinv : Button.Inv CORE_SOS_HOLD_MS _ _ _ _ :=
      Button.inv_after (by decide) (by decide) htail.samples.1
    refine (hinv.timely (by decide) ht.samples.1).fired ?_
    rw [Button.output, ← hb1]
    refine holdFired_of_sendSos ((List.mem_append.mp h).resolve_right fun h2 => ?_)
    exact absurd (hof2 _ h2) (by decide)
  · intro h
    have hinv : Button.Inv CORE_BTN2_LONG_MS _ _ _ _ :=
      Button.inv_after (by decide) (by decide) htail.samples.2
    refine (hinv.timely (by decide) ht.samples.2).fired ?_
    rw [Button.output, ← hb2]
    refine holdFired_of_long ((List.mem_append.mp h).resolve_left fun h1 => ?_)
    exact absurd (hof1 _ h1) (by decide)

/-- The first button is held for its hold time, and the second one pressed for a moment. -/
def alarmRun : List Poll :=
  [⟨false, false, 2300⟩, ⟨false, false, 2200⟩, ⟨true, false, 2100⟩, ⟨true, false, 1000⟩,
    ⟨true, false, 900⟩, ⟨true, true, 150⟩, ⟨true, true, 100⟩, ⟨true, false, 50⟩, ⟨false, false, 0⟩]

example : effects alarmRun =
    [.oledProgress 0, .oledProgress 40, .oledButton 2 false, .oledProgress 255,
      .log "BUTTON 1 held: SOS", .sendSos] := by decide +kernel

theorem presses_answered_alarmRun :
    FirstAnswered alarmRun ∧ SecondAnswered alarmRun ∧ ∀ p rest, p :: rest <:+ alarmRun →
      (Effect.sendSos ∈ (poll (after rest) p).2 →
        HeldFor CORE_SOS_HOLD_MS (rest.map Poll.sample1) p.time) ∧
      (Effect.oledButton 2 true ∈ (poll (after rest) p).2 →
        HeldFor CORE_BTN2_LONG_MS (rest.map Poll.sample2) p.time) :=
  presses_answered (by unfold Timed; decide)

end Presses

/-! ## The alarm -/

/-- The payload of an alarm. -/
def sosPayload (json : DeviceJson) (name mac : List Byte) : List Byte :=
  json.serializeJson (fillLoraMsg (some name) (some mac) (some
    (json.serializeJson [(ascii "pack_type", ascii "action"), (ascii "data", ascii "sos")])))

/-- `send_sos`: what is queued for the radio, and the alert about it. There may be no memory, or no
room in the queue for 50 ms. -/
def sendSos (json : DeviceJson) (name mac : List Byte) (heap room : Bool) :
    Option QueueParam × OledMsg :=
  if !heap then (none, oledAlert sosText ⟨ascii "failed: no memory", by decide +kernel⟩ 3000)
  else if !room then (none, oledAlert sosText ⟨ascii "failed: queue full", by decide +kernel⟩ 3000)
  else
    (some { type := T_LORA_MSG, message := sosPayload json name mac, id := 0 },
      oledAlert sosText ⟨ascii "sent", by decide +kernel⟩ 3000)

section Alarm

variable {deserializeJson : List Byte → Option JsonVariant} {json : DeviceJson}
  {user : List Char} {mac : List Byte}

theorem begun_of_le {n : ℕ} {cs : List Char} (h : (utf8 cs).length ≤ n) :
    Received.begun n cs = cs := by
  induction cs generalizing n with
  | nil => cases n <;> rfl
  | cons c cs ih =>
      rw [Utf16.utf8_cons, List.length_append, String.length_utf8EncodeChar] at h
      have hpos := c.utf8Size_pos
      cases n with
      | zero => omega
      | succ n => rw [Received.begun, ih (by omega)]

theorem sos_members :
    List.Forall₂ (fun (m : JsString × JsString) (b : FlatJson.Member) =>
      SameText m.1 b.1 ∧ SameText m.2 b.2)
      [(lit "pack_type", lit "action"), (lit "data", lit "sos")]
      [(ascii "pack_type", ascii "action"), (ascii "data", ascii "sos")] :=
  .cons ⟨sameText_of_all (s := lit "pack_type") (by decide),
      sameText_of_all (s := lit "action") (by decide)⟩
    (.cons ⟨sameText_of_all (s := lit "data") (by decide),
      sameText_of_all (s := lit "sos") (by decide)⟩ .nil)

theorem length_getUsername_le (hmac : IsMac mac) (hlen : (utf8 user).length ≤ 32) :
    (getUsername (utf8 user) mac).length ≤ 32 := by
  rw [getUsername]
  split
  · rw [hmac.1]
    decide
  · exact hlen

/-- An alarm fits a frame whatever the name is. -/
theorem length_sosPayload (hjson : json.Documented) (huser : Clean user) (hmac : IsMac mac)
    (hlen : (utf8 user).length ≤ 32) :
    (sosPayload json (getUsername (utf8 user) mac) mac).length ≤ MAX_PAYLOAD := by
  have hzero := getUsername_ne_zero huser hmac
  have hname := length_getUsername_le hmac hlen
  have hstring := FlatJson.length_writeString_le hzero
  have hkey : ∀ c ∈ ascii "name" ++ ascii "mac" ++ ascii "data" ++ ascii "pack_type" ++
      ascii "action" ++ ascii "sos", c ≠ 0 := by decide +kernel
  have hinner : json.serializeJson [(ascii "pack_type", ascii "action"),
      (ascii "data", ascii "sos")] =
        FlatJson.writeObject [(ascii "pack_type", ascii "action"), (ascii "data", ascii "sos")] :=
    hjson.serializes _ (plain_of_forall₂ sos_members)
  have hdata : ∀ c ∈ FlatJson.writeObject [(ascii "pack_type", ascii "action"),
      (ascii "data", ascii "sos")], c ≠ 0 := by decide +kernel
  have hconst : (FlatJson.writeString (ascii "name")).length = 6 ∧
      (FlatJson.writeString (ascii "mac")).length = 5 ∧
      (FlatJson.writeString (ascii "data")).length = 6 ∧
      (FlatJson.writeString (FlatJson.writeObject [(ascii "pack_type", ascii "action"),
        (ascii "data", ascii "sos")])).length = 45 := by decide +kernel
  rw [sosPayload, hinner, hjson.serializes]
  · simp only [fillLoraMsg, Option.getD_some, FlatJson.writeObject, FlatJson.writeRest,
      FlatJson.writeMember, List.length_cons, List.length_append, List.length_nil,
      hmac.length_writeString, MAX_PAYLOAD] at hconst ⊢
    omega
  · simp only [fillLoraMsg, Option.getD_some, List.forall_mem_cons, List.not_mem_nil,
      false_implies, implies_true, and_true]
    exact ⟨⟨fun c hc => hkey c (by simp [hc]), hzero⟩,
      ⟨fun c hc => hkey c (by simp [hc]), hmac.ne_zero⟩,
      ⟨fun c hc => hkey c (by simp [hc]), hdata⟩⟩

/-- An alarm is queued whenever there is memory and room for it, and always fits a frame. Every
board that takes the frame names the sender on its pages and, for five seconds, on its display. -/
theorem sos_arrives (other : JsString → Option Js) (hjson : json.Documented)
    (hread : Reads deserializeJson) (huser : Clean user) (hmac : IsMac mac)
    (hlen : (utf8 user).length ≤ 32) (heap room : Bool) :
    let queued := (sendSos json (getUsername (utf8 user) mac) mac heap room).1
    (queued.isSome = true ↔ heap = true ∧ room = true) ∧ ∀ p ∈ queued,
      p.type = T_LORA_MSG ∧
      Arrives other json p.message (.sos (senderName user mac)) ∧
      ∃ m, Posts deserializeJson p.message (some m) ∧ ∀ (ui : UiState) (now : UInt32),
        let ui' := Screen.apply ui now m
        ui'.alertOn = true ∧ ui'.alertSticky = false ∧ ui'.alertUntil = now + 5000 ∧
          ui'.alertTitle = ascii "SOS" ∧ ui'.alertText = (nameChars user mac).map charGlyph ∧
          ui'.sleep.on = true := by
  intro queued
  constructor
  · simp only [queued, sendSos]
    cases heap <;> cases room <;> simp
  · intro p hp
    have hmsg : p.type = T_LORA_MSG ∧
        p.message = sosPayload json (getUsername (utf8 user) mac) mac := by
      simp only [queued, sendSos] at hp
      split_ifs at hp
      · exact absurd hp (by simp)
      · exact absurd hp (by simp)
      · cases hp
        exact ⟨rfl, rfl⟩
    have htext : SameText (payloadText user mac (buildAction (lit "sos") []))
        (sosPayload json (getUsername (utf8 user) mac) mac) :=
      sameText_payload hjson huser hmac (sameText_serializeJson hjson sos_members)
    have hfits := length_sosPayload hjson huser hmac hlen
    rw [hmsg.2]
    refine ⟨hmsg.1, ?_, ?_⟩
    · have harrives := arrives_of_sameText other hjson htext hfits
      rw [buildAction, parseLoraRx_payload other hmac] at harrives
      exact harrives
    · have hinfo := Received.parseLoraMsg_payload hread huser hmac
        [("pack_type".toList, "action".toList), ("data".toList, "sos".toList)]
        (by decide) htext
      have hposts := Received.posts deserializeJson htext.ne_zero hfits
      have hsos : Received.parseLoraMsg deserializeJson (some (cString
          (sosPayload json (getUsername (utf8 user) mac) mac))) =
            { sender := getUsername (utf8 user) mac, kind := .sos } := hinfo
      refine ⟨oledAlert sosText (Received.cText (getUsername (utf8 user) mac)) 5000, ?_,
        fun ui now => ⟨rfl, rfl, rfl, ?_, ?_, rfl⟩⟩
      · rwa [Received.handleLoraMsgForOled, hsos] at hposts
      · change Screen.shown _ (Received.cutText _ sosText) = _
        decide +kernel
      · have hbytes : (Received.cText (getUsername (utf8 user) mac)).bytes =
            utf8 (nameChars user mac) := by
          rw [(Received.utf8_nameChars hmac).1]
          exact List.takeWhile_eq_self_iff.mpr fun c hc => by
            simpa using getUsername_ne_zero huser hmac c hc
        have hshown := Received.shown_cutText (n := MessageRing.MSG_TEXT_LEN) hbytes
        rw [glyphs, begun_of_le] at hshown
        · exact hshown
        · rw [(Received.utf8_nameChars hmac).1]
          exact (length_getUsername_le hmac hlen).trans (by decide)

/-- The name of a board with a quote in it. -/
def quotedName : List Char := ['"', 'ü']

theorem sos_arrives_quotedName :
    let queued := (sendSos flatDevice (getUsername (utf8 quotedName) someMac) someMac true true).1
    (queued.isSome = true ↔ true = true ∧ true = true) ∧ ∀ p ∈ queued,
      p.type = T_LORA_MSG ∧
      Arrives (fun _ => none) flatDevice p.message (.sos (senderName quotedName someMac)) ∧
      ∃ m, Posts Received.readFlat p.message (some m) ∧ ∀ (ui : UiState) (now : UInt32),
        let ui' := Screen.apply ui now m
        ui'.alertOn = true ∧ ui'.alertSticky = false ∧ ui'.alertUntil = now + 5000 ∧
          ui'.alertTitle = ascii "SOS" ∧
          ui'.alertText = (nameChars quotedName someMac).map charGlyph ∧ ui'.sleep.on = true :=
  sos_arrives (fun _ => none) flatDevice_documented Received.reads_readFlat
    (by simp [Clean, quotedName]) isMac_someMac (by decide) true true

end Alarm

end ButtonTask

end Voyager
