import Mathlib.Data.List.Chain
import Voyager.Basic
import Voyager.Library.Clock

/-!
# The buttons

`CoreButton` is given the level of a pin at each poll, removes its bounces, and reports a
press, its progress towards the hold time, the end of the hold time and the release. The
events of a press come in that order whatever the level does, and each of them only after the
time that it stands for.
-/

namespace Voyager

namespace Button

def CORE_BTN_DEBOUNCE_MS : UInt32 := 30

inductive BtnEvent
  | none
  | pressed
  | progress
  | holdFired
  | shortRelease
  | longRelease
  deriving DecidableEq, Repr

structure BtnOutput where
  ev : BtnEvent
  pct : UInt8
  deriving DecidableEq, Repr

structure CoreButton where
  holdMs : UInt32
  raw : Bool
  rawSince : UInt32
  stable : Bool
  pressStart : UInt32
  fired : Bool
  lastPct : UInt8
  deriving DecidableEq, Repr

namespace CoreButton

/-- The constructor. -/
def new (hold : UInt32) : CoreButton where
  holdMs := hold
  raw := false
  rawSince := 0
  stable := false
  pressStart := 0
  fired := false
  lastPct := 255

variable (b : CoreButton) (pressed : Bool) (now : UInt32)

/-- The start of `update`: the last sample and when it changed. -/
def sample : CoreButton :=
  if pressed ≠ b.raw then { b with raw := pressed, rawSince := now } else b

/-- The percentage of the hold time that has passed. -/
def percent : UInt8 :=
  UInt8.ofNat ((now - b.pressStart).toNat * 100 / b.holdMs.toNat)

/-- The last part of `update`: a press that has not fired yet. -/
def hold : CoreButton × BtnOutput :=
  if now - b.pressStart ≥ b.holdMs then ({ b with fired := true }, ⟨.holdFired, 100⟩)
  else if b.percent now ≠ b.lastPct then
    ({ b with lastPct := b.percent now }, ⟨.progress, b.percent now⟩)
  else (b, ⟨.none, 0⟩)

def update : CoreButton × BtnOutput :=
  let b := b.sample pressed now
  if b.raw ≠ b.stable ∧ now - b.rawSince ≥ CORE_BTN_DEBOUNCE_MS then
    if b.raw then
      ({ b with stable := true, pressStart := now, fired := false, lastPct := 0 }, ⟨.pressed, 0⟩)
    else
      ({ b with stable := false, fired := false, lastPct := 255 },
        ⟨if b.fired then .longRelease else .shortRelease, 0⟩)
  else if b.stable ∧ ¬ b.fired then b.hold now
  else (b, ⟨.none, 0⟩)

end CoreButton

/-! ## Runs -/

/-- One poll. The time counts the milliseconds without bound; the button is given it modulo
`2 ^ 32`. -/
structure Sample where
  level : Bool
  time : ℕ
  deriving DecidableEq, Repr

/-- The button after some polls, the last one first. -/
def after (hold : UInt32) : List Sample → CoreButton
  | [] => .new hold
  | s :: past => ((after hold past).update s.level (UInt32.ofNat s.time)).1

/-- What the last poll returns. -/
def output (hold : UInt32) (past : List Sample) (s : Sample) : BtnOutput :=
  ((after hold past).update s.level (UInt32.ofNat s.time)).2

/-- The events so far, the first one first. -/
def events (hold : UInt32) : List Sample → List BtnOutput
  | [] => []
  | s :: past =>
      events hold past ++
        if (output hold past s).ev = .none then [] else [output hold past s]

/-- Less than `2 ^ 31` milliseconds lie between two polls. -/
def Timed (past : List Sample) : Prop :=
  past.IsChain fun later earlier => earlier.time ≤ later.time ∧ later.time < earlier.time + 2 ^ 31

/-- When the last `pressed` was returned. -/
def lastPressed (hold : UInt32) : List Sample → Option ℕ
  | [] => none
  | s :: past =>
      if (output hold past s).ev = .pressed then some s.time else lastPressed hold past

/-! ## What the events look like -/

/-- The events of one press: the percentages that are reported, and whether the hold time was
reached. -/
structure Cycle where
  pcts : List UInt8
  fired : Bool
  increasing : pcts.Pairwise (· < ·)
  range : ∀ p ∈ pcts, 1 ≤ p ∧ p ≤ 99

/-- The events up to the release. -/
def Cycle.held (c : Cycle) : List BtnOutput :=
  ⟨.pressed, 0⟩ :: c.pcts.map (fun p => ⟨.progress, p⟩) ++
    if c.fired then [⟨.holdFired, 100⟩] else []

def Cycle.release (c : Cycle) : BtnOutput :=
  ⟨if c.fired then .longRelease else .shortRelease, 0⟩

def Cycle.events (c : Cycle) : List BtnOutput := c.held ++ [c.release]

/-- All polls from one at least `ms` milliseconds ago on, up to the last one, saw its level. -/
def SteadyFor (ms : ℕ) (past : List Sample) (s : Sample) : Prop :=
  ∃ r ∈ (s :: past).takeWhile (fun r => r.level = s.level), r.time + ms ≤ s.time

/-- The event of a poll comes after the time that it stands for. -/
structure Timely (hold : UInt32) (past : List Sample) (s : Sample) : Prop where
  pressed : (output hold past s).ev = .pressed →
    s.level = true ∧ SteadyFor CORE_BTN_DEBOUNCE_MS.toNat past s
  released : (output hold past s).ev = .shortRelease ∨ (output hold past s).ev = .longRelease →
    s.level = false ∧ SteadyFor CORE_BTN_DEBOUNCE_MS.toNat past s
  fired : (output hold past s).ev = .holdFired →
    ∃ t, lastPressed hold past = some t ∧ t + hold.toNat ≤ s.time

/-! ## One poll -/

section Poll

variable {b : CoreButton} {pressed : Bool} {now : UInt32}

/-- What `update` does with a button that has taken the sample. -/
inductive Updates (b : CoreButton) (now : UInt32) : CoreButton → BtnOutput → Prop
  | press (hraw : b.raw = true) (hstable : b.stable = false)
      (hsteady : CORE_BTN_DEBOUNCE_MS ≤ now - b.rawSince) :
      Updates b now { b with stable := true, pressStart := now, fired := false, lastPct := 0 }
        ⟨.pressed, 0⟩
  | release (hraw : b.raw = false) (hstable : b.stable = true)
      (hsteady : CORE_BTN_DEBOUNCE_MS ≤ now - b.rawSince) :
      Updates b now { b with stable := false, fired := false, lastPct := 255 }
        ⟨if b.fired then .longRelease else .shortRelease, 0⟩
  | fire (hsettled : b.raw ≠ b.stable → now - b.rawSince < CORE_BTN_DEBOUNCE_MS)
      (hstable : b.stable = true) (hfired : b.fired = false)
      (hheld : b.holdMs ≤ now - b.pressStart) :
      Updates b now { b with fired := true } ⟨.holdFired, 100⟩
  | progress (hsettled : b.raw ≠ b.stable → now - b.rawSince < CORE_BTN_DEBOUNCE_MS)
      (hstable : b.stable = true) (hfired : b.fired = false)
      (hheld : now - b.pressStart < b.holdMs) (hpct : b.percent now ≠ b.lastPct) :
      Updates b now { b with lastPct := b.percent now } ⟨.progress, b.percent now⟩
  | quiet (hsettled : b.raw ≠ b.stable → now - b.rawSince < CORE_BTN_DEBOUNCE_MS)
      (hquiet : b.stable = true → b.fired = false →
        now - b.pressStart < b.holdMs ∧ b.percent now = b.lastPct) :
      Updates b now b ⟨.none, 0⟩

theorem updates_hold (hsettled : b.raw ≠ b.stable → now - b.rawSince < CORE_BTN_DEBOUNCE_MS)
    (hstable : b.stable = true) (hfired : b.fired = false) :
    Updates b now (b.hold now).1 (b.hold now).2 := by
  rw [CoreButton.hold]
  split
  · next hheld => exact .fire hsettled hstable hfired hheld
  · next hheld =>
      have hheld := UInt32.not_le.mp hheld
      split
      · next hpct => exact .progress hsettled hstable hfired hheld hpct
      · next hpct => exact .quiet hsettled fun _ _ => ⟨hheld, not_not.mp hpct⟩

theorem updates_update (b : CoreButton) (pressed : Bool) (now : UInt32) :
    Updates (b.sample pressed now) now (b.update pressed now).1 (b.update pressed now).2 := by
  rw [CoreButton.update]
  generalize b.sample pressed now = b
  split
  · next h =>
      obtain ⟨hne, hsteady⟩ := h
      split
      · next hraw => exact .press hraw (by simpa [hraw] using hne) hsteady
      · next hraw =>
          have hraw : b.raw = false := by simpa using hraw
          exact .release hraw (by simpa [hraw] using hne) hsteady
  · next h =>
      have hsettled : b.raw ≠ b.stable → now - b.rawSince < CORE_BTN_DEBOUNCE_MS := fun hne =>
        UInt32.not_le.mp fun hle => h ⟨hne, hle⟩
      split
      · next hheld => exact updates_hold hsettled hheld.1 (by simpa using hheld.2)
      · next hheld =>
          exact .quiet hsettled fun hstable hfired => absurd ⟨hstable, by simp [hfired]⟩ hheld

end Poll

/-! ## Times -/

section Times

variable {hold : UInt32} {past : List Sample} {s : Sample}

theorem Timed.tail (ht : Timed (s :: past)) : Timed past := List.IsChain.tail ht

/-- The polls before are not later, and the one just before not long ago. -/
theorem Timed.head (ht : Timed (s :: past)) :
    ∀ r ∈ past.head?, r.time ≤ s.time ∧ s.time < r.time + 2 ^ 31 := by
  intro r hr
  obtain ⟨rest, rfl⟩ := List.head?_eq_some_iff.mp hr
  exact (List.isChain_cons_cons.mp ht).1

theorem Timed.le (ht : Timed (s :: past)) : ∀ r ∈ past, r.time ≤ s.time := by
  induction past generalizing s with
  | nil => exact fun r hr => absurd hr List.not_mem_nil
  | cons g past ih =>
      intro r hr
      have hg := (ht.head g rfl).1
      rcases List.mem_cons.mp hr with rfl | hr
      · exact hg
      · exact (ih ht.tail r hr).trans hg

/-- The percentage after `x` milliseconds. -/
def pctAt (hold : UInt32) (x : ℕ) : UInt8 := UInt8.ofNat (x * 100 / hold.toNat)

theorem toNat_pctAt {x : ℕ} (hx : x < hold.toNat) :
    (pctAt hold x).toNat = x * 100 / hold.toNat ∧ (pctAt hold x).toNat ≤ 99 := by
  have hlt : x * 100 / hold.toNat < 100 := by
    rw [Nat.div_lt_iff_lt_mul (by omega)]
    omega
  have heq : (pctAt hold x).toNat = x * 100 / hold.toNat := toNat_ofNat_of_lt (by omega)
  exact ⟨heq, by omega⟩

theorem pctAt_le {x y : ℕ} (hxy : x ≤ y) (hy : y < hold.toNat) : pctAt hold x ≤ pctAt hold y := by
  rw [UInt8.le_iff_toNat_le, (toNat_pctAt (hxy.trans_lt hy)).1, (toNat_pctAt hy).1]
  exact Nat.div_le_div_right (Nat.mul_le_mul_right 100 hxy)

end Times

/-! ## The invariant -/

section Invariant

variable {hold : UInt32} {past : List Sample} {s : Sample}

/-- A level that is not taken yet has been seen for less than the debounce time. -/
def Unsettled (past : List Sample) (b : CoreButton) : Prop :=
  ∃ r ∈ past.takeWhile (fun r => r.level = b.raw), b.rawSince = UInt32.ofNat r.time ∧
    ∀ s ∈ past.head?, s.time < r.time + CORE_BTN_DEBOUNCE_MS.toNat

/-- A press that has not reached the hold time, `t` being when it began. -/
structure Holding (past : List Sample) (b : CoreButton) (c : Cycle) (t : ℕ) : Prop where
  start : b.pressStart = UInt32.ofNat t
  le : ∀ s ∈ past.head?, t ≤ s.time
  lt : ∀ s ∈ past.head?, s.time < t + b.holdMs.toNat
  pct : ∀ s ∈ past.head?, b.lastPct = pctAt b.holdMs (s.time - t)
  pcts : ∀ p ∈ c.pcts, p ≤ b.lastPct

/-- The events so far are whole presses. -/
def Idle (evs : List BtnOutput) : Prop := ∃ cycles : List Cycle, evs = cycles.flatMap Cycle.events

/-- They are whole presses and the beginning of the press `c`. -/
def During (evs : List BtnOutput) (c : Cycle) : Prop := ∃ evs', Idle evs' ∧ evs = evs' ++ c.held

/-- What holds of the button `b` after the polls `past`, with the events `evs`, when `last` is the
time of the last press. -/
structure Inv (hold : UInt32) (past : List Sample) (b : CoreButton) (evs : List BtnOutput)
    (last : Option ℕ) : Prop where
  holdMs : b.holdMs = hold
  start : past = [] → b.stable = false
  unsettled : b.raw ≠ b.stable → Unsettled past b
  idle : b.stable = false → b.fired = false ∧ Idle evs
  held : b.stable = true → ∃ c t, During evs c ∧ c.fired = b.fired ∧ last = some t ∧
    (b.fired = false → Holding past b c t)

theorem inv_nil : Inv hold [] (.new hold) [] none where
  holdMs := rfl
  start _ := rfl
  unsettled h := absurd rfl h
  idle _ := ⟨rfl, [], rfl⟩
  held h := by cases h

variable {b₀ b b' : CoreButton} {evs : List BtnOutput} {last : Option ℕ} {out : BtnOutput}

/-- What a poll finds after it has taken the sample: a level that is not taken yet was seen by
all polls since the time that is stored. -/
theorem Inv.sample (hinv : Inv hold past b₀ evs last) (ht : Timed (s :: past))
    (hb : b = b₀.sample s.level (UInt32.ofNat s.time)) (hne : b.raw ≠ b.stable) :
    ∃ r ∈ (s :: past).takeWhile (fun r => r.level = b.raw), b.rawSince = UInt32.ofNat r.time ∧
      (UInt32.ofNat s.time - b.rawSince).toNat = s.time - r.time ∧ r.time ≤ s.time := by
  rw [CoreButton.sample] at hb
  split at hb
  · subst hb
    refine ⟨s, by simp, rfl, ?_, le_refl _⟩
    rw [Clock.toNat_sub_at (le_refl _) (by omega)]
  · next heq =>
      have hraw : s.level = b₀.raw := not_not.mp heq
      subst hb
      obtain ⟨r, hr, hsince, hlt⟩ := hinv.unsettled hne
      have hmem := List.takeWhile_subset _ hr
      have hle := ht.le r hmem
      obtain ⟨g, rest, rfl⟩ := List.exists_cons_of_ne_nil (List.ne_nil_of_mem hmem)
      have hgap := (ht.head g rfl).2
      have hbound := hlt g rfl
      refine ⟨r, ?_, hsince, ?_, hle⟩
      · rw [List.takeWhile_cons_of_pos (by simpa using hraw)]
        exact List.mem_cons_of_mem s hr
      · have hms : CORE_BTN_DEBOUNCE_MS.toNat = 30 := rfl
        rw [hsince, Clock.toNat_sub_at hle (by omega)]

theorem sample_fields (b₀ : CoreButton) (level : Bool) (now : UInt32) :
    (b₀.sample level now).raw = level ∧ (b₀.sample level now).holdMs = b₀.holdMs ∧
      (b₀.sample level now).stable = b₀.stable ∧ (b₀.sample level now).fired = b₀.fired ∧
      (b₀.sample level now).pressStart = b₀.pressStart ∧
      (b₀.sample level now).lastPct = b₀.lastPct := by
  rw [CoreButton.sample]
  split
  · exact ⟨rfl, rfl, rfl, rfl, rfl, rfl⟩
  · next h => exact ⟨(not_not.mp h).symm, rfl, rfl, rfl, rfl, rfl⟩

/-- A press that has not reached the hold time, at the poll `s`. -/
structure Held (s : Sample) (b : CoreButton) (c : Cycle) (t : ℕ) : Prop where
  start : b.pressStart = UInt32.ofNat t
  le : t ≤ s.time
  elapsed : (UInt32.ofNat s.time - b.pressStart).toNat = s.time - t
  low : s.time - t < b.holdMs.toNat → b.lastPct ≤ pctAt b.holdMs (s.time - t)
  pcts : ∀ p ∈ c.pcts, p ≤ b.lastPct

/-- What the button `b` is like when it has taken the sample `s`. -/
structure Sampled (hold : UInt32) (past : List Sample) (s : Sample) (b : CoreButton)
    (evs : List BtnOutput) (last : Option ℕ) : Prop where
  holdMs : b.holdMs = hold
  level : b.raw = s.level
  steady : b.raw ≠ b.stable → CORE_BTN_DEBOUNCE_MS ≤ UInt32.ofNat s.time - b.rawSince →
    SteadyFor CORE_BTN_DEBOUNCE_MS.toNat past s
  unsettled : b.raw ≠ b.stable → UInt32.ofNat s.time - b.rawSince < CORE_BTN_DEBOUNCE_MS →
    Unsettled (s :: past) b
  idle : b.stable = false → b.fired = false ∧ Idle evs
  held : b.stable = true → ∃ c t, During evs c ∧ c.fired = b.fired ∧ last = some t ∧
    (b.fired = false → Held s b c t)

/-- The clock shows how long the button has been held. -/
theorem Inv.elapsed (hinv : Inv hold past b₀ evs last) (hhold : hold.toNat ≤ 2 ^ 31)
    (ht : Timed (s :: past)) (hstable : b₀.stable = true) {c : Cycle} {t : ℕ}
    (h : Holding past b₀ c t) : Held s b₀ c t := by
  have hne : past ≠ [] := fun hnil =>
    Bool.false_ne_true ((hinv.start hnil).symm.trans hstable)
  obtain ⟨g, rest, rfl⟩ := List.exists_cons_of_ne_nil hne
  obtain ⟨hgle, hgap⟩ := ht.head g rfl
  have hle := h.le g rfl
  have hlt := h.lt g rfl
  have hbound : b₀.holdMs.toNat ≤ 2 ^ 31 := hinv.holdMs ▸ hhold
  constructor
  · exact h.start
  · exact hle.trans hgle
  · rw [h.start, Clock.toNat_sub_at (hle.trans hgle) (by omega)]
  · intro hx
    rw [h.pct g rfl]
    exact pctAt_le (by omega) hx
  · exact h.pcts

theorem Inv.sampled (hinv : Inv hold past b₀ evs last) (hhold : hold.toNat ≤ 2 ^ 31)
    (ht : Timed (s :: past)) (hb : b = b₀.sample s.level (UInt32.ofNat s.time)) :
    Sampled hold past s b evs last := by
  obtain ⟨hlevel, hholdMs, hstable, hfired, hstart, hpct⟩ :=
    sample_fields b₀ s.level (UInt32.ofNat s.time)
  rw [← hb] at hlevel hholdMs hstable hfired hstart hpct
  constructor
  · exact hholdMs.trans hinv.holdMs
  · exact hlevel
  · intro hne hsteady
    obtain ⟨r, hr, -, helapsed, hle⟩ := hinv.sample ht hb hne
    rw [UInt32.le_iff_toNat_le, helapsed] at hsteady
    exact ⟨r, hlevel ▸ hr, by omega⟩
  · intro hne hlt
    obtain ⟨r, hr, hsince, helapsed, hle⟩ := hinv.sample ht hb hne
    rw [UInt32.lt_iff_toNat_lt, helapsed] at hlt
    refine ⟨r, hr, hsince, ?_⟩
    rintro g ⟨⟩
    omega
  · exact fun h => hfired ▸ hinv.idle (hstable ▸ h)
  · intro h
    rw [hstable] at h
    obtain ⟨c, t, hduring, hc, hlast, hholding⟩ := hinv.held h
    refine ⟨c, t, hduring, hc.trans hfired.symm, hlast, fun hnot => ?_⟩
    have hheld := hinv.elapsed hhold ht h (hholding (hfired ▸ hnot))
    exact ⟨hstart.trans hheld.start, hheld.le, hstart ▸ hheld.elapsed,
      by rw [hholdMs, hpct]; exact hheld.low, hpct ▸ hheld.pcts⟩

/-- A press with one more percentage reported. -/
def Cycle.report (c : Cycle) (p : UInt8) (hgt : ∀ q ∈ c.pcts, q < p) (hp : 1 ≤ p ∧ p ≤ 99)
    : Cycle where
  pcts := c.pcts ++ [p]
  fired := false
  increasing := by
    refine List.pairwise_append.mpr ⟨c.increasing, List.pairwise_singleton _ _, ?_⟩
    intro q hq r hr
    rw [List.mem_singleton.mp hr]
    exact hgt q hq
  range := by
    intro q hq
    rcases List.mem_append.mp hq with hq | hq
    · exact c.range q hq
    · rw [List.mem_singleton.mp hq]
      exact hp

/-- A press that has just begun. -/
def Cycle.begin : Cycle where
  pcts := []
  fired := false
  increasing := List.Pairwise.nil
  range _ hp := absurd hp List.not_mem_nil

/-- A press whose hold time is over. -/
def Cycle.fire (c : Cycle) : Cycle := { c with fired := true }

theorem During.report {c : Cycle} (h : During evs c) (hfired : c.fired = false) {p : UInt8}
    (hgt : ∀ q ∈ c.pcts, q < p) (hp : 1 ≤ p ∧ p ≤ 99) :
    During (evs ++ [⟨.progress, p⟩]) (c.report p hgt hp) := by
  obtain ⟨evs', hidle, rfl⟩ := h
  refine ⟨evs', hidle, ?_⟩
  simp [Cycle.held, Cycle.report, hfired]

theorem During.fire {c : Cycle} (h : During evs c) (hfired : c.fired = false) :
    During (evs ++ [⟨.holdFired, 100⟩]) c.fire := by
  obtain ⟨evs', hidle, rfl⟩ := h
  refine ⟨evs', hidle, ?_⟩
  simp [Cycle.held, Cycle.fire, hfired]

theorem Idle.press (h : Idle evs) : During (evs ++ [⟨.pressed, 0⟩]) .begin := ⟨evs, h, rfl⟩

theorem During.release {c : Cycle} (h : During evs c) : Idle (evs ++ [c.release]) := by
  obtain ⟨evs', ⟨cycles, rfl⟩, rfl⟩ := h
  refine ⟨cycles ++ [c], ?_⟩
  rw [List.flatMap_append, List.flatMap_singleton, Cycle.events, List.append_assoc]

/-- A press that is held at the last poll. -/
theorem holding_now {c : Cycle} {t : ℕ} (hstart : b.pressStart = UInt32.ofNat t)
    (hle : t ≤ s.time) (hlt : s.time - t < b.holdMs.toNat)
    (hpct : b.lastPct = pctAt b.holdMs (s.time - t)) (hpcts : ∀ p ∈ c.pcts, p ≤ b.lastPct) :
    Holding (s :: past) b c t where
  start := hstart
  le := by
    rintro g ⟨⟩
    exact hle
  lt := by
    rintro g ⟨⟩
    omega
  pct := by
    rintro g ⟨⟩
    exact hpct
  pcts := hpcts

/-- The percentage that `update` computes is that of the time since the press. -/
theorem Held.percent_eq {c : Cycle} {t : ℕ} (h : Held s b c t) :
    b.percent (UInt32.ofNat s.time) = pctAt b.holdMs (s.time - t) := by
  rw [CoreButton.percent, h.elapsed, pctAt]

theorem Sampled.press (h : Sampled hold past s b evs last) (hpos : 1 ≤ hold.toNat)
    (hraw : b.raw = true) (hstable : b.stable = false) :
    Inv hold (s :: past)
      { b with stable := true, pressStart := UInt32.ofNat s.time, fired := false, lastPct := 0 }
      (evs ++ [⟨.pressed, 0⟩]) (some s.time) where
  holdMs := h.holdMs
  start hnil := absurd hnil (List.cons_ne_nil s past)
  unsettled hne := absurd hraw hne
  idle hnot := absurd hnot.symm Bool.false_ne_true
  held _ := by
    obtain ⟨-, hidle⟩ := h.idle hstable
    refine ⟨.begin, s.time, hidle.press, rfl, rfl, fun _ => holding_now rfl (le_refl _) ?_ ?_ ?_⟩
    · rw [Nat.sub_self]
      change 0 < b.holdMs.toNat
      rw [h.holdMs]
      exact hpos
    · rw [Nat.sub_self, pctAt, Nat.zero_mul, Nat.zero_div]
      rfl
    · exact fun p hp => absurd hp List.not_mem_nil

theorem Sampled.release (h : Sampled hold past s b evs last) (hraw : b.raw = false)
    (hstable : b.stable = true) :
    Inv hold (s :: past) { b with stable := false, fired := false, lastPct := 255 }
      (evs ++ [⟨if b.fired then .longRelease else .shortRelease, 0⟩]) last where
  holdMs := h.holdMs
  start _ := rfl
  unsettled hne := absurd hraw hne
  idle _ := by
    obtain ⟨c, t, hduring, hc, -, -⟩ := h.held hstable
    have hidle := hduring.release
    rw [Cycle.release, hc] at hidle
    exact ⟨rfl, hidle⟩
  held hnot := absurd hnot Bool.false_ne_true

theorem Sampled.fire (h : Sampled hold past s b evs last)
    (hsettled : b.raw ≠ b.stable → UInt32.ofNat s.time - b.rawSince < CORE_BTN_DEBOUNCE_MS)
    (hstable : b.stable = true) (hfired : b.fired = false) :
    Inv hold (s :: past) { b with fired := true } (evs ++ [⟨.holdFired, 100⟩]) last where
  holdMs := h.holdMs
  start hnil := absurd hnil (List.cons_ne_nil s past)
  unsettled hne := h.unsettled hne (hsettled hne)
  idle hnot := absurd (hstable.symm.trans hnot).symm Bool.false_ne_true
  held _ := by
    obtain ⟨c, t, hduring, hc, hlast, -⟩ := h.held hstable
    exact ⟨c.fire, t, hduring.fire (hc.trans hfired), rfl, hlast,
      fun hnot => absurd hnot.symm Bool.false_ne_true⟩

theorem Sampled.progress (h : Sampled hold past s b evs last)
    (hsettled : b.raw ≠ b.stable → UInt32.ofNat s.time - b.rawSince < CORE_BTN_DEBOUNCE_MS)
    (hstable : b.stable = true) (hfired : b.fired = false)
    (hheld : UInt32.ofNat s.time - b.pressStart < b.holdMs)
    (hpct : b.percent (UInt32.ofNat s.time) ≠ b.lastPct) :
    Inv hold (s :: past) { b with lastPct := b.percent (UInt32.ofNat s.time) }
      (evs ++ [⟨.progress, b.percent (UInt32.ofNat s.time)⟩]) last where
  holdMs := h.holdMs
  start hnil := absurd hnil (List.cons_ne_nil s past)
  unsettled hne := h.unsettled hne (hsettled hne)
  idle hnot := absurd (hstable.symm.trans hnot).symm Bool.false_ne_true
  held _ := by
    obtain ⟨c, t, hduring, hc, hlast, hheld_t⟩ := h.held hstable
    have hh := hheld_t hfired
    rw [UInt32.lt_iff_toNat_lt, hh.elapsed] at hheld
    rw [hh.percent_eq] at hpct ⊢
    -- the percentage grows with the time, and it is not the last one
    have hlast_lt : b.lastPct < pctAt b.holdMs (s.time - t) :=
      UInt8.lt_of_le_of_ne (hh.low hheld) hpct.symm
    have hgt : ∀ q ∈ c.pcts, q < pctAt b.holdMs (s.time - t) := fun q hq =>
      UInt8.lt_of_le_of_lt (hh.pcts q hq) hlast_lt
    have hrange : 1 ≤ pctAt b.holdMs (s.time - t) ∧ pctAt b.holdMs (s.time - t) ≤ 99 :=
      ⟨UInt8.le_iff_toNat_le.mpr (Nat.one_le_of_lt (UInt8.lt_iff_toNat_lt.mp hlast_lt)),
        UInt8.le_iff_toNat_le.mpr (toNat_pctAt hheld).2⟩
    refine ⟨c.report _ hgt hrange, t, hduring.report (hc.trans hfired) hgt hrange, hfired.symm,
      hlast, fun _ => holding_now hh.start hh.le hheld rfl ?_⟩
    intro p hp
    rcases List.mem_append.mp hp with hp | hp
    · exact UInt8.le_of_lt (hgt p hp)
    · exact List.mem_singleton.mp hp ▸ UInt8.le_refl _

theorem Sampled.quiet (h : Sampled hold past s b evs last)
    (hsettled : b.raw ≠ b.stable → UInt32.ofNat s.time - b.rawSince < CORE_BTN_DEBOUNCE_MS)
    (hquiet : b.stable = true → b.fired = false →
      UInt32.ofNat s.time - b.pressStart < b.holdMs ∧
        b.percent (UInt32.ofNat s.time) = b.lastPct) : Inv hold (s :: past) b evs last where
  holdMs := h.holdMs
  start hnil := absurd hnil (List.cons_ne_nil s past)
  unsettled hne := h.unsettled hne (hsettled hne)
  idle := h.idle
  held hstable := by
    obtain ⟨c, t, hduring, hc, hlast, hheld_t⟩ := h.held hstable
    refine ⟨c, t, hduring, hc, hlast, fun hfired => ?_⟩
    have hh := hheld_t hfired
    obtain ⟨hheld, hpct⟩ := hquiet hstable hfired
    rw [UInt32.lt_iff_toNat_lt, hh.elapsed] at hheld
    rw [hh.percent_eq] at hpct
    exact holding_now hh.start hh.le hheld hpct.symm hh.pcts

/-- One poll keeps the invariant. -/
theorem Sampled.step (h : Sampled hold past s b evs last) (hpos : 1 ≤ hold.toNat)
    (hup : Updates b (UInt32.ofNat s.time) b' out) :
    Inv hold (s :: past) b' (evs ++ if out.ev = .none then [] else [out])
      (if out.ev = .pressed then some s.time else last) := by
  cases hup with
  | press hraw hstable _ => exact h.press hpos hraw hstable
  | release hraw hstable _ =>
      have hinv := h.release hraw hstable
      cases hfired : b.fired <;> simpa [hfired] using hinv
  | fire hsettled hstable hfired _ => exact h.fire hsettled hstable hfired
  | progress hsettled hstable hfired hheld hpct =>
      exact h.progress hsettled hstable hfired hheld hpct
  | quiet hsettled hquiet =>
      simp only [if_true, List.append_nil, reduceCtorEq, if_false]
      exact h.quiet hsettled hquiet

/-- Every run keeps it. -/
theorem inv_after (hpos : 1 ≤ hold.toNat) (hhold : hold.toNat ≤ 2 ^ 31) (ht : Timed past) :
    Inv hold past (after hold past) (events hold past) (lastPressed hold past) := by
  induction past with
  | nil => exact inv_nil
  | cons s past ih =>
      have hsampled := (ih ht.tail).sampled hhold ht rfl
      exact hsampled.step hpos
        (updates_update (after hold past) s.level (UInt32.ofNat s.time))

/-- What the poll `s` returns is timely. -/
theorem Inv.timely (hinv : Inv hold past (after hold past) evs (lastPressed hold past))
    (hhold : hold.toNat ≤ 2 ^ 31) (ht : Timed (s :: past)) : Timely hold past s := by
  have hup := updates_update (after hold past) s.level (UInt32.ofNat s.time)
  have h := hinv.sampled hhold ht rfl
  generalize hout : (after hold past).update s.level (UInt32.ofNat s.time) = out at hup
  generalize (after hold past).sample s.level (UInt32.ofNat s.time) = b at *
  have hout : output hold past s = out.2 := by rw [output, hout]
  obtain ⟨b', out⟩ := out
  constructor
  · intro hev
    rw [hout] at hev
    cases hup with
    | press hraw hstable hms =>
        exact ⟨h.level.symm.trans hraw, h.steady (by simp [hraw, hstable]) hms⟩
    | release => exact absurd hev (by dsimp only; split <;> simp)
    | _ => cases hev
  · intro hev
    rw [hout] at hev
    cases hup with
    | release hraw hstable hms =>
        exact ⟨h.level.symm.trans hraw, h.steady (by simp [hraw, hstable]) hms⟩
    | _ => simp at hev
  · intro hev
    rw [hout] at hev
    cases hup with
    | release => exact absurd hev (by dsimp only; split <;> simp)
    | fire _ hstable hfired hheld =>
        obtain ⟨c, t, -, -, hlast, hheld_t⟩ := h.held hstable
        have hh := hheld_t hfired
        have hle := hh.le
        rw [UInt32.le_iff_toNat_le, hh.elapsed, h.holdMs] at hheld
        exact ⟨t, hlast, by omega⟩
    | _ => cases hev

/-- The events so far begin some whole presses. -/
theorem Inv.bracketed (hinv : Inv hold past b evs last) :
    ∃ cycles : List Cycle, evs <+: cycles.flatMap Cycle.events := by
  by_cases hstable : b.stable = true
  · obtain ⟨c, -, ⟨-, ⟨cycles, rfl⟩, rfl⟩, -⟩ := hinv.held hstable
    refine ⟨cycles ++ [c], [c.release], ?_⟩
    rw [List.flatMap_append, List.flatMap_singleton, Cycle.events, List.append_assoc]
  · obtain ⟨-, cycles, hevs⟩ := hinv.idle (by simpa using hstable)
    exact ⟨cycles, hevs ▸ List.prefix_rfl⟩

/-- Whatever the levels are, the events are a beginning of whole presses, and each comes after the
time that it stands for. -/
theorem events_bracketed (hpos : 1 ≤ hold.toNat) (hhold : hold.toNat ≤ 2 ^ 31)
    (ht : Timed past) :
    (∃ cycles : List Cycle, events hold past <+: cycles.flatMap Cycle.events) ∧
      ∀ s rest, s :: rest <:+ past → Timely hold rest s := by
  refine ⟨(inv_after hpos hhold ht).bracketed, fun s rest hsuffix => ?_⟩
  have ht : Timed (s :: rest) := ht.suffix hsuffix
  exact (inv_after hpos hhold ht.tail).timely hhold ht

/-- A bounce, a press that is held for its hold time across the wrap of the clock, and its
release. -/
def heldRun : List Sample :=
  [⟨false, 2 ^ 32 + 150⟩, ⟨false, 2 ^ 32 + 120⟩, ⟨true, 2 ^ 32 + 80⟩, ⟨true, 2 ^ 32 + 30⟩,
    ⟨true, 2 ^ 32 - 20⟩, ⟨true, 2 ^ 32 - 50⟩, ⟨false, 2 ^ 32 - 60⟩, ⟨true, 2 ^ 32 - 70⟩]

example : events 100 heldRun =
    [⟨.pressed, 0⟩, ⟨.progress, 50⟩, ⟨.holdFired, 100⟩, ⟨.longRelease, 0⟩] := by decide +kernel

theorem events_bracketed_heldRun :
    (∃ cycles : List Cycle, events 100 heldRun <+: cycles.flatMap Cycle.events) ∧
      ∀ s rest, s :: rest <:+ heldRun → Timely 100 rest s :=
  events_bracketed (by decide) (by decide) (by unfold Timed; decide)

end Invariant

end Button

end Voyager
