import Voyager.Library.Clock
import Voyager.Library.Mealy
import Voyager.Wifi.ApSelector

/-!
# The monitor of the link

`wifi_monitor` owns the station: it picks a network node and connects to it, waits longer and
longer while that fails, starts an access point of its own when the link is down for long, stops
it when the link is back, and looks for a stronger node now and then. It polls, and is woken by the
events of the driver, which come between any two of its steps, also between its reading of the
count of disconnects and of what the last one was. An observer that sees the events, the link as
the monitor finds it and what the monitor does can tell what the monitor may do next.
-/

namespace Voyager

namespace WifiMonitor

open Clock

open Wifi.ApSelector (Bssid WifiApCandidate noBssid)

/-! ## The code -/

def WIFI_BACKOFF_MIN_MS : UInt32 := 5000
def WIFI_BACKOFF_MAX_MS : UInt32 := 60000
def WIFI_STA_CONNECT_TIMEOUT_MS : UInt32 := 20000
def WIFI_ATTEMPT_TIMEOUT_MS : UInt32 := 15000
def WIFI_FALLBACK_STOP_MS : UInt32 := 10000
def WIFI_ROAM_MIN_GAIN_DB : ℤ := 10
def WIFI_ROAM_CHECK_MS : UInt32 := 300000
def WIFI_ROAM_SETTLE_MS : UInt32 := 60000
def WIFI_ROAM_SCAN_BELOW_DBM : ℤ := -50

/-- What a disconnect reason tells. -/
inductive WifiDiscKind
  | self
  | badAp
  | auth
  | other
  deriving DecidableEq

def wifiClassifyReason (r : UInt8) : WifiDiscKind :=
  if r ∈ [8, 36] then .self
  else if r ∈ [2, 3, 4, 5, 6, 7, 34, 39, 200, 201, 202, 203, 205] then .badAp
  else if r ∈ [14, 15, 23, 204] then .auth
  else .other

def wifiNextBackoff (current : UInt32) : UInt32 :=
  if current < WIFI_BACKOFF_MIN_MS then WIFI_BACKOFF_MIN_MS
  else if WIFI_BACKOFF_MAX_MS / 2 ≤ current then WIFI_BACKOFF_MAX_MS
  else current * 2

def wifiRoamCheckDue (rssi : ℤ) (connected sinceCheck : UInt32) : Bool :=
  if 0 ≤ rssi ∨ WIFI_ROAM_SCAN_BELOW_DBM < rssi then false
  else WIFI_ROAM_SETTLE_MS ≤ connected && WIFI_ROAM_CHECK_MS ≤ sinceCheck

def wifiShouldRoam (rssi : ℤ) (best : WifiApCandidate) (cur : Bssid) : Bool :=
  if best.valid = false ∨ 0 ≤ rssi ∨ rssi < -128 then false
  else if cur = best.bssid then false
  else WIFI_ROAM_MIN_GAIN_DB ≤ best.rssi - rssi

/-- Where the monitor is: it waits, it has read `g_provisioning`, it has read a new
`g_disc_count`, it is about to look at the link, or it scans for a connect or for a roam. -/
inductive Pc
  | waiting
  | looking (provisioning : Bool)
  | reading (dc : UInt32)
  | deciding
  | connecting
  | roaming
  deriving DecidableEq

/-- The variables of the task, and those that it shares with the event callbacks and with the
provisioning. -/
structure State where
  pc : Pc
  /-- the time of this turn; the task has it modulo `2 ^ 32` -/
  now : ℕ
  backoff : UInt32
  wasUp : Bool
  retryNow : Bool
  downSince : UInt32
  lastAttempt : UInt32
  upSince : UInt32
  lastRoamCheck : UInt32
  seenDisc : UInt32
  haveAvoid : Bool
  avoid : Bssid
  provisioning : Bool
  fallbackAp : Bool
  attemptActive : Bool
  attemptStart : UInt32
  discCount : UInt32
  discReason : UInt8
  discBssid : Bssid

def boot (now : ℕ) : State where
  pc := .waiting
  now := now
  backoff := WIFI_BACKOFF_MIN_MS
  wasUp := false
  retryNow := true
  downSince := at_ now
  lastAttempt := at_ now
  upSince := at_ now
  lastRoamCheck := at_ now
  seenDisc := 0
  haveAvoid := false
  avoid := noBssid
  provisioning := false
  fallbackAp := false
  attemptActive := false
  attemptStart := 0
  discCount := 0
  discReason := 0
  discBssid := noBssid

/-- What the monitor reads of the driver and of other tasks when it looks at the link. -/
structure Seen where
  connected : Bool
  rssi : ℤ
  loraSerial : Bool
  scanRunning : Bool

inductive Action
  /-- the monitor wakes up at `now`, and reads `g_provisioning` -/
  | wake (now : ℕ)
  /-- it reads `g_disc_count` -/
  | count
  /-- it reads the reason and the node of the last disconnect -/
  | reason
  /-- it looks at the link -/
  | look (seen : Seen)
  /-- `WiFi.begin` at the end of `sta_connect_best`; the monitor reads the clock twice -/
  | begin (start last : ℕ)
  /-- the end of the scan for a roam, with what is read then -/
  | roamed (now start : ℕ) (connected : Bool) (rssi : ℤ) (best : WifiApCandidate) (cur : Bssid)
  /-- `onWifiConnect` -/
  | gotIp
  /-- the beginning of `onWifiDisconnect` -/
  | lost (reason : UInt8)
  /-- its critical section; the monitor can do something between the two -/
  | disconnected (reason : UInt8) (bssid : Bssid)
  /-- `wifi_improv_provision` sets its flag or clears it -/
  | provision (on : Bool)

/-- What the monitor does, and how it finds the link. -/
inductive Output
  | wakes (now : ℕ)
  | findsUp (now : ℕ)
  | findsDown (now : ℕ)
  /-- `sta_connect_best`, with the node that is not to be picked -/
  | pick (now : ℕ) (avoid : Option Bssid)
  | began (start last : ℕ)
  | startFallbackAp (now : ℕ)
  | stopFallbackAp (now : ℕ)
  | scanForRoam (now : ℕ)
  | scanned (now : ℕ)
  | roam (start : ℕ)
  deriving DecidableEq

/-- The count of the disconnects. While the station is being provisioned they are forgotten. -/
def countDisc (s : State) (provisioning : Bool) : State :=
  if provisioning then
    { s with pc := .waiting, seenDisc := s.discCount, lastAttempt := at_ s.now }
  else if s.discCount = s.seenDisc then { s with pc := .deciding }
  else { s with pc := .reading s.discCount }

/-- The last disconnect, behind the count `dc`. -/
def readDisc (s : State) (dc : UInt32) : State :=
  if wifiClassifyReason s.discReason = .badAp ∧ s.discBssid ≠ noBssid then
    { s with pc := .deciding, avoid := s.discBssid, haveAvoid := true, seenDisc := dc }
  else { s with pc := .deciding, seenDisc := dc }

/-- The link has come up since the monitor looked last. -/
def noteUp (s : State) (now : UInt32) : State :=
  if s.wasUp then { s with backoff := WIFI_BACKOFF_MIN_MS }
  else
    { s with
      upSince := now
      lastRoamCheck := now
      haveAvoid := false
      wasUp := true
      backoff := WIFI_BACKOFF_MIN_MS }

def maybeStop (s : State) (now : ℕ) : State × List Output :=
  if s.fallbackAp = true ∧ WIFI_FALLBACK_STOP_MS ≤ at_ now - s.upSince then
    ({ s with fallbackAp := false }, [.stopFallbackAp now])
  else (s, [])

def maybeScan (s : State) (now : ℕ) (seen : Seen) : State × List Output :=
  if s.fallbackAp = false ∧ seen.loraSerial = false ∧ seen.scanRunning = false ∧
      wifiRoamCheckDue seen.rssi (at_ now - s.upSince) (at_ now - s.lastRoamCheck) = true then
    ({ s with pc := .roaming }, [.scanForRoam now])
  else (s, [])

/-- The link is up. -/
def whenUp (s : State) (now : ℕ) (seen : Seen) : State × List Output :=
  let s := noteUp s (at_ now)
  let (s, stop) := maybeStop s now
  let (s, scan) := maybeScan s now seen
  (s, .findsUp now :: stop ++ scan)

/-- The link was lost since the monitor looked last. -/
def noteDown (s : State) (now : UInt32) : State :=
  if s.wasUp then
    { s with wasUp := false, downSince := now, backoff := WIFI_BACKOFF_MIN_MS, retryNow := true }
  else s

def AttemptLive (s : State) (now : UInt32) : Prop :=
  s.attemptActive = true ∧ now - s.attemptStart < WIFI_ATTEMPT_TIMEOUT_MS

instance (s : State) (now : UInt32) : Decidable (AttemptLive s now) :=
  inferInstanceAs (Decidable (_ ∧ _))

/-- The access point that keeps the device reachable. -/
def maybeFallback (s : State) (now : ℕ) : State × List Output :=
  if s.fallbackAp = false ∧ ¬ AttemptLive s (at_ now) ∧
      WIFI_STA_CONNECT_TIMEOUT_MS ≤ at_ now - s.downSince then
    ({ s with fallbackAp := true }, [.startFallbackAp now])
  else (s, [])

def maybePick (s : State) (now : ℕ) : State × List Output :=
  if ¬ AttemptLive s (at_ now) ∧ (s.retryNow = true ∨ s.backoff ≤ at_ now - s.lastAttempt) then
    ({ s with
        backoff := if s.retryNow then s.backoff else wifiNextBackoff s.backoff
        retryNow := false
        pc := .connecting },
      [.pick now (if s.haveAvoid then some s.avoid else none)])
  else (s, [])

/-- The link is down. -/
def whenDown (s : State) (now : ℕ) : State × List Output :=
  let s := noteDown s (at_ now)
  let (s, fallback) := maybeFallback s now
  let (s, pick) := maybePick s now
  (s, .findsDown now :: fallback ++ pick)

/-- The rest of a turn of the loop, up to the scan when there is one. -/
def lookAt (s : State) (seen : Seen) : State × List Output :=
  if seen.connected then whenUp { s with pc := .waiting } s.now seen
  else whenDown { s with pc := .waiting } s.now

def step (s : State) : Action → State × List Output
  | .wake now =>
      if s.pc = .waiting then ({ s with pc := .looking s.provisioning, now }, [.wakes now])
      else (s, [])
  | .count =>
      match s.pc with
      | .looking provisioning => (countDisc s provisioning, [])
      | _ => (s, [])
  | .reason =>
      match s.pc with
      | .reading dc => (readDisc s dc, [])
      | _ => (s, [])
  | .look seen => if s.pc = .deciding then lookAt s seen else (s, [])
  | .begin start last =>
      if s.pc = .connecting then
        ({ s with
            pc := .waiting
            attemptStart := at_ start
            attemptActive := true
            haveAvoid := false
            lastAttempt := at_ last },
          [.began start last])
      else (s, [])
  | .roamed now start connected rssi best cur =>
      if s.pc = .roaming then
        if connected = true ∧ wifiShouldRoam rssi best cur = true then
          ({ s with
              pc := .waiting
              lastRoamCheck := at_ now
              attemptStart := at_ start
              attemptActive := true },
            [.scanned now, .roam start])
        else ({ s with pc := .waiting, lastRoamCheck := at_ now }, [.scanned now])
      else (s, [])
  | .gotIp => ({ s with attemptActive := false }, [])
  | .lost reason =>
      if wifiClassifyReason reason = .self then (s, [])
      else ({ s with attemptActive := false }, [])
  | .disconnected reason bssid =>
      if wifiClassifyReason reason = .self then (s, [])
      else
        ({ s with discReason := reason, discBssid := bssid, discCount := s.discCount + 1 }, [])
  | .provision on => ({ s with provisioning := on }, [])

/-! ## The observer -/

/-- What an observer knows: when the monitor found the link up and down last, the attempt that has
no result yet, and the attempts since the link was up last. -/
structure Knows where
  clock : ℕ
  provisioning : Bool
  /-- what the monitor saw of the provisioning when it woke up -/
  saw : Bool
  lastUp : ℕ
  lastDown : ℕ
  pending : Option ℕ
  attempts : ℕ
  /-- the end of the attempt before -/
  finished : ℕ
  lastRoam : ℕ
  /-- when the last roam began to connect -/
  roamed : Option ℕ
  /-- the disconnects that were not the monitor's own -/
  discs : ℕ
  /-- those of them for which a node is to blame -/
  bad : ℕ
  /-- the picks that avoided a node -/
  avoided : ℕ

def knowsAtBoot (now : ℕ) : Knows where
  clock := now
  provisioning := false
  saw := false
  lastUp := now
  lastDown := now
  pending := none
  attempts := 0
  finished := now
  lastRoam := now
  roamed := none
  discs := 0
  bad := 0
  avoided := 0

/-- What an output of the monitor tells. -/
def see (o : Knows) : Output → Knows
  | .wakes now => { o with clock := now, saw := o.provisioning }
  | .findsUp now => { o with lastUp := now, attempts := 0 }
  | .findsDown now => { o with lastDown := now }
  | .pick _ avoid =>
      { o with
        attempts := o.attempts + 1
        avoided := o.avoided + if avoid.isSome then 1 else 0 }
  | .began start last => { o with clock := last, pending := some start, finished := last }
  | .scanned now => { o with clock := now, lastRoam := now }
  | .roam start => { o with clock := start, pending := some start, roamed := some start }
  | _ => o

/-- What an event of the driver or of the provisioning tells. -/
def hear (o : Knows) : Action → Knows
  | .gotIp => { o with pending := none }
  | .lost reason => if wifiClassifyReason reason = .self then o else { o with pending := none }
  | .disconnected reason _ =>
      if wifiClassifyReason reason = .self then o
      else
        { o with
          discs := o.discs + 1
          bad := o.bad + if wifiClassifyReason reason = .badAp then 1 else 0 }
  | .provision on => { o with provisioning := on }
  | _ => o

def observe (o : Knows) (a : Action) (outs : List Output) : Knows := outs.foldl see (hear o a)

/-- Time does not go back. -/
def proper (o : Knows) : Action → Prop
  | .wake now => o.clock ≤ now
  | .begin start last => o.clock ≤ start ∧ start ≤ last
  | .roamed now start _ _ _ _ => o.clock ≤ now ∧ now ≤ start
  | _ => True

/-- How long the monitor waits after the attempt number `k`. -/
def gap (k : ℕ) : ℕ := min (5000 * 2 ^ (k - 1)) 60000

/-- The attempt that has no result yet was begun long ago. -/
def NotLive (o : Knows) (now : ℕ) : Prop := ∀ t ∈ o.pending, t + 15000 ≤ now

/-- No attempt is interrupted by a roam at the time `now`, but that of a roam that took most of
five minutes from its scan to its connect. -/
def NotLiveForRoam (o : Knows) (now : ℕ) : Prop :=
  ∀ t ∈ o.pending, t + 15000 ≤ now ∨ o.roamed = some t ∧ o.lastRoam + 285000 < t

/-- What the monitor may do. -/
def allowed (o : Knows) (_ : Action) : Output → Prop
  | .pick now avoid => o.saw = false ∧ NotLive o now ∧
      (o.attempts = 0 ∨ o.finished + gap o.attempts ≤ now) ∧
      (avoid.isSome → o.avoided < o.discs ∧ o.avoided < 2 * o.bad)
  | .roam start => o.saw = false ∧ NotLiveForRoam o start
  | .startFallbackAp now => o.saw = false ∧ NotLive o now ∧ o.lastUp + 20000 ≤ now
  | .stopFallbackAp now => o.saw = false ∧ o.lastDown + 10000 ≤ now
  | .scanForRoam now => o.saw = false ∧ o.lastDown + 60000 ≤ now ∧
      o.lastRoam + 300000 ≤ now
  | _ => True

/-! ## The invariant -/

section Invariant

variable {s : State} {o : Knows} {now : ℕ}

/-- The monitor will avoid a node. -/
def kept (s : State) : ℕ := if s.haveAvoid = true ∧ s.pc ≠ .connecting then 1 else 0

/-- How often the monitor will still read the last disconnect, where a node is to blame for it: a
second time when the count that it has read is an older one. -/
def reads (s : State) : ℕ :=
  if wifiClassifyReason s.discReason = .badAp then
    match s.pc with
    | .reading dc => 1 + if dc = s.discCount then 0 else 1
    | _ => if s.seenDisc = s.discCount then 0 else 1
  else 0

/-- Each pick that avoids a node is paid for by a disconnect that the monitor has counted, and by
one of the two times that it reads one for which a node is to blame. -/
structure Paid (s : State) (o : Knows) : Prop where
  count : s.discCount = UInt32.ofNat o.discs
  seen : ∃ n ≤ o.discs, s.seenDisc = UInt32.ofNat n ∧ o.avoided + kept s ≤ n ∧
    ∀ dc, s.pc = .reading dc → ∃ m ≤ o.discs, dc = UInt32.ofNat m ∧ n < m
  blamed : o.avoided + kept s + reads s ≤ 2 * o.bad

/-- The monitor is in a turn of its loop. -/
def Pc.inTurn : Pc → Bool
  | .looking _ | .reading _ | .deciding => true
  | _ => false

/-- The monitor has seen that the station is not being provisioned. -/
def Pc.goesOn : Pc → Bool
  | .waiting | .looking _ => false
  | _ => true

/-- The variables of the monitor stand for what the observer knows. -/
structure Inv (s : State) (o : Knows) : Prop where
  provisioning : o.provisioning = s.provisioning
  looking : ∀ p, s.pc = .looking p → o.saw = p
  saw : s.pc.goesOn = true → o.saw = false
  turn : s.pc.inTurn = true → s.now = o.clock
  active : s.attemptActive = true → ∃ t ≤ o.clock, s.attemptStart = at_ t ∧ o.pending = some t
  inactive : s.attemptActive = false → o.pending = none
  attempt : ∃ t ≤ o.clock, o.finished ≤ t ∧ s.lastAttempt = at_ t
  down : s.wasUp = false → ∃ t ≤ o.clock, o.lastUp ≤ t ∧ s.downSince = at_ t
  up : s.wasUp = true → ∃ t ≤ o.clock, o.lastDown ≤ t ∧ s.upSince = at_ t ∧
    ∀ p ∈ o.pending, p ≤ t ∨ o.roamed = some p
  roam : ∃ t ≤ o.clock, o.lastRoam ≤ t ∧ s.lastRoamCheck = at_ t
  fresh : s.wasUp = true → o.attempts = 0
  first : s.wasUp = false → o.attempts = 0 → s.retryNow = true ∧ s.backoff = WIFI_BACKOFF_MIN_MS
  later : s.wasUp = false → o.attempts ≠ 0 →
    s.retryNow = false ∧ s.backoff = UInt32.ofNat (gap o.attempts)
  connecting : s.pc = .connecting → s.wasUp = false
  roaming : s.pc = .roaming → NotLiveForRoam o o.clock
  paid : Paid s o
  lastUp : o.lastUp ≤ o.clock
  lastDown : o.lastDown ≤ o.clock

theorem inv_boot (now : ℕ) : Inv (boot now) (knowsAtBoot now) where
  provisioning := rfl
  looking _ h := absurd h Pc.noConfusion
  saw _ := rfl
  turn h := absurd h Bool.false_ne_true
  active h := absurd h Bool.false_ne_true
  inactive _ := rfl
  attempt := ⟨now, Nat.le_refl now, Nat.le_refl now, rfl⟩
  down _ := ⟨now, Nat.le_refl now, Nat.le_refl now, rfl⟩
  up h := absurd h Bool.false_ne_true
  roam := ⟨now, Nat.le_refl now, Nat.le_refl now, rfl⟩
  fresh _ := rfl
  first _ _ := ⟨rfl, rfl⟩
  later _ h := absurd rfl h
  connecting _ := rfl
  roaming h := absurd h Pc.noConfusion
  paid := ⟨rfl, ⟨0, Nat.le_refl 0, rfl, Nat.le_refl 0, fun _ h => absurd h Pc.noConfusion⟩,
    Nat.le_refl 0⟩
  lastUp := Nat.le_refl now
  lastDown := Nat.le_refl now

/-! ### What is paid for -/

/-- The monitor neither scans for a connect nor stands between the two readings. -/
def Pc.isCalm : Pc → Bool
  | .connecting | .reading _ => false
  | _ => true

theorem kept_of_calm (h : s.pc.isCalm = true) : kept s = if s.haveAvoid = true then 1 else 0 := by
  have hne : s.pc ≠ .connecting := by
    intro heq
    rw [heq] at h
    cases h
  simp [kept, hne]

theorem reads_of_calm (h : s.pc.isCalm = true) :
    reads s = if wifiClassifyReason s.discReason = .badAp ∧ s.seenDisc ≠ s.discCount then 1
      else 0 := by
  unfold reads
  cases hpc : s.pc with
  | connecting | reading =>
      rw [hpc] at h
      cases h
  | _ => by_cases hbad : wifiClassifyReason s.discReason = .badAp <;> simp [hbad]

/-- The monitor goes on without a look at the disconnects. -/
theorem Paid.calm {s' : State} {o' : Knows} (h : Paid s o) (hs : s.pc.isCalm = true)
    (hs' : s'.pc.isCalm = true) (havoid : s'.haveAvoid = true → s.haveAvoid = true)
    (hstate : s'.discCount = s.discCount ∧ s'.seenDisc = s.seenDisc ∧
      s'.discReason = s.discReason)
    (hknows : o'.discs = o.discs ∧ o'.bad = o.bad ∧ o'.avoided = o.avoided) : Paid s' o' := by
  obtain ⟨hcount, hseen, hreason⟩ := hstate
  obtain ⟨hdiscs, hbad, havoided⟩ := hknows
  have hkept : kept s' ≤ kept s := by
    rw [kept_of_calm hs, kept_of_calm hs']
    split
    · rename_i hkeeps
      rw [if_pos (havoid hkeeps)]
    · exact Nat.zero_le _
  have hreads : reads s' = reads s := by
    rw [reads_of_calm hs, reads_of_calm hs', hcount, hseen, hreason]
  have hblamed := h.blamed
  obtain ⟨n, hn, hof, hle, -⟩ := h.seen
  refine ⟨hcount.trans (hdiscs ▸ h.count),
    ⟨n, hdiscs ▸ hn, hseen.trans hof, by omega, ?_⟩, by omega⟩
  intro dc hreading
  rw [hreading] at hs'
  cases hs'

/-- The count is read. -/
theorem Paid.countDisc (h : Paid s o) {p : Bool} (hpc : s.pc = .looking p) :
    Paid (countDisc s p) o := by
  have hcalm : s.pc.isCalm = true := by rw [hpc]; rfl
  have hblamed := h.blamed
  obtain ⟨n, hn, hof, hle, -⟩ := h.seen
  rw [kept_of_calm hcalm] at hblamed hle
  rw [reads_of_calm hcalm] at hblamed
  unfold WifiMonitor.countDisc
  split
  · refine ⟨h.count, ⟨o.discs, Nat.le_refl _, h.count, ?_, fun _ h => absurd h Pc.noConfusion⟩, ?_⟩
    · rw [kept_of_calm rfl]
      exact hle.trans hn
    · rw [kept_of_calm rfl, reads_of_calm rfl]
      simp only [ne_eq, not_true_eq_false, and_false, if_false]
      omega
  · split
    · exact h.calm hcalm rfl id ⟨rfl, rfl, rfl⟩ ⟨rfl, rfl, rfl⟩
    · rename_i hnew
      have hlt : n < o.discs := by
        refine lt_of_le_of_ne hn fun heq => hnew ?_
        rw [hof, heq, h.count]
      refine ⟨h.count, ⟨n, hn, hof, ?_, ?_⟩, ?_⟩
      · simpa [kept] using hle
      · intro dc hdc
        cases hdc
        exact ⟨o.discs, Nat.le_refl _, h.count, hlt⟩
      · have hkept : kept { s with pc := .reading s.discCount } =
            if s.haveAvoid = true then 1 else 0 := by simp [kept]
        have hreads : reads { s with pc := .reading s.discCount } =
            if wifiClassifyReason s.discReason = .badAp ∧ s.seenDisc ≠ s.discCount then 1
              else 0 := by simp [reads, Ne.symm hnew]
        rw [hkept, hreads]
        exact hblamed

/-- The last disconnect is read, and with it the count before is forgotten. -/
theorem Paid.readDisc (h : Paid s o) {dc : UInt32} (hpc : s.pc = .reading dc) :
    Paid (readDisc s dc) o := by
  have hblamed := h.blamed
  obtain ⟨n, hn, hof, hle, hreading⟩ := h.seen
  obtain ⟨m, hm, hdc, hlt⟩ := hreading dc hpc
  have hreads : reads s = if wifiClassifyReason s.discReason = .badAp then
      1 + (if dc = s.discCount then 0 else 1) else 0 := by simp [reads, hpc]
  rw [hreads] at hblamed
  unfold WifiMonitor.readDisc
  split
  · rename_i hbad
    rw [if_pos hbad.1] at hblamed
    refine ⟨h.count, ⟨m, hm, hdc, ?_, fun _ h => absurd h Pc.noConfusion⟩, ?_⟩
    · rw [kept_of_calm rfl, if_pos rfl]
      omega
    · rw [kept_of_calm rfl, if_pos rfl, reads_of_calm rfl]
      simp only [hbad.1, true_and, ne_eq, ite_not]
      omega
  · have hkept : kept { s with pc := .deciding, seenDisc := dc } = kept s := by
      simp [kept, hpc]
    refine ⟨h.count, ⟨m, hm, hdc, ?_, fun _ h => absurd h Pc.noConfusion⟩, ?_⟩
    · rw [hkept]
      exact hle.trans hlt.le
    · rw [hkept, reads_of_calm rfl]
      by_cases hbad : wifiClassifyReason s.discReason = .badAp
      · simp only [hbad, true_and, ne_eq, ite_not, if_true] at hblamed ⊢
        omega
      · simp only [hbad, false_and, if_false] at hblamed ⊢
        exact hblamed

/-- A disconnect comes, which the monitor has not counted. -/
theorem Paid.disconnected (h : Paid s o) (reason : UInt8) (bssid : Bssid) :
    Paid { s with discReason := reason, discBssid := bssid, discCount := s.discCount + 1 }
      { o with
        discs := o.discs + 1
        bad := o.bad + if wifiClassifyReason reason = .badAp then 1 else 0 } := by
  have hblamed := h.blamed
  obtain ⟨n, hn, hof, hle, hreading⟩ := h.seen
  refine ⟨?_, ⟨n, Nat.le_succ_of_le hn, hof, hle, fun dc hdc => ?_⟩, ?_⟩
  · rw [h.count, UInt32.ofNat_add]
    rfl
  · obtain ⟨m, hm, hrest⟩ := hreading dc hdc
    exact ⟨m, Nat.le_succ_of_le hm, hrest⟩
  · by_cases hbad : wifiClassifyReason reason = .badAp
    · have hreads : reads { s with
          discReason := reason, discBssid := bssid, discCount := s.discCount + 1 } ≤ 2 := by
        rw [reads, if_pos hbad]
        dsimp only
        generalize s.pc = pc
        cases pc <;> dsimp only <;> split <;> decide
      have hkept : kept { s with
          discReason := reason, discBssid := bssid, discCount := s.discCount + 1 } = kept s := rfl
      rw [hkept]
      simp only [hbad, if_true]
      omega
    · have hreads : reads { s with
          discReason := reason, discBssid := bssid, discCount := s.discCount + 1 } = 0 :=
        if_neg hbad
      rw [hreads]
      simp only [hbad, if_false, Nat.add_zero]
      exact (Nat.le_add_right _ _).trans hblamed

/-! ### Time -/

/-- Time goes on. -/
theorem Inv.later_clock (h : Inv s o) (hcalm : s.pc.inTurn = false) (hle : o.clock ≤ now) :
    Inv s { o with clock := now } :=
  { h with
    turn := fun hturn => absurd (hturn.symm.trans hcalm).symm Bool.false_ne_true
    active := fun hs => by
      obtain ⟨t, ht, hrest⟩ := h.active hs
      exact ⟨t, ht.trans hle, hrest⟩
    attempt := by
      obtain ⟨t, ht, hrest⟩ := h.attempt
      exact ⟨t, ht.trans hle, hrest⟩
    down := fun hs => by
      obtain ⟨t, ht, hrest⟩ := h.down hs
      exact ⟨t, ht.trans hle, hrest⟩
    up := fun hs => by
      obtain ⟨t, ht, hrest⟩ := h.up hs
      exact ⟨t, ht.trans hle, hrest⟩
    roam := by
      obtain ⟨t, ht, hrest⟩ := h.roam
      exact ⟨t, ht.trans hle, hrest⟩
    roaming := fun hs p hp => (h.roaming hs p hp).imp_left fun hlive => hlive.trans hle
    paid := ⟨h.paid.count, h.paid.seen, h.paid.blamed⟩
    lastUp := h.lastUp.trans hle
    lastDown := h.lastDown.trans hle }

/-! ### The link is up -/

/-- The monitor has looked and found the link up. -/
theorem Inv.noteUp (h : Inv s o) (hpc : s.pc = .waiting) (hclock : o.clock = now) :
    Inv (noteUp s (at_ now)) { o with lastUp := now, attempts := 0 } ∧
      (WifiMonitor.noteUp s (at_ now)).wasUp = true := by
  have hcalm : s.pc.isCalm = true := by rw [hpc]; rfl
  unfold WifiMonitor.noteUp
  split
  · next hup =>
      exact ⟨{ h with
        down := fun hdown => absurd (hup.symm.trans hdown).symm Bool.false_ne_true
        fresh := fun _ => rfl
        first := fun hdown => absurd (hup.symm.trans hdown).symm Bool.false_ne_true
        later := fun _ hne => absurd rfl hne
        paid := h.paid.calm hcalm hcalm id ⟨rfl, rfl, rfl⟩ ⟨rfl, rfl, rfl⟩
        lastUp := hclock.ge }, hup⟩
  · next hdown =>
      refine ⟨{ h with
        down := fun hdown => absurd hdown.symm Bool.false_ne_true
        up := fun _ => ⟨now, hclock.ge, hclock ▸ h.lastDown, rfl, fun p hp => .inl ?_⟩
        roam := ⟨now, hclock.ge, ?_, rfl⟩
        fresh := fun _ => rfl
        first := fun hdown => absurd hdown.symm Bool.false_ne_true
        later := fun _ hne => absurd rfl hne
        connecting := fun hconnecting => absurd (hpc.symm.trans hconnecting) Pc.noConfusion
        paid := h.paid.calm hcalm hcalm (fun hoff => absurd hoff Bool.false_ne_true)
          ⟨rfl, rfl, rfl⟩ ⟨rfl, rfl, rfl⟩
        lastUp := hclock.ge }, rfl⟩
      · cases hactive : s.attemptActive with
        | false =>
            have hnone : o.pending = none := h.inactive hactive
            rw [hnone] at hp
            cases hp
        | true =>
            obtain ⟨t, hle, -, hpending⟩ := h.active hactive
            rw [hpending] at hp
            cases hp
            exact hclock ▸ hle
      · obtain ⟨t, hle, hlast, -⟩ := h.roam
        exact hlast.trans (hclock ▸ hle)

/-- The state of the monitor while it looks at the link: it waits, and time stands still. -/
structure Looking (s : State) (o : Knows) (now : ℕ) : Prop extends Inv s o where
  waiting : s.pc = .waiting
  clock : o.clock = now
  notProvisioning : o.saw = false

theorem Looking.calm (h : Looking s o now) : s.pc.isCalm = true := by
  rw [h.waiting]
  rfl

/-- What is put out tells nothing that is written down. -/
def Silent (outs : List Output) : Prop := ∀ o, outs.foldl see o = o

theorem Looking.maybeStop (h : Looking s o now) (hup : s.wasUp = true) :
    Looking (maybeStop s now).1 o now ∧ (WifiMonitor.maybeStop s now).1.wasUp = true ∧
      Silent (WifiMonitor.maybeStop s now).2 ∧
      ∀ out ∈ (WifiMonitor.maybeStop s now).2,
        out = .stopFallbackAp now ∧ o.lastDown + 10000 ≤ now := by
  unfold WifiMonitor.maybeStop
  split
  · next hover =>
      have hpaid : Paid { s with fallbackAp := false } o :=
        h.paid.calm h.calm h.calm id ⟨rfl, rfl, rfl⟩ ⟨rfl, rfl, rfl⟩
      refine ⟨{ h with paid := hpaid }, hup, fun _ => rfl, ?_⟩
      obtain ⟨u, hle, hlast, hsince, -⟩ := h.up hup
      rw [hsince] at hover
      have hten := add_le_of_le_sub (h.clock ▸ hle) hover.2
      exact List.forall_mem_singleton.mpr ⟨rfl, (Nat.add_le_add_right hlast _).trans hten⟩
  · exact ⟨h, hup, fun _ => rfl, fun out hout => absurd hout List.not_mem_nil⟩

theorem Looking.maybeScan (h : Looking s o now) (hup : s.wasUp = true) (seen : Seen) :
    Inv (maybeScan s now seen).1 o ∧ Silent (WifiMonitor.maybeScan s now seen).2 ∧
      ∀ out ∈ (WifiMonitor.maybeScan s now seen).2,
        out = .scanForRoam now ∧ o.lastDown + 60000 ≤ now ∧ o.lastRoam + 300000 ≤ now := by
  unfold WifiMonitor.maybeScan
  split
  · next hdue =>
      obtain ⟨u, hle, hlast, hsince, hpending⟩ := h.up hup
      obtain ⟨r, hrle, hroam, hcheck⟩ := h.roam
      obtain ⟨-, -, -, hdue⟩ := hdue
      unfold wifiRoamCheckDue at hdue
      rw [hsince, hcheck] at hdue
      split at hdue
      · exact absurd hdue Bool.false_ne_true
      · rw [Bool.and_eq_true, decide_eq_true_eq, decide_eq_true_eq] at hdue
        have hsettled : u + 60000 ≤ now := add_le_of_le_sub (h.clock ▸ hle) hdue.1
        have hchecked : r + 300000 ≤ now := add_le_of_le_sub (h.clock ▸ hrle) hdue.2
        refine ⟨{ h with
          looking := fun _ hlooking => absurd hlooking Pc.noConfusion
          saw := fun _ => h.notProvisioning
          turn := fun hturn => absurd hturn Bool.false_ne_true
          connecting := fun hconnecting => absurd hconnecting Pc.noConfusion
          roaming := fun _ p hp => ?_
          paid := h.paid.calm h.calm rfl id ⟨rfl, rfl, rfl⟩ ⟨rfl, rfl, rfl⟩ }, fun _ => rfl, ?_⟩
        · rw [h.clock]
          rcases hpending p hp with hbefore | hroamed
          · exact .inl (by omega)
          · by_cases hsoon : p ≤ o.lastRoam + 285000
            · exact .inl (by omega)
            · exact .inr ⟨hroamed, not_le.mp hsoon⟩
        · exact List.forall_mem_singleton.mpr ⟨rfl, by omega, by omega⟩
  · exact ⟨h.toInv, fun _ => rfl, fun out hout => absurd hout List.not_mem_nil⟩

/-- What the monitor does when the link is up. -/
theorem Looking.whenUp (h : Looking s o now) (seen : Seen) (a : Action) :
    Inv (whenUp s now seen).1 ((WifiMonitor.whenUp s now seen).2.foldl see o) ∧
      ∀ out ∈ (WifiMonitor.whenUp s now seen).2, allowed o a out := by
  obtain ⟨hinv, hup⟩ := h.toInv.noteUp h.waiting h.clock
  have hpc : (noteUp s (at_ now)).pc = .waiting := by
    unfold WifiMonitor.noteUp
    split <;> exact h.waiting
  have hlook : Looking (noteUp s (at_ now)) { o with lastUp := now, attempts := 0 } now :=
    ⟨hinv, hpc, h.clock, h.notProvisioning⟩
  unfold WifiMonitor.whenUp
  generalize noteUp s (at_ now) = s₁ at *
  obtain ⟨hstop, hup, hsilent, hstopped⟩ := hlook.maybeStop hup
  dsimp only
  generalize WifiMonitor.maybeStop s₁ now = p at *
  obtain ⟨hscan, hsilent', hscanned⟩ := hstop.maybeScan hup seen
  generalize WifiMonitor.maybeScan p.1 now seen = q at *
  rw [List.cons_append, List.foldl_cons, List.foldl_append, hsilent, hsilent']
  refine ⟨hscan, fun out hout => ?_⟩
  rcases List.mem_cons.mp hout with rfl | hout
  · trivial
  · rcases List.mem_append.mp hout with hout | hout
    · obtain ⟨rfl, hle⟩ := hstopped out hout
      exact ⟨h.notProvisioning, hle⟩
    · obtain ⟨rfl, hle⟩ := hscanned out hout
      exact ⟨h.notProvisioning, hle⟩

/-! ### The link is down -/

/-- The monitor has looked and found the link down. -/
theorem Looking.noteDown (h : Looking s o now) :
    Looking (noteDown s (at_ now)) { o with lastDown := now } now ∧
      (WifiMonitor.noteDown s (at_ now)).wasUp = false := by
  unfold WifiMonitor.noteDown
  split
  · next hup =>
      have hfresh := h.fresh hup
      exact ⟨{ h with
        down := fun _ => ⟨now, h.clock.ge, h.clock ▸ h.lastUp, rfl⟩
        up := fun hup => absurd hup Bool.false_ne_true
        fresh := fun hup => absurd hup Bool.false_ne_true
        first := fun _ _ => ⟨rfl, rfl⟩
        later := fun _ hne => absurd hfresh hne
        connecting := fun _ => rfl
        paid := h.paid.calm h.calm h.calm id ⟨rfl, rfl, rfl⟩ ⟨rfl, rfl, rfl⟩
        lastDown := h.clock.ge }, rfl⟩
  · next hdown =>
      exact ⟨{ h with
        up := fun hup => absurd hup hdown
        paid := h.paid.calm h.calm h.calm id ⟨rfl, rfl, rfl⟩ ⟨rfl, rfl, rfl⟩
        lastDown := h.clock.ge }, by simpa using hdown⟩

/-- The observer knows of the attempt that is not live. -/
theorem Looking.notLive (h : Looking s o now) (hlive : ¬ AttemptLive s (at_ now)) :
    NotLive o now := by
  cases hactive : s.attemptActive with
  | false =>
      rw [NotLive, h.inactive hactive]
      exact fun t ht => by cases ht
  | true =>
      obtain ⟨t, hle, hstart, hpending⟩ := h.active hactive
      have hlong : ¬ at_ now - s.attemptStart < WIFI_ATTEMPT_TIMEOUT_MS :=
        fun hlt => hlive ⟨hactive, hlt⟩
      rw [hstart] at hlong
      have hover := add_le_of_le_sub (h.clock ▸ hle) (UInt32.not_lt.mp hlong)
      rw [NotLive, hpending]
      rintro _ ⟨⟩
      exact hover

theorem Looking.maybeFallback (h : Looking s o now) (hdown : s.wasUp = false) :
    Looking (maybeFallback s now).1 o now ∧ (WifiMonitor.maybeFallback s now).1.wasUp = false ∧
      Silent (WifiMonitor.maybeFallback s now).2 ∧
      ∀ out ∈ (WifiMonitor.maybeFallback s now).2,
        out = .startFallbackAp now ∧ NotLive o now ∧ o.lastUp + 20000 ≤ now := by
  unfold WifiMonitor.maybeFallback
  split
  · next hlong =>
      have hpaid : Paid { s with fallbackAp := true } o :=
        h.paid.calm h.calm h.calm id ⟨rfl, rfl, rfl⟩ ⟨rfl, rfl, rfl⟩
      refine ⟨{ h with paid := hpaid }, hdown, fun _ => rfl, ?_⟩
      obtain ⟨d, hle, hlast, hsince⟩ := h.down hdown
      obtain ⟨-, hlive, hlong⟩ := hlong
      rw [hsince] at hlong
      have hover := add_le_of_le_sub (h.clock ▸ hle) hlong
      exact List.forall_mem_singleton.mpr
        ⟨rfl, h.notLive hlive, (Nat.add_le_add_right hlast _).trans hover⟩
  · exact ⟨h, hdown, fun _ => rfl, fun out hout => absurd hout List.not_mem_nil⟩

theorem toNat_gap (k : ℕ) : (UInt32.ofNat (gap k)).toNat = gap k := by
  rw [UInt32.toNat_ofNat', Nat.mod_eq_of_lt]
  unfold gap
  omega

/-- The wait doubles until it is a minute. -/
theorem wifiNextBackoff_gap {k : ℕ} (hk : k ≠ 0) :
    wifiNextBackoff (UInt32.ofNat (gap k)) = UInt32.ofNat (gap (k + 1)) := by
  obtain ⟨n, rfl⟩ := Nat.exists_eq_succ_of_ne_zero hk
  have hpos := Nat.one_le_two_pow (n := n)
  have hgap : gap (n + 1) = min (5000 * 2 ^ n) 60000 := rfl
  have hgap' : gap (n + 1 + 1) = min (5000 * (2 ^ n * 2)) 60000 := by
    rw [← Nat.pow_succ]
    rfl
  have hnat := toNat_gap (n + 1)
  have hmin : ¬ UInt32.ofNat (gap (n + 1)) < WIFI_BACKOFF_MIN_MS := by
    have hfive : WIFI_BACKOFF_MIN_MS.toNat = 5000 := rfl
    rw [UInt32.lt_iff_toNat_lt, hnat, hfive]
    omega
  have hmax : WIFI_BACKOFF_MAX_MS / 2 ≤ UInt32.ofNat (gap (n + 1)) ↔ 30000 ≤ gap (n + 1) := by
    rw [UInt32.le_iff_toNat_le, hnat]
    rfl
  unfold wifiNextBackoff
  rw [Nat.succ_eq_add_one, if_neg hmin]
  split
  · next hbig =>
      have hfull : gap (n + 1 + 1) = 60000 := by
        have := hmax.mp hbig
        omega
      rw [hfull]
      rfl
  · next hsmall =>
      have hdouble : gap (n + 1 + 1) = gap (n + 1) * 2 := by
        have := mt hmax.mpr hsmall
        omega
      rw [hdouble, UInt32.ofNat_mul]
      rfl

/-- What is paid for when a node is picked. -/
theorem Paid.pick (h : Paid s o) (hcalm : s.pc.isCalm = true) {s' : State} {o' : Knows}
    (hpc : s'.pc = .connecting)
    (hstate : s'.discCount = s.discCount ∧ s'.seenDisc = s.seenDisc ∧
      s'.discReason = s.discReason)
    (hknows : o'.discs = o.discs ∧ o'.bad = o.bad ∧
      o'.avoided = o.avoided + if s.haveAvoid = true then 1 else 0) : Paid s' o' := by
  obtain ⟨hcount, hseen, hreason⟩ := hstate
  obtain ⟨hdiscs, hbad, havoided⟩ := hknows
  have hkept : kept s' = 0 := if_neg fun hkeeps => hkeeps.2 hpc
  have hreads : reads s' = reads s := by
    rw [reads_of_calm hcalm, reads, hpc, hcount, hseen, hreason]
    by_cases hbad : wifiClassifyReason s.discReason = .badAp <;> simp [hbad]
  have hblamed := h.blamed
  obtain ⟨n, hn, hof, hle, -⟩ := h.seen
  rw [kept_of_calm hcalm] at hblamed hle
  refine ⟨hcount.trans (hdiscs ▸ h.count),
    ⟨n, hdiscs ▸ hn, hseen.trans hof, by omega, ?_⟩, by omega⟩
  intro dc hreading
  exact absurd (hpc.symm.trans hreading) Pc.noConfusion

/-- Before a pick that avoids a node, that node is paid for. -/
theorem Paid.lt (h : Paid s o) (hcalm : s.pc.isCalm = true) (havoid : s.haveAvoid = true) :
    o.avoided < o.discs ∧ o.avoided < 2 * o.bad := by
  have hblamed := h.blamed
  obtain ⟨n, hn, -, hle, -⟩ := h.seen
  rw [kept_of_calm hcalm, if_pos havoid] at hblamed hle
  omega

theorem Looking.maybePick (h : Looking s o now) (hdown : s.wasUp = false) :
    Inv (maybePick s now).1 ((WifiMonitor.maybePick s now).2.foldl see o) ∧
      ∀ out ∈ (WifiMonitor.maybePick s now).2, ∃ avoid, out = .pick now avoid ∧ NotLive o now ∧
        (o.attempts = 0 ∨ o.finished + gap o.attempts ≤ now) ∧
        (avoid.isSome → o.avoided < o.discs ∧ o.avoided < 2 * o.bad) := by
  unfold WifiMonitor.maybePick
  split
  · next hpick =>
      obtain ⟨hlive, hwait⟩ := hpick
      have hsome : (if s.haveAvoid then some s.avoid else none).isSome = s.haveAvoid := by
        cases s.haveAvoid <;> rfl
      refine ⟨{ h with
        looking := fun _ hlooking => absurd hlooking Pc.noConfusion
        saw := fun _ => h.notProvisioning
        turn := fun hturn => absurd hturn Bool.false_ne_true
        fresh := fun hup => absurd (hup.symm.trans hdown).symm Bool.false_ne_true
        first := fun _ hzero => absurd hzero (Nat.succ_ne_zero _)
        later := fun _ _ => ⟨rfl, ?_⟩
        connecting := fun _ => hdown
        roaming := fun hroaming => absurd hroaming Pc.noConfusion
        paid := h.paid.pick h.calm rfl ⟨rfl, rfl, rfl⟩ ⟨rfl, rfl, ?_⟩ }, ?_⟩
      · by_cases hfirst : o.attempts = 0
        · obtain ⟨hretry, hbackoff⟩ := h.first hdown hfirst
          have hone : ([Output.pick now (if s.haveAvoid then some s.avoid else none)].foldl see
              o).attempts = o.attempts + 1 := rfl
          rw [if_pos hretry, hbackoff, hone, hfirst]
          rfl
        · obtain ⟨hretry, hbackoff⟩ := h.later hdown hfirst
          rw [if_neg (by simp [hretry]), hbackoff, wifiNextBackoff_gap hfirst]
          rfl
      · rw [List.foldl_cons, List.foldl_nil, see, hsome]
      · refine List.forall_mem_singleton.mpr ⟨_, rfl, h.notLive hlive, ?_, ?_⟩
        · by_cases hfirst : o.attempts = 0
          · exact .inl hfirst
          · right
            obtain ⟨hretry, hbackoff⟩ := h.later hdown hfirst
            obtain ⟨t, hle, hfinished, hlast⟩ := h.attempt
            rcases hwait with hnow | hwait
            · exact absurd (hnow.symm.trans hretry).symm Bool.false_ne_true
            · rw [hbackoff, hlast] at hwait
              have hover := add_le_of_le_sub (h.clock ▸ hle) hwait
              rw [toNat_gap] at hover
              exact (Nat.add_le_add_right hfinished _).trans hover
        · rw [hsome]
          exact h.paid.lt h.calm
  · exact ⟨h.toInv, fun out hout => absurd hout List.not_mem_nil⟩

/-- What the monitor does when the link is down. -/
theorem Looking.whenDown (h : Looking s o now) (a : Action) :
    Inv (whenDown s now).1 ((WifiMonitor.whenDown s now).2.foldl see o) ∧
      ∀ out ∈ (WifiMonitor.whenDown s now).2, allowed o a out := by
  obtain ⟨hlook, hdown⟩ := h.noteDown
  unfold WifiMonitor.whenDown
  generalize WifiMonitor.noteDown s (at_ now) = s₁ at *
  obtain ⟨hlook, hdown, hsilent, hfallback⟩ := hlook.maybeFallback hdown
  dsimp only
  generalize WifiMonitor.maybeFallback s₁ now = p at *
  obtain ⟨hinv, hpick⟩ := hlook.maybePick hdown
  generalize WifiMonitor.maybePick p.1 now = q at *
  rw [List.cons_append, List.foldl_cons, List.foldl_append, hsilent]
  refine ⟨hinv, fun out hout => ?_⟩
  rcases List.mem_cons.mp hout with rfl | hout
  · trivial
  · rcases List.mem_append.mp hout with hout | hout
    · obtain ⟨rfl, hle⟩ := hfallback out hout
      exact ⟨h.notProvisioning, hle⟩
    · obtain ⟨avoid, rfl, hle⟩ := hpick out hout
      exact ⟨h.notProvisioning, hle⟩

/-! ### The steps -/

/-- The monitor wakes up. -/
theorem Inv.wake (h : Inv s o) (hpc : s.pc = .waiting) (hle : o.clock ≤ now) :
    Inv { s with pc := .looking s.provisioning, now }
      { o with clock := now, saw := o.provisioning } := by
  have hcalm : s.pc.isCalm = true := by rw [hpc]; rfl
  have hclock := h.later_clock (by rw [hpc]; rfl) hle
  exact { hclock with
    looking := fun p hp => by
      cases hp
      exact h.provisioning
    saw := fun hgoes => absurd hgoes Bool.false_ne_true
    turn := fun _ => rfl
    connecting := fun hconnecting => absurd hconnecting Pc.noConfusion
    roaming := fun hroaming => absurd hroaming Pc.noConfusion
    paid := h.paid.calm hcalm rfl id ⟨rfl, rfl, rfl⟩ ⟨rfl, rfl, rfl⟩ }

/-- The turn is over. -/
theorem Inv.waits (h : Inv s o) (hcalm : s.pc.isCalm = true) :
    Inv { s with pc := .waiting } o :=
  { h with
    looking := fun _ hlooking => absurd hlooking Pc.noConfusion
    saw := fun hgoes => absurd hgoes Bool.false_ne_true
    turn := fun hturn => absurd hturn Bool.false_ne_true
    connecting := fun hconnecting => absurd hconnecting Pc.noConfusion
    roaming := fun hroaming => absurd hroaming Pc.noConfusion
    paid := h.paid.calm hcalm rfl id ⟨rfl, rfl, rfl⟩ ⟨rfl, rfl, rfl⟩ }

/-- The monitor goes on in its turn, and has changed nothing but what it knows of the
disconnects. -/
theorem Inv.goesOn {s' : State} (h : Inv s o) (hturn : s.now = o.clock) (hsaw : o.saw = false)
    (hpc : s'.pc.inTurn = true) (hlooking : ∀ p, s'.pc ≠ .looking p)
    (hsame : s' = { s with
      pc := s'.pc, seenDisc := s'.seenDisc, haveAvoid := s'.haveAvoid, avoid := s'.avoid })
    (hpaid : Paid s' o) : Inv s' o := by
  rw [hsame] at hpaid ⊢
  exact { h with
    looking := fun p hp => absurd hp (hlooking p)
    saw := fun _ => hsaw
    turn := fun _ => hturn
    connecting := fun hconnecting => by
      rw [hconnecting] at hpc
      cases hpc
    roaming := fun hroaming => by
      rw [hroaming] at hpc
      cases hpc
    paid := hpaid }

theorem Inv.countDisc (h : Inv s o) {p : Bool} (hpc : s.pc = .looking p) :
    Inv (countDisc s p) o := by
  have hpaid := h.paid.countDisc hpc
  have hturn : s.now = o.clock := h.turn (by rw [hpc]; rfl)
  have hsaw := h.looking p hpc
  unfold WifiMonitor.countDisc at hpaid ⊢
  split at hpaid
  · rename_i hp
    rw [if_pos hp]
    refine { h.waits (by rw [hpc]; rfl) with
      attempt := ⟨s.now, hturn.le, ?_, rfl⟩
      paid := hpaid }
    obtain ⟨t, hle, hfinished, -⟩ := h.attempt
    exact hturn ▸ hfinished.trans hle
  · rename_i hp
    have hnot : o.saw = false := by
      rw [hsaw]
      simpa using hp
    rw [if_neg hp]
    split at hpaid
    · rename_i hseen
      rw [if_pos hseen]
      exact h.goesOn hturn hnot rfl (fun _ => Pc.noConfusion) rfl hpaid
    · rename_i hnew
      rw [if_neg hnew]
      exact h.goesOn hturn hnot rfl (fun _ => Pc.noConfusion) rfl hpaid

theorem Inv.readDisc (h : Inv s o) {dc : UInt32} (hpc : s.pc = .reading dc) :
    Inv (readDisc s dc) o := by
  have hpaid := h.paid.readDisc hpc
  have hturn : s.now = o.clock := h.turn (by rw [hpc]; rfl)
  have hsaw : o.saw = false := h.saw (by rw [hpc]; rfl)
  unfold WifiMonitor.readDisc at hpaid ⊢
  split at hpaid
  · rename_i hbad
    rw [if_pos hbad]
    exact h.goesOn hturn hsaw rfl (fun _ => Pc.noConfusion) rfl hpaid
  · rename_i hgood
    rw [if_neg hgood]
    exact h.goesOn hturn hsaw rfl (fun _ => Pc.noConfusion) rfl hpaid

/-- The monitor looks at the link. -/
theorem Inv.lookAt (h : Inv s o) (hpc : s.pc = .deciding) (seen : Seen) (a : Action) :
    Inv (lookAt s seen).1 ((WifiMonitor.lookAt s seen).2.foldl see o) ∧
      ∀ out ∈ (WifiMonitor.lookAt s seen).2, allowed o a out := by
  have hlook : Looking { s with pc := .waiting } o s.now :=
    { h.waits (by rw [hpc]; rfl) with
      waiting := rfl
      clock := (h.turn (by rw [hpc]; rfl)).symm
      notProvisioning := h.saw (by rw [hpc]; rfl) }
  unfold WifiMonitor.lookAt
  split
  · exact hlook.whenUp seen a
  · exact hlook.whenDown a

/-- Once an attempt was begun the node is not avoided any longer. -/
theorem Inv.began (h : Inv s o) (hpc : s.pc = .connecting) {start last : ℕ}
    (hstart : o.clock ≤ start) (hlast : start ≤ last) :
    Inv
      { s with
        pc := .waiting
        attemptStart := at_ start
        attemptActive := true
        haveAvoid := false
        lastAttempt := at_ last }
      { o with clock := last, pending := some start, finished := last } := by
  have hdown := h.connecting hpc
  have hclock := h.later_clock (by rw [hpc]; rfl) (hstart.trans hlast)
  have hblamed := h.paid.blamed
  obtain ⟨n, hn, hof, hle, -⟩ := h.paid.seen
  have hkept : kept s = 0 := if_neg fun hkeeps => hkeeps.2 hpc
  have hreads : reads s = if wifiClassifyReason s.discReason = .badAp ∧
      s.seenDisc ≠ s.discCount then 1 else 0 := by
    rw [reads, hpc]
    by_cases hbad : wifiClassifyReason s.discReason = .badAp <;> simp [hbad]
  rw [hkept] at hblamed hle
  rw [hreads] at hblamed
  exact { hclock with
    looking := fun _ hlooking => absurd hlooking Pc.noConfusion
    saw := fun hgoes => absurd hgoes Bool.false_ne_true
    turn := fun hturn => absurd hturn Bool.false_ne_true
    active := fun _ => ⟨start, hlast, rfl, rfl⟩
    inactive := fun hoff => absurd hoff.symm Bool.false_ne_true
    attempt := ⟨last, Nat.le_refl last, Nat.le_refl last, rfl⟩
    up := fun hup => absurd (hup.symm.trans hdown).symm Bool.false_ne_true
    connecting := fun hconnecting => absurd hconnecting Pc.noConfusion
    roaming := fun hroaming => absurd hroaming Pc.noConfusion
    paid := by
      refine ⟨h.paid.count, ⟨n, hn, hof, ?_, fun _ h => absurd h Pc.noConfusion⟩, ?_⟩
      · rw [kept_of_calm rfl]
        simpa using hle
      · rw [kept_of_calm rfl, reads_of_calm rfl]
        simpa using hblamed }

theorem Inv.roamed (h : Inv s o) (hpc : s.pc = .roaming) {checked start : ℕ}
    (hchecked : o.clock ≤ checked) (hstart : checked ≤ start) :
    Inv { s with pc := .waiting, lastRoamCheck := at_ checked }
        { o with clock := checked, lastRoam := checked } ∧
      Inv
        { s with
          pc := .waiting
          lastRoamCheck := at_ checked
          attemptStart := at_ start
          attemptActive := true }
        { o with
          clock := start, lastRoam := checked, pending := some start, roamed := some start } := by
  have hcalm : s.pc.isCalm = true := by rw [hpc]; rfl
  have hclock := (h.later_clock (by rw [hpc]; rfl) hchecked).waits hcalm
  have hclock' := (h.later_clock (by rw [hpc]; rfl) (hchecked.trans hstart)).waits hcalm
  refine ⟨{ hclock with
      roam := ⟨checked, Nat.le_refl checked, Nat.le_refl checked, rfl⟩
      roaming := fun hroaming => absurd hroaming Pc.noConfusion
      paid := h.paid.calm hcalm rfl id ⟨rfl, rfl, rfl⟩ ⟨rfl, rfl, rfl⟩ },
    { hclock' with
      active := fun _ => ⟨start, Nat.le_refl start, rfl, rfl⟩
      inactive := fun hoff => absurd hoff.symm Bool.false_ne_true
      up := fun hup => ?_
      roam := ⟨checked, hstart, Nat.le_refl checked, rfl⟩
      roaming := fun hroaming => absurd hroaming Pc.noConfusion
      paid := h.paid.calm hcalm rfl id ⟨rfl, rfl, rfl⟩ ⟨rfl, rfl, rfl⟩ }⟩
  obtain ⟨t, hle, hlast, hsince, -⟩ := hclock'.up hup
  exact ⟨t, hle, hlast, hsince, fun p hp => .inr hp⟩

/-- An attempt has a result. -/
theorem Inv.result (h : Inv s o) :
    Inv { s with attemptActive := false } { o with pending := none } :=
  { h with
    active := fun hon => absurd hon Bool.false_ne_true
    inactive := fun _ => rfl
    up := fun hup => by
      obtain ⟨t, hle, hlast, hsince, -⟩ := h.up hup
      exact ⟨t, hle, hlast, hsince, fun p hp => by cases hp⟩
    roaming := fun _ p hp => by cases hp
    paid := ⟨h.paid.count, h.paid.seen, h.paid.blamed⟩ }

theorem Inv.step (h : Inv s o) {a : Action} (hproper : proper o a) :
    Inv (step s a).1 (observe o a (WifiMonitor.step s a).2) ∧
      ∀ out ∈ (WifiMonitor.step s a).2, allowed o a out := by
  have hnone : ∀ out ∈ ([] : List Output), allowed o a out :=
    fun out hout => absurd hout List.not_mem_nil
  cases a with
  | wake now =>
      by_cases hpc : s.pc = .waiting
      · rw [WifiMonitor.step, if_pos hpc]
        exact ⟨h.wake hpc hproper, List.forall_mem_singleton.mpr trivial⟩
      · rw [WifiMonitor.step, if_neg hpc]
        exact ⟨h, hnone⟩
  | count =>
      rw [WifiMonitor.step]
      split
      · next p hpc => exact ⟨h.countDisc hpc, hnone⟩
      · exact ⟨h, hnone⟩
  | reason =>
      rw [WifiMonitor.step]
      split
      · next dc hpc => exact ⟨h.readDisc hpc, hnone⟩
      · exact ⟨h, hnone⟩
  | look seen =>
      by_cases hpc : s.pc = .deciding
      · rw [WifiMonitor.step, if_pos hpc]
        exact h.lookAt hpc seen _
      · rw [WifiMonitor.step, if_neg hpc]
        exact ⟨h, hnone⟩
  | «begin» start last =>
      by_cases hpc : s.pc = .connecting
      · rw [WifiMonitor.step, if_pos hpc]
        exact ⟨h.began hpc hproper.1 hproper.2, List.forall_mem_singleton.mpr trivial⟩
      · rw [WifiMonitor.step, if_neg hpc]
        exact ⟨h, hnone⟩
  | roamed now start connected rssi best cur =>
      by_cases hpc : s.pc = .roaming
      · obtain ⟨hstays, hroams⟩ := h.roamed hpc hproper.1 hproper.2
        have hlive : NotLiveForRoam o start := fun p hp =>
          (h.roaming hpc p hp).imp_left fun hover => hover.trans (hproper.1.trans hproper.2)
        rw [WifiMonitor.step, if_pos hpc]
        split
        · refine ⟨hroams, fun out hout => ?_⟩
          rcases List.mem_cons.mp hout with rfl | hout
          · trivial
          · rw [List.mem_singleton.mp hout]
            exact ⟨h.saw (by rw [hpc]; rfl), hlive⟩
        · exact ⟨hstays, List.forall_mem_singleton.mpr trivial⟩
      · rw [WifiMonitor.step, if_neg hpc]
        exact ⟨h, hnone⟩
  | gotIp => exact ⟨h.result, hnone⟩
  | lost reason =>
      rw [WifiMonitor.step, observe, hear]
      split
      · exact ⟨h, hnone⟩
      · exact ⟨h.result, hnone⟩
  | disconnected reason bssid =>
      rw [WifiMonitor.step, observe, hear]
      split
      · exact ⟨h, hnone⟩
      · exact ⟨{ h with paid := h.paid.disconnected reason bssid }, hnone⟩
  | provision on =>
      exact ⟨{ h with
        provisioning := rfl
        paid := ⟨h.paid.count, h.paid.seen, h.paid.blamed⟩ }, hnone⟩

end Invariant

theorem obeys_allowed (now : ℕ) (as : List Action) :
    Mealy.Obeys step observe proper allowed (boot now) (knowsAtBoot now) as :=
  Mealy.obeys_of_invariant Inv
    (fun s o a h hproper => Inv.step (s := s) (o := o) (a := a) h hproper) (inv_boot now) as

/-- When a connect may be started, by a pick or by a roam. -/
def pickAllowed (o : Knows) (_ : Action) : Output → Prop
  | .pick now avoid => o.saw = false ∧ NotLive o now ∧
      (o.attempts = 0 ∨ o.finished + gap o.attempts ≤ now) ∧
      (avoid.isSome → o.avoided < o.discs ∧ o.avoided < 2 * o.bad)
  | .roam start => o.saw = false ∧ NotLiveForRoam o start
  | _ => True

/-- When the access point may be switched, and when a stronger node may be looked for. -/
def switchAllowed (o : Knows) (_ : Action) : Output → Prop
  | .startFallbackAp now => o.saw = false ∧ NotLive o now ∧ o.lastUp + 20000 ≤ now
  | .stopFallbackAp now => o.saw = false ∧ o.lastDown + 10000 ≤ now
  | .scanForRoam now => o.saw = false ∧ o.lastDown + 60000 ≤ now ∧
      o.lastRoam + 300000 ≤ now
  | _ => True

/-- In every run from boot, with the events of the driver and of the provisioning anywhere between
the steps of the monitor: it starts no connect while an attempt may still succeed, it waits twice
as long after each attempt until that is a minute, and it avoids a node no more often than the link
was lost, and at most twice for each time that a node was to blame. -/
theorem attempts_paced (now : ℕ) (as : List Action) :
    Mealy.Obeys step observe proper pickAllowed (boot now) (knowsAtBoot now) as := by
  refine (obeys_allowed now as).mono fun o a out h => ?_
  cases out with
  | pick now avoid => exact h
  | roam start => exact h
  | _ => trivial

/-- A node that is to blame comes between the count of another disconnect and the reading, so it
is read twice. -/
def readTwice : List Action :=
  [.wake 0, .count, .look ⟨false, 0, false, false⟩, .begin 10 20, .lost 15,
    .disconnected 15 noBssid, .wake 6000, .count, .lost 200,
    .disconnected 200 (.replicate 6 7), .reason, .look ⟨false, 0, false, false⟩,
    .begin 6010 6020, .wake 22000, .count, .reason, .look ⟨false, 0, false, false⟩]

example :
    (Mealy.run step (boot 0) readTwice).2.filter (fun
      | .pick _ avoid => avoid.isSome
      | _ => false) =
      [.pick 6000 (some (.replicate 6 7)), .pick 22000 (some (.replicate 6 7))] := by
  decide

/-- In every such run the monitor starts its own access point only after the link was down for 20
seconds and no attempt is live, stops it only after the link was up for 10 seconds, and looks for a
stronger node at most every five minutes on a link that has been up for one. -/
theorem fallback_and_roam (now : ℕ) (as : List Action) :
    Mealy.Obeys step observe proper switchAllowed (boot now) (knowsAtBoot now) as := by
  refine (obeys_allowed now as).mono fun o a out h => ?_
  cases out with
  | startFallbackAp now => exact h
  | stopFallbackAp now => exact h
  | scanForRoam now => exact h
  | _ => trivial

end WifiMonitor

end Voyager
