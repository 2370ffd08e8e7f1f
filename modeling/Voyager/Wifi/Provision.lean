import Voyager.Basic

/-!
# Provisioning and the monitor

Two tasks drive one WiFi driver: the Improv task, which tries a network it is given and
saves it when a link comes up, and `wifi_monitor`, which connects to the saved network. A
flag, `g_provisioning`, tells the monitor to stand still, and a lock is held for each
channel of a scan and for each `WiFi.begin`. A step is one access of one task to what they
share. When a task waits and what the radio finds is up to the action; a lock that is not
got in time is one that is not got.
-/

namespace Voyager

namespace Wifi

/-- The name and the password of a network, without the zero byte that ends them. -/
structure Network where
  ssid : List Byte
  pass : List Byte
  deriving DecidableEq, Repr

/-- `wifi_valid_ssid`. -/
def validSsid (s : List Byte) : Bool :=
  if s.length < 1 ∨ s.length > 32 then false else s.all fun c => !(c < 0x20 || c == 0x7F)

def printableAscii (s : List Byte) : Bool := s.all fun c => !(c < 0x20 || c > 0x7E)

/-- `wifi_valid_sta_pass`. -/
def validStaPass (s : List Byte) : Bool :=
  if s.length = 0 then true else s.length ≥ 8 && s.length ≤ 63 && printableAscii s

inductive CfgMode where
  | ap | sta
  deriving DecidableEq, Repr

structure WifiConfig where
  mode : CfgMode
  ssid : List Byte
  pass : List Byte
  apPass : List Byte
  deriving DecidableEq, Repr

/-! ## The driver -/

structure Mode where
  sta : Bool
  ap : Bool
  deriving DecidableEq, Repr

/-- The station side of the driver. `target` is the network of the last `WiFi.begin`: the
driver may connect to it on its own whenever the station is on. -/
structure Driver where
  mode : Mode
  target : Option Network
  link : Option Network
  hasIp : Bool
  deriving DecidableEq, Repr

namespace Driver

variable (d : Driver)

/-- `WiFi.isConnected`: some link is up. -/
def isConnected : Bool := d.link.isSome

/-- `WiFi.begin`: from now on the driver connects to this network, and to no other. -/
def begin (n : Network) : Driver :=
  { mode := { d.mode with sta := true }
    target := some n
    link := if d.link = some n then d.link else none
    hasIp := if d.link = some n then d.hasIp else false }

/-- `WiFi.disconnect(false, false)`, or a link that is lost. -/
def disconnect : Driver := { d with link := none, hasIp := false }

/-- `WiFi.mode`. -/
def setMode (mode : Mode) : Driver :=
  if mode.sta then { d with mode } else { d.disconnect with mode }

end Driver

/-! ## The two tasks -/

/-- Where the Improv task stands in `wifi_improv_provision`. `prev` is the mode it found
and `locked` whether it holds the lock. -/
inductive Improv where
  | idle
  /-- `g_provisioning` is set. -/
  | started (req : Network)
  | locking (req : Network) (prev : Mode)
  | leaving (req : Network) (prev : Mode) (locked : Bool)
  | beginning (req : Network) (prev : Mode) (locked : Bool)
  | unlocking (req : Network) (prev : Mode) (locked : Bool)
  /-- In the loop that waits for a link. -/
  | polling (req : Network) (prev : Mode)
  /-- In `wifi_sta_url`, before the link is looked at, and after. -/
  | checking (req : Network) (prev : Mode)
  | checkingIp (req : Network) (prev : Mode) (seen : Network)
  | saving (req : Network) (seen : Network)
  | failing (prev : Mode)
  deriving DecidableEq, Repr

/-- What a scan of the monitor is for. -/
inductive Purpose where
  | connect | roam
  deriving DecidableEq, Repr

/-- Where `wifi_monitor` stands. `left` is the number of channels still to scan. -/
inductive Monitor where
  /-- The device runs as an access point only, without the task. -/
  | absent
  /-- Waiting, before it looks at `g_provisioning`. -/
  | top
  /-- It has found `g_provisioning` clear. -/
  | awake
  /-- At the start of `sta_connect_best`. -/
  | leaving
  | scan (why : Purpose) (left : ℕ) (rescan : Bool)
  | scanning (why : Purpose) (left : ℕ) (rescan : Bool)
  /-- At the lock before `WiFi.begin`, at `WiFi.begin`, and after it. -/
  | picked
  | beginning (locked : Bool)
  | unlocking (locked : Bool)
  deriving DecidableEq, Repr

def WIFI_SCAN_CHANNELS : ℕ := 13

inductive Task where
  | improv | monitor
  deriving DecidableEq, Repr

/-- `wifi_improv_provision` has saved the network it was given; the link it saw was to
`seen`. -/
structure Saved where
  req : Network
  seen : Network
  deriving DecidableEq, Repr

structure Device where
  /-- `g_sta_ssid` and `g_sta_pass`: the network that was saved at boot. -/
  sta : Network
  /-- The config file. -/
  config : WifiConfig
  provisioning : Bool
  radioLock : Option Task
  driver : Driver
  improv : Improv
  monitor : Monitor
  /-- What has been saved, the newest first. -/
  saved : List Saved
  deriving DecidableEq, Repr

/-- A device after boot, before the first connect. -/
def Device.boot (config : WifiConfig) : Device where
  sta := { ssid := config.ssid, pass := config.pass }
  config := config
  provisioning := false
  radioLock := none
  driver :=
    { mode := { sta := config.mode = .sta, ap := config.mode = .ap }
      target := none
      link := none
      hasIp := false }
  improv := .idle
  monitor := if config.mode = .sta then .top else .absent
  saved := []

inductive Action where
  | provision (req : Network)
  | improvMode
  | improvLock (got : Bool)
  | improvLeave
  | improvBegin
  | improvUnlock
  | improvPoll (timedOut : Bool)
  | improvCheck
  | improvCheckIp
  | improvSave (ok : Bool)
  | improvFail
  | monitorWake
  /-- Nothing is due. -/
  | monitorRest
  | monitorFallbackAp (on : Bool)
  | monitorRoam
  | monitorConnect
  | monitorLeave
  | monitorScanLock (got : Bool)
  | monitorScanned
  /-- The driver was busy on every channel of the first scan. -/
  | monitorRescan
  /-- The scan found a node to connect to, or for a roam a much stronger one. -/
  | monitorPick (found : Bool)
  | monitorLock (got : Bool)
  | monitorBegin
  | monitorUnlock
  | linkUp
  | gotIp
  | linkLost
  deriving DecidableEq, Repr

namespace Device

variable (s : Device)

/-- `xSemaphoreTake` with a timeout: who gets the lock finds it free. -/
def take (t : Task) (got : Bool) : Option Device :=
  if got then if s.radioLock = none then some { s with radioLock := some t } else none
  else some s

/-- `xSemaphoreGive`, by a task that may not hold the lock. -/
def give (locked : Bool) : Device := if locked then { s with radioLock := none } else s

/-- The steps of `wifi_improv_provision`. -/
def improvStep (a : Action) : Option Device :=
  match a, s.improv with
  | .provision req, .idle =>
      if ¬ validSsid req.ssid ∨ ¬ validStaPass req.pass ∨ s.provisioning then some s
      else some { s with provisioning := true, improv := .started req }
  | .improvMode, .started req => some { s with improv := .locking req s.driver.mode }
  | .improvLock got, .locking req prev =>
      (s.take .improv got).map fun s => { s with improv := .leaving req prev got }
  | .improvLeave, .leaving req prev locked =>
      let driver :=
        if prev.sta then s.driver.disconnect
        else s.driver.setMode { sta := true, ap := prev.ap }
      some { s with driver, improv := .beginning req prev locked }
  | .improvBegin, .beginning req prev locked =>
      some { s with driver := s.driver.begin req, improv := .unlocking req prev locked }
  | .improvUnlock, .unlocking req prev locked =>
      some { s.give locked with improv := .polling req prev }
  | .improvPoll timedOut, .polling req prev =>
      if timedOut ∨ (s.driver.isConnected ∧ s.driver.hasIp) then
        some { s with improv := .checking req prev }
      else some s
  | .improvCheck, .checking req prev =>
      match s.driver.link with
      | none => some { s with improv := .failing prev }
      | some seen => some { s with improv := .checkingIp req prev seen }
  | .improvCheckIp, .checkingIp req prev seen =>
      some { s with improv := if s.driver.hasIp then .saving req seen else .failing prev }
  | .improvSave ok, .saving req seen =>
      -- the flag stays set until the restart
      if ok then
        some { s with
          config := { s.config with mode := .sta, ssid := req.ssid, pass := req.pass }
          saved := { req, seen } :: s.saved
          improv := .idle }
      else some { s with improv := .idle }
  | .improvFail, .failing prev =>
      let driver := s.driver.disconnect
      let driver := if prev.sta then driver else driver.setMode prev
      some { s with driver, provisioning := false, improv := .idle }
  | _, _ => none

/-- The steps of `wifi_monitor`, with `sta_connect_best`, `scan_channels` and
`sta_begin_pinned`. -/
def monitorStep (a : Action) : Option Device :=
  match a, s.monitor with
  | .monitorWake, .top => some { s with monitor := if s.provisioning then .top else .awake }
  | .monitorRest, .awake => some { s with monitor := .top }
  | .monitorFallbackAp on, .awake =>
      some { s with driver := s.driver.setMode { sta := true, ap := on } }
  | .monitorRoam, .awake =>
      if s.driver.isConnected then
        some { s with monitor := .scan .roam WIFI_SCAN_CHANNELS false }
      else none
  | .monitorConnect, .awake =>
      if s.driver.isConnected then none else some { s with monitor := .leaving }
  | .monitorLeave, .leaving =>
      some { s with
        driver := if s.driver.isConnected then s.driver else s.driver.disconnect
        monitor := .scan .connect WIFI_SCAN_CHANNELS true }
  | .monitorScanLock got, .scan why (left + 1) rescan =>
      (s.take .monitor got).map fun s =>
        { s with monitor := if got then .scanning why left rescan else .scan why left rescan }
  | .monitorScanned, .scanning why left rescan =>
      some { s.give true with monitor := .scan why left rescan }
  | .monitorRescan, .scan .connect 0 true =>
      some { s with monitor := .scan .connect WIFI_SCAN_CHANNELS false }
  | .monitorPick found, .scan why 0 _ =>
      match why with
      | .connect => some { s with monitor := .picked }
      | .roam =>
          some { s with monitor := if s.driver.isConnected ∧ found then .picked else .top }
  | .monitorLock got, .picked =>
      (s.take .monitor got).map fun s => { s with monitor := .beginning got }
  | .monitorBegin, .beginning locked =>
      some { s with driver := s.driver.begin s.sta, monitor := .unlocking locked }
  | .monitorUnlock, .unlocking locked => some { s.give locked with monitor := .top }
  | _, _ => none

/-- What the driver does on its own. -/
def driverStep (a : Action) : Option Device :=
  match a with
  | .linkUp =>
      if s.driver.mode.sta ∧ s.driver.link = none ∧ s.driver.target ≠ none then
        some { s with driver := { s.driver with link := s.driver.target, hasIp := false } }
      else none
  | .gotIp =>
      if s.driver.isConnected then some { s with driver := { s.driver with hasIp := true } }
      else none
  | .linkLost => some { s with driver := s.driver.disconnect }
  | _ => none

/-- One step of one of the tasks or of the driver, if it can happen now. -/
def step (s : Device) (a : Action) : Option Device :=
  match a with
  | .linkUp | .gotIp | .linkLost => s.driverStep a
  | .provision _ | .improvMode | .improvLock _ | .improvLeave | .improvBegin | .improvUnlock
  | .improvPoll _ | .improvCheck | .improvCheckIp | .improvSave _ | .improvFail => s.improvStep a
  | _ => s.monitorStep a

end Device

end Wifi

end Voyager
