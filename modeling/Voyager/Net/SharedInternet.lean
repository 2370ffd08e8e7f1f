import Voyager.Lora.Net

/-!
# Using a shared internet connection

The helper points the PC at a gateway of the network, by the proxy setting of the system or
by a default route, in several steps that can each fail. When the switch fails the helper
still counts as not switched, and then nothing takes the steps back that did not fail.
-/

namespace Voyager

open LoraProto

namespace SharedInternet

/-! ## The system -/

structure Route where
  iface : String
  nexthop : String
  deriving DecidableEq, Repr

/-- What the helper changes: the proxy values in the registry, the metric of its adapter (none
is automatic), the routes and the DNS servers of the adapter (none is automatic). -/
structure System where
  proxyEnable : Option ℕ
  proxyServer : Option String
  proxyOverride : Option String
  metric : Option ℕ
  routes : List Route
  dns : Option (List String)
  deriving DecidableEq, Repr

/-- `savedProxy`. -/
structure SavedProxy where
  enable : ℕ
  server : Option String
  override : Option String
  ours : String
  deriving DecidableEq, Repr

/-- The fields of the bridge and of the server that `setUse` works on, the variable
`proxySaved`, and what the backup file holds. -/
structure Bridge where
  system : System
  proxySaved : Option SavedProxy
  backup : Option SavedProxy
  /-- `b.dev.Name()`. -/
  name : String
  /-- `b.gw != nil`. -/
  sharing : Bool
  useGW : Bool
  useRoute : Bool
  usingIP : IpAddr
  /-- `b.info.Proto`. -/
  proto : String
  /-- `b.seenGW.get()`. -/
  seenGW : Option IpAddr
  netUseRoute : Bool
  deriving DecidableEq, Repr

/-- How the calls of one `setUse` end: the error of each, or none. -/
structure Calls where
  openKey : Option String
  /-- Whether the value can be read. -/
  getEnable : Bool
  getServer : Bool
  getOverride : Bool
  writeFile : Option String
  /-- Setting the value, or deleting it. -/
  setServer : Option String
  setOverride : Option String
  setEnable : Option String
  /-- The output of the `i`th call of `netsh`, where it fails. -/
  netsh : ℕ → Option String

/-! ## The proxy setting -/

def gwProxyPort : ℕ := 3128

def ipString (ip : IpAddr) : String :=
  toString ip.a ++ "." ++ toString ip.b ++ "." ++ toString ip.c ++ "." ++ toString ip.d

/-- Local addresses and those of the network stay direct. -/
def overrideText : String := "<local>;10.73.*;localhost;127.*"

/-- The part of `setSystemProxy` that keeps the user's own setting, once. -/
def keepProxy (b : Bridge) (c : Calls) (hostPort : String) : Bridge × Option String :=
  if b.proxySaved.isSome then (b, none)
  else
    let s : SavedProxy :=
      { enable := if c.getEnable then b.system.proxyEnable.getD 0 else 0
        server := if c.getServer then b.system.proxyServer else none
        override := if c.getOverride then b.system.proxyOverride else none
        ours := hostPort }
    match c.writeFile with
    | some err => ({ b with backup := none }, some ("cannot save the current proxy setting: " ++ err))
    | none => ({ b with backup := some s, proxySaved := some s }, none)

/-- The part that writes the values. -/
def writeProxy (s : System) (c : Calls) (hostPort : String) : System × Option String :=
  match c.setServer with
  | some err => (s, some err)
  | none =>
      let s := { s with proxyServer := some hostPort }
      -- the result of this call is not looked at
      let s := if c.setOverride = none then { s with proxyOverride := some overrideText } else s
      match c.setEnable with
      | some err => (s, some err)
      | none => ({ s with proxyEnable := some 1 }, none)

def setSystemProxy (b : Bridge) (c : Calls) (hostPort : String) : Bridge × Option String :=
  match c.openKey with
  | some err => (b, some ("proxy settings: " ++ err))
  | none =>
      match keepProxy b c hostPort with
      | (b, some err) => (b, some err)
      | (b, none) =>
          ({ b with system := (writeProxy b.system c hostPort).1 },
            (writeProxy b.system c hostPort).2)

def applySavedProxy (sys : System) (c : Calls) (s : SavedProxy) : System :=
  if c.openKey.isSome then sys
  else
    { sys with
      proxyEnable := if c.setEnable = none then some s.enable else sys.proxyEnable
      proxyServer := if c.setServer = none then s.server else sys.proxyServer
      proxyOverride := if c.setOverride = none then s.override else sys.proxyOverride }

def restoreSystemProxy (b : Bridge) (c : Calls) : Bridge :=
  match b.proxySaved with
  | none => b
  | some s =>
      { b with system := applySavedProxy b.system c s, proxySaved := none, backup := none }

/-! ## The default route -/

inductive Netsh
  | setMetric (metric : Option ℕ)
  | addRoute (nexthop : String)
  | deleteRoute (nexthop : String)
  | setDns (address : String)
  | addDns (address : String)
  | deleteDns
  deriving DecidableEq, Repr

/-- What a call does that does not fail. -/
def Netsh.apply (name : String) : Netsh → System → System
  | setMetric m, s => { s with metric := m }
  | addRoute gw, s => { s with routes := s.routes ++ [⟨name, gw⟩] }
  | deleteRoute gw, s => { s with routes := s.routes.filter fun r => r ≠ ⟨name, gw⟩ }
  | setDns a, s => { s with dns := some [a] }
  | addDns a, s => { s with dns := some ((s.dns.getD []).take 1 ++ a :: (s.dns.getD []).drop 1) }
  | deleteDns, s => { s with dns := none }

/-- The calls one after the other; only a route that cannot be added ends the loop. -/
def runSteps (name : String) : List (Netsh × Option String) → System → System × Option String
  | [], s => (s, none)
  | (step, none) :: rest, s => runSteps name rest (step.apply name s)
  | (.addRoute gw, some out) :: _, s =>
      (s, some ("cannot add the route through " ++ gw ++ ": " ++ out))
  | (_, some _) :: rest, s => runSteps name rest s

def useSteps (gw : String) (c : Calls) : List (Netsh × Option String) :=
  [(.setMetric (some 1), c.netsh 0), (.addRoute gw, c.netsh 1), (.setDns "1.1.1.1", c.netsh 2),
    (.addDns "8.8.8.8", c.netsh 3)]

def stopSteps (gw : String) (c : Calls) : List (Netsh × Option String) :=
  [(.deleteRoute gw, c.netsh 0), (.deleteDns, c.netsh 1), (.setMetric none, c.netsh 2)]

/-! ## The switch -/

/-- The address that is set as the proxy. -/
def proxyAt (ip : IpAddr) : String := ipString ip ++ ":" ++ toString gwProxyPort

def setUse (b : Bridge) (c : Calls) (on : Bool) : Bridge × Option String :=
  if on = b.useGW then (b, none)
  else if !on then
    let b := { b with useGW := false }
    if b.useRoute then
      ({ b with system := (runSteps b.name (stopSteps (ipString b.usingIP) c) b.system).1 }, none)
    else (restoreSystemProxy b c, none)
  else if b.sharing then (b, some "this PC is sharing its own internet")
  else if b.proto ≠ "2" then
    (b, some "the board's firmware is too old for shared internet: update it")
  else
    match b.seenGW with
    | none => (b, some "no gateway heard on the LoRa network")
    | some ip =>
        if !b.netUseRoute then
          match setSystemProxy b c (proxyAt ip) with
          | (b, some err) => (b, some err)
          | (b, none) => ({ b with usingIP := ip, useGW := true, useRoute := false }, none)
        else
          match runSteps b.name (useSteps (ipString ip) c) b.system with
          | (s, some err) => ({ b with system := s }, some err)
          | (s, none) =>
              ({ b with system := s, usingIP := ip, useGW := true, useRoute := true }, none)

/-! ## What a failed switch leaves behind -/

section Failed

variable {b : Bridge} {c : Calls} {s : System} {hostPort : String}

/-- The proxy server is written, and it or the exceptions differ from what they were. -/
def ServerChanges (s : System) (c : Calls) (hostPort : String) : Prop :=
  c.setServer = none ∧ (s.proxyServer ≠ some hostPort ∨
    c.setOverride = none ∧ s.proxyOverride ≠ some overrideText)

theorem writeProxy_ok_iff : (writeProxy s c hostPort).2 = none ↔
    c.setServer = none ∧ c.setEnable = none := by
  rw [writeProxy]
  cases c.setServer with
  | some err => simp
  | none => cases c.setEnable <;> simp

/-- A proxy that could not be switched on is left in the setting. -/
theorem writeProxy_unchanged_iff (h : (writeProxy s c hostPort).2 ≠ none) :
    (writeProxy s c hostPort).1 = s ↔ ¬ ServerChanges s c hostPort := by
  rw [ne_eq, writeProxy_ok_iff] at h
  rw [writeProxy, ServerChanges]
  cases hserver : c.setServer with
  | some err => simp
  | none =>
      cases henable : c.setEnable with
      | none => exact absurd ⟨hserver, henable⟩ h
      | some err =>
          cases s
          by_cases hover : c.setOverride = none
          · simp [hover, eq_comm]
          · simp [hover, eq_comm]

/-- The user's own setting is kept: it was before, or the file is written. -/
def Keeps (b : Bridge) (c : Calls) : Prop := b.proxySaved.isSome = true ∨ c.writeFile = none

theorem keepProxy_eq_ok (b : Bridge) (c : Calls) (hostPort : String) :
    (keepProxy b c hostPort).2 = none ↔ Keeps b c := by
  rw [keepProxy, Keeps]
  cases b.proxySaved.isSome with
  | true => simp
  | false => cases c.writeFile <;> simp

theorem keepProxy_system (b : Bridge) (c : Calls) (hostPort : String) :
    (keepProxy b c hostPort).1.system = b.system := by
  rw [keepProxy]
  cases b.proxySaved.isSome with
  | true => rfl
  | false => cases c.writeFile <;> rfl

theorem keepProxy_useGW (b : Bridge) (c : Calls) (hostPort : String) :
    (keepProxy b c hostPort).1.useGW = b.useGW := by
  rw [keepProxy]
  cases b.proxySaved.isSome with
  | true => rfl
  | false => cases c.writeFile <;> rfl

theorem setSystemProxy_useGW : (setSystemProxy b c hostPort).1.useGW = b.useGW := by
  have hkeep := keepProxy_useGW b c hostPort
  rw [setSystemProxy]
  cases c.openKey with
  | some err => rfl
  | none =>
      generalize keepProxy b c hostPort = kept at *
      obtain ⟨b', err⟩ := kept
      cases err with
      | some err => exact hkeep
      | none => exact hkeep

/-- What a failed `setSystemProxy` leaves behind is the address of the proxy. -/
theorem setSystemProxy_unchanged_iff (h : (setSystemProxy b c hostPort).2 ≠ none) :
    (setSystemProxy b c hostPort).1.system = b.system ↔
      ¬ (c.openKey = none ∧ Keeps b c ∧ ServerChanges b.system c hostPort) := by
  have hsystem := keepProxy_system b c hostPort
  have hok := keepProxy_eq_ok b c hostPort
  rw [setSystemProxy] at h ⊢
  cases hopen : c.openKey with
  | some err => simp
  | none =>
      rw [hopen] at h
      generalize keepProxy b c hostPort = kept at *
      obtain ⟨b', err⟩ := kept
      cases err with
      | some err =>
          have hkeeps : ¬ Keeps b c := fun hk => Option.some_ne_none err (hok.mpr hk)
          simp only [hkeeps, false_and, and_false, not_false_eq_true, iff_true]
          exact hsystem
      | none =>
          have hkeeps : Keeps b c := hok.mp rfl
          dsimp only at h hsystem ⊢
          rw [hsystem] at h ⊢
          simp only [hkeeps, true_and]
          exact writeProxy_unchanged_iff h

/-- The loop fails with a route that cannot be added, and with nothing else. -/
theorem runSteps_error_iff {name : String} {steps : List (Netsh × Option String)} :
    (runSteps name steps s).2 ≠ none ↔ ∃ gw out, (Netsh.addRoute gw, some out) ∈ steps := by
  induction steps generalizing s with
  | nil => simp [runSteps]
  | cons p steps ih =>
      obtain ⟨step, out⟩ := p
      cases out with
      | none => simp [runSteps, ih]
      | some out =>
          cases step with
          | addRoute gw =>
              constructor
              · intro _
                exact ⟨gw, out, List.mem_cons_self⟩
              · intro _
                exact Option.some_ne_none _
          | _ => simp [runSteps, ih]

theorem runSteps_useSteps {name gw : String} :
    (runSteps name (useSteps gw c) s).2 ≠ none ↔ c.netsh 1 ≠ none := by
  rw [runSteps_error_iff, useSteps]
  cases c.netsh 1 <;> simp

/-- When the route cannot be added, the metric may have been set. -/
theorem runSteps_unchanged_iff {name gw : String} (h : c.netsh 1 ≠ none) :
    (runSteps name (useSteps gw c) s).1 = s ↔ ¬ (c.netsh 0 = none ∧ s.metric ≠ some 1) := by
  rw [useSteps]
  cases hroute : c.netsh 1 with
  | none => exact absurd hroute h
  | some out =>
      cases hmetric : c.netsh 0 with
      | some out => simp [runSteps]
      | none =>
          cases s
          simp [runSteps, Netsh.apply, eq_comm]

/-- The switch gets to the point where it changes something. -/
structure Starts (b : Bridge) (ip : IpAddr) : Prop where
  idle : b.useGW = false
  sharing : b.sharing = false
  proto : b.proto = "2"
  gateway : b.seenGW = some ip

theorem setUse_of_starts {ip : IpAddr} (h : Starts b ip) : setUse b c true =
    if !b.netUseRoute then
      match setSystemProxy b c (proxyAt ip) with
      | (b, some err) => (b, some err)
      | (b, none) => ({ b with usingIP := ip, useGW := true, useRoute := false }, none)
    else
      match runSteps b.name (useSteps (ipString ip) c) b.system with
      | (s, some err) => ({ b with system := s }, some err)
      | (s, none) =>
          ({ b with system := s, usingIP := ip, useGW := true, useRoute := true }, none) := by
  rw [setUse, h.idle, h.sharing, h.proto, h.gateway]
  rfl

/-- Otherwise nothing changes. -/
theorem setUse_of_not_starts (h : ∀ ip, ¬ Starts b ip) : (setUse b c true).1 = b := by
  rw [setUse]
  by_cases hidle : true = b.useGW
  · rw [if_pos hidle]
  · rw [if_neg hidle]
    have hidle : b.useGW = false := by simpa using hidle
    cases hsharing : b.sharing with
    | true => rfl
    | false =>
        rw [Bool.not_true, if_neg Bool.false_ne_true, if_neg Bool.false_ne_true]
        by_cases hproto : b.proto = "2"
        · rw [if_neg (not_not_intro hproto)]
          cases hgw : b.seenGW with
          | none => rfl
          | some ip => exact absurd ⟨hidle, hsharing, hproto, hgw⟩ (h ip)
        · rw [if_pos hproto]

/-- A switch by proxy setting that fails after it has changed the setting. -/
structure LeavesProxy (b : Bridge) (c : Calls) (ip : IpAddr) : Prop where
  starts : Starts b ip
  mode : b.netUseRoute = false
  opened : c.openKey = none
  kept : Keeps b c
  changes : ServerChanges b.system c (proxyAt ip)
  failed : c.setEnable ≠ none

/-- A switch by route that fails after it has changed the metric. -/
structure LeavesMetric (b : Bridge) (c : Calls) (ip : IpAddr) : Prop where
  starts : Starts b ip
  mode : b.netUseRoute = true
  metric : c.netsh 0 = none
  changes : b.system.metric ≠ some 1
  failed : c.netsh 1 ≠ none

/-- A switch that fails changes nothing. -/
def FailureChangesNothing (b : Bridge) (c : Calls) : Prop :=
  (setUse b c true).2 ≠ none →
    (setUse b c true).1.useGW = false ∧ (setUse b c true).1.system = b.system

theorem setUse_proxy {ip : IpAddr} (h : Starts b ip) (hmode : b.netUseRoute = false) :
    (setUse b c true).2 = (setSystemProxy b c (proxyAt ip)).2 ∧
      ((setUse b c true).2 ≠ none →
        (setUse b c true).1 = (setSystemProxy b c (proxyAt ip)).1) := by
  rw [setUse_of_starts h, hmode, Bool.not_false, if_pos rfl]
  generalize setSystemProxy b c (proxyAt ip) = r
  obtain ⟨b', err⟩ := r
  cases err with
  | some err => exact ⟨rfl, fun _ => rfl⟩
  | none => exact ⟨rfl, fun herr => absurd rfl herr⟩

theorem setUse_route {ip : IpAddr} (h : Starts b ip) (hmode : b.netUseRoute = true) :
    (setUse b c true).2 = (runSteps b.name (useSteps (ipString ip) c) b.system).2 ∧
      ((setUse b c true).2 ≠ none → (setUse b c true).1 =
        { b with system := (runSteps b.name (useSteps (ipString ip) c) b.system).1 }) := by
  rw [setUse_of_starts h, hmode, Bool.not_true, if_neg Bool.false_ne_true]
  generalize runSteps b.name (useSteps (ipString ip) c) b.system = r
  obtain ⟨s, err⟩ := r
  cases err with
  | some err => exact ⟨rfl, fun _ => rfl⟩
  | none => exact ⟨rfl, fun herr => absurd rfl herr⟩

theorem setSystemProxy_error (hopen : c.openKey = none) (hkeep : Keeps b c)
    (henable : c.setEnable ≠ none) : (setSystemProxy b c hostPort).2 ≠ none := by
  have hok := (keepProxy_eq_ok b c hostPort).mpr hkeep
  rw [setSystemProxy, hopen]
  generalize keepProxy b c hostPort = kept at *
  obtain ⟨b', err⟩ := kept
  cases hok
  dsimp only
  rw [ne_eq, writeProxy_ok_iff]
  exact fun h => henable h.2

theorem setSystemProxy_failed (hopen : c.openKey = none) (hserver : c.setServer = none)
    (hkeep : Keeps b c) (herr : (setSystemProxy b c hostPort).2 ≠ none) : c.setEnable ≠ none := by
  have hok := (keepProxy_eq_ok b c hostPort).mpr hkeep
  rw [setSystemProxy, hopen] at herr
  generalize keepProxy b c hostPort = kept at *
  obtain ⟨b', err⟩ := kept
  cases hok
  dsimp only at herr
  rw [ne_eq, writeProxy_ok_iff] at herr
  exact fun henable => herr ⟨hserver, henable⟩

/-- In the mode with the proxy. -/
theorem failureChangesNothing_proxy {ip : IpAddr} (h : Starts b ip) (hmode : b.netUseRoute = false) :
    FailureChangesNothing b c ↔ ¬ LeavesProxy b c ip := by
  obtain ⟨herr, hstate⟩ := setUse_proxy (c := c) h hmode
  constructor
  · intro hnothing hleaves
    have hfail : (setUse b c true).2 ≠ none := by
      rw [herr]
      exact setSystemProxy_error hleaves.opened hleaves.kept hleaves.failed
    have hsystem := (hnothing hfail).2
    rw [hstate hfail, setSystemProxy_unchanged_iff (herr ▸ hfail)] at hsystem
    exact hsystem ⟨hleaves.opened, hleaves.kept, hleaves.changes⟩
  · intro hleaves hfail
    rw [hstate hfail, setSystemProxy_useGW, setSystemProxy_unchanged_iff (herr ▸ hfail)]
    refine ⟨h.idle, fun hchanges => hleaves ?_⟩
    obtain ⟨hopen, hkeep, hserver⟩ := hchanges
    exact ⟨h, hmode, hopen, hkeep, hserver,
      setSystemProxy_failed hopen hserver.1 hkeep (herr ▸ hfail)⟩

/-- In the mode with the route. -/
theorem failureChangesNothing_route {ip : IpAddr} (h : Starts b ip) (hmode : b.netUseRoute = true) :
    FailureChangesNothing b c ↔ ¬ LeavesMetric b c ip := by
  obtain ⟨herr, hstate⟩ := setUse_route (c := c) h hmode
  constructor
  · intro hnothing hleaves
    have hfail : (setUse b c true).2 ≠ none := by
      rw [herr, runSteps_useSteps]
      exact hleaves.failed
    have hsystem := (hnothing hfail).2
    rw [hstate hfail, runSteps_unchanged_iff hleaves.failed] at hsystem
    exact hsystem ⟨hleaves.metric, hleaves.changes⟩
  · intro hleaves hfail
    have hroute : c.netsh 1 ≠ none := by
      rw [herr, runSteps_useSteps] at hfail
      exact hfail
    rw [hstate hfail, runSteps_unchanged_iff hroute]
    exact ⟨h.idle, fun hmetric => hleaves ⟨h, hmode, hmetric.1, hmetric.2, hroute⟩⟩

theorem idle_of_error (h : (setUse b c true).2 ≠ none) : b.useGW = false := by
  cases hidle : b.useGW with
  | false => rfl
  | true =>
      rw [setUse, hidle, if_pos rfl] at h
      exact absurd rfl h

/-- A failed switch changes nothing, except when the proxy cannot be switched on after its
address was written, and when the route cannot be added after the metric was set. -/
theorem failureChangesNothing_iff (b : Bridge) (c : Calls) : FailureChangesNothing b c ↔
    (∀ ip, ¬ LeavesProxy b c ip) ∧ ∀ ip, ¬ LeavesMetric b c ip := by
  by_cases hstarts : ∃ ip, Starts b ip
  · obtain ⟨ip, hip⟩ := hstarts
    have huniq : ∀ ip', Starts b ip' → ip' = ip := fun ip' h =>
      Option.some.inj (h.gateway.symm.trans hip.gateway)
    cases hmode : b.netUseRoute with
    | false =>
        have hmetric : ∀ ip, ¬ LeavesMetric b c ip := fun _ h =>
          absurd (hmode.symm.trans h.mode) Bool.false_ne_true
        rw [failureChangesNothing_proxy hip hmode]
        exact ⟨fun h => ⟨fun ip' h' => h (huniq ip' h'.starts ▸ h'), hmetric⟩, fun h => h.1 ip⟩
    | true =>
        have hproxy : ∀ ip, ¬ LeavesProxy b c ip := fun _ h =>
          absurd (h.mode.symm.trans hmode) Bool.false_ne_true
        rw [failureChangesNothing_route hip hmode]
        exact ⟨fun h => ⟨hproxy, fun ip' h' => h (huniq ip' h'.starts ▸ h')⟩, fun h => h.2 ip⟩
  · have hnone : ∀ ip, ¬ Starts b ip := fun ip h => hstarts ⟨ip, h⟩
    refine ⟨fun _ => ⟨fun ip h => hnone ip h.starts, fun ip h => hnone ip h.starts⟩, fun _ herr => ?_⟩
    rw [setUse_of_not_starts hnone]
    exact ⟨idle_of_error herr, rfl⟩

/-- After a failed switch the helper does not count as switched, so that stopping, which would
take the steps back, does nothing. -/
theorem setUse_false_of_error (h : (setUse b c true).2 ≠ none) (c' : Calls) :
    setUse (setUse b c true).1 c' false = ((setUse b c true).1, none) := by
  have hidle : (setUse b c true).1.useGW = false := by
    by_cases hstarts : ∃ ip, Starts b ip
    · obtain ⟨ip, hip⟩ := hstarts
      cases hmode : b.netUseRoute with
      | false =>
          rw [(setUse_proxy hip hmode).2 h, setSystemProxy_useGW]
          exact hip.idle
      | true =>
          rw [(setUse_route hip hmode).2 h]
          exact hip.idle
    · rw [setUse_of_not_starts fun ip hip => hstarts ⟨ip, hip⟩]
      exact idle_of_error h
  generalize (setUse b c true).1 = b' at *
  rw [setUse, if_pos hidle.symm]

end Failed

/-! ## Two failures -/

/-- A PC with a proxy of its own, which has heard a gateway. -/
def heardGateway (netUseRoute : Bool) : Bridge where
  system :=
    { proxyEnable := some 0, proxyServer := some "proxy:8080", proxyOverride := none,
      metric := none, routes := [], dns := none }
  proxySaved := none
  backup := none
  name := "Voyager"
  sharing := false
  useGW := false
  useRoute := false
  usingIP := ⟨0, 0, 0, 0⟩
  proto := "2"
  seenGW := some ⟨10, 73, 1, 2⟩
  netUseRoute := netUseRoute

/-- Everything goes well up to the proxy being switched on, and up to the route. -/
def lastStepFails : Calls where
  openKey := none
  getEnable := true
  getServer := true
  getOverride := false
  writeFile := none
  setServer := none
  setOverride := none
  setEnable := some "Access is denied."
  netsh i := if i = 1 then some "The object already exists." else none

/-- The address of the gateway stays in the proxy setting, and the metric stays at one. -/
theorem failed_switch_changes_system :
    ¬ FailureChangesNothing (heardGateway false) lastStepFails ∧
      ¬ FailureChangesNothing (heardGateway true) lastStepFails := by
  constructor
  · intro h
    exact absurd (h (by decide +kernel)).2 (by decide +kernel)
  · intro h
    exact absurd (h (by decide +kernel)).2 (by decide +kernel)

end SharedInternet

end Voyager
