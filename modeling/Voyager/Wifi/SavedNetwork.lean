import Voyager.Library.Transition
import Voyager.Wifi.Provision

/-!
# What provisioning saves

`wifi_improv_provision` saves the network it was given when some link is up. The monitor
looks at `g_provisioning` only before it scans, so an attempt that was under way when
provisioning started can still call `WiFi.begin` with the old network, and then the link
is to that one. Otherwise the link is to the network that is saved.
-/

namespace Voyager

namespace Wifi

/-- The Improv task has begun to connect to `req` and has not yet looked at the link it
will report. -/
def Improv.InWindow (req : Network) : Improv → Prop
  | .unlocking req' _ _ | .polling req' _ | .checking req' _ => req' = req
  | _ => False

/-- The Improv task has seen a link to `seen` and is about to save `req`. -/
def Improv.HasSeen (req seen : Network) : Improv → Prop
  | .checkingIp req' _ seen' | .saving req' seen' => req' = req ∧ seen' = seen
  | _ => False

/-- The network that the Improv task waits for. -/
def Improv.waitsFor : Improv → Option Network
  | .unlocking req _ _ | .polling req _ | .checking req _ => some req
  | _ => none

theorem Improv.inWindow_iff (i : Improv) (req : Network) :
    i.InWindow req ↔ i.waitsFor = some req := by
  cases i <;> simp [InWindow, waitsFor]

/-- The monitor does not begin to connect to another network while the Improv task waits
for its link. -/
def Undisturbed (s : Device) (a : Action) : Prop :=
  a = .monitorBegin → ∀ req, s.improv.InWindow req → s.sta = req

instance (s : Device) (a : Action) : Decidable (Undisturbed s a) :=
  decidable_of_iff (a = .monitorBegin → ∀ req ∈ s.improv.waitsFor, s.sta = req)
    (by simp [Undisturbed, Improv.inWindow_iff])

/-- What holds of the driver and of what has been saved in every undisturbed run. -/
structure Inv (s : Device) : Prop where
  window : ∀ req, s.improv.InWindow req →
    s.driver.target = some req ∧ ∀ n, s.driver.link = some n → n = req
  seen : ∀ req seen, s.improv.HasSeen req seen → seen = req
  saved : ∀ r ∈ s.saved, r.seen = r.req

variable {s t : Device} {a : Action}

theorem Driver.link_begin {d : Driver} {n m : Network} (h : (d.begin n).link = some m) : m = n := by
  simp only [Driver.begin] at h
  split at h
  · rename_i hlink
    rw [hlink] at h
    exact (Option.some.inj h).symm
  · cases h

theorem Driver.setMode_target (d : Driver) (m : Mode) : (d.setMode m).target = d.target := by
  unfold Driver.setMode
  split <;> rfl

theorem Driver.setMode_link {d : Driver} {m : Mode} {n : Network}
    (h : (d.setMode m).link = some n) : d.link = some n := by
  unfold Driver.setMode at h
  split at h
  · exact h
  · cases h

/-- A step that leaves the Improv task where it is keeps the invariant, when it leaves the
target and brings up no link, or only one to the target. -/
theorem Inv.of_driver (h : Inv s) (himprov : t.improv = s.improv) (hsaved : t.saved = s.saved)
    (hdriver : ∀ req, s.improv.InWindow req → t.driver.target = some req ∧
      ∀ n, t.driver.link = some n → n = req) : Inv t where
  window req hreq := hdriver req (himprov ▸ hreq)
  seen req seen hseen := h.seen req seen (himprov ▸ hseen)
  saved := hsaved ▸ h.saved

/-- A step outside the window keeps the invariant. -/
theorem Inv.of_outside (h : Inv s) (hwindow : ∀ req, ¬ t.improv.InWindow req)
    (hseen : ∀ req seen, ¬ t.improv.HasSeen req seen) (hsaved : t.saved = s.saved) : Inv t where
  window req hreq := absurd hreq (hwindow req)
  seen req seen h' := absurd h' (hseen req seen)
  saved := hsaved ▸ h.saved

/-- Taking the lock changes nothing else. -/
theorem take_spec {task : Task} {got : Bool} (h : s.take task got = some t) :
    t = { s with radioLock := t.radioLock } := by
  unfold Device.take at h
  split at h
  · split at h
    · cases h
      rfl
    · cases h
  · cases h
    rfl

theorem give_spec (s : Device) (locked : Bool) :
    s.give locked = { s with radioLock := (s.give locked).radioLock } := by
  cases locked <;> rfl

/-- The Improv task keeps the invariant: its own `WiFi.begin` opens the window, and what it
sees in the window is what it asked for. -/
theorem inv_improvStep (h : Inv s) (hstep : s.improvStep a = some t) : Inv t := by
  unfold Device.improvStep at hstep
  split at hstep
  · -- a call while one is going on, or with an invalid network, changes nothing
    split at hstep
    · cases hstep
      exact h
    · cases hstep
      exact h.of_outside (fun _ => id) (fun _ _ => id) rfl
  · cases hstep
    exact h.of_outside (fun _ => id) (fun _ _ => id) rfl
  · obtain ⟨u, hu, rfl⟩ := Option.map_eq_some_iff.mp hstep
    refine h.of_outside (fun _ => id) (fun _ _ => id) ?_
    rw [take_spec hu]
  · cases hstep
    exact h.of_outside (fun _ => id) (fun _ _ => id) rfl
  · -- `WiFi.begin`
    cases hstep
    refine { window := ?_, seen := fun _ _ => False.elim, saved := h.saved }
    rintro req rfl
    exact ⟨rfl, fun n hn => Driver.link_begin hn⟩
  · rename_i req prev locked himprov
    cases hstep
    have hwindow := h.window req (by rw [himprov]; rfl)
    refine { window := ?_, seen := fun _ _ => False.elim, saved := ?_ }
    · rintro req' rfl
      rw [give_spec]
      exact hwindow
    · rw [give_spec]
      exact h.saved
  · rename_i timedOut req prev himprov
    split at hstep
    · cases hstep
      have hwindow := h.window req (by rw [himprov]; rfl)
      refine { window := ?_, seen := fun _ _ => False.elim, saved := h.saved }
      rintro req' rfl
      exact hwindow
    · cases hstep
      exact h
  · rename_i req prev himprov
    split at hstep
    · cases hstep
      exact h.of_outside (fun _ => id) (fun _ _ => id) rfl
    · -- the link that is seen is a link to the target
      rename_i seen hlink
      cases hstep
      refine { window := fun _ => False.elim, seen := ?_, saved := h.saved }
      rintro req' seen' ⟨rfl, rfl⟩
      exact (h.window req (by rw [himprov]; rfl)).2 seen hlink
  · rename_i req prev seen himprov
    cases hstep
    have hseen := h.seen req seen (by rw [himprov]; exact ⟨rfl, rfl⟩)
    by_cases hip : s.driver.hasIp
    · simp only [hip, if_true]
      refine { window := fun _ => False.elim, seen := ?_, saved := h.saved }
      rintro req' seen' ⟨rfl, rfl⟩
      exact hseen
    · simp only [hip]
      exact h.of_outside (fun _ => id) (fun _ _ => id) rfl
  · rename_i ok req seen himprov
    have hseen := h.seen req seen (by rw [himprov]; exact ⟨rfl, rfl⟩)
    split at hstep
    · cases hstep
      refine { window := fun _ => False.elim, seen := fun _ _ => False.elim, saved := ?_ }
      intro r hr
      rcases List.mem_cons.mp hr with rfl | hr
      · exact hseen
      · exact h.saved r hr
    · cases hstep
      exact h.of_outside (fun _ => id) (fun _ _ => id) rfl
  · cases hstep
    exact h.of_outside (fun _ => id) (fun _ _ => id) rfl
  · cases hstep

/-- The monitor keeps the invariant when it does not disturb. -/
theorem inv_monitorStep (h : Inv s) (hok : Undisturbed s a) (hstep : s.monitorStep a = some t) :
    Inv t := by
  -- the steps that leave the driver alone, or drop its link
  have hkeep : ∀ {u : Device}, u.improv = s.improv → u.saved = s.saved →
      u.driver = s.driver → Inv u := by
    intro u himprov hsaved hdriver
    exact h.of_driver himprov hsaved fun req hreq => hdriver ▸ h.window req hreq
  unfold Device.monitorStep at hstep
  split at hstep
  · cases hstep
    exact hkeep rfl rfl rfl
  · cases hstep
    exact hkeep rfl rfl rfl
  · cases hstep
    refine h.of_driver rfl rfl fun req hreq => ?_
    obtain ⟨htarget, hlink⟩ := h.window req hreq
    exact ⟨(Driver.setMode_target _ _).trans htarget, fun n hn => hlink n (Driver.setMode_link hn)⟩
  · split at hstep
    · cases hstep
      exact hkeep rfl rfl rfl
    · cases hstep
  · split at hstep
    · cases hstep
    · cases hstep
      exact hkeep rfl rfl rfl
  · cases hstep
    refine h.of_driver rfl rfl fun req hreq => ?_
    simp only
    split
    · exact h.window req hreq
    · exact ⟨(h.window req hreq).1, nofun⟩
  · obtain ⟨u, hu, rfl⟩ := Option.map_eq_some_iff.mp hstep
    exact hkeep (by rw [take_spec hu]) (by rw [take_spec hu]) (by rw [take_spec hu])
  · cases hstep
    exact hkeep rfl rfl rfl
  · cases hstep
    exact hkeep rfl rfl rfl
  · split at hstep
    · cases hstep
      exact hkeep rfl rfl rfl
    · cases hstep
      exact hkeep rfl rfl rfl
  · obtain ⟨u, hu, rfl⟩ := Option.map_eq_some_iff.mp hstep
    exact hkeep (by rw [take_spec hu]) (by rw [take_spec hu]) (by rw [take_spec hu])
  · -- `WiFi.begin` with the network of the boot, which is the one asked for
    cases hstep
    refine h.of_driver rfl rfl fun req hreq => ?_
    rw [hok rfl req hreq]
    exact ⟨rfl, fun n hn => Driver.link_begin hn⟩
  · cases hstep
    exact hkeep (by rw [give_spec]) (by rw [give_spec]) (by rw [give_spec])
  · cases hstep

/-- The driver connects to its target and to nothing else. -/
theorem inv_driverStep (h : Inv s) (hstep : s.driverStep a = some t) : Inv t := by
  unfold Device.driverStep at hstep
  split at hstep
  · split at hstep
    · cases hstep
      refine h.of_driver rfl rfl fun req hreq => ?_
      have htarget := (h.window req hreq).1
      refine ⟨htarget, fun n hn => ?_⟩
      exact Option.some.inj (hn.symm.trans htarget)
    · cases hstep
  · split at hstep
    · cases hstep
      exact h.of_driver rfl rfl h.window
    · cases hstep
  · cases hstep
    exact h.of_driver rfl rfl fun req hreq => ⟨(h.window req hreq).1, nofun⟩
  · cases hstep

theorem inv_step (h : Inv s) (hok : Undisturbed s a) (hstep : s.step a = some t) : Inv t := by
  cases a with
  | linkUp => exact inv_driverStep (a := .linkUp) h hstep
  | gotIp => exact inv_driverStep (a := .gotIp) h hstep
  | linkLost => exact inv_driverStep (a := .linkLost) h hstep
  | provision | improvMode | improvLock | improvLeave | improvBegin | improvUnlock | improvPoll
  | improvCheck | improvCheckIp | improvSave | improvFail => exact inv_improvStep h hstep
  | monitorWake | monitorRest | monitorFallbackAp | monitorRoam | monitorConnect | monitorLeave
  | monitorScanLock | monitorScanned | monitorRescan | monitorPick | monitorLock | monitorBegin
  | monitorUnlock => exact inv_monitorStep h hok hstep

theorem inv_boot (config : WifiConfig) : Inv (Device.boot config) where
  window _ := False.elim
  seen _ _ := False.elim
  saved := nofun

/-- In every run in which the monitor does not call `WiFi.begin` with another network
between the `WiFi.begin` of a provisioning and its last look at the link, the link that
was seen when a network was saved is a link to that network. -/
theorem saved_network_worked (config : WifiConfig) (as : List Action) (s : Device)
    (hok : Transition.Meets Device.step Undisturbed (Device.boot config) as)
    (hrun : Transition.exec Device.step (Device.boot config) as = some s) :
    ∀ r ∈ s.saved, r.seen = r.req :=
  (Transition.exec_invariant_of_meets (fun _ _ _ h hok hstep => inv_step h hok hstep)
    (inv_boot config) hok hrun).saved

/-! ## A run in which the monitor disturbs -/

/-- In the run, a network is saved only when the link that was seen is a link to it. -/
def SavesWhatWorked (config : WifiConfig) (as : List Action) : Prop :=
  ∀ s, Transition.exec Device.step (Device.boot config) as = some s →
    ∀ r ∈ s.saved, r.seen = r.req

/-- A device whose saved network is `home`, with the password `secret00`. -/
def homeConfig : WifiConfig :=
  { mode := .sta, ssid := [104, 111, 109, 101], pass := [115, 101, 99, 114, 101, 116, 48, 48],
    apPass := [] }

/-- The open network `cafe`. -/
def cafe : Network := { ssid := [99, 97, 102, 101], pass := [] }

/-- The monitor scans some more channels. -/
def scans (channels : ℕ) : List Action :=
  (List.replicate channels [.monitorScanLock true, .monitorScanned]).flatten

/-- The Improv task is called with `cafe`. -/
def calls : List Action := [.provision cafe, .improvMode]

/-- The Improv task up to the end of its `WiFi.begin`. -/
def begins : List Action := [.improvLock true, .improvLeave, .improvBegin, .improvUnlock]

/-- The monitor picks a node of `home` and connects to it. -/
def connects : List Action := [.monitorPick true, .monitorLock true, .monitorBegin, .monitorUnlock]

/-- The Improv task sees a link, and saves. -/
def saves : List Action :=
  [.linkUp, .gotIp, .improvPoll false, .improvCheck, .improvCheckIp, .improvSave true]

/-- Provisioning starts after the third channel of the scan for `home`, and begins to connect
only when the monitor has. -/
def undisturbedRun : List Action :=
  [.monitorWake, .monitorConnect, .monitorLeave] ++ scans 3 ++ calls ++ scans 10 ++ connects ++
    begins ++ [.monitorWake] ++ saves

/-- Provisioning starts after the third channel of the scan for `home`. When the scan is
over the monitor connects to `home`, and that link comes up. -/
def disturbedRun : List Action :=
  [.monitorWake, .monitorConnect, .monitorLeave] ++ scans 3 ++ calls ++ begins ++ scans 10 ++
    connects ++ saves

/-- The monitor connects before the Improv task does, and what that saves has worked. -/
theorem saved_network_worked_undisturbed :
    ∃ s, Transition.exec Device.step (Device.boot homeConfig) undisturbedRun = some s ∧
      s.saved.map Saved.req = [cafe] ∧ ∀ r ∈ s.saved, r.seen = r.req := by
  have hsome : ((Transition.exec Device.step (Device.boot homeConfig) undisturbedRun).map
      fun s => s.saved.map Saved.req) = some [cafe] := by decide
  obtain ⟨s, hrun, hsaved⟩ := Option.map_eq_some_iff.mp hsome
  have hok : Transition.Meets Device.step Undisturbed (Device.boot homeConfig) undisturbedRun := by
    decide
  exact ⟨s, hrun, hsaved, saved_network_worked homeConfig undisturbedRun s hok hrun⟩

/-- Provisioning saves `cafe`, which nothing ever connected to: the link is to `home`. -/
theorem disturbed_run_saves_unseen_network : ¬ SavesWhatWorked homeConfig disturbedRun := by
  intro h
  have hsome : ((Transition.exec Device.step (Device.boot homeConfig) disturbedRun).map
      fun s => decide (∀ r ∈ s.saved, r.seen = r.req)) = some false := by decide
  obtain ⟨s, hrun, hsaved⟩ := Option.map_eq_some_iff.mp hsome
  exact absurd (h s hrun) (of_decide_eq_false hsaved)

end Wifi

end Voyager
