import Voyager.Wifi.Settings

/-!
# What the settings file holds

Whatever text is parsed, the settings are valid, and valid settings are a fixed point of
writing and parsing. So every file that a function writes is short enough to be read, and is
read back at boot as the settings that were written.
-/

namespace Voyager

namespace Wifi

namespace Settings

variable {json : JsonLibrary} {default : Option (List Byte)} {s s' : State}

/-- The reader takes up to 1024 bytes. -/
theorem length_serialize_le (hjson : json.Documented) {c : WifiConfig} (hc : Valid c) :
    (wifiSerializeConfig json c).length ≤ 1024 := by
  have hmode := plain_text c.mode
  have hssid := plain_of_validSsid hc.ssid
  have hpass := plain_of_validStaPass hc.pass
  have hap := plain_of_validApPassSetting hc.apPass
  have hlen := hjson.length_le _ _ _ _ hmode.1 hssid.1 hpass.1 hap.1
  rw [← wifiSerializeConfig] at hlen
  omega

/-- The functions under way were given valid strings, and have valid settings to write. -/
structure PcValid (s : State) : Prop where
  started : ∀ t op, s.pc t = .started op → op.valid = true
  loaded : ∀ t op c, s.pc t = .loaded op c → Valid c

theorem pcValid_boot (config : Option (List Byte)) : PcValid (boot config) :=
  ⟨fun _ _ => Pc.noConfusion, fun _ _ _ => Pc.noConfusion⟩

/-- A step moves at most one task, and that one to a valid place. -/
theorem PcValid.setPc {t : Task} {pc : Pc} (h : PcValid s)
    (hpc : s'.pc = Function.update s.pc t pc)
    (hstarted : ∀ op, pc = .started op → op.valid = true)
    (hloaded : ∀ op c, pc = .loaded op c → Valid c) : PcValid s' := by
  constructor
  · intro t' op h'
    rw [hpc] at h'
    by_cases heq : t' = t
    · subst heq
      rw [Function.update_self] at h'
      exact hstarted op h'
    · rw [Function.update_of_ne heq] at h'
      exact h.started t' op h'
  · intro t' op c h'
    rw [hpc] at h'
    by_cases heq : t' = t
    · subst heq
      rw [Function.update_self] at h'
      exact hloaded op c h'
    · rw [Function.update_of_ne heq] at h'
      exact h.loaded t' op c h'

theorem PcValid.setIdle {t : Task} (h : PcValid s) (hpc : s'.pc = Function.update s.pc t .idle) :
    PcValid s' :=
  h.setPc hpc (fun _ => Pc.noConfusion) fun _ _ => Pc.noConfusion

theorem PcValid.step {a : Action} (h : PcValid s) (hstep : s.step json default a = some s') :
    PcValid s' := by
  cases a with
  | call op =>
      rw [State.step] at hstep
      split at hstep
      · cases hstep
      · split at hstep
        · cases hstep
          exact ⟨h.started, h.loaded⟩
        · rename_i hvalid
          have hop : ∀ op', Pc.started op = .started op' → op'.valid = true := by
            rintro op' ⟨⟩
            simpa using hvalid
          split at hstep
          · cases hstep
            exact h.setPc rfl hop fun _ _ => Pc.noConfusion
          · split at hstep
            · cases hstep
              exact ⟨h.started, h.loaded⟩
            · cases hstep
              exact h.setPc rfl hop fun _ _ => Pc.noConfusion
  | giveUp =>
      rw [State.step] at hstep
      split at hstep
      · cases hstep
        exact h.setIdle rfl
      · cases hstep
  | load t readConfig readDefault =>
      rw [State.step] at hstep
      split at hstep
      · rename_i op hop
        cases hstep
        refine h.setPc rfl (fun _ => Pc.noConfusion) ?_
        rintro op' c ⟨⟩
        exact valid_change (h.started t op hop) (valid_wifiLoadConfig ..)
      · cases hstep
  | write t ok =>
      rw [State.step] at hstep
      split at hstep
      · cases hstep
        exact h.setIdle rfl
      · cases hstep

/-- What a step writes is short enough, and is read back as it is. -/
theorem PcValid.readBack (hjson : json.Documented) (h : PcValid s) {t : Task}
    (hstep : s.step json default (.write t true) = some s') :
    ∃ op c, s.pc t = .loaded op c ∧ s'.config = some (wifiSerializeConfig json c) ∧
      (wifiSerializeConfig json c).length ≤ 1024 ∧
      ∀ readDefault default', wifiLoadConfig json true readDefault s'.config default' = c := by
  rw [State.step] at hstep
  split at hstep
  · rename_i op c hpc
    cases hstep
    have hvalid := h.loaded t op c hpc
    refine ⟨op, c, hpc, rfl, length_serialize_le hjson hvalid, fun readDefault default' => ?_⟩
    exact wifiLoadConfig_serialize hjson hvalid readDefault default'
  · cases hstep

/-- Every text parses to settings that are written and parsed unchanged; so at any time, what
the tasks write is what the next boot reads. -/
theorem wifiParseConfig_fixed_point (hjson : json.Documented) :
    (∀ text, Valid (wifiParseConfig json text).2 ∧
      wifiParseConfig json (wifiSerializeConfig json (wifiParseConfig json text).2) =
        (.ok, (wifiParseConfig json text).2)) ∧
    ∀ (config default : Option (List Byte)) (actions : List Action) (s s' : State) (t : Task),
      Transition.exec (State.step json default) (boot config) actions = some s →
      s.step json default (.write t true) = some s' →
      ∃ op c, s.pc t = .loaded op c ∧ s'.config = some (wifiSerializeConfig json c) ∧
        (wifiSerializeConfig json c).length ≤ 1024 ∧
        ∀ readDefault default', wifiLoadConfig json true readDefault s'.config default' = c := by
  refine ⟨fun text => ?_, fun config default actions s s' t hrun hstep => ?_⟩
  · have hvalid : Valid (wifiParseConfig json text).2 := valid_wifiParseConfig text
    exact ⟨hvalid, wifiParseConfig_serialize hjson hvalid⟩
  · have hvalid : PcValid s :=
      Transition.exec_invariant (fun _ _ _ h hstep => h.step hstep) (pcValid_boot config) hrun
    exact hvalid.readBack hjson hstep

/-- Settings with characters that a JSON text escapes. -/
def quoted : WifiConfig where
  mode := .sta
  ssid := ascii "the \"den\""
  pass := ascii "back\\slash"
  apPass := ascii "open \"sesame\""

def quotedText : List Byte :=
  ascii "\x7b\"wifi_function\":\"STA\",\"wifi_ssid\":\"the \\\"den\\\"\"," ++
    ascii "\"wifi_pass\":\"back\\\\slash\",\"ap_pass\":\"open \\\"sesame\\\"\"\x7d"

/-- The worker is about to write another password of the access point. -/
def quotedRun : List Action :=
  [.call (.setApPass (ascii "new\\\"pass\"")), .load .worker true true]

theorem wifiParseConfig_fixed_point_quoted :
    wifiParseConfig flatJson quotedText = (.ok, quoted) ∧
      wifiParseConfig flatJson (wifiSerializeConfig flatJson quoted) = (.ok, quoted) ∧
      ∃ s s', Transition.exec (State.step flatJson none) (boot (some quotedText)) quotedRun =
          some s ∧
        s.step flatJson none (.write .worker true) = some s' ∧
        wifiLoadConfig flatJson true true s'.config none =
          { quoted with apPass := ascii "new\\\"pass\"" } := by
  obtain ⟨hparse, hwrite⟩ := wifiParseConfig_fixed_point flatJson_documented
  have htext : wifiParseConfig flatJson quotedText = (.ok, quoted) := by decide +kernel
  have hfixed := (hparse quotedText).2
  rw [htext] at hfixed
  have hview : (Transition.exec (State.step flatJson none) (boot (some quotedText)) quotedRun).map
      (fun s => s.pc .worker) =
      some (.loaded (.setApPass (ascii "new\\\"pass\""))
        { quoted with apPass := ascii "new\\\"pass\"" }) := by decide +kernel
  obtain ⟨s, hrun, hpc⟩ := Option.map_eq_some_iff.mp hview
  have hstep : ∃ s', s.step flatJson none (.write .worker true) = some s' := by
    simp only [State.step, hpc]
    exact ⟨_, rfl⟩
  obtain ⟨s', hstep⟩ := hstep
  obtain ⟨op, c, hloaded, -, -, hread⟩ := hwrite _ none quotedRun s s' .worker hrun hstep
  rw [hpc, Pc.loaded.injEq] at hloaded
  exact ⟨htext, hfixed, s, s', hrun, hstep, hloaded.2 ▸ hread true none⟩

end Settings

end Wifi

end Voyager
