import Mathlib.Logic.Function.Basic
import Voyager.Library.FlatJson
import Voyager.Library.Transition
import Voyager.Wifi.Provision

/-!
# The saved settings, with two writers

The WebSocket worker and the Improv task both change the saved settings: they load all of
them, change their own and write all of them. The lock of the filesystem is held for each
load and for each write, and given back in between. The JSON library is a parameter.
-/

namespace Voyager

namespace Wifi

namespace Settings

/-! ## The file -/

/-- The members of the object that the code reads and writes, where they are strings. -/
structure JsonDoc where
  wifiFunction : Option (List Byte)
  wifiSsid : Option (List Byte)
  wifiPass : Option (List Byte)
  apPass : Option (List Byte)
  deriving DecidableEq, Repr

/-- `serializeJson` for an object with four strings, and `deserializeJson`, which has no
result for a text that is no object. -/
structure JsonLibrary where
  serializeJson : List Byte → List Byte → List Byte → List Byte → List Byte
  deserializeJson : List Byte → Option JsonDoc

def WIFI_DEFAULT_AP_SSID : List Byte := ascii "Voyager"

/-- `wifi_valid_ap_pass`. -/
def validApPass (s : List Byte) : Bool := s.length ≥ 8 && s.length ≤ 63 && printableAscii s

/-- `wifi_valid_ap_pass_setting`. -/
def validApPassSetting (s : List Byte) : Bool := s.length = 0 || validApPass s

/-- `WifiConfig()`. -/
def compiledDefaults : WifiConfig :=
  { mode := .ap, ssid := WIFI_DEFAULT_AP_SSID, pass := [], apPass := [] }

inductive WifiParseResult
  | ok
  | defaulted
  | error
  deriving DecidableEq, Repr

/-- The part of `wifi_parse_config` that reads the network, and whether a default was used. -/
def parseNetwork (doc : JsonDoc) : Bool × WifiConfig :=
  let fn := doc.wifiFunction.getD []
  if fn = ascii "STA" then
    match doc.wifiSsid with
    | none => (true, compiledDefaults)
    | some ssid =>
        if validSsid ssid && validStaPass (doc.wifiPass.getD []) then
          (doc.wifiPass.isNone,
            { compiledDefaults with mode := .sta, ssid, pass := doc.wifiPass.getD [] })
        else (true, compiledDefaults)
  else
    let ssid := doc.wifiSsid.filter validSsid
    (fn != ascii "AP" || ssid.isNone,
      { compiledDefaults with
        ssid := ssid.getD WIFI_DEFAULT_AP_SSID
        pass := (doc.wifiPass.filter validStaPass).getD [] })

/-- The part that reads the password of the access point. -/
def parseApPass (doc : JsonDoc) : Bool × List Byte :=
  match doc.apPass.filter validApPass with
  | some pass => (false, pass)
  | none => (doc.apPass != some [], [])

/-- `wifi_parse_config`. -/
def wifiParseConfig (json : JsonLibrary) (text : List Byte) : WifiParseResult × WifiConfig :=
  if text.length = 0 then (.error, compiledDefaults)
  else
    match json.deserializeJson text with
    | none => (.error, compiledDefaults)
    | some doc =>
        let network := parseNetwork doc
        let apPass := parseApPass doc
        (if network.1 || apPass.1 then .defaulted else .ok,
          { network.2 with apPass := apPass.2 })

def CfgMode.text : CfgMode → List Byte
  | .sta => ascii "STA"
  | .ap => ascii "AP"

/-- `wifi_serialize_config`. -/
def wifiSerializeConfig (json : JsonLibrary) (c : WifiConfig) : List Byte :=
  json.serializeJson (CfgMode.text c.mode) c.ssid c.pass c.apPass

/-- `read_file`: `ok` is whether the lock was got and the file could be opened. -/
def readFile (ok : Bool) (file : Option (List Byte)) : Option (List Byte) :=
  if ok then file.filter fun text => text.length ≤ 4096 else none

/-- `get_wifi_setting`. -/
def getWifiSetting (ok : Bool) (file : Option (List Byte)) : List Byte :=
  ((readFile ok file).filter fun text => !(text.length = 0 || text.length > 1024)).getD []

/-- `wifi_load_config`: the saved settings, else the file with the defaults, else the compiled
ones. -/
def wifiLoadConfig (json : JsonLibrary) (readConfig readDefault : Bool)
    (config default : Option (List Byte)) : WifiConfig :=
  let saved := wifiParseConfig json (getWifiSetting readConfig config)
  if saved.1 ≠ .error then saved.2
  else
    let fallback := wifiParseConfig json (getWifiSetting readDefault default)
    if fallback.1 ≠ .error then fallback.2 else compiledDefaults

/-! ## The writers -/

/-- The four functions that change the settings, with the strings they are given. -/
inductive Op
  | saveSta (ssid pass : List Byte)
  /-- `uname` is what `get_username` returns. -/
  | switchToAp (uname : List Byte)
  | setApPass (pass : List Byte)
  | improvProvision (ssid pass : List Byte)
  deriving DecidableEq, Repr

inductive Task
  | worker
  | improv
  deriving DecidableEq, Repr

def Task.other : Task → Task
  | .worker => .improv
  | .improv => .worker

/-- `fallback_ap_ssid`. -/
def fallbackApSsid (uname : List Byte) : List Byte :=
  if validSsid uname then uname else WIFI_DEFAULT_AP_SSID

namespace Op

/-- The task that calls the function. -/
def task : Op → Task
  | saveSta .. | switchToAp _ | setApPass _ => .worker
  | improvProvision .. => .improv

/-- The checks at the start of the function. -/
def valid : Op → Bool
  | saveSta ssid pass => validSsid ssid && validStaPass pass
  | switchToAp _ => true
  | setApPass pass => validApPassSetting pass
  | improvProvision ssid pass => validSsid ssid && validStaPass pass

/-- What the function assigns in the settings it has loaded. -/
def change (c : WifiConfig) : Op → WifiConfig
  | saveSta ssid pass => { c with mode := .sta, ssid, pass }
  | switchToAp uname => { c with mode := .ap, ssid := fallbackApSsid uname, pass := [] }
  | setApPass pass => { c with apPass := pass }
  | improvProvision ssid pass => { c with mode := .sta, ssid, pass }

end Op

/-- Where a task stands. -/
inductive Pc
  | idle
  /-- The checks were passed; the Improv task tries the network it was given. -/
  | started (op : Op)
  /-- The settings are loaded and changed, and not written yet. -/
  | loaded (op : Op) (c : WifiConfig)
  deriving DecidableEq, Repr

/-- `config` is the file with the settings; `returned` is what the functions have returned. -/
structure State where
  config : Option (List Byte)
  /-- `g_provisioning` -/
  provisioning : Bool
  pc : Task → Pc
  returned : List (Op × Bool)

inductive Action
  | call (op : Op)
  /-- Improv could not connect. -/
  | giveUp
  /-- `wifi_load_config`, and whether its two files could be read. -/
  | load (t : Task) (readConfig readDefault : Bool)
  /-- `write_file_atomic`, and whether it was successful. -/
  | write (t : Task) (ok : Bool)
  deriving DecidableEq, Repr

def boot (config : Option (List Byte)) : State :=
  { config, provisioning := false, pc := fun _ => .idle, returned := [] }

namespace State

def setPc (s : State) (t : Task) (pc : Pc) : State := { s with pc := Function.update s.pc t pc }

def result (s : State) (op : Op) (ok : Bool) : State :=
  { s with returned := s.returned ++ [(op, ok)] }

def step (json : JsonLibrary) (default : Option (List Byte)) (s : State) : Action → Option State
  | .call op =>
      if s.pc op.task ≠ .idle then none
      else if !op.valid then some (s.result op false)
      else
        match op.task with
        | .worker => some (s.setPc .worker (.started op))
        | .improv =>
            if s.provisioning then some (s.result op false)
            else some { s.setPc .improv (.started op) with provisioning := true }
  | .giveUp =>
      match s.pc .improv with
      | .started op => some { (s.setPc .improv .idle).result op false with provisioning := false }
      | _ => none
  | .load t readConfig readDefault =>
      match s.pc t with
      | .started op =>
          some (s.setPc t (.loaded op
            (op.change (wifiLoadConfig json readConfig readDefault s.config default))))
      | _ => none
  | .write t ok =>
      match s.pc t with
      | .loaded op c =>
          some { (s.setPc t .idle).result op ok with
            config := if ok then some (wifiSerializeConfig json c) else s.config }
      | _ => none

end State

/-! ## What is read back -/

/-- A string without control characters. -/
def Plain (s : List Byte) : Prop := ∀ c ∈ s, 0x20 ≤ c

/-- What the JSON library promises for strings without control characters: a character takes
at most two bytes, and what was written is read back. -/
structure JsonLibrary.Documented (json : JsonLibrary) : Prop where
  readsBack : ∀ fn ssid pass apPass, Plain fn → Plain ssid → Plain pass → Plain apPass →
    json.deserializeJson (json.serializeJson fn ssid pass apPass) =
      some ⟨some fn, some ssid, some pass, some apPass⟩
  ne_nil : ∀ fn ssid pass apPass, json.serializeJson fn ssid pass apPass ≠ []
  length_le : ∀ fn ssid pass apPass, Plain fn → Plain ssid → Plain pass → Plain apPass →
    (json.serializeJson fn ssid pass apPass).length ≤
      63 + 2 * (fn.length + ssid.length + pass.length + apPass.length)

/-- Settings that `wifi_parse_config` leaves as they are. -/
structure Valid (c : WifiConfig) : Prop where
  ssid : validSsid c.ssid = true
  pass : validStaPass c.pass = true
  apPass : validApPassSetting c.apPass = true

theorem plain_of_printableAscii {s : List Byte} (h : printableAscii s = true) : Plain s := by
  intro c hc
  have hall := List.all_eq_true.mp h c hc
  rw [Bool.not_eq_true', Bool.or_eq_false_iff, decide_eq_false_iff_not] at hall
  exact UInt8.not_lt.mp hall.1

theorem plain_of_validSsid {s : List Byte} (h : validSsid s = true) :
    Plain s ∧ s.length ≤ 32 := by
  rw [validSsid] at h
  split at h
  · cases h
  · rename_i hlen
    refine ⟨fun c hc => ?_, by omega⟩
    have hall := List.all_eq_true.mp h c hc
    rw [Bool.not_eq_true', Bool.or_eq_false_iff, decide_eq_false_iff_not] at hall
    exact UInt8.not_lt.mp hall.1

theorem plain_of_validApPass {s : List Byte} (h : validApPass s = true) :
    Plain s ∧ s.length ≤ 63 := by
  rw [validApPass, Bool.and_eq_true, Bool.and_eq_true, decide_eq_true_eq, decide_eq_true_eq] at h
  exact ⟨plain_of_printableAscii h.2, h.1.2⟩

theorem plain_of_length_eq_zero {s : List Byte} (h : s.length = 0) : Plain s ∧ s.length ≤ 63 := by
  rw [List.length_eq_zero_iff] at h
  rw [h]
  exact ⟨fun c hc => absurd hc List.not_mem_nil, Nat.zero_le 63⟩

theorem plain_of_validStaPass {s : List Byte} (h : validStaPass s = true) :
    Plain s ∧ s.length ≤ 63 := by
  rw [validStaPass] at h
  split at h
  · rename_i hlen
    exact plain_of_length_eq_zero hlen
  · exact plain_of_validApPass h

theorem plain_of_validApPassSetting {s : List Byte} (h : validApPassSetting s = true) :
    Plain s ∧ s.length ≤ 63 := by
  rw [validApPassSetting, Bool.or_eq_true, decide_eq_true_eq] at h
  rcases h with hlen | hvalid
  · exact plain_of_length_eq_zero hlen
  · exact plain_of_validApPass hvalid

theorem plain_of_all {s : List Byte} (h : s.all (0x20 ≤ ·) = true) : Plain s :=
  fun c hc => of_decide_eq_true (List.all_eq_true.mp h c hc)

theorem plain_text (m : CfgMode) : Plain (CfgMode.text m) ∧ (CfgMode.text m).length ≤ 3 := by
  cases m with
  | sta => exact ⟨plain_of_all (by decide), by decide⟩
  | ap => exact ⟨plain_of_all (by decide), by decide⟩

theorem valid_compiledDefaults : Valid compiledDefaults := ⟨by decide, by decide, by decide⟩

section Json

variable {json : JsonLibrary} {c : WifiConfig}

theorem parseNetwork_text (hc : Valid c) (apPass : Option (List Byte)) :
    parseNetwork ⟨some (CfgMode.text c.mode), some c.ssid, some c.pass, apPass⟩ =
      (false, { c with apPass := [] }) := by
  obtain ⟨mode, ssid, pass, ap⟩ := c
  have hssid := hc.ssid
  have hpass := hc.pass
  dsimp only at hssid hpass
  cases mode with
  | sta =>
      rw [parseNetwork]
      dsimp only [Option.getD_some, CfgMode.text]
      exact (if_pos rfl).trans (if_pos (Bool.and_eq_true_iff.mpr ⟨hssid, hpass⟩))
  | ap =>
      have hne : ascii "AP" ≠ ascii "STA" := by decide
      rw [parseNetwork]
      dsimp only [Option.getD_some, CfgMode.text]
      refine (if_neg hne).trans ?_
      rw [Option.filter_some, Option.filter_some, if_pos hssid, if_pos hpass]
      simp [compiledDefaults]

theorem parseApPass_some {pass : List Byte} (h : validApPassSetting pass = true)
    (fn ssid sta : Option (List Byte)) : parseApPass ⟨fn, ssid, sta, some pass⟩ = (false, pass) := by
  rw [validApPassSetting, Bool.or_eq_true, decide_eq_true_eq, List.length_eq_zero_iff] at h
  rcases h with rfl | hvalid
  · rfl
  · rw [parseApPass]
    dsimp only
    rw [Option.filter_some, if_pos hvalid]

/-- What `wifi_serialize_config` writes is read back. -/
theorem wifiParseConfig_serialize (hjson : json.Documented) (hc : Valid c) :
    wifiParseConfig json (wifiSerializeConfig json c) = (.ok, c) := by
  have hread := hjson.readsBack _ _ _ _ (plain_text c.mode).1 (plain_of_validSsid hc.ssid).1
    (plain_of_validStaPass hc.pass).1 (plain_of_validApPassSetting hc.apPass).1
  have hne : (json.serializeJson (CfgMode.text c.mode) c.ssid c.pass c.apPass).length ≠ 0 :=
    fun h => hjson.ne_nil _ _ _ _ (List.length_eq_zero_iff.mp h)
  rw [wifiParseConfig, wifiSerializeConfig, if_neg hne, hread]
  dsimp only
  rw [parseNetwork_text hc, parseApPass_some hc.apPass]
  rfl

/-- It is never too long for the reader. -/
theorem getWifiSetting_serialize (hjson : json.Documented) (hc : Valid c) :
    getWifiSetting true (some (wifiSerializeConfig json c)) = wifiSerializeConfig json c := by
  have hmode := plain_text c.mode
  have hssid := plain_of_validSsid hc.ssid
  have hpass := plain_of_validStaPass hc.pass
  have hap := plain_of_validApPassSetting hc.apPass
  have hlen := hjson.length_le _ _ _ _ hmode.1 hssid.1 hpass.1 hap.1
  rw [← wifiSerializeConfig] at hlen
  have hne : wifiSerializeConfig json c ≠ [] := hjson.ne_nil _ _ _ _
  have hpos := List.length_pos_of_ne_nil hne
  have hfile : (wifiSerializeConfig json c).length ≤ 4096 := by omega
  have hsetting : (!(decide ((wifiSerializeConfig json c).length = 0) ||
      decide ((wifiSerializeConfig json c).length > 1024))) = true := by
    rw [Bool.not_eq_true', Bool.or_eq_false_iff, decide_eq_false_iff_not, decide_eq_false_iff_not]
    exact ⟨by omega, by omega⟩
  rw [getWifiSetting, readFile, if_pos rfl, Option.filter_some, if_pos (decide_eq_true hfile),
    Option.filter_some, if_pos hsetting, Option.getD_some]

theorem wifiLoadConfig_serialize (hjson : json.Documented) (hc : Valid c) (readDefault : Bool)
    (default : Option (List Byte)) :
    wifiLoadConfig json true readDefault (some (wifiSerializeConfig json c)) default = c := by
  rw [wifiLoadConfig, getWifiSetting_serialize hjson hc, wifiParseConfig_serialize hjson hc]
  exact if_pos WifiParseResult.noConfusion

theorem valid_parseNetwork (doc : JsonDoc) :
    validSsid (parseNetwork doc).2.ssid = true ∧ validStaPass (parseNetwork doc).2.pass = true := by
  rw [parseNetwork]
  dsimp only
  split
  · split
    · exact ⟨valid_compiledDefaults.ssid, valid_compiledDefaults.pass⟩
    · split
      · rename_i hvalid
        exact Bool.and_eq_true_iff.mp hvalid
      · exact ⟨valid_compiledDefaults.ssid, valid_compiledDefaults.pass⟩
  · dsimp only
    constructor
    · cases hssid : doc.wifiSsid.filter validSsid with
      | none => exact valid_compiledDefaults.ssid
      | some ssid => exact (Option.filter_eq_some_iff.mp hssid).2
    · cases hpass : doc.wifiPass.filter validStaPass with
      | none => exact valid_compiledDefaults.pass
      | some pass => exact (Option.filter_eq_some_iff.mp hpass).2

theorem valid_parseApPass (doc : JsonDoc) : validApPassSetting (parseApPass doc).2 = true := by
  rw [parseApPass]
  split
  · rename_i pass hpass
    rw [validApPassSetting, Bool.or_eq_true]
    exact .inr (Option.filter_eq_some_iff.mp hpass).2
  · exact valid_compiledDefaults.apPass

theorem valid_wifiParseConfig (text : List Byte) : Valid (wifiParseConfig json text).2 := by
  rw [wifiParseConfig]
  split
  · exact valid_compiledDefaults
  · split
    · exact valid_compiledDefaults
    · rename_i doc hdoc
      obtain ⟨hssid, hpass⟩ := valid_parseNetwork doc
      exact ⟨hssid, hpass, valid_parseApPass doc⟩

/-- Whatever the files hold, the settings that are loaded are valid. -/
theorem valid_wifiLoadConfig (readConfig readDefault : Bool) (config default : Option (List Byte)) :
    Valid (wifiLoadConfig json readConfig readDefault config default) := by
  rw [wifiLoadConfig]
  dsimp only
  split
  · exact valid_wifiParseConfig _
  · split
    · exact valid_wifiParseConfig _
    · exact valid_compiledDefaults

theorem valid_change {op : Op} (hop : op.valid = true) (hc : Valid c) : Valid (op.change c) := by
  cases op with
  | saveSta ssid pass =>
      obtain ⟨hssid, hpass⟩ := Bool.and_eq_true_iff.mp hop
      exact ⟨hssid, hpass, hc.apPass⟩
  | switchToAp uname =>
      refine ⟨?_, valid_compiledDefaults.pass, hc.apPass⟩
      rw [Op.change, fallbackApSsid]
      dsimp only
      split
      · rename_i huname
        exact huname
      · exact valid_compiledDefaults.ssid
  | setApPass pass => exact ⟨hc.ssid, hc.pass, hop⟩
  | improvProvision ssid pass =>
      obtain ⟨hssid, hpass⟩ := Bool.and_eq_true_iff.mp hop
      exact ⟨hssid, hpass, hc.apPass⟩

end Json

/-! ## Nothing is lost -/

/-- Whether the function sets the network, and not the password of the access point. -/
def Op.setsNetwork : Op → Bool
  | .setApPass _ => false
  | .saveSta .. | .switchToAp _ | .improvProvision .. => true

/-- A field of the settings, and what each function writes to it. -/
structure Field (α : Type) where
  get : WifiConfig → α
  sets : Op → Option α
  ofNetwork : Bool
  isSome_sets : ∀ op, (sets op).isSome = (op.setsNetwork == ofNetwork)
  get_change : ∀ op c, get (op.change c) = (sets op).getD (get c)

namespace Field

def mode : Field CfgMode where
  get := WifiConfig.mode
  sets
    | .saveSta .. | .improvProvision .. => some .sta
    | .switchToAp _ => some .ap
    | .setApPass _ => none
  ofNetwork := true
  isSome_sets op := by cases op <;> rfl
  get_change op c := by cases op <;> rfl

def ssid : Field (List Byte) where
  get := WifiConfig.ssid
  sets
    | .saveSta ssid _ | .improvProvision ssid _ => some ssid
    | .switchToAp uname => some (fallbackApSsid uname)
    | .setApPass _ => none
  ofNetwork := true
  isSome_sets op := by cases op <;> rfl
  get_change op c := by cases op <;> rfl

def pass : Field (List Byte) where
  get := WifiConfig.pass
  sets
    | .saveSta _ pass | .improvProvision _ pass => some pass
    | .switchToAp _ => some []
    | .setApPass _ => none
  ofNetwork := true
  isSome_sets op := by cases op <;> rfl
  get_change op c := by cases op <;> rfl

def apPass : Field (List Byte) where
  get := WifiConfig.apPass
  sets
    | .setApPass pass => some pass
    | .saveSta .. | .switchToAp _ | .improvProvision .. => none
  ofNetwork := false
  isSome_sets op := by cases op <;> rfl
  get_change op c := by cases op <;> rfl

/-- The value that the last of these functions to set the field has written. -/
def last (f : Field α) (ops : List Op) : Option α := (ops.filterMap f.sets).getLast?

theorem last_append_singleton (f : Field α) (ops : List Op) (op : Op) :
    f.last (ops ++ [op]) = (f.sets op).or (f.last ops) := by
  rw [last, last, List.filterMap_append, List.getLast?_append]
  cases h : f.sets op with
  | none => rw [List.filterMap_cons_none h]; rfl
  | some v => rw [List.filterMap_cons_some h]; rfl

end Field

namespace State

/-- The functions that have returned success, in the order of their writes. -/
def saved (s : State) : List Op := (s.returned.filter Prod.snd).map Prod.fst

/-- The settings in the file. -/
def storedConfig (json : JsonLibrary) (s : State) : Option WifiConfig :=
  ((s.config.map (wifiParseConfig json)).filter fun r => r.1 ≠ .error).map Prod.snd

/-- All functions that were called have returned success. -/
def AllSaved (s : State) : Prop := (∀ t, s.pc t = .idle) ∧ ∀ r ∈ s.returned, r.2 = true

end State

/-- The file has the last value that was saved for the field. -/
def Field.Kept (f : Field α) (json : JsonLibrary) (s : State) : Prop :=
  ∀ v ∈ f.last s.saved, (s.storedConfig json).map f.get = some v

structure NothingLost (json : JsonLibrary) (s : State) : Prop where
  mode : Field.mode.Kept json s
  ssid : Field.ssid.Kept json s
  pass : Field.pass.Kept json s
  apPass : Field.apPass.Kept json s

/-- Both tasks are between load and write and change different fields. -/
def Overlapping (s : State) (t : Task) : Bool :=
  match s.pc t, s.pc t.other with
  | .loaded op _, .loaded op' _ => op.setsNetwork != op'.setsNetwork
  | _, _ => false

/-- A load reads the file if there is one, and nothing is written while the other task is
between its load and its write and changes other fields. -/
def Apart (s : State) : Action → Prop
  | .load _ readConfig _ => s.config ≠ none → readConfig = true
  | .write t ok => ok = true → Overlapping s t = false
  | .call _ | .giveUp => True

instance (s : State) : ∀ a, Decidable (Apart s a)
  | .load _ readConfig _ => inferInstanceAs (Decidable (s.config ≠ none → readConfig = true))
  | .write t ok => inferInstanceAs (Decidable (ok = true → Overlapping s t = false))
  | .call _ | .giveUp => inferInstanceAs (Decidable True)

section Run

variable {json : JsonLibrary} {default : Option (List Byte)} {s s' : State} {α : Type}
  {f : Field α}

/-- The file, and the settings that a task is about to write, have the last value that was
saved for the field. -/
structure FieldInv (json : JsonLibrary) (f : Field α) (s : State) : Prop where
  stored : ∀ v ∈ f.last s.saved, ∃ c, Valid c ∧ s.config = some (wifiSerializeConfig json c) ∧
    f.get c = v
  started : ∀ t op, s.pc t = .started op → op.valid = true
  loaded : ∀ t op c, s.pc t = .loaded op c → Valid c ∧ (∀ v ∈ f.sets op, f.get c = v) ∧
    (f.sets op = none → ∀ v ∈ f.last s.saved, f.get c = v)

theorem FieldInv.kept (hjson : json.Documented) (h : FieldInv json f s) : f.Kept json s := by
  intro v hv
  obtain ⟨c, hc, hconfig, rfl⟩ := h.stored v hv
  rw [State.storedConfig, hconfig, Option.map_some, wifiParseConfig_serialize hjson hc]
  rfl

/-- A step that writes nothing, and after which a task stands elsewhere. -/
theorem FieldInv.of_pc {t : Task} {pc : Pc} (h : FieldInv json f s) (hsaved : s'.saved = s.saved)
    (hconfig : s'.config = s.config) (hpc : s'.pc = Function.update s.pc t pc)
    (hstarted : ∀ op, pc = .started op → op.valid = true)
    (hloaded : ∀ op c, pc = .loaded op c → Valid c ∧ (∀ v ∈ f.sets op, f.get c = v) ∧
      (f.sets op = none → ∀ v ∈ f.last s.saved, f.get c = v)) : FieldInv json f s' := by
  constructor
  · rw [hsaved, hconfig]
    exact h.stored
  · intro t' op hop
    rw [hpc] at hop
    by_cases heq : t' = t
    · subst heq
      exact hstarted op ((Function.update_self ..).symm.trans hop)
    · exact h.started t' op ((Function.update_of_ne heq ..).symm.trans hop)
  · rw [hsaved]
    intro t' op c hop
    rw [hpc] at hop
    by_cases heq : t' = t
    · subst heq
      exact hloaded op c ((Function.update_self ..).symm.trans hop)
    · exact h.loaded t' op c ((Function.update_of_ne heq ..).symm.trans hop)

theorem saved_result_false (s : State) (op : Op) : (s.result op false).saved = s.saved := by
  rw [State.saved, State.result, List.filter_append]
  exact congrArg _ (List.append_nil _)

theorem saved_result_true (s : State) (op : Op) : (s.result op true).saved = s.saved ++ [op] := by
  rw [State.saved, State.result, List.filter_append, List.map_append]
  rfl

/-- A function returns before it has loaded anything. -/
theorem FieldInv.refused (h : FieldInv json f s) (op : Op) : FieldInv json f (s.result op false) := by
  refine h.of_pc (t := .worker) (saved_result_false s op) rfl (Function.update_eq_self ..).symm
    (h.started .worker) (h.loaded .worker)

/-- What is loaded has the last value that was saved. -/
theorem FieldInv.get_load (hjson : json.Documented) (h : FieldInv json f s) {readConfig : Bool}
    (hread : s.config ≠ none → readConfig = true) (readDefault : Bool) {v : α}
    (hv : v ∈ f.last s.saved) :
    f.get (wifiLoadConfig json readConfig readDefault s.config default) = v := by
  obtain ⟨c, hc, hconfig, rfl⟩ := h.stored v hv
  rw [hread (hconfig ▸ Option.some_ne_none _), hconfig, wifiLoadConfig_serialize hjson hc]

/-- Two functions that change the same fields set the field both or not at all. -/
theorem sets_eq_none_iff {op op' : Op} (h : op.setsNetwork = op'.setsNetwork) :
    f.sets op = none ↔ f.sets op' = none := by
  rw [← Option.isSome_eq_false_iff.trans Option.isNone_iff_eq_none,
    ← Option.isSome_eq_false_iff.trans Option.isNone_iff_eq_none, f.isSome_sets, f.isSome_sets, h]

/-- The settings that a task has loaded are written. -/
theorem FieldInv.write {t : Task} {op : Op} {c : WifiConfig} (h : FieldInv json f s)
    (hpc : s.pc t = .loaded op c) (hapart : Overlapping s t = false) :
    FieldInv json f { (s.setPc t .idle).result op true with
      config := some (wifiSerializeConfig json c) } := by
  obtain ⟨hvalid, hset, hkept⟩ := h.loaded t op c hpc
  have hsaved : State.saved { (s.setPc t .idle).result op true with
      config := some (wifiSerializeConfig json c) } = s.saved ++ [op] := saved_result_true _ op
  have hget : ∀ v ∈ f.last (s.saved ++ [op]), f.get c = v := by
    intro v hv
    rw [f.last_append_singleton] at hv
    cases hop : f.sets op with
    | none =>
        rw [hop, Option.none_or] at hv
        exact hkept hop v hv
    | some w =>
        rw [hop, Option.some_or] at hv
        exact hset v (hop.trans hv)
  constructor
  · rw [hsaved]
    exact fun v hv => ⟨c, hvalid, rfl, hget v hv⟩
  · intro t' op' hop'
    by_cases heq : t' = t
    · subst heq
      exact absurd ((Function.update_self ..).symm.trans hop') Pc.noConfusion
    · exact h.started t' op' ((Function.update_of_ne heq ..).symm.trans hop')
  · rw [hsaved]
    intro t' op' c' hop'
    by_cases heq : t' = t
    · subst heq
      exact absurd ((Function.update_self ..).symm.trans hop') Pc.noConfusion
    · have hother : t' = t.other := by
        cases t with
        | worker => cases t' with
          | worker => exact absurd rfl heq
          | improv => rfl
        | improv => cases t' with
          | worker => rfl
          | improv => exact absurd rfl heq
      have hpc' : s.pc t' = .loaded op' c' := (Function.update_of_ne heq ..).symm.trans hop'
      obtain ⟨hvalid', hset', hkept'⟩ := h.loaded t' op' c' hpc'
      have hsame : op.setsNetwork = op'.setsNetwork := by
        rw [Overlapping, hpc, ← hother, hpc'] at hapart
        simpa using hapart
      refine ⟨hvalid', hset', fun hnone v hv => ?_⟩
      rw [f.last_append_singleton, (sets_eq_none_iff hsame).mpr hnone, Option.none_or] at hv
      exact hkept' hnone v hv

/-- The file and what is pending stay as they are. -/
theorem FieldInv.step (hjson : json.Documented) {a : Action} (h : FieldInv json f s)
    (hapart : Apart s a) (hstep : s.step json default a = some s') : FieldInv json f s' := by
  cases a with
  | call op =>
      rw [State.step] at hstep
      split at hstep
      · cases hstep
      · split at hstep
        · cases hstep
          exact h.refused op
        · rename_i hvalid
          have hop : ∀ op', Pc.started op = .started op' → op'.valid = true := by
            rintro op' ⟨⟩
            simpa using hvalid
          split at hstep
          · cases hstep
            exact h.of_pc rfl rfl rfl hop fun _ _ => Pc.noConfusion
          · split at hstep
            · cases hstep
              exact h.refused op
            · cases hstep
              exact h.of_pc rfl rfl rfl hop fun _ _ => Pc.noConfusion
  | giveUp =>
      rw [State.step] at hstep
      split at hstep
      · rename_i op hop
        cases hstep
        exact h.of_pc (saved_result_false _ op) rfl rfl (fun _ => Pc.noConfusion)
          fun _ _ => Pc.noConfusion
      · cases hstep
  | load t readConfig readDefault =>
      rw [State.step] at hstep
      split at hstep
      · rename_i op hop
        cases hstep
        refine h.of_pc rfl rfl rfl (fun _ => Pc.noConfusion) ?_
        rintro op' c ⟨⟩
        have hvalid : Valid (wifiLoadConfig json readConfig readDefault s.config default) :=
          valid_wifiLoadConfig ..
        refine ⟨valid_change (h.started t op hop) hvalid, fun v hv => ?_, fun hnone v hv => ?_⟩
        · rw [f.get_change, Option.mem_def.mp hv, Option.getD_some]
        · rw [f.get_change, hnone, Option.getD_none]
          exact h.get_load hjson hapart readDefault hv
      · cases hstep
  | write t ok =>
      rw [State.step] at hstep
      split at hstep
      · rename_i op c hop
        cases hstep
        cases ok with
        | true => exact h.write hop (hapart rfl)
        | false =>
            exact h.of_pc (saved_result_false _ op) rfl rfl (fun _ => Pc.noConfusion)
              fun _ _ => Pc.noConfusion
      · cases hstep

theorem fieldInv_boot (json : JsonLibrary) (f : Field α) (config : Option (List Byte)) :
    FieldInv json f (boot config) :=
  ⟨fun _ hv => absurd hv.symm (Option.some_ne_none _), fun _ _ => Pc.noConfusion,
    fun _ _ _ => Pc.noConfusion⟩

theorem kept_of_apart (hjson : json.Documented) (f : Field α) {config : Option (List Byte)}
    {actions : List Action}
    (hapart : Transition.Meets (State.step json default) Apart (boot config) actions)
    (hrun : Transition.exec (State.step json default) (boot config) actions = some s) :
    f.Kept json s :=
  FieldInv.kept hjson (Transition.exec_invariant_of_meets
    (fun _ _ _ h hok hstep => h.step hjson hok hstep) (fieldInv_boot json f config) hapart hrun)

/-- As long as loads succeed, and nobody writes while the other task is between its load and
its write of other fields, every field has the value that was saved last. -/
theorem nothing_lost_of_apart (hjson : json.Documented) {config : Option (List Byte)}
    {actions : List Action}
    (hapart : Transition.Meets (State.step json default) Apart (boot config) actions)
    (hrun : Transition.exec (State.step json default) (boot config) actions = some s) :
    NothingLost json s where
  mode := kept_of_apart hjson _ hapart hrun
  ssid := kept_of_apart hjson _ hapart hrun
  pass := kept_of_apart hjson _ hapart hrun
  apPass := kept_of_apart hjson _ hapart hrun

/-- What an overlapping write does: the other task puts back the value that it has loaded. -/
theorem overlapping_write_lost (hjson : json.Documented) {t : Task} {op op' : Op}
    {c c' : WifiConfig} {v : α} (hpc : s.pc t = .loaded op c) (hpc' : s.pc t.other = .loaded op' c')
    (hvalid : Valid c') (hop : f.sets op = some v) (hop' : f.sets op' = none) (hne : f.get c' ≠ v)
    (hrun : Transition.exec (State.step json default) s [.write t true, .write t.other true] =
      some s') : ¬ f.Kept json s' := by
  have hother : t.other ≠ t := by
    cases t with
    | worker => exact Task.noConfusion
    | improv => exact Task.noConfusion
  have hpc₁ : ((s.setPc t .idle).result op true).pc t.other = .loaded op' c' :=
    (Function.update_of_ne hother ..).trans hpc'
  rw [Transition.exec_cons, State.step, hpc] at hrun
  dsimp only at hrun
  rw [Option.bind_some, Transition.exec_cons, State.step] at hrun
  dsimp only at hrun
  rw [hpc₁] at hrun
  dsimp only at hrun
  rw [Option.bind_some, Transition.exec_nil, Option.some.injEq] at hrun
  subst hrun
  intro hkept
  have hlast : f.last (((s.saved ++ [op]) ++ [op'])) = some v := by
    rw [f.last_append_singleton, hop', Option.none_or, f.last_append_singleton, hop, Option.some_or]
  rw [← saved_result_true, ← saved_result_true] at hlast
  have hstored := hkept v hlast
  rw [State.storedConfig] at hstored
  dsimp only at hstored
  rw [if_pos rfl, Option.map_some, wifiParseConfig_serialize hjson hvalid] at hstored
  exact hne (Option.some.inj hstored)

end Run

/-! ## A run with a loss -/

/-- The library, for the objects that the code writes. -/
def flatJson : JsonLibrary where
  serializeJson fn ssid pass apPass :=
    FlatJson.writeObject [(ascii "wifi_function", fn), (ascii "wifi_ssid", ssid),
      (ascii "wifi_pass", pass), (ascii "ap_pass", apPass)]
  deserializeJson text :=
    (FlatJson.readObject text).map fun ms =>
      let value (name : String) := (ms.find? fun m => m.1 = ascii name).map Prod.snd
      ⟨value "wifi_function", value "wifi_ssid", value "wifi_pass", value "ap_pass"⟩

theorem ne_zero_of_plain {s : List Byte} (h : Plain s) : ∀ c ∈ s, c ≠ 0 := by
  rintro c hc rfl
  exact absurd (h 0 hc) (by decide)

theorem flatJson_documented : flatJson.Documented := by
  have hnames : ∀ name ∈ ["wifi_function", "wifi_ssid", "wifi_pass", "ap_pass"],
      ∀ c ∈ ascii name, c ≠ 0 := by
    simp only [List.forall_mem_cons, List.not_mem_nil, false_imp_iff, implies_true, and_true]
    exact ⟨ne_zero_of_plain (plain_of_all (by decide)), ne_zero_of_plain (plain_of_all (by decide)),
      ne_zero_of_plain (plain_of_all (by decide)), ne_zero_of_plain (plain_of_all (by decide))⟩
  constructor
  · intro fn ssid pass apPass hfn hssid hpass hap
    have hplain : ∀ m ∈ [(ascii "wifi_function", fn), (ascii "wifi_ssid", ssid),
        (ascii "wifi_pass", pass), (ascii "ap_pass", apPass)], FlatJson.Member.Plain m := by
      simp only [List.forall_mem_cons, List.not_mem_nil, false_imp_iff, implies_true, and_true]
      exact ⟨⟨hnames _ (by decide), ne_zero_of_plain hfn⟩,
        ⟨hnames _ (by decide), ne_zero_of_plain hssid⟩,
        ⟨hnames _ (by decide), ne_zero_of_plain hpass⟩,
        ⟨hnames _ (by decide), ne_zero_of_plain hap⟩⟩
    rw [flatJson]
    dsimp only
    rw [FlatJson.readObject_writeObject hplain]
    rfl
  · exact fun _ _ _ _ => List.cons_ne_nil _ _
  · intro fn ssid pass apPass hfn hssid hpass hap
    have hfn' := FlatJson.length_writeString_le (ne_zero_of_plain hfn)
    have hssid' := FlatJson.length_writeString_le (ne_zero_of_plain hssid)
    have hpass' := FlatJson.length_writeString_le (ne_zero_of_plain hpass)
    have hap' := FlatJson.length_writeString_le (ne_zero_of_plain hap)
    have h₁ : (FlatJson.writeString (ascii "wifi_function")).length = 15 := by decide
    have h₂ : (FlatJson.writeString (ascii "wifi_ssid")).length = 11 := by decide
    have h₃ : (FlatJson.writeString (ascii "wifi_pass")).length = 11 := by decide
    have h₄ : (FlatJson.writeString (ascii "ap_pass")).length = 9 := by decide
    simp only [flatJson, FlatJson.writeObject, FlatJson.writeRest, FlatJson.writeMember,
      List.length_cons, List.length_append, List.length_nil, h₁, h₂, h₃, h₄]
    omega

/-- The settings before the runs. -/
def home : WifiConfig :=
  { mode := .sta, ssid := ascii "home", pass := ascii "homepass", apPass := ascii "oldaccess" }

/-- The worker sets a new password while Improv is between its load and its write. -/
def overlappingRun : List Action :=
  [.call (.improvProvision (ascii "garden") (ascii "flowers1")), .load .improv true true,
    .call (.setApPass (ascii "newaccess")), .load .worker true true, .write .worker true,
    .write .improv true]

/-- Both functions return success, and the new password is gone. -/
theorem overlappingRun_loses :
    ¬ ∀ s, Transition.exec (State.step flatJson none)
      (boot (some (wifiSerializeConfig flatJson home))) overlappingRun = some s →
        s.AllSaved → NothingLost flatJson s := by
  have hview : (Transition.exec (State.step flatJson none)
      (boot (some (wifiSerializeConfig flatJson home))) overlappingRun).map
        (fun s => ((s.pc .worker, s.pc .improv), s.returned.all Prod.snd,
          Field.apPass.last s.saved, (s.storedConfig flatJson).map WifiConfig.apPass)) =
      some ((.idle, .idle), true, some (ascii "newaccess"), some (ascii "oldaccess")) := by
    decide +kernel
  obtain ⟨s, hs, hfields⟩ := Option.map_eq_some_iff.mp hview
  simp only [Prod.mk.injEq] at hfields
  obtain ⟨⟨hworker, himprov⟩, hreturned, hlast, hstored⟩ := hfields
  intro h
  have hall : s.AllSaved := by
    refine ⟨fun t => ?_, List.all_eq_true.mp hreturned⟩
    cases t with
    | worker => exact hworker
    | improv => exact himprov
  have hkept := (h s hs hall).apPass _ hlast
  exact absurd (hstored.symm.trans hkept) (by decide)

/-- The same two functions, one after the other. -/
def apartRun : List Action :=
  [.call (.improvProvision (ascii "garden") (ascii "flowers1")),
    .call (.setApPass (ascii "newaccess")), .load .worker true true, .write .worker true,
    .load .improv true true, .write .improv true]

theorem nothing_lost_of_apart_apartRun :
    ∃ s, Transition.exec (State.step flatJson none)
      (boot (some (wifiSerializeConfig flatJson home))) apartRun = some s ∧
        s.saved.length = 2 ∧ NothingLost flatJson s := by
  have hview : (Transition.exec (State.step flatJson none)
      (boot (some (wifiSerializeConfig flatJson home))) apartRun).map
        (fun s => s.saved.length) = some 2 := by decide +kernel
  obtain ⟨s, hs, hlength⟩ := Option.map_eq_some_iff.mp hview
  exact ⟨s, hs, hlength,
    nothing_lost_of_apart flatJson_documented (by decide +kernel) hs⟩

end Settings

end Wifi

end Voyager
