import Voyager.Lora.Config

/-!
# The requests of the page

A request comes over the WebSocket as a JSON value. `coreParseRequest` makes a command of it,
with arguments that have been checked, and `handleOperations` says what the worker then does.
-/

namespace Voyager

open LoraProto

namespace Dispatch

/-! ## The command of a request -/

inductive CoreAction where
  | missing
  | unknown
  | invalid
  | wifiScan
  | connectWifi
  | wifiApMode
  | setApPass
  | resetDevice
  | restartDevice
  | setUsername
  | getUsername
  | setLoraConfig
  | setSerialMode
  | getSerialMode
  | getNetStatus
  | getWifiScan
  | getBtConfig
  | setBtMode
  | rebootToBt
  | fileTxInvite
  | fileTxJoin
  | fileTxStart
  | fileTxEnd
  deriving DecidableEq, Repr

structure CoreCommand where
  action : CoreAction
  arg1 : List Byte := []
  arg2 : List Byte := []
  flag : Bool := false
  error : String := ""
  deriving DecidableEq, Repr

def CORE_USERNAME_MIN : ℕ := 1
def CORE_USERNAME_MAX : ℕ := 32
def CORE_SSID_MAX : ℕ := 32
def CORE_PASS_MIN : ℕ := 8
def CORE_PASS_MAX : ℕ := 63

/-- `core_printable`. -/
def corePrintable (s : List Byte) : Bool := s.all fun c => !(c < 0x20 || c = 0x7F)

/-- A text as a C string, `none` where `is<const char*>()` is false. -/
def charPtr : JsonVariant → Option (List Byte)
  | .string s => some (cString s)
  | _ => none

/-- `is<bool>()` and `as<bool>()`. -/
def boolean : JsonVariant → Option Bool
  | .boolean b => some b
  | _ => none

/-- `core_invalid`. -/
def coreInvalid (why : String) : CoreCommand := { action := .invalid, error := why }

/-- A passphrase is empty or has the length that WPA wants. -/
def passLength (pass : List Byte) : Bool :=
  pass = [] || (CORE_PASS_MIN ≤ pass.length && pass.length ≤ CORE_PASS_MAX)

/-- The passphrase of a network, which may be left out. -/
def wifiPass (doc : JsonVariant) : Option (List Byte) :=
  if (doc.get (ascii "wifi_pass")).isNull then some [] else charPtr (doc.get (ascii "wifi_pass"))

def parseConnectWifi (doc : JsonVariant) : CoreCommand :=
  match charPtr (doc.get (ascii "wifi_ssid")) with
  | none => coreInvalid "wifi_ssid missing"
  | some ssid =>
      if ssid = [] ∨ ssid.length > CORE_SSID_MAX then coreInvalid "wifi_ssid length"
      else
        match wifiPass doc with
        | none => coreInvalid "wifi_pass type"
        | some pass =>
            if passLength pass = false then coreInvalid "wifi_pass length"
            else { action := .connectWifi, arg1 := ssid, arg2 := pass }

def parseSetApPass (doc : JsonVariant) : CoreCommand :=
  match charPtr (doc.get (ascii "val")) with
  | none => coreInvalid "val missing"
  | some pass =>
      if passLength pass = false then coreInvalid "ap_pass length"
      else if corePrintable pass = false then coreInvalid "ap_pass chars"
      else { action := .setApPass, arg1 := pass }

def parseSetUsername (doc : JsonVariant) : CoreCommand :=
  match charPtr (doc.get (ascii "val")) with
  | none => coreInvalid "val missing"
  | some u =>
      if u.length < CORE_USERNAME_MIN ∨ u.length > CORE_USERNAME_MAX then
        coreInvalid "username length"
      else if corePrintable u = false then coreInvalid "username chars"
      else { action := .setUsername, arg1 := u }

def parseSetLoraConfig (json : JsonLibrary) (doc : JsonVariant) : CoreCommand :=
  match charPtr (doc.get (ascii "val")) with
  | none => coreInvalid "val missing"
  | some cfg =>
      if coreLoraConfigStringValid json cfg = false then coreInvalid "lora config out of range"
      else { action := .setLoraConfig, arg1 := cfg }

/-- `set_serial_mode` and `set_bt_mode`. -/
def parseFlag (action : CoreAction) (doc : JsonVariant) : CoreCommand :=
  match boolean (doc.get (ascii "value")) with
  | none => coreInvalid "value must be bool"
  | some flag => { action, flag }

def parseFileTxInvite (doc : JsonVariant) : CoreCommand :=
  match charPtr (doc.get (ascii "fileName")) with
  | none => coreInvalid "fileName missing"
  | some name =>
      let fs := doc.get (ascii "fileSize")
      if fs.isLong then
        { action := .fileTxInvite, arg1 := name, arg2 := ascii (toString fs.asLong) }
      else
        match charPtr fs with
        | none => coreInvalid "fileSize missing"
        | some size => { action := .fileTxInvite, arg1 := name, arg2 := size }

def parseFileTxJoin (doc : JsonVariant) : CoreCommand :=
  match charPtr (doc.get (ascii "sender_mac")) with
  | none => coreInvalid "sender_mac missing"
  | some mac =>
      match charPtr (doc.get (ascii "mode")) with
      | none => coreInvalid "mode missing"
      | some mode =>
          if mode ≠ ascii "usb" ∧ mode ≠ ascii "bt" then coreInvalid "mode must be usb or bt"
          else { action := .fileTxJoin, arg1 := mac, arg2 := mode }

/-- The request types without arguments. -/
def plainRequests : List (List Byte × CoreAction) :=
  [(ascii "wifi_ssid_scan", .wifiScan), (ascii "wifi_ap_mode", .wifiApMode),
    (ascii "reset_device", .resetDevice), (ascii "restart_device", .restartDevice),
    (ascii "get_username", .getUsername), (ascii "get_serial_mode", .getSerialMode),
    (ascii "get_net_status", .getNetStatus), (ascii "get_wifi_scan", .getWifiScan),
    (ascii "get_bt_config", .getBtConfig), (ascii "reboot_to_bt", .rebootToBt),
    (ascii "file_tx_start", .fileTxStart), (ascii "file_tx_end", .fileTxEnd)]

/-- The request types with arguments. -/
def parsers (json : JsonLibrary) : List (List Byte × (JsonVariant → CoreCommand)) :=
  [(ascii "connect_wifi", parseConnectWifi), (ascii "set_ap_pass", parseSetApPass),
    (ascii "set_username", parseSetUsername),
    (ascii "set_lora_config", parseSetLoraConfig json),
    (ascii "set_serial_mode", parseFlag .setSerialMode),
    (ascii "set_bt_mode", parseFlag .setBtMode), (ascii "file_tx_invite", parseFileTxInvite),
    (ascii "file_tx_join", parseFileTxJoin)]

/-- `core_parse_request`. The types are compared one after the other; all of them differ. -/
def coreParseRequest (json : JsonLibrary) (doc : JsonVariant) : CoreCommand :=
  match charPtr (doc.get (ascii "request-type")) with
  | none => { action := .missing, error := "missing request-type" }
  | some t =>
      match plainRequests.find? fun r => r.1 = t with
      | some r => { action := r.2 }
      | none =>
          match (parsers json).find? fun r => r.1 = t with
          | some r => r.2 doc
          | none => { action := .unknown, error := "unknown request-type" }

/-! ## What the worker does -/

/-- A task that the worker creates. -/
inductive Spawn where
  | scanSsid
  | resetDevice
  | restart
  | saveLoraSerialConfig
  | setBtMode (enable : Bool)
  | rebootToBt
  deriving DecidableEq, Repr

inductive Operation where
  /-- `serial_print`. -/
  | log (text : List Byte)
  /-- `show_alert`. -/
  | alert (text : List Byte)
  | spawn (task : Spawn)
  | wifiSaveSta (ssid pass : List Byte)
  | wifiSwitchToAp
  | wifiSetApPass (pass : List Byte)
  /-- `save_username` and the alert about its result. -/
  | saveUsername (uname : List Byte)
  | sendUsernameToWs
  /-- `save_lora_config` and the alert when it fails. -/
  | saveLoraConfig (value : List Byte)
  | setLoraSerial (value : Bool)
  | sendSerialModeToWs
  | sendNetStatus
  | sendLastScan
  | sendBtConfigToWs
  | sendFileTxInvite (fileName fileSize : List Byte)
  | sendFileTxJoin (senderMac mode : List Byte)
  deriving DecidableEq, Repr

/-- What the worker finds: the network mode, Bluetooth in the build, memory, and whether a task
is created. -/
structure Env where
  netActive : Bool
  btAvailable : Bool
  heap : Bool
  taskOk : Bool

/-- `xTaskCreatePinnedToCore`, with the line that is logged when it fails. -/
def create (env : Env) (task : Spawn) (failed : String) : List Operation :=
  if env.taskOk then [.spawn task] else [.log (ascii failed)]

def BT_MISSING : String := "BT not available (firmware not compiled with VOYAGER_BT_ENABLED)"

/-- `handle_operations`, for a command. -/
def handleCommand (env : Env) (cmd : CoreCommand) : List Operation :=
  match cmd.action with
  | .missing | .unknown => [.log (ascii "WS request ignored: " ++ ascii cmd.error)]
  | .invalid =>
      [.log (ascii "WS request rejected: " ++ ascii cmd.error),
        .alert (ascii "Request rejected: " ++ ascii cmd.error)]
  | .wifiScan => create env .scanSsid "scan_wifi task create failed"
  | .connectWifi =>
      [.log (ascii "connect_wifi: " ++ cmd.arg1), .wifiSaveSta cmd.arg1 cmd.arg2]
  | .wifiApMode => [.log (ascii "wifi_ap_mode"), .wifiSwitchToAp]
  | .setApPass => [.log (ascii "set_ap_pass"), .wifiSetApPass cmd.arg1]
  | .resetDevice => create env .resetDevice "reset_device task create failed"
  | .restartDevice => create env .restart "restart task create failed"
  | .setUsername => [.saveUsername cmd.arg1, .sendUsernameToWs]
  | .getUsername => [.sendUsernameToWs]
  | .setLoraConfig => [.log (ascii "set_lora_config"), .saveLoraConfig cmd.arg1]
  | .setSerialMode =>
      if cmd.flag && env.netActive then
        [.alert (ascii "The serial port is in LoRa network mode (Voyager Link)."),
          .sendSerialModeToWs]
      else
        .setLoraSerial cmd.flag ::
          (create env .saveLoraSerialConfig "save_lora_serial task create failed" ++
            [.sendSerialModeToWs])
  | .getSerialMode => [.sendSerialModeToWs]
  | .getNetStatus => [.sendNetStatus]
  | .getWifiScan => [.sendLastScan]
  | .getBtConfig => [.sendBtConfigToWs]
  | .setBtMode =>
      if cmd.flag && !env.btAvailable then [.alert (ascii BT_MISSING), .sendBtConfigToWs]
      else if !env.heap then [.alert (ascii "Failed: out of memory")]
      else create env (.setBtMode cmd.flag) "set_bt_mode task create failed"
  | .rebootToBt =>
      if !env.btAvailable then [.alert (ascii BT_MISSING), .sendBtConfigToWs]
      else create env .rebootToBt "reboot_to_bt task create failed"
  | .fileTxInvite => [.sendFileTxInvite cmd.arg1 cmd.arg2]
  | .fileTxJoin => [.sendFileTxJoin cmd.arg1 cmd.arg2]
  | .fileTxStart =>
      if env.netActive then
        [.alert (ascii
            "The serial port is in LoRa network mode (Voyager Link). Leave the network first."),
          .sendSerialModeToWs]
      else
        [.setLoraSerial true, .log (ascii "File TX started (serial bridge enabled)"),
          .sendSerialModeToWs]
  | .fileTxEnd =>
      [.setLoraSerial false, .log (ascii "File TX ended (serial bridge disabled)"),
        .sendSerialModeToWs]

/-- `handle_operations`. -/
def handleOperations (json : JsonLibrary) (env : Env) (doc : JsonVariant) : List Operation :=
  handleCommand env (coreParseRequest json doc)

/-! ## What is checked -/

/-- The errors of `core_parse_request`. -/
def errors : List String :=
  ["missing request-type", "unknown request-type", "wifi_ssid missing", "wifi_ssid length",
    "wifi_pass type", "wifi_pass length", "val missing", "ap_pass length", "ap_pass chars",
    "username length", "username chars", "lora config out of range", "value must be bool",
    "fileName missing", "fileSize missing", "sender_mac missing", "mode missing",
    "mode must be usb or bt"]

/-- What the check of a command leaves of its arguments. -/
def CoreCommand.Valid (json : JsonLibrary) (doc : JsonVariant) (cmd : CoreCommand) : Prop :=
  match cmd.action with
  | .missing | .unknown | .invalid => cmd.error ∈ errors
  | .connectWifi =>
      charPtr (doc.get (ascii "wifi_ssid")) = some cmd.arg1 ∧ cmd.arg1 ≠ [] ∧
        cmd.arg1.length ≤ CORE_SSID_MAX ∧ passLength cmd.arg2 = true
  | .setApPass => passLength cmd.arg1 = true ∧ corePrintable cmd.arg1 = true
  | .setUsername =>
      CORE_USERNAME_MIN ≤ cmd.arg1.length ∧ cmd.arg1.length ≤ CORE_USERNAME_MAX ∧
        corePrintable cmd.arg1 = true
  | .setLoraConfig => coreLoraConfigStringValid json cmd.arg1 = true
  | .fileTxJoin => cmd.arg2 = ascii "usb" ∨ cmd.arg2 = ascii "bt"
  | _ => True

section Parsers

variable {json : JsonLibrary} {doc : JsonVariant}

theorem valid_coreInvalid {why : String} (h : why ∈ errors) :
    (coreInvalid why).Valid json doc := h

theorem valid_parseConnectWifi : (parseConnectWifi doc).Valid json doc := by
  rw [parseConnectWifi]
  cases hssid : charPtr (doc.get (ascii "wifi_ssid")) with
  | none => exact valid_coreInvalid (by decide)
  | some ssid =>
      simp only []
      by_cases hlength : ssid = [] ∨ ssid.length > CORE_SSID_MAX
      · rw [if_pos hlength]
        exact valid_coreInvalid (by decide)
      · rw [if_neg hlength]
        cases wifiPass doc with
        | none => exact valid_coreInvalid (by decide)
        | some pass =>
            rw [not_or, not_lt] at hlength
            simp only []
            split_ifs with hpass
            · exact valid_coreInvalid (by decide)
            · rw [Bool.not_eq_false] at hpass
              exact ⟨hssid, hlength.1, hlength.2, hpass⟩

theorem valid_parseSetApPass : (parseSetApPass doc).Valid json doc := by
  rw [parseSetApPass]
  cases charPtr (doc.get (ascii "val")) with
  | none => exact valid_coreInvalid (by decide)
  | some pass =>
      simp only []
      split_ifs with hlength hchars
      · exact valid_coreInvalid (by decide)
      · exact valid_coreInvalid (by decide)
      · exact ⟨Bool.not_eq_false _ ▸ hlength, Bool.not_eq_false _ ▸ hchars⟩

theorem valid_parseSetUsername : (parseSetUsername doc).Valid json doc := by
  rw [parseSetUsername]
  cases charPtr (doc.get (ascii "val")) with
  | none => exact valid_coreInvalid (by decide)
  | some u =>
      simp only []
      split_ifs with hlength hchars
      · exact valid_coreInvalid (by decide)
      · exact valid_coreInvalid (by decide)
      · rw [not_or, not_lt, not_lt] at hlength
        exact ⟨hlength.1, hlength.2, Bool.not_eq_false _ ▸ hchars⟩

theorem valid_parseSetLoraConfig : (parseSetLoraConfig json doc).Valid json doc := by
  rw [parseSetLoraConfig]
  cases charPtr (doc.get (ascii "val")) with
  | none => exact valid_coreInvalid (by decide)
  | some cfg =>
      simp only []
      split_ifs with hrange
      · exact valid_coreInvalid (by decide)
      · rw [Bool.not_eq_false] at hrange
        exact hrange

theorem valid_parseFlag {action : CoreAction}
    (haction : action = .setSerialMode ∨ action = .setBtMode) :
    (parseFlag action doc).Valid json doc := by
  rw [parseFlag]
  cases boolean (doc.get (ascii "value")) with
  | none => exact valid_coreInvalid (by decide)
  | some flag => rcases haction with rfl | rfl <;> trivial

theorem valid_parseFileTxInvite : (parseFileTxInvite doc).Valid json doc := by
  rw [parseFileTxInvite]
  cases charPtr (doc.get (ascii "fileName")) with
  | none => exact valid_coreInvalid (by decide)
  | some name =>
      simp only []
      split_ifs
      · trivial
      · cases charPtr (doc.get (ascii "fileSize")) with
        | none => exact valid_coreInvalid (by decide)
        | some size => trivial

theorem valid_parseFileTxJoin : (parseFileTxJoin doc).Valid json doc := by
  rw [parseFileTxJoin]
  cases charPtr (doc.get (ascii "sender_mac")) with
  | none => exact valid_coreInvalid (by decide)
  | some mac =>
      cases charPtr (doc.get (ascii "mode")) with
      | none => exact valid_coreInvalid (by decide)
      | some mode =>
          simp only []
          split_ifs with hmode
          · exact valid_coreInvalid (by decide)
          · rw [not_and_or, not_not, not_not] at hmode
            exact hmode

theorem valid_coreParseRequest : (coreParseRequest json doc).Valid json doc := by
  rw [coreParseRequest]
  cases charPtr (doc.get (ascii "request-type")) with
  | none => exact (by decide : "missing request-type" ∈ errors)
  | some t =>
      cases hplain : plainRequests.find? fun r => r.1 = t with
      | some r =>
          have hmem := List.mem_of_find?_eq_some hplain
          simp only [plainRequests, List.mem_cons, List.not_mem_nil, or_false] at hmem
          rcases hmem with rfl | rfl | rfl | rfl | rfl | rfl | rfl | rfl | rfl | rfl | rfl | rfl
          all_goals
            simp only [hplain]
            trivial
      | none =>
          cases hparser : (parsers json).find? fun r => r.1 = t with
          | none =>
              simp only [hplain, hparser]
              exact (by decide : "unknown request-type" ∈ errors)
          | some r =>
              simp only [hplain, hparser]
              have hmem := List.mem_of_find?_eq_some hparser
              simp only [parsers, List.mem_cons, List.not_mem_nil, or_false] at hmem
              rcases hmem with rfl | rfl | rfl | rfl | rfl | rfl | rfl | rfl
              · exact valid_parseConnectWifi
              · exact valid_parseSetApPass
              · exact valid_parseSetUsername
              · exact valid_parseSetLoraConfig
              · exact valid_parseFlag (.inl rfl)
              · exact valid_parseFlag (.inr rfl)
              · exact valid_parseFileTxInvite
              · exact valid_parseFileTxJoin

end Parsers

/-- The lines and the alerts of the worker that say nothing of a request. -/
def fixedTexts : List String :=
  ["scan_wifi task create failed", "wifi_ap_mode", "set_ap_pass",
    "reset_device task create failed", "restart task create failed", "set_lora_config",
    "The serial port is in LoRa network mode (Voyager Link).",
    "save_lora_serial task create failed", BT_MISSING, "Failed: out of memory",
    "set_bt_mode task create failed", "reboot_to_bt task create failed",
    "The serial port is in LoRa network mode (Voyager Link). Leave the network first.",
    "File TX started (serial bridge enabled)", "File TX ended (serial bridge disabled)"]

/-- A text that may be logged or shown for a request: of what the page sent it can only have the
name of a network. -/
def Sayable (doc : JsonVariant) (text : List Byte) : Prop :=
  (∃ t ∈ fixedTexts, text = ascii t) ∨
    (∃ e ∈ errors, text = ascii "WS request ignored: " ++ ascii e ∨
      text = ascii "WS request rejected: " ++ ascii e ∨
      text = ascii "Request rejected: " ++ ascii e) ∨
    ∃ ssid, charPtr (doc.get (ascii "wifi_ssid")) = some ssid ∧
      text = ascii "connect_wifi: " ++ ssid

/-- What the worker may do for a request. -/
def Checked (json : JsonLibrary) (env : Env) (doc : JsonVariant) : Operation → Prop
  | .log text => Sayable doc text
  | .alert text => Sayable doc text
  | .wifiSaveSta ssid pass =>
      ssid ≠ [] ∧ ssid.length ≤ CORE_SSID_MAX ∧ passLength pass = true
  | .wifiSetApPass pass => passLength pass = true ∧ corePrintable pass = true
  | .saveUsername uname =>
      CORE_USERNAME_MIN ≤ uname.length ∧ uname.length ≤ CORE_USERNAME_MAX ∧
        corePrintable uname = true
  | .saveLoraConfig value => coreLoraConfigStringValid json value = true
  | .setLoraSerial value => value = true → env.netActive = false
  | .sendFileTxJoin _ mode => mode = ascii "usb" ∨ mode = ascii "bt"
  | .spawn (.setBtMode enable) => enable = true → env.btAvailable = true
  | .spawn .rebootToBt => env.btAvailable = true
  | _ => True

section Operations

variable {json : JsonLibrary} {env : Env} {doc : JsonVariant}

theorem sayable_fixed {t : String} (h : t ∈ fixedTexts) : Sayable doc (ascii t) :=
  .inl ⟨t, h, rfl⟩

theorem checked_create {task : Spawn} {failed : String} (hfailed : failed ∈ fixedTexts)
    (htask : Checked json env doc (.spawn task)) :
    ∀ op ∈ create env task failed, Checked json env doc op := by
  intro op hop
  rw [create] at hop
  split_ifs at hop
  · rw [List.mem_singleton.mp hop]
    exact htask
  · rw [List.mem_singleton.mp hop]
    exact sayable_fixed hfailed

/-- The commands without arguments and without a check. -/
theorem checked_flags (cmd : CoreCommand) (haction : cmd.action = .setSerialMode ∨
    cmd.action = .setBtMode ∨ cmd.action = .rebootToBt ∨ cmd.action = .fileTxStart ∨
      cmd.action = .fileTxEnd) :
    ∀ op ∈ handleCommand env cmd, Checked json env doc op := by
  rw [handleCommand]
  rcases haction with h | h | h | h | h
  · rw [h]
    by_cases hbusy : (cmd.flag && env.netActive) = true
    · simp only [hbusy, if_true, List.forall_mem_cons]
      exact ⟨sayable_fixed (by decide), trivial, fun _ hop => absurd hop List.not_mem_nil⟩
    · simp only [hbusy, Bool.false_eq_true, if_false, List.forall_mem_cons, List.forall_mem_append]
      refine ⟨fun hflag => ?_, checked_create (by decide) trivial, trivial,
        fun _ hop => absurd hop List.not_mem_nil⟩
      simpa [hflag] using hbusy
  · rw [h]
    by_cases hmissing : (cmd.flag && !env.btAvailable) = true
    · simp only [hmissing, if_true, List.forall_mem_cons]
      exact ⟨sayable_fixed (by decide), trivial, fun _ hop => absurd hop List.not_mem_nil⟩
    · simp only [hmissing, Bool.false_eq_true, if_false]
      split_ifs
      · rw [List.forall_mem_singleton]
        exact sayable_fixed (by decide)
      · refine checked_create (by decide) fun hflag => ?_
        simpa [hflag] using hmissing
  · rw [h]
    by_cases hmissing : (!env.btAvailable) = true
    · simp only [hmissing, if_true, List.forall_mem_cons]
      exact ⟨sayable_fixed (by decide), trivial, fun _ hop => absurd hop List.not_mem_nil⟩
    · simp only [hmissing, Bool.false_eq_true, if_false]
      exact checked_create (by decide) (by simpa [Checked] using hmissing)
  · rw [h]
    by_cases hbusy : env.netActive = true
    · simp only [hbusy, if_true, List.forall_mem_cons]
      exact ⟨sayable_fixed (by decide), trivial, fun _ hop => absurd hop List.not_mem_nil⟩
    · simp only [hbusy, Bool.false_eq_true, if_false, List.forall_mem_cons]
      exact ⟨fun _ => by simpa using hbusy, sayable_fixed (by decide), trivial,
        fun _ hop => absurd hop List.not_mem_nil⟩
  · rw [h]
    simp only [List.forall_mem_cons]
    exact ⟨fun hvalue => absurd hvalue Bool.false_ne_true, sayable_fixed (by decide), trivial,
      fun _ hop => absurd hop List.not_mem_nil⟩

theorem checked_handleCommand {cmd : CoreCommand} (hvalid : cmd.Valid json doc) :
    ∀ op ∈ handleCommand env cmd, Checked json env doc op := by
  have hnone : ∀ op ∈ ([] : List Operation), Checked json env doc op :=
    fun _ hop => absurd hop List.not_mem_nil
  rw [CoreCommand.Valid] at hvalid
  cases haction : cmd.action with
  | missing | unknown =>
      simp only [haction] at hvalid
      simp only [handleCommand, haction, List.forall_mem_cons]
      exact ⟨.inr (.inl ⟨_, hvalid, .inl rfl⟩), hnone⟩
  | invalid =>
      simp only [haction] at hvalid
      simp only [handleCommand, haction, List.forall_mem_cons]
      exact ⟨.inr (.inl ⟨_, hvalid, .inr (.inl rfl)⟩), .inr (.inl ⟨_, hvalid, .inr (.inr rfl)⟩),
        hnone⟩
  | wifiScan | resetDevice | restartDevice =>
      simp only [handleCommand, haction]
      exact checked_create (by decide) trivial
  | connectWifi =>
      simp only [haction] at hvalid
      simp only [handleCommand, haction, List.forall_mem_cons]
      exact ⟨.inr (.inr ⟨_, hvalid.1, rfl⟩), hvalid.2, hnone⟩
  | wifiApMode =>
      simp only [handleCommand, haction, List.forall_mem_cons]
      exact ⟨sayable_fixed (by decide), trivial, hnone⟩
  | setApPass | setLoraConfig =>
      simp only [haction] at hvalid
      simp only [handleCommand, haction, List.forall_mem_cons]
      exact ⟨sayable_fixed (by decide), hvalid, hnone⟩
  | setUsername =>
      simp only [haction] at hvalid
      simp only [handleCommand, haction, List.forall_mem_cons]
      exact ⟨hvalid, trivial, hnone⟩
  | fileTxJoin =>
      simp only [haction] at hvalid
      simp only [handleCommand, haction, List.forall_mem_cons]
      exact ⟨hvalid, hnone⟩
  | getUsername | getSerialMode | getNetStatus | getWifiScan | getBtConfig | fileTxInvite =>
      simp only [handleCommand, haction, List.forall_mem_cons]
      exact ⟨trivial, hnone⟩
  | setSerialMode => exact checked_flags cmd (.inl haction)
  | setBtMode => exact checked_flags cmd (.inr (.inl haction))
  | rebootToBt => exact checked_flags cmd (.inr (.inr (.inl haction)))
  | fileTxStart => exact checked_flags cmd (.inr (.inr (.inr (.inl haction))))
  | fileTxEnd => exact checked_flags cmd (.inr (.inr (.inr (.inr haction))))

/-- Whatever a page sends, the worker passes on only arguments that were checked, takes the
serial port only while the network mode is off, and lets no password into the log or an alert. -/
theorem operations_checked (json : JsonLibrary) (env : Env) (doc : JsonVariant) :
    ∀ op ∈ handleOperations json env doc, Checked json env doc op :=
  checked_handleCommand valid_coreParseRequest

end Operations

/-- A JSON library for requests that have no JSON text in them. -/
def plainJson : JsonLibrary where
  deserializeJson _ := none
  serializeJson _ := []

/-- The network mode is off, and Bluetooth is not in the build. -/
def idleEnv : Env where
  netActive := false
  btAvailable := false
  heap := true
  taskOk := true

def homeRequest : JsonVariant :=
  .object [(ascii "request-type", .string (ascii "connect_wifi")),
    (ascii "wifi_ssid", .string (ascii "home")), (ascii "wifi_pass", .string (ascii "12345678"))]

theorem operations_checked_homeRequest :
    handleOperations plainJson idleEnv homeRequest =
        [.log (ascii "connect_wifi: home"), .wifiSaveSta (ascii "home") (ascii "12345678")] ∧
      ∀ op ∈ handleOperations plainJson idleEnv homeRequest,
        Checked plainJson idleEnv homeRequest op := by
  have hoperations : handleOperations plainJson idleEnv homeRequest =
      [.log (ascii "connect_wifi: home"), .wifiSaveSta (ascii "home") (ascii "12345678")] := by
    decide +kernel
  exact ⟨hoperations, operations_checked plainJson idleEnv homeRequest⟩

end Dispatch

end Voyager
