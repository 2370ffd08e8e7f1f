import Mathlib.Data.List.Basic
import Mathlib.Logic.Function.Basic
import Voyager.Basic

/-!
# Firmware and filesystem updates over HTTP

The upload handler of the web server, its request handler and the hook that runs when a
client goes away, all called from one task in any order. One request at a time may own
the update; it holds the radio mutex, and for a filesystem image it takes the filesystem
offline and keeps a snapshot of the user's settings. What the flash library, the locks
and the checks of a request answer is chosen by the event.

`marks` is history that the code does not have: the filesystem images the snapshots were
taken of, and the writes to the partition.
-/

namespace Voyager

namespace Web

inductive OtaStatus
  | running
  | done
  | origin
  | setup
  | unauth
  | busy
  | fail
  deriving DecidableEq, Repr

structure OtaReqState where
  status : OtaStatus
  error : String
  deriving DecidableEq, Repr

/-- `U_FLASH` and `U_SPIFFS`; the URL of a request decides. -/
inductive Cmd
  | flash
  | spiffs
  deriving DecidableEq, Repr

/-- A request object: its `_tempObject`, and whether the hook is registered. -/
structure Request where
  cmd : Cmd
  tempObject : Option OtaReqState
  onDisconnect : Bool
  deriving DecidableEq, Repr

/-! ## The settings snapshot -/

def OTA_KEEP_FILES : List String :=
  ["/config/wifi_config.json", "/config/lora_config.json", "/config/user_data.json",
    "/config/lora_serial.json"]

def OTA_KEEP_MAX_BYTES : ℕ := 2048

def otaKeepSizeOk (present : Bool) (size : ℕ) : Bool :=
  present && 0 < size && size ≤ OTA_KEEP_MAX_BYTES

/-- What the filesystem answers for one path: whether it exists, and the size and the text
read when it can be opened. -/
structure FileView where
  present : Bool
  file : Option (ℕ × List Byte)
  deriving DecidableEq, Repr

abbrev FsImage := String → FileView

/-- `ota_keep_data[i]` and `ota_keep_present[i]`. -/
structure KeepSlot where
  data : List Byte
  present : Bool
  deriving DecidableEq, Repr

def KeepSlot.empty : KeepSlot := ⟨[], false⟩

def otaKeepClear : List KeepSlot := OTA_KEEP_FILES.map fun _ => KeepSlot.empty

def keepSlot (view : FileView) : KeepSlot :=
  match if view.present then view.file else none with
  | none => KeepSlot.empty
  | some (size, text) =>
      if otaKeepSizeOk true size ∧ text.length = size then ⟨text, true⟩ else KeepSlot.empty

def otaKeepSnapshot (fs : FsImage) : List KeepSlot :=
  OTA_KEEP_FILES.map fun path => keepSlot (fs path)

/-! ## The server -/

/-- A mutex, and whether it is this code that holds it. -/
inductive Mutex
  | missing
  | free
  | ota
  | other
  deriving DecidableEq, Repr

inductive FsMark
  | took (image : FsImage)
  | wrote

structure Server where
  requests : ℕ → Option Request
  otaOwner : Option ℕ
  otaRadioHeld : Bool
  otaFsDirty : Bool
  fsOffline : Bool
  otaKeep : List KeepSlot
  /-- `lora_write_mutex` -/
  loraWriteMutex : Mutex
  /-- The lock of `fs_maintenance_begin`. -/
  fsMutex : Mutex
  fs : FsImage
  /-- An upload has completed since boot. -/
  completed : Bool
  marks : List FsMark

/-- One call of the upload handler. -/
structure Chunk where
  index : ℕ
  len : ℕ
  final : Bool
  deriving DecidableEq, Repr

/-- What everything the upload handler calls answers; `image` is what the filesystem looks
like after a write to its partition. -/
structure Outcomes where
  calloc : Bool
  originOk : Bool
  authIsSet : Bool
  authCheck : Bool
  fsMaintenance : Bool
  updateBegin : Bool
  updateWrite : Bool
  updateEnd : Bool
  errorString : String
  image : FsImage

inductive Reply
  | html (code : ℕ)
  | error (code : ℕ) (text : String)
  | authentication
  | plain (code : ℕ) (text : String)
  deriving DecidableEq, Repr

namespace Server

def setObject (s : Server) (r : ℕ) (st : OtaReqState) : Server :=
  { s with requests := Function.update s.requests r
             ((s.requests r).map fun req => { req with tempObject := some st }) }

def setHook (s : Server) (r : ℕ) : Server :=
  { s with requests := Function.update s.requests r
             ((s.requests r).map fun req => { req with onDisconnect := true }) }

/-- The mutex is given back only if this code believes to hold it. -/
def otaReleaseRadio (s : Server) : Server :=
  if s.otaRadioHeld then { s with loraWriteMutex := .free, otaRadioHeld := false } else s

/-- Client gone, write error, bad image: undo everything the upload started. -/
def otaAbortOwner (s : Server) (r : ℕ) : Server :=
  if s.otaOwner ≠ some r then s
  else
    let s := { s with otaOwner := none }
    let s := if s.otaFsDirty then s else { s with otaKeep := otaKeepClear, fsOffline := false }
    s.otaReleaseRadio

/-- `strlcpy` into `error[64]`. -/
def otaError (why : String) : String :=
  String.ofList ((if why = "" then "update failed" else why).toList.take 63)

def otaFail (s : Server) (r : ℕ) (why : String) : Server :=
  (s.setObject r ⟨.fail, otaError why⟩).otaAbortOwner r

def otaAdmit (s : Server) (x : Outcomes) : Server × OtaStatus :=
  if ¬ x.originOk then (s, .origin)
  else if ¬ x.authIsSet then (s, .setup)
  else if ¬ x.authCheck then (s, .unauth)
  else if s.otaOwner ≠ none then (s, .busy)
  else if s.loraWriteMutex ≠ .free then (s, .busy)
  else ({ s with loraWriteMutex := .ota, otaRadioHeld := true }, .running)

/-- `fs_maintenance_begin`; without a mutex it succeeds and locks nothing. -/
def fsMaintenanceBegin (s : Server) (x : Outcomes) : Option Server :=
  if s.fsMutex = .missing then some s
  else if x.fsMaintenance then some { s with fsMutex := .ota }
  else none

def fsMaintenanceEnd (s : Server) : Server :=
  if s.fsMutex = .ota then { s with fsMutex := .free } else s

/-- Snapshot the settings, unless a failed attempt left the partition half-written, and take
the filesystem offline. -/
def otaTakeOffline (s : Server) : Server :=
  let s :=
    if s.otaFsDirty then s
    else { s with otaKeep := otaKeepSnapshot s.fs, marks := s.marks ++ [.took s.fs] }
  { s with fsOffline := true }.fsMaintenanceEnd

/-- The start of an admitted upload; `false` when the handler returns there. -/
def otaBegin (s : Server) (r : ℕ) (cmd : Cmd) (x : Outcomes) : Server × Bool :=
  let prepared : Option Server :=
    if cmd = .spiffs then (s.fsMaintenanceBegin x).map otaTakeOffline else some s
  match prepared with
  | none =>
      ({ s.setObject r ⟨.busy, ""⟩ with otaOwner := none }.otaReleaseRadio, false)
  | some s => if ¬ x.updateBegin then (s.otaFail r x.errorString, false) else (s, true)

/-- The end of the handler: the bytes of this call, and the end of the upload. -/
def otaWrite (s : Server) (r : ℕ) (cmd : Cmd) (c : Chunk) (x : Outcomes) : Server :=
  let s :=
    if c.len ≠ 0 ∧ cmd = .spiffs then
      { s with otaFsDirty := true, fs := x.image, marks := s.marks ++ [.wrote] }
    else s
  if c.len ≠ 0 ∧ ¬ x.updateWrite then s.otaFail r x.errorString
  else if c.final then
    if ¬ x.updateEnd then s.otaFail r x.errorString
    else { s.setObject r ⟨.done, ""⟩ with otaOwner := none, completed := true }
  else s

/-- The object of the request says that its upload is running. -/
def isRunning (s : Server) (r : ℕ) : Bool :=
  match s.requests r with
  | some { tempObject := some st, .. } => st.status = .running
  | _ => false

def otaUpload (s : Server) (r : ℕ) (req : Request) (c : Chunk) (x : Outcomes) : Server :=
  if c.index = 0 then
    match req.tempObject with
    | some st =>
        -- a second file part in the same request
        if st.status = .running then s.otaFail r "only one file per upload" else s
    | none =>
        if ¬ x.calloc then s
        else
          let admitted := s.otaAdmit x
          let s := admitted.1.setObject r ⟨admitted.2, ""⟩
          if admitted.2 ≠ .running then s
          else
            let begun := { s.setHook r with otaOwner := some r }.otaBegin r req.cmd x
            if begun.2 then begun.1.otaWrite r req.cmd c x else begun.1
  else if s.isRunning r ∧ s.otaOwner = some r then s.otaWrite r req.cmd c x
  else s

/-- The request handler, after the last byte of the request. Where there is no object and
`guard` refuses the request, `guard` has answered. -/
def otaRequest (s : Server) (r : ℕ) (req : Request) (guardOk : Bool) : Server × Option Reply :=
  match req.tempObject with
  | none => (s, if guardOk then some (.error 400 "missing_update_file") else none)
  | some st =>
      let failed := s.otaOwner = some r
      let s := if failed then s.otaFail r "upload incomplete" else s
      let st := if failed then ⟨.fail, otaError "upload incomplete"⟩ else st
      (s, some (match st.status with
        | .done => .html 200
        | .origin => .error 403 "origin"
        | .setup => .error 403 "setup_required"
        | .unauth => .authentication
        | .busy => .error 503 "busy"
        | _ => .plain 500 (if st.error = "" then "update failed" else st.error)))

/-- The hook of `onDisconnect`, then the object is freed. -/
def disconnect (s : Server) (r : ℕ) (req : Request) : Server :=
  let s := if req.onDisconnect then s.otaAbortOwner r else s
  { s with requests := Function.update s.requests r none }

end Server

/-! ## Runs -/

inductive OtaEvent
  | accept (r : ℕ) (cmd : Cmd)
  | upload (r : ℕ) (c : Chunk) (x : Outcomes)
  | request (r : ℕ) (guardOk : Bool)
  | disconnect (r : ℕ)
  /-- Another task does something with the mutexes or the filesystem. -/
  | setRadio (m : Mutex)
  | setFsMutex (m : Mutex)
  | setFs (image : FsImage)

namespace Server

/-- Another task takes a free mutex, gives back its own or creates a missing one. -/
def othersMayMove : Mutex → Mutex → Bool
  | .missing, .free => true
  | .free, .other => true
  | .other, .free => true
  | _, _ => false

/-- One event; an event that cannot happen changes nothing. A new request may lie where a
freed one lay. -/
def step (s : Server) : OtaEvent → Server
  | .accept r cmd =>
      match s.requests r with
      | none => { s with requests := Function.update s.requests r (some ⟨cmd, none, false⟩) }
      | some _ => s
  | .upload r c x =>
      match s.requests r with
      | none => s
      | some req => s.otaUpload r req c x
  | .request r guardOk =>
      match s.requests r with
      | none => s
      | some req => (s.otaRequest r req guardOk).1
  | .disconnect r =>
      match s.requests r with
      | none => s
      | some req => s.disconnect r req
  | .setRadio m => if othersMayMove s.loraWriteMutex m then { s with loraWriteMutex := m } else s
  | .setFsMutex m => if othersMayMove s.fsMutex m then { s with fsMutex := m } else s
  | .setFs image => { s with fs := image }

def boot (fs : FsImage) : Server where
  requests := fun _ => none
  otaOwner := none
  otaRadioHeld := false
  otaFsDirty := false
  fsOffline := false
  otaKeep := otaKeepClear
  loraWriteMutex := .missing
  fsMutex := .missing
  fs := fs
  completed := false
  marks := []

/-- The state after these events. -/
def run (fs : FsImage) (events : List OtaEvent) : Server := events.foldl step (boot fs)

end Server

end Web

end Voyager
