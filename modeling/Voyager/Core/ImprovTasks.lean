import Voyager.Core.ImprovResult
import Voyager.Core.ImprovRpc
import Voyager.Library.Transition
import Voyager.Lora.Net
import Voyager.Wifi.ImprovNetworks

/-!
# The tasks behind Improv

The serial task answers the commands. A connect or a scan takes long and runs on a task of its
own; `s_busy` keeps a second one from being started. The serial task and the tasks it starts may
stop between any two statements, so each of them is a list of statements that are taken one by
one.
-/

namespace Voyager

namespace ImprovTasks

open Improv LoraProto
open Wifi.ImprovNetworks (WifiNet)

/-! ## Packets -/

def TYPE_CURRENT_STATE : Byte := 0x01
def TYPE_ERROR_STATE : Byte := 0x02

def STATE_READY : Byte := 0x02
def STATE_PROVISIONING : Byte := 0x03
def STATE_PROVISIONED : Byte := 0x04

def ERROR_NONE : Byte := 0x00
def ERROR_INVALID_RPC : Byte := 0x01
def ERROR_UNKNOWN_RPC : Byte := 0x02
def ERROR_UNABLE_TO_CONNECT : Byte := 0x03
def ERROR_UNKNOWN : Byte := 0xFF

def MAX_PACKET : ℕ := 6 + 3 + MAX_DATA + 1 + 1

/-- What is sent, with `none` for a packet that did not fit its buffer. -/
abbrev Pkt := Option (List Byte)

def stateOf (state : Byte) : Pkt := build TYPE_CURRENT_STATE [state] 16

def errorOf (err : Byte) : Pkt := build TYPE_ERROR_STATE [err] 16

def resultOf (cmd : Byte) (strs : List (List Byte)) : Pkt :=
  buildRpcResult cmd (strs.map some) MAX_PACKET

def endOfList : Pkt := resultOf CMD_GET_WIFI_NETWORKS []

/-- `%d` and `%lu`. -/
def decimal (n : ℤ) : List Byte := ascii (toString n)

/-- `%04X`, of 16 bits. -/
def hex4 (n : UInt16) : List Byte :=
  ([12, 8, 4, 0] : List UInt16).map fun k =>
    let d := (n >>> k) &&& 0xF
    if d < 10 then 48 + d.toUInt8 else 55 + d.toUInt8

/-- `%u.%u.%u.%u`, of the address of a node. -/
def nodeAddress (node : UInt16) : List Byte :=
  decimal NET_PREFIX_A.toNat ++ 46 :: decimal NET_PREFIX_B.toNat ++
    46 :: decimal (node >>> 8).toNat ++ 46 :: decimal (node &&& 0xFF).toNat

/-- An entry of the list of networks. -/
def networkOf (net : WifiNet) : Pkt :=
  resultOf CMD_GET_WIFI_NETWORKS
    [net.ssid, decimal net.rssi, if net.secure then ascii "YES" else ascii "NO"]

/-! ## Tasks -/

/-- What a task is started for. -/
inductive Job where
  /-- `provision_task`, with the two buffers of its arguments. -/
  | provision (ssid pass : MemBlock Byte)
  | scan

/-- A statement of the serial task. -/
inductive Instr where
  | send (pkt : Pkt)
  | setBusy (value : Bool)
  /-- `xTaskCreatePinnedToCore`, and what is sent when it fails. -/
  | create (job : Job) (onFail : List Pkt)
  /-- The test of `net_enter`. -/
  | netEnter
  /-- What `net_enter` does after its test. -/
  | netSet

/-- Where a task that was started stands. -/
inductive Worker where
  | running (job : Job)
  /-- Its long call is over, and it sends what it has found. -/
  | sending (pkts : List Pkt)
  /-- `s_busy` is cleared, and it is about to be deleted. -/
  | cleared

/-- Where the serial task stands in `serial_to_lora`. -/
inductive SerialTask where
  | top
  /-- The bridge was off when the pass began. -/
  | bridgeOff
  | bridging
  /-- Feeds bytes to the network mode. -/
  | feeding
  /-- Feeds bytes to Improv; these statements are left of the last one. -/
  | improv (todo : List Instr)

structure State where
  /-- The bytes that `improv_feed` was given. -/
  input : List Byte
  parser : Parser
  busy : Bool
  loraSerial : Bool
  netActive : Bool
  serial : SerialTask
  workers : List Worker
  /-- What was written to the port. -/
  out : List (List Byte)
  /-- What was not written because the bridge had the port. -/
  lost : List (List Byte)

/-- What the firmware around it tells `handle_rpc`. -/
structure Env where
  staUrl : List Byte
  hostname : List Byte
  date : List Byte
  /-- `new` has room for the arguments of a task. -/
  allocated : Bool
  node : UInt16
  airtimeFull : ℕ
  airtimeSmall : ℕ

/-- What the long call of a task returns. -/
inductive Outcome where
  | provisioned (ok : Bool) (url : List Byte)
  | scanned (nets : List WifiNet)

inductive Action where
  /-- Another task sets `lora_serial`. -/
  | setLoraSerial (value : Bool)
  /-- A pass of the serial task begins. -/
  | pass
  /-- With the bridge off it asks `net_active`. -/
  | choose
  /-- The bytes that have arrived are read; the network mode may have been left. -/
  | passDone (leave : Bool)
  /-- `improv_feed`, up to the first statement that another task can see. -/
  | byte (env : Env) (b : Byte)
  /-- The next statement; `ok` is what the system returns. -/
  | exec (ok : Bool)
  /-- The long call of a task returns. -/
  | finish (i : ℕ) (outcome : Outcome)
  /-- The next statement of a task. -/
  | work (i : ℕ)

def boot (loraSerial : Bool) : State :=
  { input := [], parser := .init, busy := false, loraSerial, netActive := false, serial := .top,
    workers := [], out := [], lost := [] }

/-! ## The code -/

/-- `send_current_state`. -/
def currentState (env : Env) : List Pkt :=
  if env.staUrl.length = 0 then [stateOf STATE_READY]
  else [stateOf STATE_PROVISIONED, resultOf CMD_GET_CURRENT_STATE [env.staUrl]]

/-- The two buffers of `new ProvisionArgs()`. -/
def newArgs : MemBlock Byte × MemBlock Byte :=
  (⟨33, fun _ => some 0⟩, ⟨65, fun _ => some 0⟩)

/-- The case of `CMD_WIFI_SETTINGS`. There is no result when the credentials are read or written
outside of their arrays. -/
def wifiSettingsCase (env : Env) (busy : Bool) (payload : List Byte) (plen : ℕ) :
    Option (List Instr) :=
  if busy then some [.send (errorOf ERROR_UNKNOWN)]
  else if env.allocated = false then some [.send (errorOf ERROR_INVALID_RPC)]
  else
    (parseWifiSettings payload plen newArgs.1 newArgs.2).map fun (ok, ssid, pass) =>
      if ok = false then [.send (errorOf ERROR_INVALID_RPC)]
      else
        [.send (errorOf ERROR_NONE), .send (stateOf STATE_PROVISIONING), .setBusy true,
          .create (.provision ssid pass) [errorOf ERROR_UNKNOWN, stateOf STATE_READY]]

/-- The case of `CMD_VOYAGER_NET_START`. -/
def netStartCase (env : Env) (busy loraSerial : Bool) : List Instr :=
  if loraSerial || busy then [.send (errorOf ERROR_UNKNOWN)]
  else
    [.send (resultOf CMD_VOYAGER_NET_START
        [nodeAddress env.node, hex4 env.node, ascii "2", decimal env.airtimeFull,
          decimal env.airtimeSmall]),
      .netEnter]

/-- `handle_rpc`: the statements that follow its tests. -/
def handleRpc (env : Env) (busy loraSerial : Bool) (p : Packet) : Option (List Instr) :=
  match rpcCommand p with
  | none => some [.send (errorOf ERROR_INVALID_RPC)]
  | some (cmd, payload, plen) =>
      if cmd = CMD_GET_CURRENT_STATE then some ((currentState env).map .send)
      else if cmd = CMD_GET_DEVICE_INFO then
        some [.send (resultOf CMD_GET_DEVICE_INFO
          [ascii "Project Voyager", env.date, ascii "ESP32",
            if env.hostname.length ≠ 0 then env.hostname else ascii "Project Voyager"])]
      else if cmd = CMD_WIFI_SETTINGS then wifiSettingsCase env busy payload plen
      else if cmd = CMD_VOYAGER_NET_START then some (netStartCase env busy loraSerial)
      else if cmd = CMD_GET_WIFI_NETWORKS then
        if busy then some [.send endOfList]
        else some [.setBusy true, .create .scan [endOfList]]
      else some [.send (errorOf ERROR_UNKNOWN_RPC)]

/-- `improv_feed`, after the parser. -/
def fed (env : Env) (busy loraSerial : Bool) : FeedResult → Option (List Instr)
  | .more => some []
  | .bad => some [.send (errorOf ERROR_INVALID_RPC)]
  | .packet p => if p.type = TYPE_RPC then handleRpc env busy loraSerial p else some []

/-- What a task sends after its long call. -/
def Job.report : Job → Outcome → Option (List Pkt)
  | .provision _ _, .provisioned ok url =>
      some (if ok then [stateOf STATE_PROVISIONED, resultOf CMD_WIFI_SETTINGS [url]]
        else [errorOf ERROR_UNABLE_TO_CONNECT, stateOf STATE_READY])
  | .scan, .scanned nets => some (nets.map networkOf ++ [endOfList])
  | _, _ => none

namespace State

/-- `send`. -/
def send (s : State) : Pkt → State
  | none => s
  | some pkt =>
      if s.loraSerial then { s with lost := s.lost ++ [pkt] } else { s with out := s.out ++ [pkt] }

/-- One statement of the serial task, with `todo` after it. -/
def execInstr (s : State) (ok : Bool) (todo : List Instr) : Instr → State
  | .send pkt => { s.send pkt with serial := .improv todo }
  | .setBusy value => { s with busy := value, serial := .improv todo }
  | .create job onFail =>
      if ok then { s with workers := s.workers ++ [.running job], serial := .improv todo }
      else { s with serial := .improv (.setBusy false :: onFail.map .send ++ todo) }
  | .netEnter =>
      if s.loraSerial || !ok then
        { s with serial := .improv (.send (errorOf ERROR_UNKNOWN) :: todo) }
      else { s with serial := .improv (.netSet :: todo) }
  | .netSet => { s with netActive := true, serial := .improv todo }

/-- The statement of a task. -/
def workStep (s : State) (i : ℕ) : Worker → Option State
  | .running _ => none
  | .sending (pkt :: pkts) => some { s.send pkt with workers := s.workers.set i (.sending pkts) }
  | .sending [] => some { s with busy := false, workers := s.workers.set i .cleared }
  | .cleared => some { s with workers := s.workers.eraseIdx i }

def step (s : State) (a : Action) : Option State :=
  match a, s.serial with
  | .setLoraSerial value, _ => some { s with loraSerial := value }
  | .pass, .top => some { s with serial := if s.loraSerial then .bridging else .bridgeOff }
  | .choose, .bridgeOff =>
      some { s with serial := if s.netActive then .feeding else .improv [] }
  | .passDone leave, .feeding =>
      some { s with netActive := s.netActive && !leave, serial := .top }
  | .passDone _, .bridging => some { s with serial := .top }
  | .passDone _, .improv [] => some { s with serial := .top }
  | .byte env b, .improv [] =>
      (fed env s.busy s.loraSerial (s.parser.feed b).2).map fun todo =>
        { s with
          input := s.input ++ [b]
          parser := (s.parser.feed b).1
          serial := .improv todo }
  | .exec ok, .improv (instr :: todo) => some (s.execInstr ok todo instr)
  | .finish i outcome, _ =>
      match s.workers[i]? with
      | some (.running job) =>
          (job.report outcome).map fun pkts =>
            { s with workers := s.workers.set i (.sending pkts) }
      | _ => none
  | .work i, _ => s.workers[i]?.bind (s.workStep i)
  | _, _ => none

end State

/-! ## What is accounted for -/

/-- A packet asks for the list of networks. -/
def isScanRequest (p : Packet) : Bool :=
  (rpcCommand p).any fun c => c.1 = CMD_GET_WIFI_NETWORKS

/-- How often the list of networks was asked for. -/
def requests (bs : List Byte) : ℕ := (received bs).countP isScanRequest

/-- The packet that ends a list of networks. -/
def endPacket : List Byte := encode TYPE_RPC_RESULT (resultData CMD_GET_WIFI_NETWORKS [])

def endsOf (pkts : List Pkt) : ℕ := pkts.count (some endPacket)

def Job.ends : Job → ℕ
  | .provision _ _ => 0
  | .scan => 1

/-- How many lists a statement will end, or the task that it starts. -/
def Instr.ends : Instr → ℕ
  | .send pkt => endsOf [pkt]
  | .create job _ => job.ends
  | .setBusy _ => 0
  | .netEnter => 0
  | .netSet => 0

def Worker.ends : Worker → ℕ
  | .running job => job.ends
  | .sending pkts => endsOf pkts
  | .cleared => 0

/-- The task has been started for a call that is not over, or still has something to send. -/
def Worker.live : Worker → Bool
  | .running _ => true
  | .sending _ => true
  | .cleared => false

def SerialTask.todo : SerialTask → List Instr
  | .improv todo => todo
  | .top => []
  | .bridgeOff => []
  | .bridging => []
  | .feeding => []

/-- The statement starts a task. -/
def Instr.isCreate : Instr → Bool
  | .create _ _ => true
  | .send _ => false
  | .setBusy _ => false
  | .netEnter => false
  | .netSet => false

namespace State

/-- The statements that are left of the last byte. -/
def todo (s : State) : List Instr := s.serial.todo

/-- The tasks that are at work. -/
def live (s : State) : ℕ := s.workers.countP Worker.live

/-- The lists that are still to be ended. -/
def pending (s : State) : ℕ := (s.todo.map Instr.ends).sum + (s.workers.map Worker.ends).sum

end State

/-- The job was asked for on the line: a connect, with the credentials of a packet. -/
inductive Asked (bs : List Byte) : Job → Prop where
  | scan {p : Packet} : p ∈ received bs → isScanRequest p = true → Asked bs .scan
  | provision {p : Packet} {data ssid pass : List Byte} {ss pp : MemBlock Byte} :
      p ∈ received bs → rpcData CMD_WIFI_SETTINGS data <+: p.view.2 → Carries data ssid pass →
      ss.Holds 0 (ssid ++ [0]) → pp.Holds 0 (pass ++ [0]) → Asked bs (.provision ss pp)

/-! ## Lengths of packets -/

theorem length_encode (type : Byte) (data : List Byte) :
    (encode type data).length = 11 + data.length := by
  simp [encode, HDR]
  omega

theorem length_of_build {type : Byte} {data pkt : List Byte} {cap : ℕ}
    (h : build type data cap = some pkt) : pkt.length = 11 + data.length := by
  rw [(build_eq_some h).2, length_encode]

theorem length_endPacket : endPacket.length = 13 := length_encode _ _

theorem endOfList_eq : endOfList = some endPacket := by
  have hnul : ∀ s ∈ ([] : List (List Byte)), 0 ∉ s := by simp
  have hcap : 11 + (2 + packedSize []) ≤ MAX_PACKET := by decide
  obtain ⟨pkt, hbuild, hpkt, -⟩ :=
    buildRpcResult_of_fits CMD_GET_WIFI_NETWORKS hnul (by decide) hcap
  exact hbuild.trans (congrArg some hpkt)

/-- A packet of another length does not end a list. -/
theorem endsOf_singleton_of_ne {pkt : Pkt} (h : ∀ bs, pkt = some bs → bs.length ≠ 13) :
    endsOf [pkt] = 0 := by
  rw [endsOf, List.count_singleton, if_neg]
  intro heq
  exact h endPacket (by simpa using heq) length_endPacket

theorem endsOf_build {type b : Byte} {cap : ℕ} : endsOf [build type [b] cap] = 0 := by
  apply endsOf_singleton_of_ne
  intro bs h
  rw [length_of_build h, List.length_singleton]
  omega

theorem length_resultStrings {strs : List (Option (List Byte))} {body body' : List Byte}
    (h : resultStrings strs body = some body') : body.length + strs.length ≤ body'.length := by
  induction strs generalizing body with
  | nil =>
      cases h
      exact Nat.le_refl _
  | cons str strs ih =>
      rw [resultStrings] at h
      split at h
      · cases h
      · have hle := ih h
        rw [List.length_append, List.length_cons] at hle
        rw [List.length_cons]
        omega

/-- A result with strings. -/
theorem endsOf_result (cmd : Byte) (str : List Byte) (strs : List (List Byte)) :
    endsOf [resultOf cmd (str :: strs)] = 0 := by
  apply endsOf_singleton_of_ne
  intro bs h
  obtain ⟨body, hbody, hbuild⟩ := Option.bind_eq_some_iff.mp h
  have hlength := length_of_build hbuild
  have hle := length_resultStrings hbody
  rw [List.length_cons, List.length_cons] at hlength
  rw [List.map_cons, List.length_cons, List.length_nil] at hle
  omega

/-! ## The statements of the serial task -/

/-- What the serial task is about to do with `s_busy` and the network mode. -/
inductive Phase where
  | sends
  /-- It has seen `s_busy` clear, and sets it to start a task. -/
  | start (job : Job)
  /-- It has set `s_busy`, and creates the task. -/
  | creating (job : Job)
  /-- The task was not created. -/
  | giveUp
  /-- It has seen `s_busy` clear, and enters the network mode. -/
  | net

/-- The statements of a phase. -/
inductive Program : Phase → List Instr → Prop where
  | sends (pkts : List Pkt) : Program .sends (pkts.map .send)
  | start (pkts : List Pkt) (job : Job) (onFail : List Pkt) : endsOf onFail = job.ends →
      Program (.start job) (pkts.map .send ++ [.setBusy true, .create job onFail])
  | creating (job : Job) (onFail : List Pkt) : endsOf onFail = job.ends →
      Program (.creating job) [.create job onFail]
  | giveUp (pkts : List Pkt) : Program .giveUp (.setBusy false :: pkts.map .send)
  | net (pkts : List Pkt) : Program .net (pkts.map .send ++ [.netEnter])
  | netSet : Program .net [.netSet]

/-- The job that is about to be given to a task. -/
def Phase.job : Phase → Option Job
  | .start job => some job
  | .creating job => some job
  | .sends => none
  | .giveUp => none
  | .net => none

/-- How `s_busy` and the number of tasks at work go with a phase. -/
def Phase.Agrees (busy : Bool) (live : ℕ) : Phase → Prop
  | .sends => live ≤ 1 ∧ (busy = true ↔ live = 1)
  | .start _ => live = 0 ∧ busy = false
  | .creating _ => live = 0 ∧ busy = true
  | .giveUp => live = 0 ∧ busy = true
  | .net => live = 0 ∧ busy = false

/-- A command may be taken in this state. -/
def Phase.Taken (busy : Bool) : Phase → Prop
  | .sends => True
  | .start _ => busy = false
  | .net => busy = false
  | .creating _ => False
  | .giveUp => False

theorem endsOf_cons (pkt : Pkt) (pkts : List Pkt) :
    endsOf (pkt :: pkts) = endsOf [pkt] + endsOf pkts := by
  rw [endsOf, endsOf, endsOf, List.count_cons, List.count_singleton, Nat.add_comm]

theorem sum_ends_sends (pkts : List Pkt) :
    ((pkts.map Instr.send).map Instr.ends).sum = endsOf pkts := by
  induction pkts with
  | nil => rfl
  | cons pkt pkts ih =>
      rw [List.map_cons, List.map_cons, List.sum_cons, ih, Instr.ends, ← endsOf_cons]

theorem Asked.mono {bs : List Byte} {job : Job} (h : Asked bs job) (bs' : List Byte) :
    Asked (bs ++ bs') job := by
  have hmem {p : Packet} (hp : p ∈ received bs) : p ∈ received (bs ++ bs') := by
    rw [receive_append]
    exact List.mem_append_left _ hp
  cases h with
  | scan hp hreq => exact .scan (hmem hp) hreq
  | provision hp hdata hcarries hss hpp => exact .provision (hmem hp) hdata hcarries hss hpp

/-! ## One command -/

section Command

variable {bs : List Byte} {p : Packet} {env : Env} {busy loraSerial : Bool}

/-- What the statements for a byte have to be. -/
structure Answers (bs : List Byte) (busy : Bool) (n : ℕ) (todo : List Instr) : Prop where
  program : ∃ ph, Program ph todo ∧ ph.Taken busy ∧ ∀ job, ph.job = some job → Asked bs job
  ends : (todo.map Instr.ends).sum = n

theorem answers_sends (bs : List Byte) (busy : Bool) (pkts : List Pkt) :
    Answers bs busy (endsOf pkts) (pkts.map .send) where
  program := ⟨.sends, .sends pkts, trivial, fun job h => by cases h⟩
  ends := sum_ends_sends pkts

theorem answers_error (bs : List Byte) (busy : Bool) (err : Byte) :
    Answers bs busy 0 [.send (errorOf err)] := by
  have h := answers_sends bs busy [errorOf err]
  rwa [errorOf, endsOf_build] at h

theorem answers_result (bs : List Byte) (busy : Bool) (cmd : Byte) (str : List Byte)
    (strs : List (List Byte)) : Answers bs busy 0 [.send (resultOf cmd (str :: strs))] := by
  have h := answers_sends bs busy [resultOf cmd (str :: strs)]
  rwa [endsOf_result] at h

theorem answers_currentState (bs : List Byte) (busy : Bool) (env : Env) :
    Answers bs busy 0 ((currentState env).map .send) := by
  have h := answers_sends bs busy (currentState env)
  have hends : endsOf (currentState env) = 0 := by
    unfold currentState
    split
    · exact endsOf_build
    · rw [endsOf_cons, endsOf_result, stateOf, endsOf_build]
  rwa [hends] at h

theorem answers_wifiSettings (hp : p ∈ received bs) {payload : List Byte} {plen : ℕ}
    (hcmd : rpcCommand p = some (CMD_WIFI_SETTINGS, payload, plen)) :
    ∃ todo, wifiSettingsCase env busy payload plen = some todo ∧ Answers bs busy 0 todo := by
  obtain ⟨-, hplen, hdata⟩ := rpcCommand_sound (length_of_received hp) hcmd
  unfold wifiSettingsCase
  split
  · exact ⟨_, rfl, answers_error bs busy _⟩
  · next hbusy =>
      split
      · exact ⟨_, rfl, answers_error bs busy _⟩
      · rcases parseWifiSettings_spec hplen (show newArgs.1.size = 33 from rfl)
            (show newArgs.2.size = 65 from rfl) with
          ⟨ssid, pass, ss, pp, hcarries, hparse, hss, hpp⟩ | ⟨hparse, -⟩
        · rw [hparse]
          refine ⟨_, rfl, ⟨.start (.provision ss pp), ?_, ?_, ?_⟩, ?_⟩
          · refine .start [errorOf ERROR_NONE, stateOf STATE_PROVISIONING] _ _ ?_
            rw [endsOf_cons, errorOf, stateOf, endsOf_build, endsOf_build]
            rfl
          · exact eq_false_of_ne_true hbusy
          · intro job hjob
            cases hjob
            exact .provision hp hdata hcarries hss hpp
          · simp [Instr.ends, Job.ends, errorOf, stateOf, endsOf_build]
        · rw [hparse]
          exact ⟨_, rfl, answers_error bs busy _⟩

theorem answers_netStart (bs : List Byte) (env : Env) (busy loraSerial : Bool) :
    Answers bs busy 0 (netStartCase env busy loraSerial) := by
  unfold netStartCase
  split
  · exact answers_error bs busy _
  · next h =>
      refine ⟨⟨.net, .net [_], ?_, fun job hjob => by cases hjob⟩, ?_⟩
      · simp only [Bool.or_eq_true, not_or] at h
        exact eq_false_of_ne_true h.2
      · simp [Instr.ends, endsOf_result]

theorem answers_scan (busy : Bool) (hp : p ∈ received bs) (hreq : isScanRequest p = true) :
    Answers bs busy 1
      (if busy then [.send endOfList] else [.setBusy true, .create .scan [endOfList]]) := by
  have hend : endsOf [endOfList] = 1 := by
    rw [endOfList_eq]
    exact List.count_singleton_self
  split
  · have h := answers_sends bs busy [endOfList]
    rwa [hend] at h
  · next hbusy =>
      refine ⟨⟨.start .scan, .start [] .scan _ hend, eq_false_of_ne_true hbusy, ?_⟩, rfl⟩
      intro job hjob
      cases hjob
      exact .scan hp hreq

/-- A command is answered, whatever its packet holds. -/
theorem handleRpc_answers (hp : p ∈ received bs) (env : Env) (busy loraSerial : Bool) :
    ∃ todo, handleRpc env busy loraSerial p = some todo ∧
      Answers bs busy (if isScanRequest p then 1 else 0) todo := by
  unfold handleRpc
  split
  · next hnone =>
      have hreq : isScanRequest p = false := by rw [isScanRequest, hnone, Option.any_none]
      rw [hreq]
      exact ⟨_, rfl, answers_error bs busy _⟩
  · next cmd payload plen hcmd =>
      have hreq : isScanRequest p = decide (cmd = CMD_GET_WIFI_NETWORKS) := by
        rw [isScanRequest, hcmd, Option.any_some]
      by_cases hscan : cmd = CMD_GET_WIFI_NETWORKS
      · subst hscan
        have hanswers := answers_scan busy hp (by rw [hreq, decide_eq_true rfl])
        rw [hreq, decide_eq_true rfl]
        cases busy with
        | true => exact ⟨_, rfl, hanswers⟩
        | false => exact ⟨_, rfl, hanswers⟩
      · have hnum : (if isScanRequest p then 1 else 0) = 0 := by simp [hreq, hscan]
        rw [hnum]
        split
        · exact ⟨_, rfl, answers_currentState bs busy env⟩
        split
        · exact ⟨_, rfl, answers_result bs busy _ _ _⟩
        split
        · next hsettings =>
            subst hsettings
            exact answers_wifiSettings hp hcmd
        split
        · exact ⟨_, rfl, answers_netStart bs env busy loraSerial⟩
        · exact ⟨_, rfl, answers_error bs busy _⟩

end Command

/-! ## All runs -/

/-- What holds at all times, with the statements `todo` left. -/
structure Inv (s : State) (todo : List Instr) (ph : Phase) : Prop where
  parser : s.parser = Parser.after s.input
  program : Program ph todo
  agrees : ph.Agrees s.busy s.live
  asked : ∀ job, Worker.running job ∈ s.workers → Asked s.input job
  next : ∀ job, ph.job = some job → Asked s.input job
  ends : requests s.input = (s.out ++ s.lost).count endPacket +
    ((todo.map Instr.ends).sum + (s.workers.map Worker.ends).sum)

section Runs

variable {s t : State} {ph : Phase} {todo : List Instr} {i : ℕ}

theorem send_kept (s : State) (pkt : Pkt) : (s.send pkt).input = s.input ∧
    (s.send pkt).parser = s.parser ∧ (s.send pkt).busy = s.busy ∧
      (s.send pkt).workers = s.workers ∧ (s.send pkt).serial = s.serial := by
  unfold State.send
  split
  · exact ⟨rfl, rfl, rfl, rfl, rfl⟩
  · split <;> exact ⟨rfl, rfl, rfl, rfl, rfl⟩

theorem endsOf_some (pkt : List Byte) : endsOf [some pkt] = [pkt].count endPacket := by
  simp [endsOf, List.count_singleton]

theorem count_send (s : State) (pkt : Pkt) :
    ((s.send pkt).out ++ (s.send pkt).lost).count endPacket =
      (s.out ++ s.lost).count endPacket + endsOf [pkt] := by
  unfold State.send
  split
  · simp [endsOf]
  · split
    · rw [← List.append_assoc, List.count_append, endsOf_some]
    · rw [List.append_assoc, List.count_append, List.count_append, List.count_append, endsOf_some]
      dsimp only
      omega

/-! ### The serial task -/

/-- A statement that only sends. -/
theorem Inv.send {pkt : Pkt} (h : Inv s (.send pkt :: todo) ph) (hprogram : Program ph todo)
    (serial : SerialTask) : Inv { s.send pkt with serial := serial } todo ph := by
  obtain ⟨hinput, hparser, hbusy, hworkers, -⟩ := send_kept s pkt
  have hends := h.ends
  have hcount := count_send s pkt
  rw [List.map_cons, List.sum_cons] at hends
  have hpkt : (Instr.send pkt).ends = endsOf [pkt] := rfl
  constructor
  · simpa only [hinput, hparser] using h.parser
  · exact hprogram
  · simpa only [State.live, hbusy, hworkers] using h.agrees
  · simpa only [hinput, hworkers] using h.asked
  · simpa only [hinput] using h.next
  · dsimp only
    rw [hinput, hworkers, hcount, hends, hpkt]
    omega

theorem Inv.setBusy {job : Job} {onFail : List Pkt}
    (h : Inv s [.setBusy true, .create job onFail] (.start job)) (hfail : endsOf onFail = job.ends) :
    Inv { s with busy := true, serial := .improv [.create job onFail] } [.create job onFail]
      (.creating job) :=
  { h with
    program := .creating job onFail hfail
    agrees := ⟨h.agrees.1, rfl⟩
    ends := by simpa [Instr.ends] using h.ends }

/-- The task is created: `s_busy` is its own from now on. -/
theorem Inv.created {job : Job} {onFail : List Pkt}
    (h : Inv s [.create job onFail] (.creating job)) :
    Inv { s with workers := s.workers ++ [.running job], serial := .improv [] } [] .sends := by
  obtain ⟨hlive, hbusy⟩ := h.agrees
  have hone : (s.workers ++ [Worker.running job]).countP Worker.live = 1 := by
    rw [List.countP_append, show s.workers.countP Worker.live = 0 from hlive]
    rfl
  refine { h with
    program := .sends []
    agrees := ⟨Nat.le_of_eq hone, fun _ => hone, fun _ => hbusy⟩
    asked := ?_
    next := fun job' hjob' => by cases hjob'
    ends := ?_ }
  · intro job' hjob'
    rcases List.mem_append.mp hjob' with hold | hnew
    · exact h.asked job' hold
    · cases List.mem_singleton.mp hnew
      exact h.next job rfl
  · have hends := h.ends
    simp only [List.map_cons, List.map_nil, List.sum_cons, List.sum_nil, Instr.ends] at hends
    simp only [List.map_append, List.sum_append, List.map_cons, List.map_nil, List.sum_cons,
      List.sum_nil, Worker.ends]
    omega

theorem Inv.notCreated {job : Job} {onFail : List Pkt}
    (h : Inv s [.create job onFail] (.creating job)) (hfail : endsOf onFail = job.ends) :
    Inv { s with serial := .improv (.setBusy false :: onFail.map .send ++ []) }
      (.setBusy false :: onFail.map .send) .giveUp := by
  refine { h with
    program := .giveUp onFail
    agrees := h.agrees
    next := fun job' hjob' => by cases hjob'
    ends := ?_ }
  have hends := h.ends
  simp only [List.map_cons, List.map_nil, List.sum_cons, List.sum_nil, Instr.ends] at hends
  rw [List.map_cons, List.sum_cons, sum_ends_sends, hfail, Instr.ends]
  simpa only [Nat.zero_add, Nat.add_zero] using hends

theorem Inv.giveUp {pkts : List Pkt} (h : Inv s (.setBusy false :: pkts.map .send) .giveUp) :
    Inv { s with busy := false, serial := .improv (pkts.map .send) } (pkts.map .send) .sends := by
  obtain ⟨hlive, -⟩ := h.agrees
  refine { h with
    program := .sends pkts
    agrees := ⟨hlive.trans_le (Nat.zero_le 1), ?_⟩
    next := fun job' hjob' => by cases hjob'
    ends := by simpa [Instr.ends] using h.ends }
  simpa [State.live] using hlive.trans_ne Nat.zero_ne_one

/-- No task is at work when the serial task leaves the phase. -/
theorem Inv.quiet (h : Inv s todo .net) {todo' : List Instr} (hprogram : Program .sends todo')
    (hends : (todo'.map Instr.ends).sum = (todo.map Instr.ends).sum) (netActive : Bool) :
    Inv { s with netActive, serial := .improv todo' } todo' .sends := by
  obtain ⟨hlive, hbusy⟩ := h.agrees
  refine { h with
    program := hprogram
    agrees := ⟨hlive.trans_le (Nat.zero_le 1), ?_⟩
    next := fun job' hjob' => by cases hjob'
    ends := by rw [hends]; exact h.ends }
  simpa [State.live, hbusy] using hlive.trans_ne Nat.zero_ne_one

/-- The next statement of the serial task. -/
theorem Inv.exec {instr : Instr} (h : Inv s (instr :: todo) ph) (ok : Bool) :
    ∃ todo' ph', (s.execInstr ok todo instr).todo = todo' ∧
      Inv (s.execInstr ok todo instr) todo' ph' := by
  have hprogram := h.program
  generalize hlist : instr :: todo = program at hprogram
  cases hprogram with
  | sends pkts =>
      cases pkts with
      | nil => cases hlist
      | cons pkt pkts =>
          cases hlist
          exact ⟨_, _, rfl, h.send (.sends pkts) _⟩
  | start pkts job onFail hfail =>
      cases pkts with
      | nil =>
          cases hlist
          exact ⟨_, _, rfl, h.setBusy hfail⟩
      | cons pkt pkts =>
          cases hlist
          exact ⟨_, _, rfl, h.send (.start pkts job onFail hfail) _⟩
  | creating job onFail hfail =>
      cases hlist
      cases ok with
      | true => exact ⟨_, _, rfl, h.created⟩
      | false => exact ⟨_, _, List.append_nil _, h.notCreated hfail⟩
  | giveUp pkts =>
      cases hlist
      exact ⟨_, _, rfl, h.giveUp⟩
  | net pkts =>
      cases pkts with
      | nil =>
          cases hlist
          unfold State.execInstr
          dsimp only
          split
          · refine ⟨_, _, rfl, h.quiet (.sends [errorOf ERROR_UNKNOWN]) ?_ s.netActive⟩
            simp [Instr.ends, errorOf, endsOf_build]
          · exact ⟨_, .net, rfl, h.parser, .netSet, h.agrees, h.asked, h.next, h.ends⟩
      | cons pkt pkts =>
          cases hlist
          exact ⟨_, _, rfl, h.send (.net pkts) _⟩
  | netSet =>
      cases hlist
      exact ⟨_, _, rfl, h.quiet (.sends []) rfl true⟩

/-! ### The other tasks -/

/-- A list with one entry taken out. -/
theorem exists_split {ws : List Worker} {w : Worker} (h : ws[i]? = some w) :
    ∃ A B, ws = A ++ w :: B ∧ (∀ w', ws.set i w' = A ++ w' :: B) ∧ ws.eraseIdx i = A ++ B := by
  obtain ⟨hlt, rfl⟩ := List.getElem?_eq_some_iff.mp h
  refine ⟨ws.take i, ws.drop (i + 1), ?_, fun w' => ?_, List.eraseIdx_eq_take_drop_succ ..⟩
  · rw [← List.drop_eq_getElem_cons hlt, List.take_append_drop]
  · rw [List.set_eq_take_append_cons_drop, if_pos hlt]

theorem sum_worker_ends (A B : List Worker) (w : Worker) :
    ((A ++ w :: B).map Worker.ends).sum = w.ends + ((A ++ B).map Worker.ends).sum := by
  simp only [List.map_append, List.sum_append, List.map_cons, List.sum_cons]
  omega

theorem live_worker (A B : List Worker) (w : Worker) :
    (A ++ w :: B).countP Worker.live = (if w.live then 1 else 0) + (A ++ B).countP Worker.live := by
  rw [List.countP_append, List.countP_cons, List.countP_append]
  omega

theorem endsOf_append (pkts pkts' : List Pkt) :
    endsOf (pkts ++ pkts') = endsOf pkts + endsOf pkts' :=
  List.count_append

/-- What a task sends ends a list if and only if it was started for one. -/
theorem ends_report {job : Job} {outcome : Outcome} {pkts : List Pkt}
    (h : job.report outcome = some pkts) : endsOf pkts = job.ends := by
  cases job with
  | provision ss pp =>
      cases outcome with
      | provisioned ok url =>
          cases h
          split
          · rw [endsOf_cons, endsOf_result, stateOf, endsOf_build]
            rfl
          · rw [endsOf_cons, errorOf, stateOf, endsOf_build, endsOf_build]
            rfl
      | scanned nets => cases h
  | scan =>
      cases outcome with
      | provisioned ok url => cases h
      | scanned nets =>
          cases h
          have hnets : endsOf (nets.map networkOf) = 0 := by
            induction nets with
            | nil => rfl
            | cons net nets ih => rw [List.map_cons, endsOf_cons, ih, networkOf, endsOf_result]
          rw [endsOf_append, hnets, endOfList_eq, endsOf, List.count_singleton_self]
          rfl

/-- A task goes on from where it stood. -/
theorem Inv.replace {A B : List Worker} {w w' : Worker} (h : Inv s todo ph)
    (hworkers : s.workers = A ++ w :: B) (hlive : w'.live = w.live) (hends : w'.ends = w.ends)
    (hjob : ∀ job, w' ≠ .running job) : Inv { s with workers := A ++ w' :: B } todo ph := by
  have hagrees := h.agrees
  have hsum := h.ends
  rw [State.live, hworkers, live_worker, ← hlive, ← live_worker] at hagrees
  rw [hworkers, sum_worker_ends, ← hends, ← sum_worker_ends] at hsum
  refine { h with agrees := hagrees, asked := fun job hmem => h.asked job ?_, ends := hsum }
  rw [hworkers]
  simp only [List.mem_append, List.mem_cons] at hmem ⊢
  rcases hmem with hmem | hmem | hmem
  · exact .inl hmem
  · exact absurd hmem.symm (hjob job)
  · exact .inr (.inr hmem)

/-- A task sends a packet. -/
theorem Inv.sent {A B : List Worker} {pkt : Pkt} {pkts : List Pkt} (h : Inv s todo ph)
    (hworkers : s.workers = A ++ .sending (pkt :: pkts) :: B) :
    Inv { s.send pkt with workers := A ++ .sending pkts :: B } todo ph := by
  obtain ⟨hinput, hparser, hbusy, -, -⟩ := send_kept s pkt
  have hagrees := h.agrees
  have hsum := h.ends
  rw [State.live, hworkers, live_worker] at hagrees
  rw [hworkers, sum_worker_ends, Worker.ends, endsOf_cons] at hsum
  constructor
  · simpa only [hinput, hparser] using h.parser
  · exact h.program
  · rw [State.live, hbusy, live_worker]
    exact hagrees
  · intro job hmem
    rw [hinput]
    apply h.asked job
    rw [hworkers]
    simpa using hmem
  · simpa only [hinput] using h.next
  · dsimp only
    rw [hinput, count_send, hsum, sum_worker_ends, Worker.ends]
    omega

/-- A task clears `s_busy`: it was the only one at work. -/
theorem Inv.clear {A B : List Worker} (h : Inv s todo ph)
    (hworkers : s.workers = A ++ .sending [] :: B) :
    Inv { s with busy := false, workers := A ++ .cleared :: B } todo ph := by
  have hagrees := h.agrees
  have hsum := h.ends
  rw [State.live, hworkers, live_worker] at hagrees
  rw [hworkers, sum_worker_ends] at hsum
  have hlive : (Worker.sending []).live = true := rfl
  rw [if_pos hlive] at hagrees
  have hnone : (A ++ Worker.cleared :: B).countP Worker.live = (A ++ B).countP Worker.live := by
    rw [live_worker]
    exact Nat.zero_add _
  have hasked (job : Job) (hmem : Worker.running job ∈ A ++ Worker.cleared :: B) :
      Asked s.input job := by
    apply h.asked job
    rw [hworkers]
    simpa using hmem
  have hends : requests s.input = (s.out ++ s.lost).count endPacket +
      ((todo.map Instr.ends).sum + ((A ++ Worker.cleared :: B).map Worker.ends).sum) := by
    rw [hsum, sum_worker_ends]
    rfl
  cases ph with
  | sends =>
      have hzero : (A ++ B).countP Worker.live = 0 := by
        obtain ⟨hle, -⟩ := hagrees
        omega
      refine { h with
        agrees := ⟨(hnone.trans hzero).trans_le (Nat.zero_le 1), ?_⟩
        asked := hasked
        ends := hends }
      simpa [State.live] using (hnone.trans hzero).trans_ne Nat.zero_ne_one
  | start job => exact absurd hagrees.1 (by omega)
  | creating job => exact absurd hagrees.1 (by omega)
  | giveUp => exact absurd hagrees.1 (by omega)
  | net => exact absurd hagrees.1 (by omega)

/-- A task is deleted. -/
theorem Inv.delete {A B : List Worker} (h : Inv s todo ph)
    (hworkers : s.workers = A ++ .cleared :: B) : Inv { s with workers := A ++ B } todo ph := by
  have hagrees := h.agrees
  have hsum := h.ends
  rw [State.live, hworkers, live_worker] at hagrees
  rw [hworkers, sum_worker_ends] at hsum
  have hzero : (if Worker.cleared.live then 1 else 0) = 0 := rfl
  rw [hzero, Nat.zero_add] at hagrees
  have hnone : Worker.cleared.ends = 0 := rfl
  rw [hnone, Nat.zero_add] at hsum
  refine { h with agrees := hagrees, asked := fun job hmem => h.asked job ?_, ends := hsum }
  rw [hworkers]
  simp only [List.mem_append, List.mem_cons] at hmem ⊢
  tauto

/-- The next statement of a task. -/
theorem Inv.work {w : Worker} (h : Inv s todo ph) (hw : s.workers[i]? = some w)
    (hstep : s.workStep i w = some t) : Inv t todo ph ∧ t.serial = s.serial := by
  obtain ⟨A, B, hworkers, hset, herase⟩ := exists_split hw
  cases w with
  | running job => cases hstep
  | sending pkts =>
      cases pkts with
      | cons pkt pkts =>
          cases hstep
          rw [hset]
          obtain ⟨-, -, -, -, hserial⟩ := send_kept s pkt
          exact ⟨h.sent hworkers, hserial⟩
      | nil =>
          cases hstep
          rw [hset]
          exact ⟨h.clear hworkers, rfl⟩
  | cleared =>
      cases hstep
      rw [herase]
      exact ⟨h.delete hworkers, rfl⟩

/-- The long call of a task returns. -/
theorem Inv.finish {job : Job} {outcome : Outcome} {pkts : List Pkt} (h : Inv s todo ph)
    (hw : s.workers[i]? = some (.running job)) (hreport : job.report outcome = some pkts) :
    Inv { s with workers := s.workers.set i (.sending pkts) } todo ph := by
  obtain ⟨A, B, hworkers, hset, -⟩ := exists_split hw
  rw [hset]
  exact h.replace hworkers rfl (ends_report hreport) fun job' => nofun

/-! ### Every step -/

theorem after_append_singleton (bs : List Byte) (b : Byte) :
    Parser.after (bs ++ [b]) = ((Parser.after bs).feed b).1 := by
  rw [Parser.after, Mealy.run_append]
  rfl

theorem received_append_singleton (bs : List Byte) (b : Byte) :
    received (bs ++ [b]) = received bs ++ ((Parser.after bs).feed b).2.received := by
  rw [receive_append, Mealy.run_cons, Mealy.run_nil, List.append_nil]
  rfl

/-- What is left to do for a byte, whatever it completes. -/
theorem fed_answers (bs : List Byte) (b : Byte) (env : Env) (busy loraSerial : Bool) :
    ∃ todo, fed env busy loraSerial ((Parser.after bs).feed b).2 = some todo ∧
      Answers (bs ++ [b]) busy
        ((((Parser.after bs).feed b).2.received).countP isScanRequest) todo := by
  have hreceived := received_append_singleton bs b
  generalize ((Parser.after bs).feed b).2 = r at hreceived ⊢
  cases r with
  | more => exact ⟨[], rfl, answers_sends _ busy []⟩
  | bad => exact ⟨_, rfl, answers_error _ busy _⟩
  | packet p =>
      have hp : p ∈ received (bs ++ [b]) := by
        rw [hreceived]
        exact List.mem_append_right _ (List.mem_singleton_self p)
      have hcount : (FeedResult.packet p).received.countP isScanRequest =
          if isScanRequest p then 1 else 0 := List.countP_singleton
      rw [hcount]
      unfold fed
      dsimp only
      split
      · exact handleRpc_answers hp env busy loraSerial
      · next htype =>
          have hreq : isScanRequest p = false := by
            rw [isScanRequest, rpcCommand, if_pos (.inl htype), Option.any_none]
          rw [hreq]
          exact ⟨[], rfl, answers_sends _ busy []⟩

/-- With nothing left to do, `s_busy` is set if and only if a task is at work. -/
theorem Inv.agrees_nil (h : Inv s [] ph) : Phase.Agrees s.busy s.live .sends := by
  have hprogram := h.program
  have hagrees := h.agrees
  generalize hlist : ([] : List Instr) = program at hprogram
  cases hprogram with
  | sends pkts => exact hagrees
  | start pkts job onFail hfail => cases pkts <;> cases hlist
  | creating job onFail hfail => cases hlist
  | giveUp pkts => cases hlist
  | net pkts => cases pkts <;> cases hlist
  | netSet => cases hlist

/-- A byte is fed to Improv. -/
theorem Inv.byte (h : Inv s [] ph) (env : Env) (b : Byte) :
    ∃ todo' ph', fed env s.busy s.loraSerial (s.parser.feed b).2 = some todo' ∧
      Inv { s with
        input := s.input ++ [b]
        parser := (s.parser.feed b).1
        serial := .improv todo' } todo' ph' := by
  obtain ⟨todo', hfed, ⟨ph', hprogram, htaken, hnext⟩, hends⟩ :=
    fed_answers s.input b env s.busy s.loraSerial
  rw [← h.parser] at hfed
  have hagrees := h.agrees_nil
  have hquiet (hbusy : s.busy = false) : s.live = 0 := by
    obtain ⟨hle, hiff⟩ := hagrees
    have hne : s.live ≠ 1 := fun heq => by simp [hiff.mpr heq] at hbusy
    omega
  refine ⟨todo', ph', hfed, ?_, hprogram, ?_, ?_, hnext, ?_⟩
  · dsimp only
    rw [h.parser, after_append_singleton]
  · cases ph' with
    | sends => exact hagrees
    | start job => exact ⟨hquiet htaken, htaken⟩
    | net => exact ⟨hquiet htaken, htaken⟩
    | creating job => cases htaken
    | giveUp => cases htaken
  · exact fun job hjob => (h.asked job hjob).mono [b]
  · have hsum := h.ends
    rw [List.map_nil, List.sum_nil] at hsum
    dsimp only
    rw [requests, received_append_singleton, List.countP_append, hends]
    rw [requests] at hsum
    omega

/-- What holds at all times. -/
def Sound (s : State) : Prop := ∃ ph, Inv s s.todo ph

theorem sound_boot (loraSerial : Bool) : Sound (boot loraSerial) := by
  refine ⟨.sends, rfl, .sends [], ⟨Nat.zero_le 1, ?_⟩, ?_, ?_, rfl⟩
  · simp [boot, State.live]
  · simp [boot]
  · intro job hjob
    cases hjob

/-- A step that leaves everything but the place in the loop, the bridge and the mode. -/
theorem Sound.of_kept (h : Sound s) (hinput : t.input = s.input) (hparser : t.parser = s.parser)
    (hbusy : t.busy = s.busy) (hworkers : t.workers = s.workers) (hout : t.out = s.out)
    (hlost : t.lost = s.lost) (htodo : t.todo = s.todo) : Sound t := by
  obtain ⟨ph, hinv⟩ := h
  refine ⟨ph, ?_⟩
  rw [htodo]
  constructor
  · rw [hparser, hinput, hinv.parser]
  · exact hinv.program
  · rw [State.live, hbusy, hworkers]
    exact hinv.agrees
  · rw [hworkers, hinput]
    exact hinv.asked
  · rw [hinput]
    exact hinv.next
  · rw [hinput, hout, hlost, hworkers]
    exact hinv.ends

theorem Sound.step {a : Action} (h : Sound s) (hstep : s.step a = some t) : Sound t := by
  unfold State.step at hstep
  split at hstep
  · cases hstep
    exact h.of_kept rfl rfl rfl rfl rfl rfl rfl
  · next hserial =>
      cases hstep
      refine h.of_kept rfl rfl rfl rfl rfl rfl ?_
      rw [State.todo, State.todo, hserial]
      dsimp only
      split <;> rfl
  · next hserial =>
      cases hstep
      refine h.of_kept rfl rfl rfl rfl rfl rfl ?_
      rw [State.todo, State.todo, hserial]
      dsimp only
      split <;> rfl
  · next hserial =>
      cases hstep
      exact h.of_kept rfl rfl rfl rfl rfl rfl (by rw [State.todo, State.todo, hserial]; rfl)
  · next hserial =>
      cases hstep
      exact h.of_kept rfl rfl rfl rfl rfl rfl (by rw [State.todo, State.todo, hserial]; rfl)
  · next hserial =>
      cases hstep
      exact h.of_kept rfl rfl rfl rfl rfl rfl (by rw [State.todo, State.todo, hserial]; rfl)
  · next env b hserial =>
      obtain ⟨ph, hinv⟩ := h
      rw [State.todo, hserial] at hinv
      obtain ⟨todo', ph', hfed, hinv'⟩ := hinv.byte env b
      rw [hfed] at hstep
      cases hstep
      exact ⟨ph', hinv'⟩
  · next ok instr todo hserial =>
      obtain ⟨ph, hinv⟩ := h
      rw [State.todo, hserial] at hinv
      obtain ⟨todo', ph', htodo, hinv'⟩ := hinv.exec ok
      cases hstep
      exact ⟨ph', by rwa [htodo]⟩
  · next i outcome =>
      split at hstep
      · next job hw =>
          obtain ⟨pkts, hreport, rfl⟩ := Option.map_eq_some_iff.mp hstep
          obtain ⟨ph, hinv⟩ := h
          exact ⟨ph, hinv.finish hw hreport⟩
      · cases hstep
  · next i =>
      obtain ⟨w, hw, hwork⟩ := Option.bind_eq_some_iff.mp hstep
      obtain ⟨ph, hinv⟩ := h
      obtain ⟨hinv', hserial⟩ := hinv.work hw hwork
      have htodo : t.todo = s.todo := by rw [State.todo, State.todo, hserial]
      exact ⟨ph, by rwa [htodo]⟩
  · cases hstep

/-! ### The network mode -/

/-- No command that starts a task is read in the network mode: the pass of the serial task that
turned the mode on reads none behind `CMD_VOYAGER_NET_START`. -/
def Calm (s : State) (a : Action) : Prop :=
  s.netActive = true → ∀ t, s.step a = some t → s.todo = [] → t.todo.any Instr.isCreate = false

/-- In the network mode no task is at work, and none is about to be started. -/
def Quiet (s : State) : Prop :=
  s.netActive = true → s.live = 0 ∧ s.todo.any Instr.isCreate = false

theorem netActive_send (s : State) (pkt : Pkt) : (s.send pkt).netActive = s.netActive := by
  unfold State.send
  split
  · rfl
  · split <;> rfl

/-- A task that goes on does not make more of them. -/
theorem live_workStep {w : Worker} (hw : s.workers[i]? = some w)
    (hstep : s.workStep i w = some t) : t.live ≤ s.live ∧ t.netActive = s.netActive := by
  obtain ⟨A, B, hworkers, hset, herase⟩ := exists_split hw
  have hlive : s.live = (if w.live then 1 else 0) + (A ++ B).countP Worker.live := by
    rw [State.live, hworkers, live_worker]
  rw [hlive]
  cases w with
  | running job => cases hstep
  | sending pkts =>
      cases pkts with
      | cons pkt pkts =>
          cases hstep
          rw [hset]
          refine ⟨Nat.le_of_eq ?_, netActive_send s pkt⟩
          rw [State.live, live_worker]
          rfl
      | nil =>
          cases hstep
          rw [hset]
          refine ⟨?_, rfl⟩
          rw [State.live, live_worker]
          exact Nat.add_le_add_right (Nat.zero_le _) _
  | cleared =>
      cases hstep
      rw [herase]
      exact ⟨Nat.le_add_left _ _, rfl⟩

/-- The mode is entered while no task is at work, and starts none. -/
theorem Sound.exec_quiet {instr : Instr} {todo : List Instr} (h : Sound s) (hquiet : Quiet s)
    (hserial : s.serial = .improv (instr :: todo)) (ok : Bool) :
    Quiet (s.execInstr ok todo instr) := by
  intro hon
  have htodo : s.todo = instr :: todo := by rw [State.todo, hserial]; rfl
  unfold Quiet at hquiet
  rw [htodo, List.any_cons] at hquiet
  cases instr with
  | send pkt =>
      obtain ⟨hlive, hnone⟩ := hquiet ((netActive_send s pkt).symm.trans hon)
      obtain ⟨-, -, -, hworkers, -⟩ := send_kept s pkt
      refine ⟨?_, hnone⟩
      rw [State.live] at hlive ⊢
      exact (congrArg _ hworkers).trans hlive
  | setBusy value =>
      obtain ⟨hlive, hnone⟩ := hquiet hon
      exact ⟨hlive, hnone⟩
  | create job onFail =>
      have hactive : s.netActive = true := by
        unfold State.execInstr at hon
        dsimp only at hon
        split at hon <;> exact hon
      exact absurd (hquiet hactive).2 (by simp [Instr.isCreate])
  | netEnter =>
      unfold State.execInstr at hon ⊢
      dsimp only at hon ⊢
      split at hon
      · next htest =>
          rw [if_pos htest]
          exact hquiet hon
      · next htest =>
          rw [if_neg htest]
          exact hquiet hon
  | netSet =>
      obtain ⟨ph, hinv⟩ := h
      have hprogram := hinv.program
      have hagrees := hinv.agrees
      rw [htodo] at hprogram
      generalize hlist : Instr.netSet :: todo = program at hprogram
      cases hprogram with
      | sends pkts => cases pkts <;> cases hlist
      | start pkts job onFail hfail => cases pkts <;> cases hlist
      | creating job onFail hfail => cases hlist
      | giveUp pkts => cases hlist
      | net pkts => cases pkts <;> cases hlist
      | netSet =>
          cases hlist
          exact ⟨hagrees.1, rfl⟩

theorem Sound.step_quiet {a : Action} (h : Sound s) (hquiet : Quiet s) (hcalm : Calm s a)
    (hstep : s.step a = some t) : Quiet t := by
  have hstep' := hstep
  unfold State.step at hstep
  split at hstep
  · cases hstep
    exact hquiet
  · next hserial =>
      cases hstep
      intro hon
      refine ⟨(hquiet hon).1, ?_⟩
      rw [State.todo]
      dsimp only
      split <;> rfl
  · next hserial =>
      cases hstep
      intro hon
      refine ⟨(hquiet hon).1, ?_⟩
      rw [State.todo]
      dsimp only
      split <;> rfl
  · cases hstep
    intro hon
    have hbefore : s.netActive = true := (Bool.and_eq_true_iff.mp hon).1
    exact ⟨(hquiet hbefore).1, rfl⟩
  · cases hstep
    exact fun hon => ⟨(hquiet hon).1, rfl⟩
  · cases hstep
    exact fun hon => ⟨(hquiet hon).1, rfl⟩
  · next env b hserial =>
      obtain ⟨todo, -, rfl⟩ := Option.map_eq_some_iff.mp hstep
      have htodo : s.todo = [] := by rw [State.todo, hserial]; rfl
      exact fun hon => ⟨(hquiet hon).1, hcalm hon _ hstep' htodo⟩
  · next ok instr todo hserial =>
      cases hstep
      exact h.exec_quiet hquiet hserial ok
  · next i outcome =>
      split at hstep
      · next job hw =>
          obtain ⟨pkts, -, rfl⟩ := Option.map_eq_some_iff.mp hstep
          obtain ⟨A, B, hworkers, hset, -⟩ := exists_split hw
          intro hon
          obtain ⟨hlive, hnone⟩ := hquiet hon
          refine ⟨?_, hnone⟩
          rw [State.live, hworkers, live_worker] at hlive
          rw [State.live, hset, live_worker]
          exact hlive
      · cases hstep
  · next i =>
      obtain ⟨w, hw, hwork⟩ := Option.bind_eq_some_iff.mp hstep
      obtain ⟨ph, hinv⟩ := h
      obtain ⟨-, hserial⟩ := hinv.work hw hwork
      obtain ⟨hle, hactive⟩ := live_workStep hw hwork
      intro hon
      obtain ⟨hlive, hnone⟩ := hquiet (hactive ▸ hon)
      refine ⟨Nat.le_zero.mp (hle.trans_eq hlive), ?_⟩
      rwa [State.todo, hserial]
  · cases hstep

/-! ### The system -/

/-- In every order in which the tasks go on: at most one task is at work, and `s_busy` is set
while one is; a task was asked for on the line, a connect with the credentials of a packet; every
request for the list of networks is answered by one end of a list; no byte that is fed to Improv
leads outside of an array; and no task is at work in the network mode, as long as no command that
starts one is read behind the command that turned it on. -/
theorem improv_tasks {loraSerial : Bool} {as : List Action}
    (h : Transition.exec State.step (boot loraSerial) as = some s) :
    s.live ≤ 1 ∧ (s.live = 1 → s.busy = true) ∧
      (s.todo = [] → s.busy = true → s.live = 1) ∧
      (∀ job, Worker.running job ∈ s.workers → Asked s.input job) ∧
      requests s.input = (s.out ++ s.lost).count endPacket + s.pending ∧
      (s.serial = .improv [] → ∀ env b, (s.step (.byte env b)).isSome = true) ∧
      (Transition.Meets State.step Calm (boot loraSerial) as → s.netActive = true → s.live = 0) := by
  have hsound : Sound s :=
    Transition.exec_invariant (fun s a t h hstep => Sound.step h hstep) (sound_boot loraSerial) h
  have hquiet (hmeets : Transition.Meets State.step Calm (boot loraSerial) as) : Quiet s := by
    have hstep (s : State) (a : Action) (t : State) (hs : Sound s ∧ Quiet s) (hcalm : Calm s a)
        (hstep : s.step a = some t) : Sound t ∧ Quiet t :=
      ⟨hs.1.step hstep, hs.1.step_quiet hs.2 hcalm hstep⟩
    have hboot : Quiet (boot loraSerial) := fun hon => by cases hon
    exact (Transition.exec_invariant_of_meets hstep ⟨sound_boot loraSerial, hboot⟩ hmeets h).2
  obtain ⟨ph, hinv⟩ := hsound
  have hagrees := hinv.agrees
  refine ⟨?_, ?_, ?_, hinv.asked, hinv.ends, ?_, fun hmeets hon => (hquiet hmeets hon).1⟩
  · cases ph with
    | sends => exact hagrees.1
    | start job => exact hagrees.1.trans_le (Nat.zero_le 1)
    | creating job => exact hagrees.1.trans_le (Nat.zero_le 1)
    | giveUp => exact hagrees.1.trans_le (Nat.zero_le 1)
    | net => exact hagrees.1.trans_le (Nat.zero_le 1)
  · intro hone
    cases ph with
    | sends => exact hagrees.2.mpr hone
    | start job => exact absurd (hagrees.1.symm.trans hone) Nat.zero_ne_one
    | creating job => exact hagrees.2
    | giveUp => exact hagrees.2
    | net => exact absurd (hagrees.1.symm.trans hone) Nat.zero_ne_one
  · intro hnone hbusy
    rw [hnone] at hinv
    exact hinv.agrees_nil.2.mp hbusy
  · intro hserial env b
    have htodo : s.todo = [] := by rw [State.todo, hserial]; rfl
    rw [htodo] at hinv
    obtain ⟨todo', ph', hfed, -⟩ := hinv.byte env b
    unfold State.step
    rw [hserial]
    dsimp only
    rw [hfed]
    rfl

/-- Two requests for the list of networks, the second one while the scan is going on. -/
def twoRequests : List Action :=
  let env : Env := ⟨[], [], [], true, 1, 0, 0⟩
  let request := (HDR ++ [VERSION, TYPE_RPC, 2, CMD_GET_WIFI_NETWORKS, 0, 0xE7]).map (.byte env)
  [.pass, .choose] ++ request ++ [.exec true, .exec true] ++ request ++
    [.finish 0 (.scanned []), .exec true, .work 0, .work 0]

/-- Both are answered by one end of a list, and the board is ready for the next command. -/
theorem improv_tasks_two_requests :
    ∃ s, Transition.exec State.step (boot false) twoRequests = some s ∧ s.live = 0 ∧
      s.busy = false ∧ requests s.input = (s.out ++ s.lost).count endPacket := by
  have heval : (Transition.exec State.step (boot false) twoRequests).map
      (fun s => (s.live, s.busy, s.pending)) = some (0, false, 0) := by rfl
  obtain ⟨s, hrun, hs⟩ := Option.map_eq_some_iff.mp heval
  rw [Prod.mk.injEq, Prod.mk.injEq] at hs
  obtain ⟨hlive, hbusy, hpending⟩ := hs
  obtain ⟨-, -, -, -, hends, -⟩ := improv_tasks hrun
  rw [hpending, Nat.add_zero] at hends
  exact ⟨s, hrun, hlive, hbusy, hends⟩

end Runs

end ImprovTasks

end Voyager
