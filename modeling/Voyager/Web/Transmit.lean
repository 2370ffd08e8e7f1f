import Voyager.Library.Transition
import Voyager.Lora.Channel
import Voyager.Web.TxTracker

/-!
# A device and its pages

The device queues what a page submits under an id, answers with that id, and tells every
page when the TX task starts on an id and how it ended. Answers and events are on their
way until a page gets them, in any order, or until they are lost. A restart empties the
queue and starts the ids again; the pages stay open, and what is on its way still arrives.

The code has no identity for a submission across restarts; here each item that is queued
has a number of its own, in `sub`. No task reads it. The log has the newest entry first.
-/

namespace Voyager

namespace Web

open LoraProto

abbrev TX_ATTEMPTS : ℕ := MAX_RETRIES.toNat + 1

/-- `tx_id_after`: the next id, never `0`. -/
def txIdAfter (cur : TxId) : TxId := if cur + 1 = 0 then 1 else cur + 1

theorem txIdAfter_ne_zero (cur : TxId) : txIdAfter cur ≠ 0 := by
  unfold txIdAfter
  split
  · decide
  · assumption

/-- An item of `send_packets`, with its number. -/
structure Item where
  p : QueueParam
  sub : ℕ
  deriving DecidableEq, Repr

/-- Where the TX task stands. `trying` is the loop of `send_with_retry`, `finished` the
time from its return to the `tx_result`. -/
inductive TxState where
  | idle
  | taken (item : Item)
  | trying (item : Item) (t : TxRetry)
  | finished (item : Item) (ok : Bool)
  deriving DecidableEq

/-- The item the TX task may still report an acknowledgement for. -/
def TxState.underway : TxState → List Item
  | .idle => []
  | .taken item | .trying item _ => [item]
  | .finished item ok => if ok then [item] else []

structure TxDevice where
  /-- `g_tx_id`. -/
  txId : TxId
  sendPackets : BoundedQueue Item SEND_QUEUE_DEPTH
  tx : TxState
  /-- How many items have been queued, over all restarts. -/
  subs : ℕ

/-- An HTTP answer to `/lora_transmit`: `202`, or a refusal. -/
inductive Response where
  | accepted (id : TxId) (queued : ℕ)
  | refused (status : ℕ) (error : String)
  deriving DecidableEq, Repr

/-- What is on its way to a page. -/
inductive Message (π : Type) where
  /-- The answer to the submission of item `sub`. -/
  | response (page : π) (sub : ℕ) (r : Response)
  | started (page : π) (msg : TxStarted)
  | result (page : π) (msg : TxResult)
  deriving DecidableEq

inductive Entry (π : Type) where
  /-- Item `sub` is queued under `id`, for `page`. -/
  | accepted (page : π) (sub : ℕ) (id : TxId)
  /-- The TX task gets an acknowledgement for item `sub`. -/
  | acked (sub : ℕ)
  /-- The tracker of `page` calls the callback of item `sub`. -/
  | reported (page : π) (sub : ℕ) (r : Outcome)
  deriving DecidableEq

structure System (π : Type) where
  device : TxDevice
  pages : π → TxTracker ℕ
  onTheWay : List (Message π)
  log : List (Entry π)

inductive Action (π : Type) where
  /-- A page's message has passed the checks of `/lora_transmit`. -/
  | transmit (page : π) (message : List Byte) (heap : Bool)
  /-- Another task queues a packet of the device's own. -/
  | sendOwn (type : Byte) (message : List Byte)
  /-- `LoRa_sendRaw` takes an item; the pages in `clients` are told. -/
  | txTake (expectedMs : ℕ) (clients : List π)
  /-- `send_with_retry` up to its loop; `sent` is how the one transmission of a network
  broadcast ends. -/
  | txBegin (seq : Byte) (sent : Bool)
  /-- An attempt gets no acknowledgement in time, or the radio stays busy. -/
  | txTimeout
  /-- An attempt finds a value in `ack_queue`. -/
  | txAck (seq value : Byte)
  /-- `LoRa_sendRaw` is done with the item. -/
  | txResult (username : String) (clients : List π)
  | reboot
  | deliver (m : Message π)
  | lose (m : Message π)
  | timer (page : π) (id : TxId)

namespace TxDevice

variable (d : TxDevice)

/-- The device after a start; only the number of items is kept. -/
def boot (subs : ℕ) : TxDevice := { txId := 0, sendPackets := .empty, tx := .idle, subs }

/-- `next_tx_id`. -/
def nextTxId : TxId × TxDevice := (txIdAfter d.txId, { d with txId := txIdAfter d.txId })

/-- Queue an item under the next number. -/
def queue (p : QueueParam) : Option TxDevice :=
  (d.sendPackets.send { p, sub := d.subs }).map fun sendPackets =>
    { d with sendPackets, subs := d.subs + 1 }

/-- `enqueue_tx`. A full queue has used up the id. -/
def enqueueTx (heap : Bool) (type : Byte) (message : List Byte) : Response × TxDevice :=
  if heap then
    let r := d.nextTxId
    match r.2.queue { type, message, id := r.1 } with
    | some d' => (.accepted r.1 d'.sendPackets.items.length, d')
    | none => (.refused 503 "queue_full", r.2)
  else (.refused 503 "no_memory", d)

/-- `send_with_retry` up to its loop. -/
def begin (item : Item) (seq : Byte) (sent : Bool) : TxState :=
  if item.p.type ≠ T_LORA_MSG ∧ item.p.type ≠ T_NET then .finished item false
  else if IsNetBroadcast item.p then .finished item sent
  else if item.p.message.length > MAX_PAYLOAD then .finished item false
  else .trying item (Voyager.txBegin seq)

/-- What `send_with_retry` does after an attempt: return, or go on. -/
def proceed (item : Item) (a : TxAction × TxRetry) : TxState :=
  match a.1 with
  | .success => .finished item true
  | .fail => .finished item false
  | _ => .trying item a.2

/-! ### What each operation does -/

variable {d} {d' : TxDevice} {heap : Bool} {type : Byte} {message : List Byte}

theorem queue_spec {p : QueueParam} (h : d.queue p = some d') :
    d.sendPackets.HasRoom ∧ d'.subs = d.subs + 1 ∧ d'.tx = d.tx ∧
      d'.sendPackets.items = d.sendPackets.items ++ [{ p, sub := d.subs }] := by
  obtain ⟨q, hq, rfl⟩ := Option.map_eq_some_iff.mp h
  obtain ⟨hroom, hitems⟩ := BoundedQueue.send_eq_some_iff.mp hq
  exact ⟨hroom, rfl, rfl, hitems⟩

/-- A `202` gives the next id, and the item with that id is the last in the queue. -/
theorem enqueueTx_accepted {id : TxId} {queued : ℕ}
    (h : d.enqueueTx heap type message = (.accepted id queued, d')) :
    heap = true ∧ d.sendPackets.HasRoom ∧ id = txIdAfter d.txId ∧ d'.subs = d.subs + 1 ∧
      d'.tx = d.tx ∧ d'.sendPackets.items =
        d.sendPackets.items ++ [{ p := { type, message, id }, sub := d.subs }] := by
  unfold enqueueTx at h
  split at h
  · rename_i hheap
    dsimp only at h
    split at h
    · rename_i hqueue
      obtain ⟨hroom, hsubs, htx, hitems⟩ := queue_spec hqueue
      cases h
      exact ⟨hheap, hroom, rfl, hsubs, htx, hitems⟩
    · cases h
  · cases h

/-- A refusal leaves the queue and the TX task alone. -/
theorem enqueueTx_refused {status : ℕ} {error : String}
    (h : d.enqueueTx heap type message = (.refused status error, d')) :
    d'.subs = d.subs ∧ d'.tx = d.tx ∧ d'.sendPackets = d.sendPackets := by
  unfold enqueueTx at h
  split at h
  · dsimp only at h
    split at h
    · cases h
    · cases h
      exact ⟨rfl, rfl, rfl⟩
  · cases h
    exact ⟨rfl, rfl, rfl⟩

theorem mem_underway_begin {item i : Item} {seq : Byte} {sent : Bool}
    (h : i ∈ (begin item seq sent).underway) : i = item := by
  unfold begin at h
  split at h
  · cases h
  · split at h
    · cases sent with
      | true => exact List.mem_singleton.mp h
      | false => cases h
    · split at h
      · cases h
      · exact List.mem_singleton.mp h

theorem mem_underway_proceed {item i : Item} {a : TxAction × TxRetry}
    (h : i ∈ (proceed item a).underway) : i = item := by
  unfold proceed at h
  split at h
  · exact List.mem_singleton.mp h
  · cases h
  · exact List.mem_singleton.mp h

/-- Before its loop `send_with_retry` ends well only for a network broadcast. -/
theorem begin_finished {item i : Item} {seq : Byte} {sent : Bool}
    (h : begin item seq sent = .finished i true) : i = item ∧ item.p.type = T_NET := by
  unfold begin at h
  split at h
  · cases h
  · split at h
    · rename_i hnet
      cases h
      exact ⟨rfl, hnet.1⟩
    · split at h <;> cases h

/-- In its loop it ends well only when an attempt was a success. -/
theorem proceed_finished {item i : Item} {a : TxAction × TxRetry}
    (h : proceed item a = .finished i true) : i = item ∧ a.1 = .success := by
  unfold proceed at h
  split at h
  · rename_i hsuccess
    cases h
    exact ⟨rfl, hsuccess⟩
  · cases h
  · cases h

end TxDevice

namespace System

variable {π : Type} [DecidableEq π] (s : System π)

/-- A device that has just been started, and pages that have just been loaded. -/
def start : System π where
  device := .boot 0
  pages := fun _ => .create
  onTheWay := []
  log := []

/-- The calls of callbacks that are reports. -/
def reports (page : π) (calls : List (Callback ℕ)) : List (Entry π) :=
  calls.filterMap fun
    | .cb sub r => some (.reported page sub r)
    | .onState .. => none

/-- The tracker of a page has done something. -/
def track (page : π) (r : TxTracker ℕ × List (Callback ℕ)) : System π :=
  { s with pages := Function.update s.pages page r.1, log := reports page r.2 ++ s.log }

/-- `/lora_transmit` after its checks. -/
def transmit (page : π) (message : List Byte) (heap : Bool) : System π :=
  match s.device.enqueueTx heap T_LORA_MSG message with
  | (.accepted id queued, device) =>
      { s with
        device
        onTheWay := .response page s.device.subs (.accepted id queued) :: s.onTheWay
        log := .accepted page s.device.subs id :: s.log }
  | (.refused status error, device) =>
      { s with
        device
        onTheWay := .response page s.device.subs (.refused status error) :: s.onTheWay }

/-- `send_tx_started`, unless the packet is the device's own. -/
def sendTxStarted (item : Item) (expectedMs : ℕ) (clients : List π) : List (Message π) :=
  if item.p.id = 0 then []
  else
    clients.map fun page =>
      .started page { id := item.p.id, expectedMs := some expectedMs, attempts := some TX_ATTEMPTS }

/-- `send_tx_result`, unless the packet is the device's own. -/
def sendTxResult (item : Item) (ok : Bool) (username : String) (clients : List π) :
    List (Message π) :=
  if item.p.id = 0 then []
  else
    clients.map fun page =>
      .result page { id := item.p.id, akn := if ok then 1 else 0, username }

/-- A message reaches its page: `lora_tx` registers a `202` and nothing else. -/
def receive (m : Message π) : System π :=
  match m with
  | .response page sub (.accepted id _) => s.track page ((s.pages page).register id sub)
  | .response _ _ (.refused ..) => s
  | .started page msg => s.track page ((s.pages page).started msg)
  | .result page msg => s.track page ((s.pages page).resolve msg)

/-- One step of a task of the device, of a page or of the network between them. -/
def step (s : System π) (a : Action π) : Option (System π) :=
  match a with
  | .transmit page message heap => some (s.transmit page message heap)
  | .sendOwn type message =>
      (s.device.queue { type, message, id := 0 }).map fun device => { s with device }
  | .txTake expectedMs clients =>
      match s.device.tx, s.device.sendPackets.receive with
      | .idle, some (item, sendPackets) =>
          some { s with
            device := { s.device with sendPackets, tx := .taken item }
            onTheWay := sendTxStarted item expectedMs clients ++ s.onTheWay }
      | _, _ => none
  | .txBegin seq sent =>
      match s.device.tx with
      | .taken item => some { s with device := { s.device with tx := TxDevice.begin item seq sent } }
      | _ => none
  | .txTimeout =>
      match s.device.tx with
      | .trying item t =>
          some { s with device := { s.device with tx := TxDevice.proceed item (txOnTimeout t) } }
      | _ => none
  | .txAck seq value =>
      match s.device.tx with
      | .trying item t =>
          let a := txOnAck t seq value
          some { s with
            device := { s.device with tx := TxDevice.proceed item a }
            log := if a.1 = .success then .acked item.sub :: s.log else s.log }
      | _ => none
  | .txResult username clients =>
      match s.device.tx with
      | .finished item ok =>
          some { s with
            device := { s.device with tx := .idle }
            onTheWay := sendTxResult item ok username clients ++ s.onTheWay }
      | _ => none
  | .reboot => some { s with device := .boot s.device.subs }
  | .deliver m =>
      if m ∈ s.onTheWay then some ({ s with onTheWay := s.onTheWay.erase m }.receive m) else none
  | .lose m => if m ∈ s.onTheWay then some { s with onTheWay := s.onTheWay.erase m } else none
  | .timer page id => some (s.track page ((s.pages page).timerFired id))

end System

end Web

end Voyager
