import Voyager.Lora.Receive

/-!
# Boards on one channel

Any number of boards share the channel. A step is one step of one task of one board: its
TX task (`LoRa_sendRaw` with `send_with_retry`), its RX task (`lora_rx_task` with
`handle_rx_frame`) or one of the tasks that fill and drain the queues. When a board
transmits, the step says what every other board hears: the frame, other bytes, or nothing.

The code has no identity for a submission; here a submission is known by the call of
`send_with_retry` that sends it. `Origin`, `owner` and the log are there to say what
happened: no task reads them. The log has the newest event first.
-/

namespace Voyager

open LoraProto

/-! ## The sender's retry machine -/

def MAX_RETRIES : Byte := 3

inductive TxAction where
  | wait | retransmit | success | fail
  deriving DecidableEq, Repr

structure TxRetry where
  seq : Byte
  attempts : Byte
  done : Bool
  deriving DecidableEq, Repr

def txBegin (seq : Byte) : TxRetry := { seq, attempts := 1, done := false }

def txNextAttemptOrFail (t : TxRetry) : TxAction × TxRetry :=
  if t.attempts > MAX_RETRIES then (.fail, { t with done := true })
  else (.retransmit, { t with attempts := t.attempts + 1 })

def txOnAck (t : TxRetry) (ackSeq value : Byte) : TxAction × TxRetry :=
  if t.done then (.wait, t)
  else if ackSeq ≠ t.seq then (.wait, t)
  else if value = ACK_OK then (.success, { t with done := true })
  else txNextAttemptOrFail t

def txOnTimeout (t : TxRetry) : TxAction × TxRetry :=
  if t.done then (.wait, t) else txNextAttemptOrFail t

theorem txNextAttemptOrFail_seq (t : TxRetry) : (txNextAttemptOrFail t).2.seq = t.seq := by
  unfold txNextAttemptOrFail
  split <;> rfl

theorem txOnAck_seq (t : TxRetry) (ackSeq value : Byte) : (txOnAck t ackSeq value).2.seq = t.seq := by
  unfold txOnAck
  split
  · rfl
  · split
    · rfl
    · split
      · rfl
      · exact txNextAttemptOrFail_seq t

theorem txOnTimeout_seq (t : TxRetry) : (txOnTimeout t).2.seq = t.seq := by
  unfold txOnTimeout
  split
  · rfl
  · exact txNextAttemptOrFail_seq t

theorem txNextAttemptOrFail_ne_success (t : TxRetry) : (txNextAttemptOrFail t).1 ≠ .success := by
  unfold txNextAttemptOrFail
  split <;> simp

/-- Only an acknowledgement of the attempt's own seq with the value `1` is a success. -/
theorem txOnAck_success {t : TxRetry} {ackSeq value : Byte}
    (h : (txOnAck t ackSeq value).1 = .success) : ackSeq = t.seq ∧ value = ACK_OK := by
  unfold txOnAck at h
  split at h
  · cases h
  · split at h
    · cases h
    · rename_i hseq
      split at h
      · rename_i hvalue
        exact ⟨not_not.mp hseq, hvalue⟩
      · exact absurd h (txNextAttemptOrFail_ne_success t)

theorem txOnTimeout_ne_success (t : TxRetry) : (txOnTimeout t).1 ≠ .success := by
  unfold txOnTimeout
  split
  · simp
  · exact txNextAttemptOrFail_ne_success t

/-! ## What is in the air -/

/-- One call of `send_with_retry`: the board, and how many calls it made before. -/
structure Call (ι : Type) where
  board : ι
  index : ℕ
  deriving DecidableEq

/-- What a board did with the packet it answers: it was accepted, or it was taken for the
packet of the call that left the dedup entry (`none` when that packet came damaged or was
there from the start), or it was turned away. -/
inductive Verdict (ι : Type) where
  | accepted
  | duplicate (left : Option (Call ι))
  | refused
  deriving DecidableEq

/-- An acknowledgement: who sends it, for the packet of which call (`none` when the packet
came damaged), and why. -/
structure Answer (ι : Type) where
  board : ι
  call : Option (Call ι)
  verdict : Verdict ι
  deriving DecidableEq

/-- Where the bytes of a frame come from. -/
inductive Origin (ι : Type) where
  | packet (call : Call ι)
  | answer (answer : Answer ι)
  deriving DecidableEq

/-- A frame as a board hears it. The origin is `none` when the bytes are not those that
were sent, or nobody of interest sent them. -/
structure Heard (ι : Type) where
  bytes : List Byte
  origin : Option (Origin ι)

/-- What each board hears of a frame; `none` is nothing. -/
abbrev Reception (ι : Type) := ι → Option (List Byte)

/-- A frame that is put on the air. -/
structure Sent (ι : Type) where
  bytes : List Byte
  origin : Option (Origin ι)
  reception : Reception ι

inductive Event (ι : Type) where
  /-- `send_with_retry` takes its seq. -/
  | began (call : Call ι) (p : QueueParam) (seq : Byte)
  /-- `handle_rx_frame` puts an acknowledgement into `ack_queue`. -/
  | ackHeard (board : ι) (seq value : Byte) (origin : Option (Origin ι))
  /-- `handle_rx_frame` pushes a message onto `recv_packets`; the packet is that of `call`,
  or `none` when it came damaged. -/
  | queued (board : ι) (message : List Byte) (call : Option (Call ι))
  /-- `send_with_retry` returns. -/
  | returned (call : Call ι) (p : QueueParam) (ok : Bool)
  deriving DecidableEq

/-! ## A board and its tasks -/

/-- Where the TX task stands. -/
inductive TxTask where
  | idle
  /-- It has taken an item off `send_packets`. -/
  | taken (p : QueueParam)
  /-- `take_seq` is done, `xQueueReset` is not. -/
  | begun (p : QueueParam) (t : TxRetry)
  /-- It is about to send a network broadcast, which nobody acknowledges. -/
  | broadcasting (p : QueueParam) (seq : Byte)
  | sending (p : QueueParam) (t : TxRetry)
  | waiting (p : QueueParam) (t : TxRetry)

/-- Where the RX task stands. -/
inductive RxTask (ι : Type) where
  | idle
  | handling (h : Heard ι)
  | answering (akn : Akn) (answer : Answer ι)

structure Node (ι : Type) where
  board : Board
  tx : TxTask
  rx : RxTask ι
  /-- The frame the radio holds. -/
  fifo : Option (Heard ι)
  /-- How often `send_with_retry` has returned. -/
  calls : ℕ
  /-- The call whose packet left each dedup entry. -/
  owner : Fin DEDUP_SLOTS → Option (Call ι)

def Node.start {ι : Type} (board : Board) : Node ι :=
  { board, tx := .idle, rx := .idle, fifo := none, calls := 0, owner := fun _ => none }

/-- A step of one of the tasks of a board, or of what is around it. A `radio` of `none` is
a transmission that fails because the radio stays busy. -/
inductive Action (ι : Type) where
  | submit (p : QueueParam)
  | txTake
  | txBegin
  | txReset
  | txSend (radio : Option (Reception ι))
  | txAck
  | txTimeout
  | rxRead
  | rxHandle (env : Env)
  | rxAnswer (radio : Option (Reception ι))
  /-- The radio picks up bytes that are nobody's frame, or loses the frame it holds. -/
  | noise (bytes : Option (List Byte))
  | netEnter (env : Env)
  | netLeave
  | netFeed (env : Env) (c : Byte)
  | netWrite
  | drainRecv
  | drainSerial
  | sendSerial (data : List Byte) (reception : Reception ι)

/-- What a step does: the node afterwards, the frame it puts on the air, and the event. -/
structure Effect (ι : Type) where
  node : Node ι
  sent : Option (Sent ι)
  event : Option (Event ι)

variable {ι : Type}

namespace Node

variable (jsonMac : List Byte → Option (List Byte)) (i : ι) (nd : Node ι)

/-- A step that no other board and no log notices. -/
def silent : Effect ι := { node := nd, sent := none, event := none }

/-- `send_with_retry` returns. -/
def finish (p : QueueParam) (ok : Bool) : Effect ι where
  node := { nd with tx := .idle, calls := nd.calls + 1 }
  sent := none
  event := some (.returned { board := i, index := nd.calls } p ok)

/-- What `send_with_retry` does after an attempt: return, or try again. -/
def proceed (p : QueueParam) (a : TxAction × TxRetry) : Effect ι :=
  match a.1 with
  | .success => nd.finish i p true
  | .fail => nd.finish i p false
  | _ => silent { nd with tx := .sending p a.2 }

/-- `send_with_retry` up to `take_seq`. -/
def begin (p : QueueParam) : Effect ι :=
  if p.type ≠ T_LORA_MSG ∧ p.type ≠ T_NET then nd.finish i p false
  else if ¬ IsNetBroadcast p ∧ p.message.length > MAX_PAYLOAD then nd.finish i p false
  else
    let r := nd.board.takeSeq
    { node :=
        { nd with
          board := r.2
          tx := if IsNetBroadcast p then .broadcasting p r.1 else .begun p (txBegin r.1) }
      sent := none
      event := some (.began { board := i, index := nd.calls } p r.1) }

/-- The frame of a packet of the running call, as the other boards hear it. -/
def packet (bytes : List Byte) (reception : Reception ι) : Sent ι :=
  { bytes, origin := some (.packet { board := i, index := nd.calls }), reception }

/-- One call of `LoRa_send` by the TX task. -/
def send (radio : Option (Reception ι)) : Effect ι :=
  match nd.tx with
  | .broadcasting p seq =>
      match loRaSendFrame p.message p.type seq, radio with
      | some bytes, some reception =>
          { nd.finish i p true with sent := some (nd.packet i bytes reception) }
      | _, _ => nd.finish i p false
  | .sending p t =>
      match loRaSendFrame p.message p.type t.seq, radio with
      | some bytes, some reception =>
          { node := { nd with tx := .waiting p t }
            sent := some (nd.packet i bytes reception)
            event := none }
      | _, _ => nd.proceed i p (txOnTimeout t)
  | _ => nd.silent

/-- The TX task takes a value off `ack_queue`. -/
def ack : Effect ι :=
  match nd.tx, nd.board.ackQueue.receive with
  | .waiting p t, some (v, ackQueue) =>
      let a := txOnAck t (wordHi v) (wordLo v)
      let nd := { nd with board := { nd.board with ackQueue } }
      if a.1 = .wait then silent { nd with tx := .waiting p a.2 } else nd.proceed i p a
  | _, _ => nd.silent

/-- The key under which the dedup table knows the sender of a packet. -/
def dedupKey (p : Parsed) : UInt32 :=
  if p.type = T_NET then netDedupKey ((netParse p.payload).elim 0 NetFrame.src)
  else extractMacKey jsonMac (cString p.payload)

/-- Why the board answers a packet as it does. -/
def verdict (p : Parsed) (akn : Option Akn) : Verdict ι :=
  if akn.map Akn.result ≠ some ACK_OK then .refused
  else if rxIsDuplicateMulti nd.board.rxDedup (dedupKey jsonMac p) p.seq then
    .duplicate ((rxDedupLookup nd.board.rxDedup (dedupKey jsonMac p)).bind nd.owner)
  else .accepted

/-- Who left the dedup entries, after a packet: the slot is the one a commit takes. -/
def ownerAfter (verdict : Verdict ι) (slot : Fin DEDUP_SLOTS) (call : Option (Call ι)) :
    Fin DEDUP_SLOTS → Option (Call ι) :=
  match verdict with
  | .accepted => Function.update nd.owner slot call
  | _ => nd.owner

/-- The call whose packet a board hears undamaged. -/
def heardCall (h : Heard ι) : Option (Call ι) :=
  match h.origin with
  | some (.packet call) => some call
  | _ => none

/-- `handle_rx_frame` up to the acknowledgement. The event is read off the queues: an
acknowledgement for `ack_queue`, or a message that `recv_packets` did not hold before. -/
def handle (env : Env) (h : Heard ι) : Effect ι :=
  let p := parsePacket h.bytes
  let r := nd.board.handleRxFrame jsonMac env h.bytes
  let verdict := nd.verdict jsonMac p r.2
  { node :=
      { nd with
        board := r.1
        rx :=
          match r.2 with
          | none => .idle
          | some akn => .answering akn { board := i, call := heardCall h, verdict }
        owner :=
          nd.ownerAfter verdict (rxDedupFind nd.board.rxDedup (dedupKey jsonMac p)).1
            (heardCall h) }
    sent := none
    event :=
      if p.ok ∧ p.type = T_REC_AKNG then
        some (.ackHeard i p.seq (byteAt p.payload 0) h.origin)
      else
        (r.1.recvPackets.items.drop nd.board.recvPackets.items.length).head?.map fun q =>
          .queued i q.message (heardCall h) }

/-- A frame reaches the radio of a board. -/
def hear (sent : Sent ι) : Node ι :=
  match sent.reception i with
  | none => nd
  | some bytes =>
      { nd with
        fifo := some { bytes, origin := if bytes = sent.bytes then sent.origin else none } }

/-- One step of one task. A step that its task cannot take now changes nothing. -/
def effect (a : Action ι) : Effect ι :=
  match a with
  | .submit p =>
      silent { nd with
        board := { nd.board with sendPackets := sendOrDrop nd.board.sendPackets p } }
  | .txTake =>
      match nd.tx, nd.board.sendPackets.receive with
      | .idle, some (p, sendPackets) =>
          silent { nd with board := { nd.board with sendPackets }, tx := .taken p }
      | _, _ => nd.silent
  | .txBegin =>
      match nd.tx with
      | .taken p => nd.begin i p
      | _ => nd.silent
  | .txReset =>
      match nd.tx with
      | .begun p t =>
          silent { nd with board := { nd.board with ackQueue := .empty }, tx := .sending p t }
      | _ => nd.silent
  | .txSend radio => nd.send i radio
  | .txAck => nd.ack i
  | .txTimeout =>
      match nd.tx with
      | .waiting p t => nd.proceed i p (txOnTimeout t)
      | _ => nd.silent
  | .rxRead =>
      match nd.rx, nd.fifo with
      | .idle, some h => silent { nd with rx := .handling h, fifo := none }
      | _, _ => nd.silent
  | .rxHandle env =>
      match nd.rx with
      | .handling h => nd.handle jsonMac i env h
      | _ => nd.silent
  | .rxAnswer radio =>
      match nd.rx with
      | .answering akn answer =>
          { node := { nd with rx := .idle }
            sent :=
              match frameAck akn.seq akn.result (HEADER_LEN + 1), radio with
              | some bytes, some reception =>
                  some { bytes, origin := some (.answer answer), reception }
              | _, _ => none
            event := none }
      | _ => nd.silent
  | .noise bytes =>
      silent { nd with fifo := bytes.map fun bytes => { bytes, origin := none } }
  | .netEnter env => silent { nd with board := (nd.board.netEnter env).1 }
  | .netLeave => silent { nd with board := nd.board.netLeave }
  | .netFeed env c =>
      if nd.board.net.active then silent { nd with board := nd.board.netFeed env c } else nd.silent
  | .netWrite => silent { nd with board := nd.board.netWrite }
  | .drainRecv =>
      match nd.board.recvPackets.receive with
      | some (_, recvPackets) => silent { nd with board := { nd.board with recvPackets } }
      | none => nd.silent
  | .drainSerial =>
      match nd.board.serialPacketRec.receive with
      | some (_, serialPacketRec) => silent { nd with board := { nd.board with serialPacketRec } }
      | none => nd.silent
  | .sendSerial data reception =>
      { nd.silent with
        sent := (loRaSendFrame data T_LORA_SERIAL 0).map fun bytes =>
          { bytes, origin := none, reception } }

end Node

/-! ## The channel -/

structure Channel (ι : Type) where
  nodes : ι → Node ι
  /-- The newest event first. -/
  log : List (Event ι)

namespace Channel

variable [DecidableEq ι] (jsonMac : List Byte → Option (List Byte))

def start (boards : ι → Board) : Channel ι :=
  { nodes := fun i => .start (boards i), log := [] }

/-- The effect of a step of board `i` on all boards. -/
def apply (s : Channel ι) (i : ι) (e : Effect ι) : Channel ι where
  nodes j :=
    if j = i then e.node
    else
      match e.sent with
      | none => s.nodes j
      | some sent => (s.nodes j).hear j sent
  log := e.event.toList ++ s.log

def step (s : Channel ι) (a : ι × Action ι) : Channel ι :=
  s.apply a.1 ((s.nodes a.1).effect jsonMac a.1 a.2)

/-- The channel after some steps, in any order the tasks take them. -/
def run (boards : ι → Board) (as : List (ι × Action ι)) : Channel ι :=
  as.foldl (step jsonMac) (start boards)

end Channel

end Voyager
