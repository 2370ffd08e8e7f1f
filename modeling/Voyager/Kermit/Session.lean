import Voyager.Kermit.Negotiation
import Voyager.Kermit.Parser

/-!
# The two sides of a transfer

`createSender` and `createReceiver` as state machines. A call into a side is a function
from its state to the next state and what the side did, in order: packets written, and
calls of the callbacks. The calls are `start`, `cancel`, the expiry of the one timer
(`timeout`), and the arrival of bytes (`deliver`); the receiver also lets go of the port
some time after the end (`stop`).

`s.waiting` is the exchange that is running for the sender, with what its `onAck` does as
a `Stage`; the receiver always waits with the same function.
-/

namespace Voyager

namespace Kermit

def MAX_RETRIES : ℕ := 10
def DEFAULT_TIMEOUT_MS : ℕ := 10000

/-- `opts.timeout || DEFAULT_TIMEOUT_MS`. -/
def sessionTimeout (timeout : ℕ) : ℕ := if timeout = 0 then DEFAULT_TIMEOUT_MS else timeout

/-! ## Packet types -/

namespace PacketType

def S : Byte := 0x53
def F : Byte := 0x46
def A : Byte := 0x41
def D : Byte := 0x44
def Z : Byte := 0x5a
def B : Byte := 0x42
def E : Byte := 0x45
def N : Byte := 0x4e
def Y : Byte := 0x59

end PacketType

/-- `neg ? neg.ckType : 1`. -/
def ckTypeOr (neg : Option Neg) : ℕ :=
  match neg with
  | some neg => neg.ckType
  | none => 1

/-- The packet of `fail` when the peer is told. -/
def errorPacket (seq : ℕ) (msg : JsString) (neg : Option Neg) : List Byte :=
  buildPacket seq PacketType.E ((strBytes msg).take 80) (ckTypeOr neg)

/-! ## Sender -/

/-- A typed array: its length is an exact integer of the language. -/
structure Uint8Array where
  bytes : List Byte
  length_lt : bytes.length < 2 ^ 53

structure SenderOptions where
  name : JsString
  data : Uint8Array
  timeout : ℕ

/-- What `onAck` of the running exchange goes on with. -/
inductive Stage
  | init
  | file
  | attr
  | data (next : ℕ)
  | eof
  | brk
  deriving DecidableEq, Repr

/-- The variables of `exchange`. -/
structure Exchange where
  type : Byte
  pkt : List Byte
  ckType : ℕ
  tries : ℕ
  stage : Stage
  deriving DecidableEq, Repr

structure Sender where
  listening : Bool
  done : Bool
  timer : Bool
  waiting : Option Exchange
  neg : Option Neg
  seq : ℕ
  parser : Parser

inductive SenderEffect
  | write (bytes : List Byte)
  | progress (sent total : ℕ)
  | complete (ok : Bool) (msg : Option JsString)
  deriving DecidableEq, Repr

def createSender : Sender where
  listening := false
  done := false
  timer := false
  waiting := none
  neg := none
  seq := 0
  parser := createParser

namespace Sender

def finish (s : Sender) : Sender :=
  { s with done := true, waiting := none, timer := false, listening := false }

def fail (s : Sender) (msg : JsString) (notifyPeer : Bool) : Sender × List SenderEffect :=
  if s.done then (s, [])
  else
    (s.finish,
      (if notifyPeer then [.write (errorPacket s.seq msg s.neg)] else []) ++
        [.complete false (some msg)])

/-- `send` of the exchange `x`: one more try. -/
def send (s : Sender) (x : Exchange) : Sender × List SenderEffect :=
  if s.done then (s, [])
  else if x.tries + 1 > MAX_RETRIES then
    s.fail (lit "No response from receiver (" ++ [x.type.toUInt16] ++ lit " packet)") true
  else
    ({ s with waiting := some { x with tries := x.tries + 1 }, timer := true }, [.write x.pkt])

/-- Sends one packet and waits for its acknowledgement. -/
def exchange (s : Sender) (type : Byte) (payload : List Byte) (ckType : ℕ) (stage : Stage) :
    Sender × List SenderEffect :=
  s.send
    { type := type, pkt := buildPacket s.seq type payload ckType, ckType := ckType, tries := 0,
      stage := stage }

variable (o : SenderOptions)

def sendInit (s : Sender) : Sender × List SenderEffect :=
  s.exchange PacketType.S (initParams (sessionTimeout o.timeout)) 1 .init

def sendFile (s : Sender) (neg : Neg) : Sender × List SenderEffect :=
  s.exchange PacketType.F
    (encodeChunk (strBytes (baseName o.name)) 0 (dataRoom neg).toNat neg.quote).bytes
    neg.ckType .file

def sendEof (s : Sender) (neg : Neg) : Sender × List SenderEffect :=
  s.exchange PacketType.Z [] neg.ckType .eof

def sendData (s : Sender) (neg : Neg) (pos : ℕ) : Sender × List SenderEffect :=
  if pos ≥ o.data.bytes.length then s.sendEof neg
  else
    let chunk := encodeChunk o.data.bytes pos (dataRoom neg).toNat neg.quote
    s.exchange PacketType.D chunk.bytes neg.ckType (.data chunk.next)

/-- The attribute `1`, the length in bytes. -/
def attrs : List Byte :=
  let size := decimal o.data.bytes.length
  [0x31, tochar size.length] ++ strBytes size

def afterFile (s : Sender) (neg : Neg) : Sender × List SenderEffect :=
  if neg.attr then s.exchange PacketType.A (attrs o) neg.ckType .attr
  else s.sendData o neg 0

/-- `onAck` of the exchange, once `neg` is there. -/
def onAck (s : Sender) (neg : Neg) (stage : Stage) (d : List Byte) : Sender × List SenderEffect :=
  match stage with
  | .init => s.sendFile o neg
  | .file => s.afterFile o neg
  | .attr =>
      if d.head? = some 0x4e then s.fail (lit "Receiver refused the file") true
      else s.sendData o neg 0
  | .data next =>
      if d.head? = some 0x58 ∨ d.head? = some 0x5a then
        s.fail (lit "Receiver cancelled the transfer") false
      else
        let r := s.sendData o neg next
        (r.1, .progress next o.data.bytes.length :: r.2)
  | .eof => s.exchange PacketType.B [] neg.ckType .brk
  | .brk => (s.finish, [.complete true none])

/-- The parameters in force in `onAck`: those of the peer once the `S` is acknowledged.
Only that first exchange runs without any. -/
def negFor (s : Sender) (stage : Stage) (d : List Byte) : Option Neg :=
  match stage with
  | .init => some (negotiate d)
  | _ => s.neg

def ack (s : Sender) (x : Exchange) (d : List Byte) : Sender × List SenderEffect :=
  let s := { s with waiting := none, timer := false, seq := (s.seq + 1) &&& 63 }
  match s.negFor x.stage d with
  | some neg => { s with neg := some neg }.onAck o neg x.stage d
  | none => (s, [])

/-- The data of a packet from the peer, if the block check is right. -/
def check (x : Exchange) (p : Packet) : Option (List Byte) :=
  match p.data (if x.type = PacketType.S then 1 else x.ckType) with
  | some d => some d
  | none => if p.type = PacketType.E then p.data 1 else none

/-- `onPacket` of the exchange, for a packet whose block check is right. -/
def react (s : Sender) (x : Exchange) (p : Packet) (d : List Byte) : Sender × List SenderEffect :=
  if p.type = PacketType.E then
    s.fail (lit "Receiver aborted: " ++ bytesStr (decode (quoteOr s.neg) d)) false
  else if p.type = PacketType.N then
    -- NAK of the next packet = ACK of this one.
    if p.seq.toNat = (s.seq + 1) &&& 63 then s.ack o x []
    else if p.seq.toNat = s.seq then s.send x
    else (s, [])
  else if p.type = PacketType.Y ∧ p.seq.toNat = s.seq then s.ack o x d
  else (s, [])

def onPacket (s : Sender) (x : Exchange) (p : Packet) : Sender × List SenderEffect :=
  match check x p with
  | some d => s.react o x p d
  | none => (s, [])

/-- The parser's callback. -/
def handle (s : Sender) (p : Packet) : Sender × List SenderEffect :=
  match s.waiting with
  | some x => if s.done then (s, []) else s.onPacket o x p
  | none => (s, [])

def start (s : Sender) : Sender × List SenderEffect :=
  { s with listening := true }.sendInit o

def cancel (s : Sender) : Sender × List SenderEffect :=
  s.fail (lit "Cancelled by sender") true

def timeout (s : Sender) : Sender × List SenderEffect :=
  let s := { s with timer := false }
  match s.waiting with
  | some x => s.send x
  | none => (s, [])

def deliver (s : Sender) (bytes : List Byte) : Sender × List SenderEffect :=
  if s.listening ∧ ¬ s.done then
    let r := s.parser.feed bytes
    Mealy.run (handle o) { s with parser := r.1 } r.2
  else (s, [])

end Sender

/-! ## Receiver -/

structure Receiver where
  listening : Bool
  done : Bool
  timer : Bool
  waiting : Bool
  neg : Option Neg
  expected : ℕ
  lastAck : Option (List Byte)
  tries : ℕ
  fileName : JsString
  fileSize : ℤ
  exactSize : ℤ
  chunks : List (List Byte)
  received : ℕ
  gotEof : Bool
  parser : Parser
  /-- The packets at the front of the parser's buffer, when an exception has left `feed`. -/
  unread : List Packet
  /-- The parser of `linger` and its `prev`, while it listens. -/
  lingering : Option (Parser × ℕ)

inductive ReceiverEffect
  | write (bytes : List Byte)
  | fileStart (name : JsString) (size : ℤ)
  | progress (received : ℕ) (size : ℤ)
  | complete (ok : Bool) (data : Option (List Byte)) (msg : Option JsString)
      (name : Option JsString)
  /-- An exception leaves the call. -/
  | throws
  deriving DecidableEq, Repr

def createReceiver : Receiver where
  listening := false
  done := false
  timer := false
  waiting := false
  neg := none
  expected := 0
  lastAck := none
  tries := 0
  fileName := []
  fileSize := -1
  exactSize := -1
  chunks := []
  received := 0
  gotEof := false
  parser := createParser
  unread := []
  lingering := none

/-- `decode(d, neg)`; it throws when `neg` is `null` and there is something to decode. -/
def decodeWith (neg : Option Neg) (d : List Byte) : Option (List Byte) :=
  match neg with
  | some neg => some (decode neg.quote d)
  | none => if d = [] then some [] else none

/-- The loop of `parseAttrs`: the sizes after the attributes in `d`; `none` is `NaN`. -/
def attrLoop (fileSize exactSize : Option ℤ) : List Byte → Option ℤ × Option ℤ
  | tag :: len :: rest =>
      let val := bytesStr (rest.take (unchar len).toNat)
      let next := rest.drop (unchar len).toNat
      if tag = 0x31 then attrLoop (parseInt val) (parseInt val) next
      else if tag = 0x21 ∧ exactSize.any (· < 0) then
        attrLoop ((parseInt val).map (· * 1024)) exactSize next
      else attrLoop fileSize exactSize next
  | _ => (fileSize, exactSize)
termination_by d => d.length
decreasing_by
  all_goals
    simp only [List.length_drop, List.length_cons]
    omega

namespace Receiver

def ckType (r : Receiver) : ℕ := ckTypeOr r.neg

def finishSession (r : Receiver) : Receiver :=
  { r with done := true, waiting := false, timer := false, listening := false }

def fail (r : Receiver) (msg : JsString) (notifyPeer : Bool) : Receiver × List ReceiverEffect :=
  if r.done then (r, [])
  else
    (r.finishSession,
      (if notifyPeer then [.write (errorPacket r.expected msg r.neg)] else []) ++
        [.complete false none (some msg) none])

def sendAck (r : Receiver) (seq : ℕ) (payload : List Byte) (ck : ℕ) :
    Receiver × List ReceiverEffect :=
  let pkt := buildPacket seq PacketType.Y payload ck
  ({ r with lastAck := some pkt }, [.write pkt])

def nak (r : Receiver) : List Byte := buildPacket r.expected PacketType.N [] r.ckType

def wait (r : Receiver) : Receiver := { r with waiting := true, timer := true }

def timeout (r : Receiver) : Receiver × List ReceiverEffect :=
  let r := { r with timer := false }
  if r.done ∨ ¬ r.waiting then (r, [])
  else
    let r := { r with tries := r.tries + 1 }
    if r.tries > MAX_RETRIES then r.fail (lit "No data from sender") true
    else (r.wait, [.write (r.lastAck.getD r.nak)])

def parseAttrs (r : Receiver) (d : List Byte) : Receiver :=
  let sizes := attrLoop (some r.fileSize) (some r.exactSize) d
  { r with fileSize := sizes.1.getD (-1), exactSize := sizes.2.getD (-1) }

def prev (r : Receiver) : ℕ := (r.expected + 63) &&& 63

/-- Keeps answering repeats with the last acknowledgement for a while. -/
def linger (r : Receiver) : Receiver :=
  { r with waiting := false, timer := false, done := true, listening := false,
           lingering := some (createParser, r.prev) }

def finish (r : Receiver) : Receiver × List ReceiverEffect :=
  if ¬ r.gotEof then r.fail (lit "Transfer ended before end of file") false
  else
    let out := r.chunks.flatten
    if r.exactSize ≥ 0 ∧ (out.length : ℤ) ≠ r.exactSize then
      (r.linger, [.complete false none (some (lit "Size mismatch: got " ++ decimal out.length ++
        lit " of " ++ decimal r.exactSize.toNat ++ lit " bytes")) none])
    else (r.linger, [.complete true (some out) none (some r.fileName)])

/-- The end of `onPacket` after a packet was accepted: its acknowledgement, and on to the
next. -/
def proceed (r : Receiver) (seq : ℕ) (payload : List Byte) (ck : ℕ) :
    Receiver × List ReceiverEffect :=
  let a := r.sendAck seq payload ck
  ({ a.1 with expected := (r.expected + 1) &&& 63 }.wait, a.2)

variable (timeoutMs : ℕ)

/-- The `switch` of `onPacket`. -/
def accept (r : Receiver) (seq : ℕ) (type : Byte) (d : List Byte) :
    Receiver × List ReceiverEffect :=
  if type = PacketType.S then
    -- ACK carries our parameters; check type 1 like the S itself.
    { r with neg := some (negotiate d) }.proceed seq (initParams (sessionTimeout timeoutMs)) 1
  else if type = PacketType.F then
    match r.neg with
    | none => (r, [])
    | some neg =>
        let name := bytesStr (decode neg.quote d)
        let fileName := if name = [] then lit "file" else name
        let a := { r with fileName := fileName }.proceed seq
          (encodeChunk (strBytes fileName) 0 60 neg.quote).bytes neg.ckType
        (a.1, .fileStart fileName r.fileSize :: a.2)
  else if type = PacketType.A then
    let r := r.parseAttrs d
    let a := r.proceed seq [0x59] r.ckType
    (a.1, .fileStart r.fileName r.fileSize :: a.2)
  else if type = PacketType.D then
    match decodeWith r.neg d with
    | none => (r, [.throws])
    | some bytes =>
        let r := { r with chunks := r.chunks ++ [bytes], received := r.received + bytes.length }
        let a := r.proceed seq [] r.ckType
        (a.1, .progress r.received r.fileSize :: a.2)
  else if type = PacketType.Z then
    let r := { r with gotEof := true }
    if d.head? = some 0x44 then
      let a := r.sendAck seq [] r.ckType
      let f := a.1.fail (lit "Sender discarded the file") false
      (f.1, a.2 ++ f.2)
    else r.proceed seq [] r.ckType
  else if type = PacketType.B then
    let a := r.sendAck seq [] r.ckType
    let f := a.1.finish
    (f.1, a.2 ++ f.2)
  else
    -- Unknown packet type: refuse it so the sender stops.
    r.fail (lit "Unsupported Kermit packet '" ++ [type.toUInt16] ++ lit "'") true

/-- The data of a packet from the peer, if the block check is right. -/
def check (r : Receiver) (p : Packet) : Option (List Byte) :=
  match p.data (if p.type = PacketType.S then 1 else r.ckType) with
  | some d => some d
  | none => if p.type = PacketType.E ∨ p.type = PacketType.S then p.data 1 else none

/-- `onPacket` for a packet whose block check is right. -/
def react (r : Receiver) (p : Packet) (d : List Byte) : Receiver × List ReceiverEffect :=
  if p.type = PacketType.E then
    r.fail (lit "Sender aborted: " ++ bytesStr (decode (quoteOr r.neg) d)) false
  else if p.seq.toNat = r.prev ∧ r.lastAck.isSome ∧ p.seq.toNat ≠ r.expected then
    -- our ACK was lost: repeat it
    (r, r.lastAck.toList.map .write)
  else if p.seq.toNat ≠ r.expected then (r, [.write r.nak])
  else { r with tries := 0 }.accept timeoutMs p.seq.toNat p.type d

def onPacket (r : Receiver) (p : Packet) : Receiver × List ReceiverEffect :=
  match r.check p with
  | some d => r.react timeoutMs p d
  | none => (r, [.write r.nak])

/-- The parser's callback. -/
def handle (r : Receiver) (p : Packet) : Receiver × List ReceiverEffect :=
  if r.done ∨ ¬ r.waiting then (r, []) else r.onPacket timeoutMs p

/-- The callback of the parser of `linger`; it does not look at the block check. -/
def handleLinger (r : Receiver) (prev : ℕ) (p : Packet) : List ReceiverEffect :=
  if p.seq.toNat = prev ∨ p.type = PacketType.B ∨ p.type = PacketType.Z then
    r.lastAck.toList.map .write
  else []

def start (r : Receiver) : Receiver × List ReceiverEffect :=
  ({ r with listening := true }.wait, [.write (buildPacket 0 PacketType.N [] 1)])

def cancel (r : Receiver) : Receiver × List ReceiverEffect :=
  r.fail (lit "Cancelled by receiver") true

/-- The loop of the parser over the packets in its buffer, until an exception leaves it. -/
def handleAll (r : Receiver) : List Packet → Receiver × List ReceiverEffect
  | [] => ({ r with unread := [] }, [])
  | p :: rest =>
      let a := r.handle timeoutMs p
      if .throws ∈ a.2 then ({ a.1 with unread := rest }, a.2)
      else
        let b := a.1.handleAll rest
        (b.1, a.2 ++ b.2)

def deliver (r : Receiver) (bytes : List Byte) : Receiver × List ReceiverEffect :=
  match r.lingering with
  | some (parser, prev) =>
      let f := parser.feed bytes
      ({ r with lingering := some (f.1, prev) }, f.2.flatMap (r.handleLinger prev))
  | none =>
      if r.listening ∧ ¬ r.done then
        let f := r.parser.feed bytes
        handleAll timeoutMs { r with parser := f.1 } (r.unread ++ f.2)
      else (r, [])

/-- `linger` lets go of the port. -/
def stop (r : Receiver) : Receiver := { r with lingering := none }

end Receiver

end Kermit

end Voyager
