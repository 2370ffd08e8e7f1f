import Voyager.Library.BoundedQueue
import Voyager.Lora.Dedup
import Voyager.Lora.Net
import Voyager.Net.Slip

/-!
# A board

The state that the radio tasks and the serial task of one board share: the queues
between them, the seq counter, the dedup table and the network mode of the USB port.
A call that allocates, reads the clock or the signal strength finds them in an `Env`.
-/

namespace Voyager

open LoraProto

/-- An item of `send_packets` or `recv_packets`. -/
structure QueueParam where
  type : Byte
  message : List Byte
  /-- `0`: sent by the device itself, no `tx_result`. -/
  id : UInt32
  deriving DecidableEq, Repr

/-- An item of `s_rx_q`: a packet that fits the array of the source. -/
structure NetRxItem where
  ip : List Byte
  length_le : ip.length ≤ NET_MAX_IP

structure Peer where
  node : UInt16
  rssi : Int16
  /-- `millis()` of the last frame, `0` for a free slot. -/
  seen : UInt32

abbrev NET_PEERS : ℕ := 8
abbrev SEND_QUEUE_DEPTH : ℕ := 20
abbrev RECV_QUEUE_DEPTH : ℕ := 20
abbrev SERIAL_QUEUE_DEPTH : ℕ := 20
abbrev ACK_QUEUE_DEPTH : ℕ := 4
abbrev NET_RX_QUEUE_DEPTH : ℕ := 8

/-- The network mode of the USB port. -/
structure NetSerial where
  dec : SlipDecoder 600
  active : Bool
  lastRx : UInt32
  tx : UInt32
  rx : UInt32
  drop : UInt32
  rxQ : BoundedQueue NetRxItem NET_RX_QUEUE_DEPTH
  peers : Fin NET_PEERS → Peer
  /-- When the board last reported a filling radio queue. -/
  lastBusy : UInt32

structure Board where
  nodeId : NodeId
  nextSeq : Byte
  sendPackets : BoundedQueue QueueParam SEND_QUEUE_DEPTH
  recvPackets : BoundedQueue QueueParam RECV_QUEUE_DEPTH
  serialPacketRec : BoundedQueue (List Byte) SERIAL_QUEUE_DEPTH
  /-- `(seq << 8) | value`, from the RX task to the TX task. -/
  ackQueue : BoundedQueue UInt16 ACK_QUEUE_DEPTH
  rxDedup : RxDedupMulti
  loraSerial : Bool
  net : NetSerial
  /-- What has been written to the USB port. -/
  usbOut : List Byte

/-- What a call finds outside the board's state: whether the heap has room for the item
it allocates, the clock, and the signal strength of the frame it handles. -/
structure Env where
  heap : Bool
  millis : UInt32
  rssi : ℤ

namespace NetSerial

/-- The network mode after `net_init`. -/
def init : NetSerial where
  dec := .reset
  active := false
  lastRx := 0
  tx := 0
  rx := 0
  drop := 0
  rxQ := .empty
  peers := fun _ => { node := 0, rssi := 0, seen := 0 }
  lastBusy := 0

end NetSerial

namespace Board

/-- A board after its start; the seq counter starts at a random value. -/
def init (nodeId : NodeId) (nextSeq : Byte) : Board where
  nodeId := nodeId
  nextSeq := nextSeq
  sendPackets := .empty
  recvPackets := .empty
  serialPacketRec := .empty
  ackQueue := .empty
  rxDedup := .empty
  loraSerial := false
  net := .init
  usbOut := []

/-- `take_seq`. -/
def takeSeq (b : Board) : Byte × Board :=
  (b.nextSeq, { b with nextSeq := b.nextSeq + 1 })

/-- `lora_net_send`: queue one packet for the radio. `none` where the source returns
`false`, which leaves the board as it was. -/
def loraNetSend (env : Env) (b : Board) (dst : UInt16) (ip : List Byte) : Option Board := do
  let message ← netBuild dst b.nodeId.id ip MAX_PAYLOAD
  if ¬ env.heap then none
  else
    let sendPackets ← b.sendPackets.send { type := T_NET, message, id := 0 }
    some { b with sendPackets }

end Board

/-- The frame `LoRa_send` hands to the radio, or `none` where it rejects the data. -/
def loRaSendFrame (data : List Byte) (type seq : Byte) : Option (List Byte) :=
  if data.length > MAX_PAYLOAD then none else framePacket type seq data MAX_FRAME

/-- The test of `send_with_retry` for a packet that nobody acknowledges. -/
def IsNetBroadcast (p : QueueParam) : Prop :=
  p.type = T_NET ∧ p.message.length ≥ 2 ∧
    word (byteAt p.message 0) (byteAt p.message 1) = NET_BROADCAST

instance (p : QueueParam) : Decidable (IsNetBroadcast p) :=
  inferInstanceAs (Decidable (_ ∧ _ ∧ _))

end Voyager
