import Voyager.Library.StopAndWait
import Voyager.Kermit.RoundTrip
import Voyager.Kermit.Session

/-!
# A transfer over a lossy link

One sender and one receiver, joined by two channels that keep the order. A packet that is
written is in the channel until an event delivers it, loses it, or delivers damaged bytes
in its place; damage is what the block check of the side that reads it detects. The
events also start, cancel and time out either side, in any order, as often as the source
allows.
-/

namespace Voyager

namespace Kermit

/-- The calls of `onComplete`, with what says whether the transfer went well. -/
inductive Completion
  | sender (ok : Bool)
  | receiver (ok : Bool) (data : Option (List Byte))
  deriving DecidableEq, Repr

structure Transfer where
  sender : Sender
  receiver : Receiver
  senderStarted : Bool
  receiverStarted : Bool
  toReceiver : List (List Byte)
  toSender : List (List Byte)
  /-- The calls of `onComplete` so far, in order. -/
  log : List Completion

inductive TransferEvent
  | startSender
  | startReceiver
  | cancelSender
  | cancelReceiver
  | timeoutSender
  | timeoutReceiver
  | stopReceiver
  | deliverToSender
  | deliverToReceiver
  | loseToSender (i : ℕ)
  | loseToReceiver (i : ℕ)
  | damageToSender (bytes : List Byte)
  | damageToReceiver (bytes : List Byte)
  deriving DecidableEq, Repr

def SenderEffect.written : SenderEffect → Option (List Byte)
  | .write bytes => some bytes
  | _ => none

def SenderEffect.completion : SenderEffect → Option Completion
  | .complete ok _ => some (.sender ok)
  | _ => none

def ReceiverEffect.written : ReceiverEffect → Option (List Byte)
  | .write bytes => some bytes
  | _ => none

def ReceiverEffect.completion : ReceiverEffect → Option Completion
  | .complete ok data _ _ => some (.receiver ok data)
  | _ => none

/-- The block check rejects every packet the sender reads in these bytes. -/
def Sender.Detects (s : Sender) (bytes : List Byte) : Prop :=
  ∀ p ∈ (s.parser.feed bytes).2, ∀ x ∈ s.waiting, Sender.check x p = none

/-- The block check rejects every packet the receiver reads in these bytes. When the
transfer is over the receiver checks nothing, and any damage may come. -/
def Receiver.Detects (r : Receiver) (bytes : List Byte) : Prop :=
  r.lingering = none → ∀ p ∈ (r.parser.feed bytes).2, r.check p = none

instance (s : Sender) (bytes : List Byte) : Decidable (s.Detects bytes) :=
  inferInstanceAs (Decidable (∀ p ∈ _, ∀ x ∈ _, _))

instance (r : Receiver) (bytes : List Byte) : Decidable (r.Detects bytes) :=
  inferInstanceAs (Decidable (_ → ∀ p ∈ _, _))

namespace Transfer

def init : Transfer where
  sender := createSender
  receiver := createReceiver
  senderStarted := false
  receiverStarted := false
  toReceiver := []
  toSender := []
  log := []

/-- The sender did something: its packets go into the channel. -/
def withSender (t : Transfer) (a : Sender × List SenderEffect) : Transfer :=
  { t with sender := a.1,
           toReceiver := t.toReceiver ++ a.2.filterMap SenderEffect.written,
           log := t.log ++ a.2.filterMap SenderEffect.completion }

def withReceiver (t : Transfer) (a : Receiver × List ReceiverEffect) : Transfer :=
  { t with receiver := a.1,
           toSender := t.toSender ++ a.2.filterMap ReceiverEffect.written,
           log := t.log ++ a.2.filterMap ReceiverEffect.completion }

variable (o : SenderOptions) (timeoutMs : ℕ)

/-- One event; an event that cannot happen changes nothing. -/
def step (t : Transfer) : TransferEvent → Transfer
  | .startSender =>
      if t.senderStarted then t
      else { t with senderStarted := true }.withSender (t.sender.start o)
  | .startReceiver =>
      if t.receiverStarted then t
      else { t with receiverStarted := true }.withReceiver t.receiver.start
  | .cancelSender => t.withSender t.sender.cancel
  | .cancelReceiver => t.withReceiver t.receiver.cancel
  | .timeoutSender => if t.sender.timer then t.withSender t.sender.timeout else t
  | .timeoutReceiver => if t.receiver.timer then t.withReceiver t.receiver.timeout else t
  | .stopReceiver => { t with receiver := t.receiver.stop }
  | .deliverToSender =>
      match t.toSender with
      | [] => t
      | bytes :: rest => { t with toSender := rest }.withSender (t.sender.deliver o bytes)
  | .deliverToReceiver =>
      match t.toReceiver with
      | [] => t
      | bytes :: rest =>
          { t with toReceiver := rest }.withReceiver (t.receiver.deliver timeoutMs bytes)
  | .loseToSender i => { t with toSender := t.toSender.eraseIdx i }
  | .loseToReceiver i => { t with toReceiver := t.toReceiver.eraseIdx i }
  | .damageToSender bytes =>
      match t.toSender with
      | [] => t
      | _ :: rest =>
          if t.sender.Detects bytes then
            { t with toSender := rest }.withSender (t.sender.deliver o bytes)
          else t
  | .damageToReceiver bytes =>
      match t.toReceiver with
      | [] => t
      | _ :: rest =>
          if t.receiver.Detects bytes then
            { t with toReceiver := rest }.withReceiver (t.receiver.deliver timeoutMs bytes)
          else t

/-- The state after these events. -/
def run (events : List TransferEvent) : Transfer := events.foldl (step o timeoutMs) init

end Transfer

end Kermit

end Voyager
