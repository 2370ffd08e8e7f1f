import Voyager.Basic
import Voyager.Library.Transition

/-!
# File transfer on the page

`serialTransfer` in `script.js`: one page sends or receives a file over the serial port after
a handshake over the radio. The page runs one handler at a time, and what a handler waits for
(the file that is read, a timer, the outcome of a message) is a callback that fires later. A
callback is never withdrawn: it only looks at `transferActive` when it fires.

Every transfer of the page is numbered here, and a callback carries the transfer that it was
made for. The code has no such number.
-/

namespace Voyager

namespace Web

namespace SerialTransfer

/-! ## The page -/

structure File where
  name : List Byte
  data : List Byte
  deriving DecidableEq, Repr

/-- A transfer that this page has started, with the file it sends; a receiver has none. -/
structure Transfer where
  number : ℕ
  file : Option File
  deriving DecidableEq, Repr

inductive Role
  | sender
  | receiver
  deriving DecidableEq, Repr

structure Participant where
  name : List Byte
  mac : List Byte
  nonce : List Byte
  deriving DecidableEq, Repr

structure Invitation where
  txId : List Byte
  sender : List Byte
  mac : List Byte
  fileName : List Byte
  size : ℕ
  deriving DecidableEq, Repr

structure Joined where
  txId : List Byte
  nonce : List Byte
  inv : Invitation
  deriving DecidableEq, Repr

/-- The parts of `file_transfer.html` that are hidden or disabled. -/
structure Dom where
  roleDisabled : Bool
  senderHidden : Bool
  receiverHidden : Bool
  progressHidden : Bool
  resultHidden : Bool
  downloadHidden : Bool
  deriving DecidableEq, Repr

/-- `file_transfer.html` as it is loaded. -/
def Dom.loaded : Dom :=
  { roleDisabled := true
    senderHidden := true
    receiverHidden := true
    progressHidden := true
    resultHidden := true
    downloadHidden := true }

/-! ## What the page waits for -/

/-- A message of the handshake, with what the callback of `lora_tx_retry` has captured. -/
inductive Handshake
  | join (txId nonce : List Byte)
  | go (transfer : Transfer) (p : Participant) (data txId : List Byte)
  deriving DecidableEq, Repr

inductive Callback
  /-- A `FileReader` reads the file. -/
  | fileReader (transfer : Transfer) (p : Participant) (file : File)
  /-- The board turns its bridge on, before the sender asks its participant to start. -/
  | settleSender (transfer : Transfer) (p : Participant) (data : List Byte)
  /-- The same, before the receiver starts. -/
  | settleReceiver (transfer : Transfer)
  /-- A message that `lora_tx` has sent, and how often it may be repeated. -/
  | loraTx (m : Handshake) (retries : ℕ)
  /-- The pause before it is repeated. -/
  | retryTimer (m : Handshake) (retries : ℕ)
  deriving DecidableEq, Repr

/-- The result that `lora_tx` gives, of a device or of its own timeout. -/
structure TxResult where
  ok : Bool
  fatal : Bool
  deriving DecidableEq, Repr

/-- How a callback fires. -/
inductive Outcome
  | read (ok : Bool)
  | elapsed
  | tx (r : TxResult)
  deriving DecidableEq, Repr

def Handshake.transfer : Handshake → Option Transfer
  | join .. => none
  | go transfer .. => some transfer

/-- The transfer that a callback was made for. -/
def Callback.transfer : Callback → Option Transfer
  | fileReader transfer .. | settleSender transfer .. | settleReceiver transfer => some transfer
  | loraTx m _ | retryTimer m _ => m.transfer

/-- A Kermit session that was started and has not completed. `sends` is the name and the
bytes that `createSender` was given. -/
structure Session where
  id : ℕ
  transfer : Transfer
  sends : Option (List Byte × List Byte)
  deriving DecidableEq, Repr

/-- What happens in a run. A cause is the transfer whose callback was at work, and none for
the user, the serial port and a page that is entered. -/
inductive Event
  | fileTxStart
  | fileTxEnd
  /-- The device has reported the acknowledgement of the `file_tx_go` of a transfer. -/
  | goAcked (transfer : Transfer)
  /-- A session was started for `cause` while the transfer `active` was active. -/
  | started (active cause : Transfer) (sends : Option (List Byte × List Byte))
  | ended (active : Transfer) (cause : Option Transfer)
  deriving DecidableEq, Repr

/-- `dom` is none while another page is shown, and `current` is the last transfer that was
started. -/
structure State where
  connected : Bool
  transferActive : Bool
  role : Role
  kermitInstance : Option ℕ
  selectedFile : Option File
  txId : List Byte
  participants : List Participant
  chosenNonce : List Byte
  invitations : List Invitation
  joined : Option Joined
  receivedData : Option (List Byte)
  dom : Option Dom
  pending : List Callback
  sessions : List Session
  nextSession : ℕ
  current : Transfer
  log : List Event
  deriving DecidableEq, Repr

/-- A page that was just loaded. -/
def State.opened : State :=
  { connected := false
    transferActive := false
    role := .sender
    kermitInstance := none
    selectedFile := none
    txId := []
    participants := []
    chosenNonce := []
    invitations := []
    joined := none
    receivedData := none
    dom := none
    pending := []
    sessions := []
    nextSession := 0
    current := ⟨0, none⟩
    log := [] }

/-- The fields of a `lora_rx` message that the handlers use. -/
structure LoraMsg where
  txId : List Byte
  nonce : List Byte
  sender : List Byte
  mac : List Byte
  fileName : List Byte
  size : ℕ
  deriving DecidableEq, Repr

inductive LoraAction
  | fileTxInvite
  | fileTxJoin
  | fileTxGo
  deriving DecidableEq, Repr

namespace State

/-- The callback `c` will fire. -/
def await (s : State) (c : Callback) : State := { s with pending := s.pending ++ [c] }

def note (s : State) (e : Event) : State := { s with log := e :: s.log }

def chosenParticipant (s : State) : Option Participant :=
  s.participants.find? fun p => p.nonce = s.chosenNonce

def updateUI (s : State) : State :=
  { s with
    dom := s.dom.map fun d =>
      let busy := s.transferActive || !d.resultHidden
      { d with
        roleDisabled := !s.connected || s.transferActive
        senderHidden := busy || !s.connected || s.role != .sender
        receiverHidden := busy || !s.connected || s.role != .receiver } }

/-- `showProgressStep`, which throws while another page is shown. -/
def showProgressStep (s : State) : Option State :=
  s.dom.map fun d =>
    { s with
      dom := some
        { d with
          roleDisabled := true
          senderHidden := true
          receiverHidden := true
          resultHidden := true
          progressHidden := false } }

/-! ## Transfers and Kermit sessions -/

/-- A transfer becomes the active one. -/
def activate (s : State) (file : Option File) : State :=
  { s with transferActive := true, current := ⟨s.current.number + 1, file⟩, receivedData := none }

/-- `createSender` or `createReceiver`, and `start()`. -/
def startSession (s : State) (cause : Transfer) (sends : Option (List Byte × List Byte)) : State :=
  { s with
    sessions := s.sessions ++ [⟨s.nextSession, cause, sends⟩]
    kermitInstance := some s.nextSession
    nextSession := s.nextSession + 1
    log := .started s.current cause sends :: s.log }

/-- `endTransfer` after its first line. -/
def endActive (s : State) (success : Bool) (cause : Option Transfer) : State :=
  { s with
    kermitInstance := none
    transferActive := false
    joined := none
    dom := s.dom.map fun d =>
      { d with
        progressHidden := true
        resultHidden := false
        downloadHidden := !(success && s.receivedData.isSome) }
    log := if s.transferActive then .fileTxEnd :: .ended s.current cause :: s.log else s.log }

/-- `onComplete` of a session, which is done before it calls it. -/
def onComplete (s : State) (cause : Option Transfer) (k : Session) (ok : Bool)
    (data : Option (List Byte)) : State :=
  let s := { s with sessions := s.sessions.filter fun k' => k'.id ≠ k.id, kermitInstance := none }
  match k.sends with
  | some _ => s.endActive ok cause
  | none =>
      let s := { s with receivedData := if ok && data.isSome then data else s.receivedData }
      s.endActive (ok && data.isSome) cause

/-- `kermitInstance.cancel()`, which does nothing for a session that is done. -/
def cancelKermit (s : State) (cause : Option Transfer) : State :=
  match s.kermitInstance.bind fun id => s.sessions.find? fun k => k.id = id with
  | some k => s.onComplete cause k false none
  | none => s

def endTransfer (s : State) (success cancel : Bool) (cause : Option Transfer) : State :=
  (if cancel then s.cancelKermit cause else s).endActive success cause

def startTransfer (s : State) : State :=
  match s.selectedFile, s.chosenParticipant with
  | some file, some p =>
      if !s.connected || s.transferActive then s
      else
        let s := s.activate (some file)
        match s.showProgressStep with
        | some s => s.await (.fileReader s.current p file)
        | none => s
  | _, _ => s

/-- `startReceiving`, up to the exception when another page is shown. -/
def startReceiving (s : State) : State :=
  let s := s.activate none
  match s.showProgressStep with
  | some s => (s.note .fileTxStart).await (.settleReceiver s.current)
  | none => s

def resetTransfer (s : State) : State :=
  let s : State :=
    { s with
      txId := []
      participants := []
      chosenNonce := []
      invitations := []
      joined := none
      receivedData := none
      dom := s.dom.map fun d =>
        { d with resultHidden := true, progressHidden := true, downloadHidden := true } }
  s.updateUI

/-- `init`, on the page that was just loaded. -/
def init (s : State) : State :=
  let s := cancelKermit { s with dom := some Dom.loaded } none
  { s with
    kermitInstance := none
    connected := false
    transferActive := false
    role := .sender
    selectedFile := none
    txId := []
    participants := []
    chosenNonce := []
    joined := none
    receivedData := none
    log := if s.transferActive then .ended s.current none :: s.log else s.log }.updateUI

/-! ## The handshake -/

def onInvite (s : State) (msg : LoraMsg) : State :=
  if msg.txId = [] || s.invitations.any fun inv => inv.txId = msg.txId then s
  else
    let fileName := if msg.fileName = [] then ascii "file" else msg.fileName
    let inv : Invitation := ⟨msg.txId, msg.sender, msg.mac, fileName, msg.size⟩
    { s with invitations := s.invitations ++ [inv] }.updateUI

def onJoin (s : State) (msg : LoraMsg) : State :=
  if s.txId = [] || msg.txId ≠ s.txId || msg.nonce = [] || s.transferActive then s
  else if s.participants.any fun p => p.nonce = msg.nonce then s
  else
    let p : Participant := ⟨msg.sender, msg.mac, msg.nonce⟩
    { s with
      participants := s.participants ++ [p]
      chosenNonce := if s.chosenNonce = [] then msg.nonce else s.chosenNonce }.updateUI

def onGo (s : State) (msg : LoraMsg) : State :=
  match s.joined with
  | none => s
  | some joined =>
      if msg.txId ≠ joined.txId || s.transferActive then s
      else if msg.nonce ≠ joined.nonce then { s with joined := none }.updateUI
      else s.startReceiving

def handleLoraAction (s : State) : LoraAction → LoraMsg → State
  | .fileTxInvite => s.onInvite
  | .fileTxJoin => s.onJoin
  | .fileTxGo => s.onGo

/-- `acceptInvitation`, where `nonce` is the random id. -/
def acceptInvitation (s : State) (inv : Invitation) (nonce : List Byte) : State :=
  if !s.connected then s
  else
    ({ s with joined := some ⟨inv.txId, nonce, inv⟩ }.updateUI).await
      (.loraTx (.join inv.txId nonce) 2)

/-- `isCancelled` of a call of `lora_tx_retry`; a join has none. -/
def isCancelled (s : State) : Handshake → Bool
  | .join .. => false
  | .go .. => !s.transferActive

/-- The callback of `lora_tx_retry`. The name of the file is read only now. -/
def answered (s : State) (ok : Bool) : Handshake → State
  | .join _ nonce =>
      if (s.joined.any fun joined => joined.nonce = nonce) && !s.transferActive && !ok then
        { s with joined := none }.updateUI
      else s
  | .go transfer _ data _ =>
      let s := if ok then s.note (.goAcked transfer) else s
      if !s.transferActive then s
      else if !ok then s.endTransfer false false (some transfer)
      else
        match s.selectedFile with
        | some file => s.startSession transfer (some (file.name, data))
        | none => s

/-- `lora_tx_retry`, when `lora_tx` has its result. -/
def loraTxRetry (s : State) (m : Handshake) (retries : ℕ) (r : TxResult) : State :=
  if r.ok || r.fatal || retries = 0 then s.answered r.ok m
  else if s.isCancelled m then s.answered false m
  else s.await (.retryTimer m retries)

/-- A callback fires, if it fires in this way. -/
def fire (s : State) : Callback → Outcome → Option State
  | .fileReader transfer p file, .read ok =>
      if !ok then some (s.endTransfer false false (some transfer))
      else if !s.transferActive then some s
      else some ((s.note .fileTxStart).await (.settleSender transfer p file.data))
  | .settleSender transfer p data, .elapsed =>
      if !s.transferActive then some s
      else some (s.await (.loraTx (.go transfer p data s.txId) 2))
  | .settleReceiver transfer, .elapsed =>
      if !s.transferActive then some s else some (s.startSession transfer none)
  | .loraTx m retries, .tx r => some (s.loraTxRetry m retries r)
  | .retryTimer m retries, .elapsed => some (s.await (.loraTx m (retries - 1)))
  | _, _ => none

end State

/-! ## Runs -/

/-- A user can act only on what is shown. -/
inductive Action
  /-- `file_transfer.html` is loaded and `init` runs. -/
  | enterPage
  | leavePage
  /-- `transport.open` in `connect`, and whether it was successful. -/
  | opened (ok : Bool)
  /-- `transport.onClose`. -/
  | linkLost
  | disconnect
  /-- A handler that has waited for something else refreshes the page. -/
  | refresh
  | setRole (role : Role)
  | selectFile (file : Option File)
  /-- `sendInvitation`, where `txId` is the random id. -/
  | invite (txId : List Byte)
  | choose (nonce : List Byte)
  | start
  | cancel
  | reset
  | accept (inv : Invitation) (nonce : List Byte)
  | loraRx (action : LoraAction) (msg : LoraMsg)
  /-- The callback at this place fires. -/
  | callback (i : ℕ) (o : Outcome)
  /-- A session completes by itself. -/
  | completed (id : ℕ) (ok : Bool) (data : Option (List Byte))
  deriving DecidableEq, Repr

namespace State

def step (s : State) : Action → Option State
  | .enterPage => some s.init
  | .leavePage => some { s with dom := none }
  | .opened ok => some { s with connected := ok }.updateUI
  | .linkLost =>
      if !s.connected then some s
      else
        let s := { s with connected := false }
        some (if s.transferActive then s.endTransfer false true none else s).updateUI
  | .disconnect =>
      if s.dom.isNone then none
      else
        let s := if s.transferActive then s.endTransfer false true none else s
        some { s with connected := false }
  | .refresh => some s.updateUI
  | .setRole role =>
      if s.dom.all Dom.roleDisabled then none else some { s with role }.updateUI
  | .selectFile file =>
      if s.dom.all Dom.senderHidden then none
      else some { s with selectedFile := file, txId := [], participants := [], chosenNonce := [] }.updateUI
  | .invite txId =>
      if s.dom.all Dom.senderHidden then none
      else if s.selectedFile.isNone || !s.connected then some s
      else some { s with txId, participants := [], chosenNonce := [] }
  | .choose nonce =>
      if s.dom.all Dom.senderHidden then none else some { s with chosenNonce := nonce }.updateUI
  | .start => if s.dom.all Dom.senderHidden then none else some s.startTransfer
  | .cancel => if s.dom.all Dom.progressHidden then none else some (s.endTransfer false true none)
  | .reset => if s.dom.all Dom.resultHidden then none else some s.resetTransfer
  | .accept inv nonce =>
      if s.dom.all Dom.receiverHidden then none else some (s.acceptInvitation inv nonce)
  | .loraRx action msg => some (s.handleLoraAction action msg)
  | .callback i o =>
      s.pending[i]?.bind fun c => { s with pending := s.pending.eraseIdx i }.fire c o
  | .completed id ok data =>
      (s.sessions.find? fun k => k.id = id).map fun k => s.onComplete (some k.transfer) k ok data

end State

end SerialTransfer

end Web

end Voyager
