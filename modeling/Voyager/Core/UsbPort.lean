import Voyager.Library.Transition
import Voyager.Net.Serial

/-!
# The owner of the USB port

The file-transfer bridge has the port while `lora_serial` is set, the network mode while
`s_active` is set. The WebSocket worker sets the first, the serial task the second, and
each tests the flag of the other before it sets its own, with nothing that keeps the other
task from doing the same in between.
-/

namespace Voyager

open LoraProto

namespace UsbPort

/-- Where the worker stands in `handle_operations`. -/
inductive Worker
  | idle
  /-- The network mode was off, or `lora_serial` is to be cleared; it is written next. -/
  | setting (value : Bool)
  /-- About to send the mode to the page. -/
  | reporting
  deriving DecidableEq, Repr

/-- Where the serial task stands in `serial_to_lora`. -/
inductive SerialTask
  | top
  /-- The bridge was off when the pass began. -/
  | bridgeOff
  /-- Reads bytes into a LoRa frame. -/
  | bridging
  /-- Feeds bytes to the network mode. -/
  | feeding
  /-- Feeds bytes to Improv. -/
  | improv
  /-- `CMD_VOYAGER_NET_START` was answered, `net_enter` is called next. -/
  | starting
  /-- `net_enter` has seen the bridge off; it sets the mode next. -/
  | entering
  deriving DecidableEq, Repr

/-- What the worker tells the page. -/
inductive Reply
  | alert (msg : String)
  | serialMode (value : Bool)
  deriving DecidableEq, Repr

/-- What Improv answers to `CMD_VOYAGER_NET_START`. -/
inductive ImprovReply
  | netStart
  | errorUnknown
  deriving DecidableEq, Repr

structure State where
  board : Board
  worker : Worker
  serial : SerialTask
  replies : List Reply
  improvOut : List ImprovReply

inductive Action
  /-- The worker takes a command, up to its test of the network mode. -/
  | setSerialMode (flag : Bool)
  | fileTxStart
  | fileTxEnd
  | workerSet
  | workerReport
  /-- A pass of the serial task begins. -/
  | pass
  /-- With the bridge off it asks `net_active`. -/
  | choose
  | netFeed (env : Env) (c : Byte)
  | netPoll (env : Env)
  /-- A command that is no `CMD_VOYAGER_NET_START`, or part of one. -/
  | improvFeed
  /-- `CMD_VOYAGER_NET_START` is complete; `busy` is `s_busy`. -/
  | netStart (busy : Bool)
  | netEnterTest
  | netEnterSet (env : Env)
  /-- The bytes that have arrived are read. -/
  | passDone

/-- After `net_init`, with `lora_serial` as it was saved. -/
def boot (nodeId : NodeId) (nextSeq : Byte) (loraSerial : Bool) : State :=
  { board := { Board.init nodeId nextSeq with loraSerial }, worker := .idle, serial := .top,
    replies := [], improvOut := [] }

namespace State

/-- The worker's part of `handle_operations`. -/
def workerStep (s : State) (a : Action) : Option State :=
  match a, s.worker with
  | .setSerialMode flag, .idle =>
      if flag && s.board.net.active then
        some { s with
          worker := .reporting
          replies := s.replies ++
            [.alert "The serial port is in LoRa network mode (Voyager Link)."] }
      else some { s with worker := .setting flag }
  | .fileTxStart, .idle =>
      if s.board.net.active then
        some { s with
          worker := .reporting
          replies := s.replies ++
            [.alert
              "The serial port is in LoRa network mode (Voyager Link). Leave the network first."] }
      else some { s with worker := .setting true }
  | .fileTxEnd, .idle => some { s with worker := .setting false }
  | .workerSet, .setting value =>
      some { s with board.loraSerial := value, worker := .reporting }
  | .workerReport, .reporting =>
      some { s with worker := .idle, replies := s.replies ++ [.serialMode s.board.loraSerial] }
  | _, _ => none

/-- The serial task's part of `serial_to_lora`. -/
def serialStep (s : State) (a : Action) : Option State :=
  match a, s.serial with
  | .pass, .top => some { s with serial := if s.board.loraSerial then .bridging else .bridgeOff }
  | .choose, .bridgeOff =>
      some { s with serial := if s.board.net.active then .feeding else .improv }
  | .netFeed env c, .feeding => some { s with board := s.board.netFeed env c }
  | .netPoll env, .feeding => some { s with board := s.board.netPoll env, serial := .top }
  | .improvFeed, .improv => some s
  | .netStart busy, .improv =>
      if s.board.loraSerial || busy then
        some { s with improvOut := s.improvOut ++ [.errorUnknown] }
      else some { s with serial := .starting, improvOut := s.improvOut ++ [.netStart] }
  | .netEnterTest, .starting =>
      if s.board.loraSerial then
        some { s with serial := .improv, improvOut := s.improvOut ++ [.errorUnknown] }
      else some { s with serial := .entering }
  | .netEnterSet env, .entering =>
      some { s with
        board.net.dec := .reset
        board.net.lastRx := env.millis
        board.net.active := true
        serial := .improv }
  | .passDone, .bridging => some { s with serial := .top }
  | .passDone, .improv => some { s with serial := .top }
  | _, _ => none

def step (s : State) (a : Action) : Option State :=
  match a with
  | .setSerialMode _ | .fileTxStart | .fileTxEnd | .workerSet | .workerReport => s.workerStep a
  | .pass | .choose | .netFeed .. | .netPoll _ | .improvFeed | .netStart _ | .netEnterTest
  | .netEnterSet _ | .passDone => s.serialStep a

end State

open State

variable {s t : State} {a : Action}

/-- The worker has seen the network mode off and is about to set `lora_serial`. -/
def Worker.InWindow : Worker → Prop
  | .setting value => value = true
  | _ => False

instance : ∀ w : Worker, Decidable w.InWindow
  | .setting value => inferInstanceAs (Decidable (value = true))
  | .idle | .reporting => inferInstanceAs (Decidable False)

/-- The commands that set `lora_serial`. -/
def Action.takesBridge : Action → Bool
  | .setSerialMode flag => flag
  | .fileTxStart => true
  | _ => false

/-- The step is a test that the worker passes on its way to set `lora_serial`. -/
def WorkerPasses (s : State) (a : Action) : Prop :=
  a.takesBridge = true ∧ s.board.net.active = false

def Action.isNetEnterTest : Action → Bool
  | .netEnterTest => true
  | _ => false

/-- The step is the test that `net_enter` passes. -/
def SerialPasses (s : State) (a : Action) : Prop :=
  a.isNetEnterTest = true ∧ s.board.loraSerial = false

instance (s : State) (a : Action) : Decidable (WorkerPasses s a) :=
  inferInstanceAs (Decidable (_ ∧ _))

instance (s : State) (a : Action) : Decidable (SerialPasses s a) :=
  inferInstanceAs (Decidable (_ ∧ _))

/-- Neither task passes its test of the other's flag while the other one is between its own
test and the write of its flag. -/
structure Apart (s : State) (a : Action) : Prop where
  worker : WorkerPasses s a → s.serial ≠ .entering
  serial : SerialPasses s a → ¬ s.worker.InWindow

instance (s : State) (a : Action) : Decidable (Apart s a) :=
  decidable_of_iff ((WorkerPasses s a → s.serial ≠ .entering) ∧
      (SerialPasses s a → ¬ s.worker.InWindow))
    ⟨fun h => ⟨h.1, h.2⟩, fun h => ⟨h.1, h.2⟩⟩

/-- One owner, also when a task writes its flag next. -/
structure Inv (s : State) : Prop where
  owner : ¬ (s.board.loraSerial = true ∧ s.board.net.active = true)
  worker : s.worker.InWindow → s.board.net.active = false
  serial : s.serial = .entering → s.board.loraSerial = false
  apart : ¬ (s.worker.InWindow ∧ s.serial = .entering)

theorem inv_workerStep (h : Inv s) (hok : Apart s a) (hstep : s.workerStep a = some t) : Inv t := by
  unfold workerStep at hstep
  split at hstep
  · -- `SetSerialMode`
    rename_i flag hworker
    split at hstep
    · cases hstep
      exact ⟨h.owner, False.elim, h.serial, fun hboth => hboth.1⟩
    · rename_i hpass
      cases hstep
      have hactive : flag = true → s.board.net.active = false := by
        rintro rfl
        simpa using hpass
      refine ⟨h.owner, hactive, h.serial, ?_⟩
      rintro ⟨rfl : flag = true, hentering⟩
      exact hok.worker ⟨rfl, hactive rfl⟩ hentering
  · split at hstep
    · cases hstep
      exact ⟨h.owner, False.elim, h.serial, fun hboth => hboth.1⟩
    · rename_i hpass
      cases hstep
      have hactive : s.board.net.active = false := by simpa using hpass
      refine ⟨h.owner, fun _ => hactive, h.serial, ?_⟩
      rintro ⟨-, hentering⟩
      exact hok.worker ⟨rfl, hactive⟩ hentering
  · cases hstep
    exact ⟨h.owner, fun hwindow => absurd hwindow Bool.false_ne_true, h.serial,
      fun hboth => absurd hboth.1 Bool.false_ne_true⟩
  · -- the flag is written
    rename_i value hworker
    cases hstep
    cases value with
    | false => exact ⟨fun hboth => absurd hboth.1 Bool.false_ne_true, False.elim, fun _ => rfl,
        fun hboth => hboth.1⟩
    | true =>
        have hwindow : s.worker.InWindow := by
          rw [hworker]
          rfl
        have hactive := h.worker hwindow
        refine ⟨?_, False.elim, fun hentering => absurd ⟨hwindow, hentering⟩ h.apart,
          fun hboth => hboth.1⟩
        rintro ⟨-, hon⟩
        exact Bool.eq_false_iff.mp hactive hon
  · cases hstep
    exact ⟨h.owner, False.elim, h.serial, fun hboth => hboth.1⟩
  · cases hstep

theorem inv_serialStep (h : Inv s) (hok : Apart s a) (hstep : s.serialStep a = some t) :
    Inv t := by
  -- the steps that write neither flag and do not end between test and write
  have hkeep : ∀ u : State, Board.NetKept s.board u.board → u.worker = s.worker →
      u.serial ≠ .entering → Inv u := by
    intro u hboard hworker hserial
    refine ⟨?_, fun hwindow => ?_, fun hentering => absurd hentering hserial,
      fun hboth => hserial hboth.2⟩
    · rintro ⟨hbridge, hon⟩
      exact h.owner ⟨hboard.loraSerial ▸ hbridge, hboard.active hon⟩
    · rw [hworker] at hwindow
      rw [Bool.eq_false_iff]
      exact fun hon => absurd (hboard.active hon) (Bool.eq_false_iff.mp (h.worker hwindow))
  unfold serialStep at hstep
  split at hstep
  · cases hstep
    refine hkeep _ .refl rfl ?_
    split
    · exact SerialTask.noConfusion
    · exact SerialTask.noConfusion
  · cases hstep
    refine hkeep _ .refl rfl ?_
    split
    · exact SerialTask.noConfusion
    · exact SerialTask.noConfusion
  · rename_i env c hserial
    cases hstep
    refine hkeep _ (Board.netKept_netFeed c) rfl ?_
    rw [hserial]
    exact SerialTask.noConfusion
  · cases hstep
    exact hkeep _ Board.netKept_netPoll rfl SerialTask.noConfusion
  · cases hstep
    exact h
  · rename_i busy hserial
    split at hstep
    · cases hstep
      refine hkeep _ .refl rfl ?_
      rw [hserial]
      exact SerialTask.noConfusion
    · cases hstep
      exact hkeep _ .refl rfl SerialTask.noConfusion
  · split at hstep
    · cases hstep
      exact hkeep _ .refl rfl SerialTask.noConfusion
    · -- `net_enter` has seen the bridge off
      rename_i hoff
      cases hstep
      have hbridge : s.board.loraSerial = false := Bool.eq_false_iff.mpr hoff
      exact ⟨h.owner, h.worker, fun _ => hbridge, fun hboth => hok.serial ⟨rfl, hbridge⟩ hboth.1⟩
  · -- the mode is turned on
    rename_i env hserial
    cases hstep
    have hbridge := h.serial hserial
    refine ⟨?_, fun hwindow => absurd ⟨hwindow, hserial⟩ h.apart, SerialTask.noConfusion,
      fun hboth => SerialTask.noConfusion hboth.2⟩
    rintro ⟨hon, -⟩
    exact Bool.eq_false_iff.mp hbridge hon
  · cases hstep
    exact hkeep _ .refl rfl SerialTask.noConfusion
  · cases hstep
    exact hkeep _ .refl rfl SerialTask.noConfusion
  · cases hstep

theorem inv_step (h : Inv s) (hok : Apart s a) (hstep : s.step a = some t) : Inv t := by
  cases a with
  | setSerialMode | fileTxStart | fileTxEnd | workerSet | workerReport =>
      exact inv_workerStep h hok hstep
  | pass | choose | netFeed | netPoll | improvFeed | netStart | netEnterTest | netEnterSet
  | passDone => exact inv_serialStep h hok hstep

theorem inv_boot (nodeId : NodeId) (nextSeq : Byte) (loraSerial : Bool) :
    Inv (boot nodeId nextSeq loraSerial) where
  owner hboth := absurd hboth.2 Bool.false_ne_true
  worker hwindow := hwindow.elim
  serial hentering := SerialTask.noConfusion hentering
  apart hboth := hboth.1

/-- The bridge and the network mode do not both have the port. -/
def OneOwner (s : State) : Prop := ¬ (s.board.loraSerial = true ∧ s.board.net.active = true)

/-- In every run in which no task passes its test of the other's flag while the other one is
between its test and its write, the port has one owner. -/
theorem usb_port_one_owner (nodeId : NodeId) (nextSeq : Byte) (loraSerial : Bool)
    (as : List Action) (hok : Transition.Meets step Apart (boot nodeId nextSeq loraSerial) as)
    (s : State) (hrun : Transition.exec step (boot nodeId nextSeq loraSerial) as = some s) :
    OneOwner s :=
  (Transition.exec_invariant_of_meets (fun _ _ _ h hok hstep => inv_step h hok hstep)
    (inv_boot nodeId nextSeq loraSerial) hok hrun).owner

theorem eq_of_workerPasses (hpass : WorkerPasses s a) (hstep : s.step a = some t) :
    t = { s with worker := .setting true } := by
  obtain ⟨hbridge, hoff⟩ := hpass
  cases hworker : s.worker with
  | idle =>
      cases a with
      | setSerialMode flag =>
          obtain rfl : flag = true := hbridge
          simp only [step, workerStep, hworker, hoff, Bool.and_false, Bool.false_eq_true,
            if_false] at hstep
          exact (Option.some_inj.mp hstep).symm
      | fileTxStart =>
          simp only [step, workerStep, hworker, hoff, Bool.false_eq_true, if_false] at hstep
          exact (Option.some_inj.mp hstep).symm
      | _ => exact absurd hbridge Bool.false_ne_true
  | setting | reporting =>
      cases a with
      | setSerialMode | fileTxStart =>
          simp only [step, workerStep, hworker] at hstep
          cases hstep
      | _ => exact absurd hbridge Bool.false_ne_true

theorem eq_of_serialPasses (hpass : SerialPasses s a) (hstep : s.step a = some t) :
    t = { s with serial := .entering } := by
  obtain ⟨htest, hoff⟩ := hpass
  cases a with
  | netEnterTest =>
      cases hserial : s.serial with
      | starting =>
          simp only [step, serialStep, hserial, hoff, Bool.false_eq_true, if_false] at hstep
          exact (Option.some_inj.mp hstep).symm
      | _ =>
          simp only [step, serialStep, hserial] at hstep
          cases hstep
  | _ => exact absurd htest Bool.false_ne_true

theorem Worker.InWindow.eq {w : Worker} (h : w.InWindow) : w = .setting true := by
  cases w with
  | setting value => exact congrArg Worker.setting h
  | idle | reporting => exact False.elim h

/-- The condition cannot be less: when a step breaks it, both tasks are between their tests
and their writes, and when they go on the port has two owners. -/
theorem exists_two_owners_of_not_apart (hok : ¬ Apart s a) (hstep : s.step a = some t) :
    ∃ u, Transition.exec step t [.workerSet, .netEnterSet ⟨true, 0, 0⟩] = some u ∧
      ¬ OneOwner u := by
  have hboth : t.worker = .setting true ∧ t.serial = .entering := by
    by_contra hne
    refine hok ⟨fun hpass hentering => hne ?_, fun hpass hwindow => hne ?_⟩
    · rw [eq_of_workerPasses hpass hstep]
      exact ⟨rfl, hentering⟩
    · rw [eq_of_serialPasses hpass hstep]
      exact ⟨hwindow.eq, rfl⟩
  obtain ⟨hworker, hserial⟩ := hboth
  refine ⟨{ t with
    board := { t.board with
      loraSerial := true
      net := { t.board.net with dec := .reset, lastRx := 0, active := true } }
    worker := .reporting
    serial := .improv }, ?_, fun h => h ⟨rfl, rfl⟩⟩
  simp only [Transition.exec_cons, Transition.exec_nil, step, workerStep, hworker, serialStep,
    hserial, Option.bind_some]

/-! ## Two runs -/

/-- A transfer, and then the network mode. -/
def turnsRun : List Action :=
  [.fileTxStart, .workerSet, .workerReport, .pass, .passDone, .fileTxEnd, .workerSet,
    .workerReport, .pass, .choose, .netStart false, .netEnterTest, .netEnterSet ⟨true, 0, 0⟩,
    .fileTxStart, .workerReport]

/-- The transfer starts while `net_enter` is between its test and its write. -/
def overlappingRun : List Action :=
  [.pass, .choose, .netStart false, .netEnterTest, .fileTxStart, .netEnterSet ⟨true, 0, 0⟩,
    .workerSet]

/-- A node to run on. -/
def node : NodeId := ⟨0x0102, by decide, by decide⟩

theorem usb_port_one_owner_turnsRun :
    ∃ s, Transition.exec step (boot node 0 true) turnsRun = some s ∧ OneOwner s := by
  have hsome : ((Transition.exec step (boot node 0 true) turnsRun).map fun s =>
      s.board.net.active) = some true := by decide
  obtain ⟨s, hrun, -⟩ := Option.map_eq_some_iff.mp hsome
  exact ⟨s, hrun, usb_port_one_owner node 0 true turnsRun (by decide) s hrun⟩

theorem overlapping_run_two_owners :
    ¬ ∀ s, Transition.exec step (boot node 0 false) overlappingRun = some s → OneOwner s := by
  intro h
  have hsome : ((Transition.exec step (boot node 0 false) overlappingRun).map fun s =>
      s.board.loraSerial && s.board.net.active) = some true := by decide
  obtain ⟨s, hrun, hboth⟩ := Option.map_eq_some_iff.mp hsome
  rw [Bool.and_eq_true] at hboth
  exact h s hrun hboth

end UsbPort

end Voyager
