import Mathlib.Logic.Function.Basic
import Voyager.Library.RecMutex
import Voyager.Library.Transition
import Voyager.Web.Ota

/-!
# The filesystem lock

`read_file` and `write_file_atomic` may be called from every task. An update of the
filesystem takes it offline under their lock and writes the partition without it; after the
last byte a task of its own mounts the new filesystem and writes the settings back, with the
lock held where it could get it.

Every step below is one test, one operation on the lock or one write of a flag, so a task may
be interrupted between any two of them. How long a wait for the lock takes is left open.
-/

namespace Voyager

namespace FsLock

open Web (Cmd OTA_KEEP_FILES)

/-- The task of the web server, the one that ends an update, and all others. -/
inductive Task (κ : Type*)
  | asyncTcp
  | otaFinish
  | other (k : κ)
  deriving DecidableEq

/-- Where a task stands in `read_file` or `write_file_atomic`; `maintainer` is the local
variable of `fs_enter`. -/
inductive Call
  | idle
  /-- At the test of `fs_mounted`. -/
  | mounted
  /-- At the test of `s_fs_mutex`. -/
  | created
  /-- About to ask `fs_lock_is_mine`. -/
  | mine
  /-- At the first test of `web_fs_offline`. -/
  | offline (maintainer : Bool)
  | take (maintainer : Bool)
  /-- At the second test of `web_fs_offline`. -/
  | again (maintainer : Bool)
  | give
  /-- Between a successful `fs_enter` and its `fs_leave`. -/
  | body
  deriving DecidableEq

/-- Where a task stands in the code of an update. -/
inductive Job
  | none
  -- `ota_upload`, for the first chunk of a filesystem image
  | begin
  | snapshot
  | store
  | release
  -- `ota_finish_task`
  | delay (cmd : Cmd)
  | lock (i : ℕ)
  | remount (locked : Bool)
  | restore (locked : Bool) (i : ℕ)
  | unlock (locked : Bool)
  | restart
  deriving DecidableEq

structure Pc where
  call : Call
  job : Job
  deriving DecidableEq

/-- The steps of `setup` that matter. -/
inductive Setup
  | fsLockInit
  | mount
  | done
  deriving DecidableEq

structure State (κ : Type*) where
  setup : Setup
  fsMounted : Bool
  /-- `s_fs_mutex` -/
  fsMutex : Option (RecMutex (Task κ))
  /-- `g_fs_offline` -/
  fsOffline : Bool
  otaOwner : Option Cmd
  otaRadioHeld : Bool
  otaFsDirty : Bool
  task : Task κ → Pc

inductive Action (κ : Type*)
  | fsLockInit (created : Bool)
  | mount (ok : Bool)
  /-- A task calls `read_file` or `write_file_atomic`. -/
  | access (t : Task κ)
  /-- Its next step in there; `got` is whether a wait for the lock was successful. -/
  | proceed (t : Task κ) (got : Bool)
  /-- An upload is admitted. -/
  | admitted (cmd : Cmd)
  | upload (got : Bool)
  /-- Bytes of a filesystem image are written to the partition. -/
  | write
  /-- `ota_abort_owner`. -/
  | abort
  /-- The last byte was written; `created` is whether the task that ends the update was
  created. -/
  | complete (created : Bool)
  /-- The next step of that task; `choice` is whether a wait was successful, the filesystem
  could be mounted, or there is a file to restore. -/
  | finish (choice : Bool)
  deriving DecidableEq

def boot (κ : Type*) : State κ where
  setup := .fsLockInit
  fsMounted := false
  fsMutex := none
  fsOffline := false
  otaOwner := none
  otaRadioHeld := false
  otaFsDirty := false
  task := fun _ => ⟨.idle, .none⟩

namespace State

variable {κ : Type*} [DecidableEq κ]

def setTask (s : State κ) (t : Task κ) (c : Call) (j : Job) : State κ :=
  { s with task := Function.update s.task t ⟨c, j⟩ }

/-- The steps of `read_file` and `write_file_atomic`, with `fs_enter` and `fs_leave`. -/
def proceed (s : State κ) (t : Task κ) (got : Bool) : Option (State κ) :=
  let j := (s.task t).job
  match (s.task t).call with
  | .idle => none
  | .mounted => some (if s.fsMounted then s.setTask t .created j else s.setTask t .idle j)
  | .created =>
      match s.fsMutex with
      | none => some (if s.fsOffline then s.setTask t .idle j else s.setTask t .body j)
      | some _ => some (s.setTask t .mine j)
  | .mine => s.fsMutex.map fun m => s.setTask t (.offline (m.holder = some t)) j
  | .offline maintainer =>
      some (if s.fsOffline && !maintainer then s.setTask t .idle j
        else s.setTask t (.take maintainer) j)
  | .take maintainer =>
      if got then
        s.fsMutex.bind fun m => (m.take t).map fun m =>
          { s.setTask t (.again maintainer) j with fsMutex := some m }
      else some (s.setTask t .idle j)
  | .again maintainer =>
      some (if s.fsOffline && !maintainer then s.setTask t .give j else s.setTask t .body j)
  | .give => some { s.setTask t .idle j with fsMutex := s.fsMutex.map fun m => m.give t }
  | .body => some { s.setTask t .idle j with fsMutex := s.fsMutex.map fun m => m.give t }

/-- `fs_maintenance_begin`: without a lock it is successful. -/
def fsMaintenanceBegin (s : State κ) (t : Task κ) : Option (State κ) :=
  match s.fsMutex with
  | none => some s
  | some m => (m.take t).map fun m => { s with fsMutex := some m }

/-- `fs_maintenance_end`. -/
def fsMaintenanceEnd (s : State κ) (t : Task κ) : State κ :=
  { s with fsMutex := s.fsMutex.map fun m => if m.holder = some t then m.give t else m }

/-- `ota_upload` with the first chunk of a filesystem image, up to `Update.begin`. -/
def upload (s : State κ) (got : Bool) : Option (State κ) :=
  match (s.task .asyncTcp).job with
  | .begin =>
      if got then (s.fsMaintenanceBegin .asyncTcp).map fun s => s.setTask .asyncTcp .idle .snapshot
      else
        some { s.setTask .asyncTcp .idle .none with otaOwner := none, otaRadioHeld := false }
  | .snapshot => some (s.setTask .asyncTcp .idle .store)
  | .store => some { s.setTask .asyncTcp .idle .release with fsOffline := true }
  | .release => some ((s.fsMaintenanceEnd .asyncTcp).setTask .asyncTcp .idle .none)
  | _ => none

/-- `ota_finish_task`. -/
def finish (s : State κ) (choice : Bool) : Option (State κ) :=
  match (s.task .otaFinish).job with
  | .delay cmd =>
      some (s.setTask .otaFinish .idle (if cmd = .spiffs then .lock 0 else .restart))
  | .lock i =>
      if choice then
        (s.fsMaintenanceBegin .otaFinish).map fun s => s.setTask .otaFinish .idle (.remount true)
      else some (s.setTask .otaFinish .idle (if i + 1 < 3 then .lock (i + 1) else .remount false))
  | .remount locked =>
      some (s.setTask .otaFinish .idle (if choice then .restore locked 0 else .unlock locked))
  | .restore locked i =>
      if i < OTA_KEEP_FILES.length then
        -- `write_file_atomic` for a file that was kept
        some (s.setTask .otaFinish (if choice then .mounted else .idle) (.restore locked (i + 1)))
      else some (s.setTask .otaFinish .idle (.unlock locked))
  | .unlock locked =>
      some ((if locked then s.fsMaintenanceEnd .otaFinish else s).setTask .otaFinish .idle .restart)
  | _ => none

/-- The web server is between two requests, or two chunks of one. -/
def ServerIdle (s : State κ) : Prop := s.task .asyncTcp = ⟨.idle, .none⟩

instance (s : State κ) : Decidable s.ServerIdle := inferInstanceAs (Decidable (_ = _))

def step (s : State κ) : Action κ → Option (State κ)
  | .fsLockInit created =>
      if s.setup = .fsLockInit then
        some { s with setup := .mount, fsMutex := if created then some .free else none }
      else none
  | .mount ok => if s.setup = .mount then some { s with setup := .done, fsMounted := ok } else none
  | .access t =>
      if t ≠ .otaFinish ∧ s.task t = ⟨.idle, .none⟩ then some (s.setTask t .mounted .none)
      else none
  | .proceed t got => s.proceed t got
  | .admitted cmd =>
      -- the server is started at the end of `setup`
      if s.setup = .done ∧ s.ServerIdle ∧ s.otaOwner = none ∧ s.otaRadioHeld = false then
        some { s.setTask .asyncTcp .idle (if cmd = .spiffs then .begin else .none) with
          otaOwner := some cmd, otaRadioHeld := true }
      else none
  | .upload got => if (s.task .asyncTcp).call = .idle then s.upload got else none
  | .write =>
      if s.ServerIdle ∧ s.otaOwner = some .spiffs then some { s with otaFsDirty := true } else none
  | .abort =>
      if s.ServerIdle ∧ s.otaOwner ≠ none then
        some { s with
          otaOwner := none
          otaRadioHeld := false
          fsOffline := if s.otaFsDirty then s.fsOffline else false }
      else none
  | .complete created =>
      if s.ServerIdle then
        s.otaOwner.map fun cmd =>
          { (if created then s.setTask .otaFinish .idle (.delay cmd) else s) with otaOwner := none }
      else none
  | .finish choice => if (s.task .otaFinish).call = .idle then s.finish choice else none

end State

/-! ## Who holds the lock -/

/-- `fs_enter` has taken the lock and nothing has given it back. -/
def Call.holds : Call → Bool
  | .again _ | .give | .body => true
  | .idle | .mounted | .created | .mine | .offline _ | .take _ => false

/-- What `fs_enter` has stored in `maintainer`. -/
def Call.maintainer : Call → Option Bool
  | .offline b | .take b | .again b => some b
  | .idle | .mounted | .created | .mine | .give | .body => none

/-- The task is between an `fs_maintenance_begin` that was successful and the
`fs_maintenance_end`. -/
def Job.maintains : Job → Bool
  | .snapshot | .store | .release => true
  | .remount locked | .restore locked _ | .unlock locked => locked
  | .none | .begin | .delay _ | .lock _ | .restart => false

/-- The task holds the lock through `fs_maintenance_begin`. -/
structure State.Maintains [DecidableEq κ] (s : State κ) (t : Task κ) : Prop where
  holder : s.fsMutex.bind RecMutex.holder = some t
  job : (s.task t).job.maintains = true

section Inv

variable {κ : Type*} [DecidableEq κ]

/-- A task has taken the lock as often as its place in the code says, and it is not inside
while the filesystem is offline unless it maintains it. -/
structure TaskOk (m : RecMutex (Task κ)) (fsOffline : Bool) (t : Task κ) (pc : Pc) : Prop where
  depth : m.depth t = pc.call.holds.toNat + pc.job.maintains.toNat
  maintainer : ∀ b ∈ pc.call.maintainer, b = pc.job.maintains
  body : pc.call = .body → fsOffline = true → pc.job.maintains = true

def LocksOk (s : State κ) : Prop :=
  ∀ m, s.fsMutex = some m → ∀ t, TaskOk m s.fsOffline t (s.task t)

variable {s s' : State κ} {m m' : RecMutex (Task κ)} {t : Task κ} {j : Job}

/-- Outside `read_file` and `write_file_atomic` only the job counts. -/
theorem taskOk_idle {fsOffline : Bool} (h : m.depth t = j.maintains.toNat) :
    TaskOk m fsOffline t ⟨.idle, j⟩ where
  depth := by
    rw [h]
    exact (Nat.zero_add _).symm
  maintainer _ hb := absurd hb.symm (Option.some_ne_none _)
  body := Call.noConfusion

/-- A step that leaves the other tasks where they are, and does not take the lock from them. -/
theorem locksOk_of_task (h : LocksOk s) (hm : s.fsMutex = some m) (hm' : s'.fsMutex = some m')
    (hoffline : s'.fsOffline = s.fsOffline)
    (hothers : ∀ t' ≠ t, s'.task t' = s.task t' ∧ m'.depth t' = m.depth t')
    (ht : TaskOk m' s.fsOffline t (s'.task t)) : LocksOk s' := by
  intro n hn t'
  obtain rfl : m' = n := Option.some.inj (hm'.symm.trans hn)
  rw [hoffline]
  by_cases heq : t' = t
  · exact heq ▸ ht
  · have hold := h m hm t'
    rw [(hothers t' heq).1]
    exact ⟨(hothers t' heq).2.trans hold.depth, hold.maintainer, hold.body⟩

theorem task_setTask (s : State κ) (t : Task κ) (c : Call) (j : Job) :
    (s.setTask t c j).task t = ⟨c, j⟩ := Function.update_self ..

theorem task_setTask_of_ne (s : State κ) {t t' : Task κ} (c : Call) (j : Job) (h : t' ≠ t) :
    (s.setTask t c j).task t' = s.task t' := Function.update_of_ne h ..

/-- A step of one task that is no operation on the lock. -/
theorem LocksOk.setTask {c : Call} (h : LocksOk s)
    (ht : ∀ m, s.fsMutex = some m → TaskOk m s.fsOffline t ⟨c, j⟩) : LocksOk (s.setTask t c j) := by
  intro m hm
  refine locksOk_of_task (t := t) h hm hm rfl (fun t' ht' => ⟨?_, rfl⟩) ?_ m hm
  · exact task_setTask_of_ne s c j ht'
  · rw [task_setTask]
    exact ht m hm

/-- A step inside `fs_enter` that is no operation on the lock. -/
theorem LocksOk.setCall {c : Call} (h : LocksOk s) (hholds : c.holds = (s.task t).call.holds)
    (hmaintainer : ∀ m, s.fsMutex = some m → ∀ b ∈ c.maintainer, b = (s.task t).job.maintains)
    (hbody : ∀ m, s.fsMutex = some m → c = .body → s.fsOffline = true →
      (s.task t).job.maintains = true) :
    LocksOk (s.setTask t c (s.task t).job) := by
  refine h.setTask fun m hm => ⟨?_, hmaintainer m hm, hbody m hm⟩
  rw [(h m hm t).depth]
  dsimp only
  rw [hholds]

/-- The lock is taken by `t`. -/
theorem LocksOk.take {c : Call} (h : LocksOk s) (hm : s.fsMutex = some m)
    (htake : m.take t = some m')
    (ht : m'.depth t = m.depth t + 1 → TaskOk m' s.fsOffline t ⟨c, j⟩) :
    LocksOk { s.setTask t c j with fsMutex := some m' } := by
  refine locksOk_of_task (t := t) h hm rfl rfl (fun t' ht' => ⟨?_, ?_⟩) ?_
  · exact task_setTask_of_ne s c j ht'
  · exact RecMutex.depth_of_take_of_ne htake ht'
  · refine (task_setTask s t c j).symm ▸ ?_
    exact ht (RecMutex.depth_of_take htake)

/-- The lock is given back by `t`. -/
theorem LocksOk.give {c : Call} (h : LocksOk s) (hm : s.fsMutex = some m)
    (ht : (m.give t).depth t = m.depth t - 1 → TaskOk (m.give t) s.fsOffline t ⟨c, j⟩) :
    LocksOk { s.setTask t c j with fsMutex := some (m.give t) } := by
  refine locksOk_of_task (t := t) h hm rfl rfl (fun t' ht' => ⟨?_, ?_⟩) ?_
  · exact task_setTask_of_ne s c j ht'
  · exact RecMutex.depth_give_of_ne m ht'
  · refine (task_setTask s t c j).symm ▸ ?_
    exact ht (RecMutex.depth_give m t)

/-- Without a lock there is nothing to keep. -/
theorem locksOk_of_none (h : s.fsMutex = none) : LocksOk s :=
  fun _ hm => absurd (h.symm.trans hm).symm (Option.some_ne_none _)

theorem locksOk_proceed {got : Bool} (h : LocksOk s) (hstep : s.proceed t got = some s') :
    LocksOk s' := by
  have hidle : (s.task t).call.holds = false → LocksOk (s.setTask t .idle (s.task t).job) :=
    fun hholds => h.setCall hholds.symm (fun _ _ _ hb => absurd hb.symm (Option.some_ne_none _))
      (fun _ _ => Call.noConfusion)
  -- the step out of `fs_leave`, and the one that gives up after the second test
  have hgive : (s.task t).call.holds = true →
      LocksOk { s.setTask t .idle (s.task t).job with
        fsMutex := s.fsMutex.map fun m => m.give t } := by
    intro hholds
    cases hm : s.fsMutex with
    | none => exact locksOk_of_none rfl
    | some m =>
        refine h.give hm fun hdepth => taskOk_idle ?_
        rw [hdepth, (h m hm t).depth, hholds]
        exact Nat.add_sub_cancel_left ..
  unfold State.proceed at hstep
  cases hcall : (s.task t).call with
  | idle =>
      rw [hcall] at hstep
      cases hstep
  | mounted =>
      rw [hcall] at hstep hidle
      cases hstep
      split
      · refine h.setCall ?_ (fun _ _ _ hb => absurd hb.symm (Option.some_ne_none _))
          (fun _ _ => Call.noConfusion)
        rw [hcall]
        rfl
      · exact hidle rfl
  | created =>
      rw [hcall] at hstep hidle
      cases hm : s.fsMutex with
      | none =>
          rw [hm] at hstep
          cases hstep
          split
          · exact hidle rfl
          · exact locksOk_of_none hm
      | some m =>
          rw [hm] at hstep
          cases hstep
          refine h.setCall ?_ (fun _ _ _ hb => absurd hb.symm (Option.some_ne_none _))
            (fun _ _ => Call.noConfusion)
          rw [hcall]
          rfl
  | mine =>
      rw [hcall] at hstep
      obtain ⟨m, hm, rfl⟩ := Option.map_eq_some_iff.mp hstep
      refine h.setCall ?_ ?_ (fun _ _ => Call.noConfusion)
      · rw [hcall]
        rfl
      · intro n hn b hb
        obtain rfl : m = n := Option.some.inj (hm.symm.trans hn)
        obtain rfl : decide (m.holder = some t) = b := Option.some.inj hb
        -- `maintainer` is evaluated before the lock is taken
        have hdepth := (h m hm t).depth
        rw [hcall] at hdepth
        rw [Bool.eq_iff_iff, decide_eq_true_eq, RecMutex.holder_eq_some_iff, hdepth]
        cases (s.task t).job.maintains with
        | false =>
            exact ⟨fun hpos => absurd hpos (Nat.lt_irrefl 0), fun hf => absurd hf Bool.false_ne_true⟩
        | true => exact ⟨fun _ => rfl, fun _ => Nat.one_pos⟩
  | offline maintainer =>
      rw [hcall] at hstep hidle
      cases hstep
      split
      · exact hidle rfl
      · refine h.setCall ?_ ?_ (fun _ _ => Call.noConfusion)
        · rw [hcall]
          rfl
        · intro m hm b hb
          refine (h m hm t).maintainer b ?_
          rw [hcall]
          exact hb
  | take maintainer =>
      rw [hcall] at hstep hidle
      cases got with
      | false =>
          cases hstep
          exact hidle rfl
      | true =>
          obtain ⟨m, hm, hmap⟩ := Option.bind_eq_some_iff.mp hstep
          obtain ⟨m', htake, rfl⟩ := Option.map_eq_some_iff.mp hmap
          refine h.take hm htake fun hdepth => ⟨?_, ?_, Call.noConfusion⟩
          · rw [hdepth, (h m hm t).depth, hcall, Nat.add_comm]
            exact congrArg (1 + ·) (Nat.zero_add _)
          · intro b hb
            refine (h m hm t).maintainer b ?_
            rw [hcall]
            exact hb
  | again maintainer =>
      rw [hcall] at hstep
      cases hstep
      split
      · refine h.setCall ?_ (fun _ _ _ hb => absurd hb.symm (Option.some_ne_none _))
          (fun _ _ => Call.noConfusion)
        rw [hcall]
        rfl
      · rename_i hpass
        refine h.setCall ?_ (fun _ _ _ hb => absurd hb.symm (Option.some_ne_none _)) ?_
        · rw [hcall]
          rfl
        · intro m hm _ hoffline
          have hmaintainer : maintainer = true := by
            rw [hoffline] at hpass
            simpa using hpass
          have hjob := (h m hm t).maintainer maintainer (by rw [hcall]; rfl)
          rw [← hjob, hmaintainer]
  | give =>
      rw [hcall] at hstep hgive
      cases hstep
      exact hgive rfl
  | body =>
      rw [hcall] at hstep hgive
      cases hstep
      exact hgive rfl

/-! ## The update -/

/-- `fs_maintenance_begin` for a task that is not inside `fs_enter`. -/
theorem locksOk_begin {j' : Job} (h : LocksOk s) (hidle : (s.task t).call = .idle)
    (hj : (s.task t).job.maintains = false) (hj' : j'.maintains = true)
    (hstep : (s.fsMaintenanceBegin t).map (fun s => s.setTask t .idle j') = some s') :
    LocksOk s' := by
  obtain ⟨s₁, hbegin, rfl⟩ := Option.map_eq_some_iff.mp hstep
  unfold State.fsMaintenanceBegin at hbegin
  cases hm : s.fsMutex with
  | none =>
      rw [hm] at hbegin
      cases hbegin
      exact locksOk_of_none hm
  | some m =>
      rw [hm] at hbegin
      obtain ⟨m', htake, rfl⟩ := Option.map_eq_some_iff.mp hbegin
      refine h.take hm htake fun hdepth => taskOk_idle ?_
      rw [hdepth, (h m hm t).depth, hidle, hj, hj']
      rfl

/-- `fs_maintenance_end`. -/
theorem locksOk_end {j' : Job} (h : LocksOk s) (hidle : (s.task t).call = .idle)
    (hj : (s.task t).job.maintains = true) (hj' : j'.maintains = false) :
    LocksOk ((s.fsMaintenanceEnd t).setTask t .idle j') := by
  cases hm : s.fsMutex with
  | none =>
      refine locksOk_of_none ?_
      rw [State.setTask, State.fsMaintenanceEnd, hm]
      rfl
  | some m =>
      have hdepth : m.depth t = 1 := by
        rw [(h m hm t).depth, hidle, hj]
        rfl
      have hholder : m.holder = some t := by
        rw [RecMutex.holder_eq_some_iff, hdepth]
        exact Nat.one_pos
      have hgive := h.give (c := .idle) (j := j') hm fun hdepth' => taskOk_idle (by
        rw [hdepth', hdepth, hj']
        rfl)
      rw [State.setTask, State.fsMaintenanceEnd, hm, Option.map_some, if_pos hholder]
      exact hgive

/-- A step in the code of the update that is no operation on the lock. -/
theorem LocksOk.setJob {j' : Job} {c : Call} (h : LocksOk s) (hidle : (s.task t).call = .idle)
    (hc : c = .idle ∨ c = .mounted) (hj : j'.maintains = (s.task t).job.maintains) :
    LocksOk (s.setTask t c j') := by
  refine h.setTask fun m hm => ?_
  have hdepth := (h m hm t).depth
  rw [hidle] at hdepth
  rcases hc with rfl | rfl
  · refine taskOk_idle ?_
    rw [hdepth, hj]
    exact Nat.zero_add _
  · refine ⟨?_, fun _ hb => absurd hb.symm (Option.some_ne_none _), Call.noConfusion⟩
    rw [hdepth]
    dsimp only
    rw [hj]
    rfl

/-- The filesystem goes offline while its lock is held, so nobody else is inside. -/
theorem locksOk_store (h : LocksOk s) (hidle : (s.task .asyncTcp).call = .idle)
    (hj : (s.task .asyncTcp).job = .store) :
    LocksOk { s.setTask .asyncTcp .idle .release with fsOffline := true } := by
  have hend : LocksOk (s.setTask .asyncTcp .idle .release) :=
    h.setJob hidle (.inl rfl) (hj ▸ rfl)
  intro m hm t
  have ht := hend m hm t
  refine ⟨ht.depth, ht.maintainer, fun hbody _ => ?_⟩
  have hholds : 0 < m.depth t := by
    rw [ht.depth, hbody]
    exact Nat.add_pos_left Nat.one_pos _
  have hserver : 0 < m.depth .asyncTcp := by
    rw [(hend m hm .asyncTcp).depth, task_setTask]
    exact Nat.one_pos
  obtain rfl := RecMutex.eq_of_depth_pos hholds hserver
  rw [task_setTask]
  rfl

theorem locksOk_upload {got : Bool} (h : LocksOk s) (hidle : (s.task .asyncTcp).call = .idle)
    (hstep : s.upload got = some s') : LocksOk s' := by
  unfold State.upload at hstep
  cases hjob : (s.task .asyncTcp).job with
  | begin =>
      rw [hjob] at hstep
      cases got with
      | false =>
          cases hstep
          exact h.setJob hidle (.inl rfl) (hjob ▸ rfl)
      | true => exact locksOk_begin h hidle (hjob ▸ rfl) rfl hstep
  | snapshot =>
      rw [hjob] at hstep
      cases hstep
      exact h.setJob hidle (.inl rfl) (hjob ▸ rfl)
  | store =>
      rw [hjob] at hstep
      cases hstep
      exact locksOk_store h hidle hjob
  | release =>
      rw [hjob] at hstep
      cases hstep
      exact locksOk_end h hidle (hjob ▸ rfl) rfl
  | none | delay | lock | remount | restore | unlock | restart =>
      rw [hjob] at hstep
      cases hstep

theorem locksOk_finish {choice : Bool} (h : LocksOk s) (hidle : (s.task .otaFinish).call = .idle)
    (hstep : s.finish choice = some s') : LocksOk s' := by
  unfold State.finish at hstep
  cases hjob : (s.task .otaFinish).job with
  | delay cmd =>
      rw [hjob] at hstep
      cases hstep
      refine h.setJob hidle (.inl rfl) ?_
      rw [hjob]
      split
      · rfl
      · rfl
  | lock i =>
      rw [hjob] at hstep
      cases choice with
      | false =>
          cases hstep
          refine h.setJob hidle (.inl rfl) ?_
          rw [hjob]
          split
          · rfl
          · rfl
      | true => exact locksOk_begin h hidle (hjob ▸ rfl) rfl hstep
  | remount locked =>
      rw [hjob] at hstep
      cases hstep
      refine h.setJob hidle (.inl rfl) ?_
      rw [hjob]
      split
      · rfl
      · rfl
  | restore locked i =>
      rw [hjob] at hstep
      dsimp only at hstep
      split at hstep
      · cases hstep
        refine h.setJob hidle ?_ (hjob ▸ rfl)
        split
        · exact .inr rfl
        · exact .inl rfl
      · cases hstep
        exact h.setJob hidle (.inl rfl) (hjob ▸ rfl)
  | unlock locked =>
      rw [hjob] at hstep
      cases hstep
      cases locked with
      | false => exact h.setJob hidle (.inl rfl) (hjob ▸ rfl)
      | true => exact locksOk_end h hidle (hjob ▸ rfl) rfl
  | none | begin | snapshot | store | release | restart =>
      rw [hjob] at hstep
      cases hstep

/-! ## The course of an update -/

omit [DecidableEq κ] in
theorem asyncTcp_ne_otaFinish : (Task.asyncTcp : Task κ) ≠ .otaFinish := nofun

/-- The task that ends an update was not created. -/
def NotCreated (s : State κ) : Prop := s.task .otaFinish = ⟨.idle, .none⟩

/-- Where the update stands, apart from the lock. -/
structure Course (s : State κ) : Prop where
  early : s.setup ≠ .done → s.fsMounted = false ∧ s.otaOwner = none ∧
    ∀ t, (s.task t).job = .none ∧ ((s.task t).call = .idle ∨ (s.task t).call = .mounted)
  owner : s.otaOwner ≠ none → s.otaRadioHeld = true ∧ NotCreated s
  radio : s.otaRadioHeld = false → NotCreated s
  server : (s.task .asyncTcp).job ≠ .none → s.otaOwner ≠ none

/-- A step of a task that is not the one that ends updates. -/
theorem Course.setTask {c : Call} (h : Course s) (ht : t ≠ .otaFinish)
    (hearly : s.setup ≠ .done → j = .none ∧ (c = .idle ∨ c = .mounted))
    (hserver : t = .asyncTcp → j ≠ .none → s.otaOwner ≠ none) : Course (s.setTask t c j) := by
  have hfinish : (s.setTask t c j).task .otaFinish = s.task .otaFinish :=
    task_setTask_of_ne s c j (Ne.symm ht)
  refine ⟨fun hsetup => ?_, fun howner => ?_, fun hradio => ?_, fun hjob => ?_⟩
  · obtain ⟨hmounted, hnone, htasks⟩ := h.early hsetup
    refine ⟨hmounted, hnone, fun t' => ?_⟩
    by_cases heq : t' = t
    · rw [heq, task_setTask]
      exact hearly hsetup
    · rw [task_setTask_of_ne s c j heq]
      exact htasks t'
  · exact ⟨(h.owner howner).1, hfinish.trans (h.owner howner).2⟩
  · exact hfinish.trans (h.radio hradio)
  · by_cases heq : .asyncTcp = t
    · rw [heq, task_setTask] at hjob
      exact hserver heq.symm hjob
    · rw [task_setTask_of_ne s c j heq] at hjob
      exact h.server hjob

/-- A step of the task that ends updates, which was created already. -/
theorem Course.setFinish {c : Call} (h : Course s) (hcreated : ¬ NotCreated s)
    (hearly : s.setup ≠ .done → j = .none ∧ (c = .idle ∨ c = .mounted)) :
    Course (s.setTask .otaFinish c j) := by
  refine ⟨fun hsetup => ?_, fun howner => absurd (h.owner howner).2 hcreated,
    fun hradio => absurd (h.radio hradio) hcreated, fun hjob => ?_⟩
  · obtain ⟨hmounted, hnone, htasks⟩ := h.early hsetup
    refine ⟨hmounted, hnone, fun t' => ?_⟩
    by_cases heq : t' = .otaFinish
    · rw [heq, task_setTask]
      exact hearly hsetup
    · rw [task_setTask_of_ne s c j heq]
      exact htasks t'
  · rw [task_setTask_of_ne s c j asyncTcp_ne_otaFinish] at hjob
    exact h.server hjob

/-- A task that is somewhere in `read_file` or `write_file_atomic` goes on. -/
theorem Course.setCall {c : Call} (h : Course s) (hcall : (s.task t).call ≠ .idle)
    (hearly : s.setup ≠ .done → c = .idle ∨ c = .mounted) :
    Course (s.setTask t c (s.task t).job) := by
  have hjob : s.setup ≠ .done → (s.task t).job = .none ∧ (c = .idle ∨ c = .mounted) :=
    fun hsetup => ⟨((h.early hsetup).2.2 t).1, hearly hsetup⟩
  by_cases ht : t = .otaFinish
  · subst ht
    exact h.setFinish (fun hnot => hcall (congrArg Pc.call hnot)) hjob
  · exact h.setTask ht hjob fun heq hne => h.server (heq ▸ hne)

/-- What a step inside `read_file` or `write_file_atomic` can change. -/
theorem proceed_eq_some {got : Bool} (hstep : s.proceed t got = some s') :
    (s.task t).call ≠ .idle ∧
      ∃ c m', s' = { s.setTask t c (s.task t).job with fsMutex := m' } ∧
        ((s.task t).call = .mounted → s.fsMounted = false → c = .idle) := by
  unfold State.proceed at hstep
  cases hcall : (s.task t).call with
  | idle =>
      rw [hcall] at hstep
      cases hstep
  | mounted =>
      rw [hcall] at hstep
      cases hstep
      refine ⟨Call.noConfusion, ?_⟩
      split
      · rename_i hmounted
        exact ⟨_, s.fsMutex, rfl, fun _ hnot => absurd (hnot.symm.trans hmounted) Bool.false_ne_true⟩
      · exact ⟨_, s.fsMutex, rfl, fun _ _ => rfl⟩
  | created =>
      rw [hcall] at hstep
      refine ⟨Call.noConfusion, ?_⟩
      cases hm : s.fsMutex with
      | none =>
          rw [hm] at hstep
          cases hstep
          split
          · exact ⟨.idle, s.fsMutex, rfl, Call.noConfusion⟩
          · exact ⟨.body, s.fsMutex, rfl, Call.noConfusion⟩
      | some m =>
          rw [hm] at hstep
          cases hstep
          exact ⟨.mine, s.fsMutex, rfl, Call.noConfusion⟩
  | mine =>
      rw [hcall] at hstep
      obtain ⟨m, -, rfl⟩ := Option.map_eq_some_iff.mp hstep
      exact ⟨Call.noConfusion, _, s.fsMutex, rfl, Call.noConfusion⟩
  | offline maintainer =>
      rw [hcall] at hstep
      cases hstep
      refine ⟨Call.noConfusion, ?_⟩
      split
      · exact ⟨.idle, s.fsMutex, rfl, Call.noConfusion⟩
      · exact ⟨.take maintainer, s.fsMutex, rfl, Call.noConfusion⟩
  | take maintainer =>
      rw [hcall] at hstep
      refine ⟨Call.noConfusion, ?_⟩
      cases got with
      | false =>
          cases hstep
          exact ⟨.idle, s.fsMutex, rfl, Call.noConfusion⟩
      | true =>
          obtain ⟨m, -, hmap⟩ := Option.bind_eq_some_iff.mp hstep
          obtain ⟨m', -, rfl⟩ := Option.map_eq_some_iff.mp hmap
          exact ⟨_, _, rfl, Call.noConfusion⟩
  | again maintainer =>
      rw [hcall] at hstep
      cases hstep
      refine ⟨Call.noConfusion, ?_⟩
      split
      · exact ⟨.give, s.fsMutex, rfl, Call.noConfusion⟩
      · exact ⟨.body, s.fsMutex, rfl, Call.noConfusion⟩
  | give | body =>
      rw [hcall] at hstep
      cases hstep
      exact ⟨Call.noConfusion, _, _, rfl, Call.noConfusion⟩

theorem course_proceed {got : Bool} (h : Course s) (hstep : s.proceed t got = some s') :
    Course s' := by
  obtain ⟨hcall, c, m', rfl, hmounted⟩ := proceed_eq_some hstep
  have hgo : Course (s.setTask t c (s.task t).job) := by
    refine h.setCall hcall fun hsetup => .inl ?_
    obtain ⟨hunmounted, -, htasks⟩ := h.early hsetup
    exact hmounted ((htasks t).2.resolve_left hcall) hunmounted
  exact ⟨hgo.early, hgo.owner, hgo.radio, hgo.server⟩

/-- What a step of `ota_upload` can change. -/
theorem upload_eq_some {got : Bool} (hstep : s.upload got = some s') :
    (s.task .asyncTcp).job ≠ .none ∧
      ((∃ j m' off, s' = { s.setTask .asyncTcp .idle j with fsMutex := m', fsOffline := off }) ∨
        s' = { s.setTask .asyncTcp .idle .none with otaOwner := none, otaRadioHeld := false }) := by
  unfold State.upload at hstep
  cases hjob : (s.task .asyncTcp).job with
  | begin =>
      rw [hjob] at hstep
      refine ⟨Job.noConfusion, ?_⟩
      cases got with
      | false =>
          cases hstep
          exact .inr rfl
      | true =>
          obtain ⟨s₁, hbegin, rfl⟩ := Option.map_eq_some_iff.mp hstep
          unfold State.fsMaintenanceBegin at hbegin
          split at hbegin
          · cases hbegin
            exact .inl ⟨_, _, _, rfl⟩
          · obtain ⟨m', -, rfl⟩ := Option.map_eq_some_iff.mp hbegin
            exact .inl ⟨_, _, _, rfl⟩
  | snapshot | store | release =>
      rw [hjob] at hstep
      cases hstep
      exact ⟨Job.noConfusion, .inl ⟨_, _, _, rfl⟩⟩
  | none | delay | lock | remount | restore | unlock | restart =>
      rw [hjob] at hstep
      cases hstep

theorem course_upload {got : Bool} (h : Course s) (hstep : s.upload got = some s') :
    Course s' := by
  obtain ⟨hjob, ⟨j, m', off, rfl⟩ | rfl⟩ := upload_eq_some hstep
  · have hsetup : ¬ s.setup ≠ .done := fun hearly => hjob ((h.early hearly).2.2 .asyncTcp).1
    have hgo : Course (s.setTask .asyncTcp .idle j) :=
      h.setTask asyncTcp_ne_otaFinish (fun hearly => absurd hearly hsetup) fun _ _ => h.server hjob
    exact ⟨hgo.early, hgo.owner, hgo.radio, hgo.server⟩
  · have hgo : Course (s.setTask .asyncTcp .idle .none) :=
      h.setTask asyncTcp_ne_otaFinish (fun _ => ⟨rfl, .inl rfl⟩) fun _ hne => absurd rfl hne
    refine ⟨fun hearly => ?_, fun howner => absurd rfl howner,
      fun _ => (hgo.owner (h.server hjob)).2, fun hne => ?_⟩
    · obtain ⟨hmounted, -, htasks⟩ := hgo.early hearly
      exact ⟨hmounted, rfl, htasks⟩
    · refine absurd ?_ hne
      exact congrArg Pc.job (task_setTask s .asyncTcp .idle .none)

/-- What a step of `ota_finish_task` can change. -/
theorem finish_eq_some {choice : Bool} (hstep : s.finish choice = some s') :
    (s.task .otaFinish).job ≠ .none ∧
      ∃ c j m', s' = { s.setTask .otaFinish c j with fsMutex := m' } := by
  unfold State.finish at hstep
  cases hjob : (s.task .otaFinish).job with
  | delay | remount =>
      rw [hjob] at hstep
      cases hstep
      exact ⟨Job.noConfusion, _, _, _, rfl⟩
  | lock i =>
      rw [hjob] at hstep
      refine ⟨Job.noConfusion, ?_⟩
      cases choice with
      | false =>
          cases hstep
          exact ⟨_, _, _, rfl⟩
      | true =>
          obtain ⟨s₁, hbegin, rfl⟩ := Option.map_eq_some_iff.mp hstep
          unfold State.fsMaintenanceBegin at hbegin
          split at hbegin
          · cases hbegin
            exact ⟨_, _, _, rfl⟩
          · obtain ⟨m', -, rfl⟩ := Option.map_eq_some_iff.mp hbegin
            exact ⟨_, _, _, rfl⟩
  | restore locked i =>
      rw [hjob] at hstep
      dsimp only at hstep
      refine ⟨Job.noConfusion, ?_⟩
      split at hstep
      · cases hstep
        exact ⟨_, _, _, rfl⟩
      · cases hstep
        exact ⟨_, _, _, rfl⟩
  | unlock locked =>
      rw [hjob] at hstep
      cases hstep
      refine ⟨Job.noConfusion, ?_⟩
      cases locked with
      | false => exact ⟨_, _, _, rfl⟩
      | true => exact ⟨_, _, _, rfl⟩
  | none | begin | snapshot | store | release | restart =>
      rw [hjob] at hstep
      cases hstep

theorem course_finish {choice : Bool} (h : Course s) (hstep : s.finish choice = some s') :
    Course s' := by
  obtain ⟨hjob, c, j, m', rfl⟩ := finish_eq_some hstep
  have hgo : Course (s.setTask .otaFinish c j) :=
    h.setFinish (fun hnot => hjob (congrArg Pc.job hnot))
      fun hearly => absurd ((h.early hearly).2.2 .otaFinish).1 hjob
  exact ⟨hgo.early, hgo.owner, hgo.radio, hgo.server⟩

/-! ## Runs -/

structure Inv (s : State κ) : Prop where
  locks : LocksOk s
  course : Course s

theorem inv_boot : Inv (boot κ) where
  locks := locksOk_of_none rfl
  course := ⟨fun _ => ⟨rfl, rfl, fun _ => ⟨rfl, .inl rfl⟩⟩, fun h => absurd rfl h, fun _ => rfl,
    fun h => absurd rfl h⟩

/-- An upload is admitted. -/
theorem inv_admitted {cmd : Cmd} (h : Inv s) (hsetup : s.setup = .done) (hidle : s.ServerIdle)
    (hradio : s.otaRadioHeld = false) :
    Inv { s.setTask .asyncTcp .idle (if cmd = .spiffs then .begin else .none) with
      otaOwner := some cmd, otaRadioHeld := true } := by
  have hcall : (s.task .asyncTcp).call = .idle := congrArg Pc.call hidle
  have hjob : (s.task .asyncTcp).job = .none := congrArg Pc.job hidle
  constructor
  · refine h.locks.setJob hcall (.inl rfl) ?_
    rw [hjob]
    split
    · rfl
    · rfl
  · refine ⟨fun hearly => absurd hsetup hearly, fun _ => ⟨rfl, ?_⟩,
      fun hfree => absurd hfree.symm Bool.false_ne_true, fun _ => Option.some_ne_none _⟩
    have hfinish := task_setTask_of_ne s .idle (if cmd = .spiffs then .begin else .none)
      asyncTcp_ne_otaFinish.symm
    exact hfinish.trans (h.course.radio hradio)

/-- The update is over, and its task may have been created. -/
theorem inv_complete {cmd : Cmd} {created : Bool} (h : Inv s) (hidle : s.ServerIdle)
    (howner : s.otaOwner = some cmd) :
    Inv { (if created then s.setTask .otaFinish .idle (.delay cmd) else s) with
      otaOwner := none } := by
  obtain ⟨hradio, hnot⟩ := h.course.owner (howner ▸ Option.some_ne_none _)
  have hsetup : ¬ s.setup ≠ .done := fun hearly =>
    absurd (howner.symm.trans (h.course.early hearly).2.1) (Option.some_ne_none _)
  have hserver : (s.task .asyncTcp).job = .none := congrArg Pc.job hidle
  cases created with
  | false =>
      exact ⟨h.locks, fun hearly => absurd hearly hsetup, fun hnone => absurd rfl hnone,
        fun _ => hnot, fun hjob => absurd hserver hjob⟩
  | true =>
      constructor
      · refine h.locks.setJob (congrArg Pc.call hnot) (.inl rfl) ?_
        rw [congrArg Pc.job hnot]
        rfl
      · refine ⟨fun hearly => absurd hearly hsetup, fun hnone => absurd rfl hnone,
          fun hfree => absurd (hfree.symm.trans hradio) Bool.false_ne_true, fun hjob => ?_⟩
        have hsame := task_setTask_of_ne s .idle (.delay cmd) asyncTcp_ne_otaFinish
        exact absurd ((congrArg Pc.job hsame).trans hserver) hjob

theorem inv_step {a : Action κ} (h : Inv s) (hstep : s.step a = some s') : Inv s' := by
  cases a with
  | fsLockInit created =>
      obtain ⟨hsetup, heq⟩ := Option.ite_none_right_eq_some.mp hstep
      cases heq
      have hearly := h.course.early (hsetup ▸ Setup.noConfusion)
      refine ⟨fun m hm t => ?_, fun _ => hearly, h.course.owner, h.course.radio, h.course.server⟩
      obtain ⟨hjob, hcall⟩ := hearly.2.2 t
      cases created with
      | false => cases hm
      | true =>
          cases hm
          refine ⟨?_, fun b hb => ?_, fun hbody => ?_⟩
          · rw [hjob]
            rcases hcall with hcall | hcall
            · rw [hcall]
              rfl
            · rw [hcall]
              rfl
          · rcases hcall with hcall | hcall
            · rw [hcall] at hb
              cases hb
            · rw [hcall] at hb
              cases hb
          · rcases hcall with hcall | hcall
            · exact absurd (hcall.symm.trans hbody) Call.noConfusion
            · exact absurd (hcall.symm.trans hbody) Call.noConfusion
  | mount ok =>
      obtain ⟨-, heq⟩ := Option.ite_none_right_eq_some.mp hstep
      cases heq
      exact ⟨h.locks, fun hearly => absurd rfl hearly, h.course.owner, h.course.radio,
        h.course.server⟩
  | access t =>
      obtain ⟨⟨ht, hidle⟩, heq⟩ := Option.ite_none_right_eq_some.mp hstep
      cases heq
      refine ⟨h.locks.setJob (congrArg Pc.call hidle) (.inr rfl) ?_, ?_⟩
      · rw [congrArg Pc.job hidle]
      · exact h.course.setTask ht (fun _ => ⟨rfl, .inr rfl⟩) fun _ hne => absurd rfl hne
  | proceed t got => exact ⟨locksOk_proceed h.locks hstep, course_proceed h.course hstep⟩
  | admitted cmd =>
      obtain ⟨⟨hsetup, hidle, -, hradio⟩, heq⟩ := Option.ite_none_right_eq_some.mp hstep
      cases heq
      exact inv_admitted h hsetup hidle hradio
  | upload got =>
      obtain ⟨hidle, hupload⟩ := Option.ite_none_right_eq_some.mp hstep
      exact ⟨locksOk_upload h.locks hidle hupload, course_upload h.course hupload⟩
  | write =>
      obtain ⟨-, heq⟩ := Option.ite_none_right_eq_some.mp hstep
      cases heq
      exact ⟨h.locks, h.course.early, h.course.owner, h.course.radio, h.course.server⟩
  | abort =>
      obtain ⟨⟨hidle, howner⟩, heq⟩ := Option.ite_none_right_eq_some.mp hstep
      cases heq
      refine ⟨fun m hm t => ?_, fun hearly => ?_, fun hnone => absurd rfl hnone,
        fun _ => (h.course.owner howner).2, fun hjob => absurd (congrArg Pc.job hidle) hjob⟩
      · have ht := h.locks m hm t
        refine ⟨ht.depth, ht.maintainer, fun hbody hoffline => ht.body hbody ?_⟩
        dsimp only at hoffline
        split at hoffline
        · exact hoffline
        · exact absurd hoffline Bool.false_ne_true
      · exact absurd (h.course.early hearly).2.1 howner
  | complete created =>
      obtain ⟨hidle, hmap⟩ := Option.ite_none_right_eq_some.mp hstep
      obtain ⟨cmd, howner, rfl⟩ := Option.map_eq_some_iff.mp hmap
      exact inv_complete h hidle howner
  | finish choice =>
      obtain ⟨hidle, hfinish⟩ := Option.ite_none_right_eq_some.mp hstep
      exact ⟨locksOk_finish h.locks hidle hfinish, course_finish h.course hfinish⟩

theorem inv_exec {actions : List (Action κ)}
    (hrun : Transition.exec State.step (boot κ) actions = some s) : Inv s :=
  Transition.exec_invariant (fun _ _ _ h hstep => inv_step h hstep) inv_boot hrun

/-- Once the lock exists, whoever is inside `read_file` or `write_file_atomic` while the
filesystem is offline holds the lock through `fs_maintenance_begin`. -/
theorem body_while_offline {actions : List (Action κ)}
    (hrun : Transition.exec State.step (boot κ) actions = some s) (hmutex : s.fsMutex ≠ none)
    (t : Task κ) (hbody : (s.task t).call = .body) (hoffline : s.fsOffline = true) :
    s.Maintains t := by
  obtain ⟨m, hm⟩ := Option.ne_none_iff_exists'.mp hmutex
  have ht := (inv_exec hrun).locks m hm t
  refine ⟨?_, ht.body hbody hoffline⟩
  rw [hm, Option.bind_some, RecMutex.holder_eq_some_iff, ht.depth, hbody]
  exact Nat.add_pos_left Nat.one_pos _

end Inv

/-- An update, up to the writing of the first file that is put back. -/
def restoreRun : List (Action Unit) :=
  [.fsLockInit true, .mount true, .admitted .spiffs, .upload true, .upload true, .upload true,
    .upload true, .write, .complete true, .finish true, .finish true, .finish true, .finish true,
    .proceed .otaFinish true, .proceed .otaFinish true, .proceed .otaFinish true,
    .proceed .otaFinish true, .proceed .otaFinish true, .proceed .otaFinish true]

theorem body_while_offline_restoreRun :
    ∃ s, Transition.exec State.step (boot Unit) restoreRun = some s ∧ s.fsOffline = true ∧
      s.Maintains .otaFinish := by
  have hview : (Transition.exec State.step (boot Unit) restoreRun).map
      (fun s => (s.fsMutex.isSome, (s.task .otaFinish).call, s.fsOffline)) =
        some (true, .body, true) := by decide
  obtain ⟨s, hs, hfields⟩ := Option.map_eq_some_iff.mp hview
  rw [Prod.mk.injEq, Prod.mk.injEq] at hfields
  obtain ⟨hmutex, hbody, hoffline⟩ := hfields
  exact ⟨s, hs, hoffline,
    body_while_offline hs (Option.isSome_iff_ne_none.mp hmutex) .otaFinish hbody hoffline⟩

end FsLock

end Voyager
