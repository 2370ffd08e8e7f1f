import Mathlib.Logic.Function.Basic
import Voyager.Core.Dispatch
import Voyager.Library.FlatJson
import Voyager.Library.Transition
import Voyager.Web.Payload

/-!
# The name of the board

The name is kept in memory and in a file. The worker saves a name that a page sets, a factory
reset writes an empty one, and the power can go at any moment. A file is replaced by writing
another one under the lock of the filesystem and renaming it, so what a boot finds is always a
name that was written as a whole.
-/

namespace Voyager

open Dispatch (charPtr corePrintable CORE_USERNAME_MIN CORE_USERNAME_MAX)
open LoraProto
open Payload (getUsername)

namespace Username

/-! ## The file -/

/-- `serializeJson` of an object whose members are strings, and `deserializeJson`. -/
structure UserJson where
  serializeJson : List FlatJson.Member → List Byte
  deserializeJson : List Byte → Option JsonVariant

variable (json : UserJson) (mac : List Byte)

/-- A name that `core_parse_request` lets through, and `core_parse_username`. -/
def validName (s : List Byte) : Bool :=
  !(s.length < CORE_USERNAME_MIN || s.length > CORE_USERNAME_MAX || !corePrintable s)

/-- `core_parse_username`, which may be given a null pointer. -/
def coreParseUsername (text : Option (List Byte)) : List Byte :=
  match text.bind json.deserializeJson with
  | none => mac
  | some doc =>
      match charPtr (doc.get (ascii "username")) with
      | none => mac
      | some s => if validName s then s else mac

/-- `read_file`. -/
def readFile (readOk : Bool) (file : Option (List Byte)) : Option (List Byte) :=
  if readOk then file.filter fun text => text.length ≤ 4096 else none

/-- The name that `load_username` gets. -/
def loadUsername (readOk : Bool) (file : Option (List Byte)) : List Byte :=
  coreParseUsername json mac ((readFile readOk file).map cString)

/-- A call of `write_file_atomic` for the file: of `save_username` or of `reset_device`. -/
inductive Job where
  | save (uname : List Byte)
  | clear
  deriving DecidableEq, Repr

def Job.content : Job → List Byte
  | save uname => json.serializeJson [(ascii "username", uname)]
  | clear => ascii "\x7b\"username\":\"\"\x7d"

/-- The name after the job. -/
def Job.name : Job → List Byte
  | save uname => uname
  | clear => mac

/-! ## The tasks -/

/-- Where a task is in a job. -/
inductive Pc where
  | idle
  /-- in `fs_enter` -/
  | entering (j : Job)
  /-- the temporary file is open -/
  | writing (j : Job)
  /-- it is closed; `full` says that all of it was written -/
  | closed (j : Job) (full : Bool)
  /-- the file is renamed or the temporary file removed, the lock still held -/
  | leaving (j : Job) (ok : Bool)
  | returned (j : Job) (ok : Bool)
  deriving DecidableEq, Repr

inductive Event where
  /-- `load_username`, and whether the file could be read -/
  | booted (readOk : Bool)
  /-- the file was renamed -/
  | committed (j : Job)
  /-- the alert "Username saved" -/
  | saved (uname : List Byte)
  /-- the alert "Username could not be saved" -/
  | notSaved (uname : List Byte)
  deriving DecidableEq, Repr

/-- Task `0` is the worker of the pages, the others are factory resets. -/
structure State where
  file : Option (List Byte)
  tmp : Option (List Byte)
  lock : Option ℕ
  pc : ℕ → Pc
  /-- `s_username`, none while the power is off -/
  memory : Option (List Byte)
  /-- the last event first -/
  log : List Event

def off (file tmp : Option (List Byte)) : State where
  file := file
  tmp := tmp
  lock := none
  pc _ := .idle
  memory := none
  log := []

inductive Action where
  | boot (readOk : Bool)
  /-- The power goes, or the board is restarted. -/
  | cut
  | call (t : ℕ) (j : Job)
  /-- `fs_enter` fails. -/
  | refused (t : ℕ)
  /-- `fs_enter`, and `LittleFS.open` of the temporary file. -/
  | enter (t : ℕ) (opened : Bool)
  /-- What the temporary file holds while it is written. -/
  | write (t : ℕ) (text : List Byte)
  | close (t : ℕ) (full : Bool)
  /-- `LittleFS.rename`, and `LittleFS.remove` of the temporary file when that fails. -/
  | rename (t : ℕ) (ok removed : Bool)
  | leave (t : ℕ)
  /-- What follows the call. -/
  | finish (t : ℕ)

/-- The worker saves names that were checked, a reset clears. -/
def Job.AllowedFor (t : ℕ) : Job → Prop
  | save uname => t = 0 ∧ validName uname = true
  | clear => t ≠ 0

instance (t : ℕ) : (j : Job) → Decidable (j.AllowedFor t)
  | .save _ => inferInstanceAs (Decidable (_ ∧ _))
  | .clear => inferInstanceAs (Decidable (_ ≠ _))

namespace State

variable (s : State)

def setPc (t : ℕ) (pc : Pc) : State := { s with pc := Function.update s.pc t pc }

/-- The end of `write_file_atomic` before the lock is given back. -/
def renameStep (t : ℕ) (j : Job) (full ok removed : Bool) : State :=
  if full && ok then
    { s.setPc t (.leaving j true) with
      file := s.tmp, tmp := none, log := .committed j :: s.log }
  else { s.setPc t (.leaving j false) with tmp := if removed then none else s.tmp }

/-- What `handle_operations` and `reset_device` do when the call returns. -/
def finishStep (t : ℕ) : Job → Bool → State
  | .save uname, true =>
      { s.setPc t .idle with memory := some uname, log := .saved uname :: s.log }
  | .save uname, false => { s.setPc t .idle with log := .notSaved uname :: s.log }
  | .clear, _ => s.setPc t .idle

def step (s : State) : Action → Option State
  | .boot readOk =>
      if s.memory.isSome then none
      else some { s with
        memory := some (loadUsername json mac readOk s.file), log := .booted readOk :: s.log }
  | .cut => some { s with lock := none, pc := fun _ => .idle, memory := none }
  | .call t j =>
      if s.memory.isSome = true ∧ s.pc t = .idle ∧ j.AllowedFor t then
        some (s.setPc t (.entering j))
      else none
  | .refused t =>
      match s.pc t with
      | .entering j => some (s.setPc t (.returned j false))
      | _ => none
  | .enter t opened =>
      match s.pc t, s.lock with
      | .entering j, none =>
          if opened then some { s.setPc t (.writing j) with lock := some t, tmp := some [] }
          else some { s.setPc t (.leaving j false) with lock := some t }
      | _, _ => none
  | .write t text =>
      match s.pc t with
      | .writing _ => some { s with tmp := some text }
      | _ => none
  | .close t full =>
      match s.pc t with
      | .writing j =>
          some { s.setPc t (.closed j full) with
            tmp := if full then some (j.content json) else s.tmp }
      | _ => none
  | .rename t ok removed =>
      match s.pc t with
      | .closed j full => some (s.renameStep t j full ok removed)
      | _ => none
  | .leave t =>
      match s.pc t with
      | .leaving j ok => some { s.setPc t (.returned j ok) with lock := none }
      | _ => none
  | .finish t =>
      match s.pc t with
      | .returned j ok => some (s.finishStep t j ok)
      | _ => none

end State

/-! ## What is known of a run -/

/-- What the JSON library promises of an object with a name in it. -/
structure UserJson.Documented (json : UserJson) : Prop where
  writes (ms : List FlatJson.Member) :
    (∀ m ∈ ms, m.Plain) → json.serializeJson ms = FlatJson.writeObject ms
  reads (uname : List Byte) : (∀ c ∈ uname, c ≠ 0) →
    json.deserializeJson (FlatJson.writeObject [(ascii "username", uname)]) =
      some (.object [(ascii "username", .string uname)])

/-- The job under way. -/
def Pc.job : Pc → Option Job
  | idle => none
  | entering j => some j
  | writing j => some j
  | closed j _ => some j
  | leaving j _ => some j
  | returned j _ => some j

/-- The lock of the filesystem is held. -/
def Pc.holds : Pc → Bool
  | writing _ => true
  | closed _ _ => true
  | leaving _ _ => true
  | _ => false

/-- The file is renamed, and the task does not go on yet. -/
def Pc.renamed : Pc → Option Job
  | leaving j true => some j
  | returned j true => some j
  | _ => none

def Event.isBoot : Event → Bool
  | booted _ => true
  | _ => false

def Event.job : Event → Option Job
  | committed j => some j
  | _ => none

/-- The name that is in the file, `initial` being the one at the beginning. -/
def storedAfter (initial : List Byte) (log : List Event) : List Byte :=
  (log.findSome? Event.job).elim initial (Job.name mac)

/-- What happened since the last boot. -/
def sinceBoot (log : List Event) : List Event := log.takeWhile fun e => !e.isBoot

/-- The last boot could read the file, and no reset has changed it since. -/
def InStep (log : List Event) : Prop :=
  log.find? Event.isBoot = some (.booted true) ∧ .committed .clear ∉ sinceBoot log

/-- Since `j` was committed nothing happened but resets. -/
def JustCommitted (j : Job) (log : List Event) : Prop :=
  ∃ xs ys, log = xs ++ .committed j :: ys ∧ ∀ e ∈ xs, e = .committed .clear

section Log

variable {log : List Event} {j : Job}

theorem InStep.tail {e : Event} (h : InStep (e :: log)) (he : e.isBoot = false) : InStep log := by
  obtain ⟨hboot, hclear⟩ := h
  rw [List.find?_cons_of_neg (by simp [he])] at hboot
  rw [sinceBoot, List.takeWhile_cons_of_pos (by simp [he])] at hclear
  exact ⟨hboot, fun h => hclear (List.mem_cons_of_mem e h)⟩

theorem not_inStep_clear : ¬ InStep (.committed .clear :: log) := by
  rintro ⟨-, hclear⟩
  rw [sinceBoot, List.takeWhile_cons_of_pos rfl] at hclear
  exact hclear List.mem_cons_self

theorem justCommitted_cons : JustCommitted j (.committed j :: log) :=
  ⟨[], log, rfl, fun _ h => absurd h List.not_mem_nil⟩

theorem JustCommitted.clear (h : JustCommitted j log) :
    JustCommitted j (.committed .clear :: log) := by
  obtain ⟨xs, ys, rfl, hxs⟩ := h
  exact ⟨.committed .clear :: xs, ys, rfl, List.forall_mem_cons.mpr ⟨rfl, hxs⟩⟩

/-- Without a reset since the boot it is the last thing that was committed. -/
theorem JustCommitted.storedAfter (h : JustCommitted j log) (hstep : InStep log)
    (initial : List Byte) : storedAfter mac initial log = j.name mac := by
  obtain ⟨xs, ys, rfl, hxs⟩ := h
  cases xs with
  | nil => rfl
  | cons e xs =>
      rw [List.forall_mem_cons.mp hxs |>.1, List.cons_append] at hstep
      exact absurd hstep not_inStep_clear

end Log

section Names

variable {json mac} {uname : List Byte}

theorem ne_zero_of_validName (h : validName uname = true) :
    (∀ c ∈ uname, c ≠ 0) ∧ uname ≠ [] ∧ uname.length ≤ 32 := by
  unfold validName at h
  simp only [Bool.not_eq_true', Bool.or_eq_false_iff, decide_eq_false_iff_not,
    CORE_USERNAME_MIN, CORE_USERNAME_MAX, Bool.not_eq_false', corePrintable,
    List.all_eq_true, Bool.not_eq_true'] at h
  obtain ⟨⟨hmin, hmax⟩, hprintable⟩ := h
  refine ⟨?_, ?_, not_lt.mp (of_decide_eq_false hmax)⟩
  · rintro c hc rfl
    exact absurd (hprintable 0 hc) (by decide)
  · rintro rfl
    exact absurd hmin (by decide)

/-- What a boot makes of the text with a name. -/
theorem loadUsername_writeObject (hjson : json.Documented) (hzero : ∀ c ∈ uname, c ≠ 0)
    (hlen : uname.length ≤ 32) :
    loadUsername json mac true (some (FlatJson.writeObject [(ascii "username", uname)])) =
      if validName uname then uname else mac := by
  have hstring := FlatJson.length_writeString_le hzero
  have hname : (FlatJson.writeString (ascii "username")).length = 10 := by decide +kernel
  have hsize : (FlatJson.writeObject [(ascii "username", uname)]).length ≤ 4096 := by
    simp only [FlatJson.writeObject, FlatJson.writeRest, FlatJson.writeMember, List.length_cons,
      List.length_append, List.length_nil, hname]
    omega
  have htext : cString (FlatJson.writeObject [(ascii "username", uname)]) =
      FlatJson.writeObject [(ascii "username", uname)] := by
    refine List.takeWhile_eq_self_iff.mpr fun c hc => decide_eq_true ?_
    simp only [FlatJson.writeObject, FlatJson.writeRest, FlatJson.writeMember, List.mem_cons,
      List.mem_append, List.not_mem_nil, or_false] at hc
    rcases hc with rfl | (hc | rfl | hc) | rfl
    · decide
    · exact FlatJson.writeString_ne_zero _ c hc
    · decide
    · exact FlatJson.writeString_ne_zero _ c hc
    · decide
  have hcs : cString uname = uname :=
    List.takeWhile_eq_self_iff.mpr fun c hc => decide_eq_true (hzero c hc)
  have hget : (JsonVariant.object [(ascii "username", .string uname)]).get (ascii "username") =
      .string uname := rfl
  rw [loadUsername, readFile, if_pos rfl, Option.filter_some, if_pos (by simpa using hsize),
    Option.map_some, htext, coreParseUsername, Option.bind_some, hjson.reads uname hzero]
  simp only [hget, charPtr, hcs]

theorem loadUsername_content (hjson : json.Documented) {t : ℕ} {j : Job} (h : j.AllowedFor t) :
    loadUsername json mac true (some (j.content json)) = j.name mac := by
  cases j with
  | save uname =>
      obtain ⟨hzero, -, hlen⟩ := ne_zero_of_validName h.2
      have hkey : ∀ c ∈ ascii "username", c ≠ 0 := by decide +kernel
      have htext : (Job.save uname).content json =
          FlatJson.writeObject [(ascii "username", uname)] :=
        hjson.writes _ (List.forall_mem_singleton.mpr ⟨hkey, hzero⟩)
      rw [htext, loadUsername_writeObject hjson hzero hlen, if_pos h.2, Job.name]
  | clear =>
      have htext : Job.clear.content json = FlatJson.writeObject [(ascii "username", [])] := by
        rw [Job.content]
        decide +kernel
      rw [htext, loadUsername_writeObject hjson (fun _ h => absurd h List.not_mem_nil)
        (Nat.zero_le 32)]
      rfl

/-- What a boot gets is what `get_username` returns then. -/
theorem getUsername_loadUsername (readOk : Bool) (file : Option (List Byte)) :
    getUsername (loadUsername json mac readOk file) mac = loadUsername json mac readOk file := by
  have hcases : loadUsername json mac readOk file = mac ∨
      validName (loadUsername json mac readOk file) = true := by
    rw [loadUsername, coreParseUsername]
    cases ((readFile readOk file).map cString).bind json.deserializeJson with
    | none => exact .inl rfl
    | some doc =>
        simp only []
        cases charPtr (doc.get (ascii "username")) with
        | none => exact .inl rfl
        | some u =>
            simp only []
            split_ifs with hvalid
            · exact .inr hvalid
            · exact .inl rfl
  rcases hcases with h | h
  · rw [h, getUsername, ite_self]
  · have hne := (ne_zero_of_validName h).2.1
    rw [getUsername, if_neg fun hlen => hne (List.length_eq_zero_iff.mp hlen)]

end Names

/-! ## The invariant -/

structure Inv (initial : List Byte) (s : State) : Prop where
  stored : loadUsername json mac true s.file = storedAfter mac initial s.log
  owns : ∀ t, (s.pc t).holds = true → s.lock = some t
  tmp : ∀ t j, s.pc t = .closed j true → s.tmp = some (j.content json)
  allowed : ∀ t j, (s.pc t).job = some j → j.AllowedFor t
  off : s.memory = none → ∀ t, s.pc t = .idle
  sync : InStep s.log → (s.pc 0).renamed = none → ∀ m, s.memory = some m →
    getUsername m mac = loadUsername json mac true s.file
  pending : ∀ j, (s.pc 0).renamed = some j → JustCommitted j s.log
  reports : ∀ later earlier uname, s.log = later ++ .saved uname :: earlier →
    JustCommitted (.save uname) earlier

section Invariant

variable {json mac} {initial : List Byte} {s s' : State} {t : ℕ} {j : Job} {pc : Pc}

theorem inv_off (file tmp : Option (List Byte)) :
    Inv json mac (loadUsername json mac true file) (off file tmp) where
  stored := rfl
  owns _ h := absurd h Bool.false_ne_true
  tmp _ _ h := absurd h (by simp [off])
  allowed _ _ h := absurd h (by simp [off, Pc.job])
  off _ _ := rfl
  sync h := absurd h.1 (by simp [off])
  pending _ h := absurd h (by simp [off, Pc.renamed])
  reports later earlier uname h := absurd h (by simp [off])

theorem Inv.running (h : Inv json mac initial s) (hbusy : s.pc t ≠ .idle) : s.memory ≠ none :=
  fun hoff => hbusy (h.off hoff t)

/-- A task goes on without touching the file. -/
theorem Inv.move (h : Inv json mac initial s) {tmp : Option (List Byte)} {lock : Option ℕ}
    (hrunning : s.memory ≠ none) (howns : pc.holds = true → lock = some t)
    (hlock : ∀ u, u ≠ t → (s.pc u).holds = true → lock = some u)
    (htmp : ∀ j, pc = .closed j true → tmp = some (j.content json))
    (htmp' : ∀ u j, u ≠ t → s.pc u = .closed j true → tmp = s.tmp)
    (hjob : ∀ j, pc.job = some j → j.AllowedFor t)
    (hrenamed : t = 0 → pc.renamed = (s.pc t).renamed) :
    Inv json mac initial { s.setPc t pc with tmp := tmp, lock := lock } := by
  have hself : (s.setPc t pc).pc t = pc := by simp [State.setPc]
  have hsame : ∀ u, u ≠ t → (s.setPc t pc).pc u = s.pc u := fun u hu => Function.update_of_ne hu ..
  have hworker : ((s.setPc t pc).pc 0).renamed = (s.pc 0).renamed := by
    by_cases h0 : 0 = t
    · rw [h0, hself, hrenamed h0.symm]
    · rw [hsame 0 h0]
  constructor
  · exact h.stored
  · intro u hu
    by_cases heq : u = t
    · subst heq
      exact howns (hself ▸ hu)
    · exact hlock u heq (hsame u heq ▸ hu)
  · intro u j hu
    by_cases heq : u = t
    · subst heq
      exact htmp j (hself.symm.trans hu)
    · have hu : s.pc u = .closed j true := (hsame u heq).symm.trans hu
      exact (htmp' u j heq hu).trans (h.tmp u j hu)
  · intro u j hu
    by_cases heq : u = t
    · subst heq
      exact hjob j (hself ▸ hu)
    · exact h.allowed u j (hsame u heq ▸ hu)
  · exact fun hoff => absurd hoff hrunning
  · exact fun hstep hnone => h.sync hstep (hworker.symm.trans hnone)
  · exact fun j hj => h.pending j (hworker.symm.trans hj)
  · exact h.reports

/-- A task that holds the lock is the only one. -/
theorem Inv.other (h : Inv json mac initial s) (ht : (s.pc t).holds = true) {u : ℕ} (hu : u ≠ t) :
    (s.pc u).holds = false := by
  rw [← Bool.not_eq_true]
  intro hholds
  have hlock := (h.owns u hholds).symm.trans (h.owns t ht)
  exact hu (Option.some_inj.mp hlock)

theorem Inv.quiet (h : Inv json mac initial s) (ht : (s.pc t).holds = true) {u : ℕ} (hu : u ≠ t)
    {j : Job} (hclosed : s.pc u = .closed j true) : False := by
  have hother := h.other ht hu
  rw [hclosed] at hother
  exact Bool.false_ne_true hother.symm

/-- A task that does not hold the lock goes on. -/
theorem Inv.wait (h : Inv json mac initial s) (hrunning : s.memory ≠ none)
    (hfree : pc.holds = false) (hjob : ∀ j, pc.job = some j → j.AllowedFor t)
    (hrenamed : t = 0 → pc.renamed = (s.pc t).renamed) : Inv json mac initial (s.setPc t pc) := by
  apply h.move hrunning
  case howns => exact fun hholds => absurd (hfree.symm.trans hholds) Bool.false_ne_true
  case hlock => exact fun u _ hholds => h.owns u hholds
  case htmp =>
    rintro j rfl
    exact absurd hfree.symm Bool.false_ne_true
  case htmp' => exact fun _ _ _ _ => rfl
  case hjob => exact hjob
  case hrenamed => exact hrenamed

/-- The task that holds the lock goes on. -/
theorem Inv.hold (h : Inv json mac initial s) (ht : (s.pc t).holds = true)
    {tmp : Option (List Byte)} {lock : Option ℕ} (howns : pc.holds = true → lock = some t)
    (htmp : ∀ j, pc = .closed j true → tmp = some (j.content json))
    (hjob : pc.job = (s.pc t).job) (hrenamed : pc.renamed = (s.pc t).renamed) :
    Inv json mac initial { s.setPc t pc with tmp := tmp, lock := lock } := by
  have hbusy : s.pc t ≠ .idle := by
    intro hidle
    rw [hidle] at ht
    exact Bool.false_ne_true ht
  apply h.move (h.running hbusy) howns
  case hlock => exact fun u hu hholds => absurd (h.other ht hu) (by simp [hholds])
  case htmp => exact htmp
  case htmp' => exact fun u j hu hclosed => absurd hclosed (h.quiet ht hu)
  case hjob => exact fun j hj => h.allowed t j (hjob.symm.trans hj)
  case hrenamed => exact fun _ => hrenamed

/-- An event is added that is no commit, no boot and no report of a saved name. -/
theorem Inv.note (h : Inv json mac initial s) {e : Event} (hlog : s'.log = e :: s.log)
    (hsame : s' = { s with log := s'.log }) (hjob : e.job = none) (hboot : e.isBoot = false)
    (hidle : (s.pc 0).renamed = none) (hsaved : ∀ uname, e ≠ .saved uname) :
    Inv json mac initial s' := by
  have hfields : s'.file = s.file ∧ s'.tmp = s.tmp ∧ s'.lock = s.lock ∧ s'.pc = s.pc ∧
      s'.memory = s.memory := by
    rw [hsame]
    exact ⟨rfl, rfl, rfl, rfl, rfl⟩
  obtain ⟨hfile, htmp, hlock, hpc, hmemory⟩ := hfields
  constructor
  · rw [hfile, hlog, storedAfter, List.findSome?_cons, hjob]
    exact h.stored
  · rw [hpc, hlock]
    exact h.owns
  · rw [hpc, htmp]
    exact h.tmp
  · rw [hpc]
    exact h.allowed
  · rw [hmemory, hpc]
    exact h.off
  · rw [hlog, hpc, hmemory, hfile]
    exact fun hstep => h.sync (hstep.tail hboot)
  · rw [hpc]
    exact fun j hj => absurd (hidle.symm.trans hj) (Option.some_ne_none j).symm
  · intro later earlier uname heq
    rw [hlog] at heq
    cases later with
    | nil => exact absurd (List.cons.inj heq).1 (hsaved uname)
    | cons f later => exact h.reports later earlier uname (List.cons.inj heq).2

theorem Inv.booted (h : Inv json mac initial s) (hoff : s.memory = none) (readOk : Bool) :
    Inv json mac initial { s with
      memory := some (loadUsername json mac readOk s.file), log := .booted readOk :: s.log } where
  stored := h.stored
  owns := h.owns
  tmp := h.tmp
  allowed := h.allowed
  off hnone := absurd hnone (Option.some_ne_none _)
  sync hstep _ m hm := by
    cases Option.some_inj.mp hm
    have hread : readOk = true := by
      have hboot := hstep.1
      rw [List.find?_cons_of_pos rfl] at hboot
      exact Event.booted.inj (Option.some_inj.mp hboot)
    rw [hread]
    exact getUsername_loadUsername true s.file
  pending j hj := by
    have hidle : s.pc 0 = .idle := h.off hoff 0
    exact absurd hj (by simp [hidle, Pc.renamed])
  reports later earlier uname heq := by
    cases later with
    | nil => exact absurd (List.cons.inj heq).1 (by simp)
    | cons f later => exact h.reports later earlier uname (List.cons.inj heq).2

theorem Inv.cut (h : Inv json mac initial s) :
    Inv json mac initial { s with lock := none, pc := fun _ => .idle, memory := none } where
  stored := h.stored
  owns _ ht := absurd ht Bool.false_ne_true
  tmp _ _ ht := absurd ht (by simp)
  allowed _ _ ht := absurd ht (by simp [Pc.job])
  off _ _ := rfl
  sync _ _ m hm := absurd hm.symm (Option.some_ne_none m)
  pending _ ht := absurd ht (by simp [Pc.renamed])
  reports := h.reports

/-- The file is renamed: what was written as a whole is now in the file. -/
theorem Inv.committed (hjson : json.Documented) (h : Inv json mac initial s)
    (ht : s.pc t = .closed j true) :
    Inv json mac initial { s.setPc t (.leaving j true) with
      file := s.tmp, tmp := none, log := .committed j :: s.log } := by
  have hholds : (s.pc t).holds = true := by rw [ht, Pc.holds]
  have hallowed : j.AllowedFor t := h.allowed t j (by rw [ht, Pc.job])
  have hself : (s.setPc t (.leaving j true)).pc t = .leaving j true := Function.update_self ..
  have hsame : ∀ u, u ≠ t → (s.setPc t (.leaving j true)).pc u = s.pc u :=
    fun u hu => Function.update_of_ne hu ..
  have hclear : t ≠ 0 → j = .clear := by
    cases j with
    | save uname => exact fun hne => absurd hallowed.1 hne
    | clear => exact fun _ => rfl
  constructor
  · change loadUsername json mac true s.tmp = _
    rw [h.tmp t j ht, loadUsername_content hjson hallowed]
    rfl
  · intro u hu
    by_cases heq : u = t
    · subst heq
      exact h.owns u hholds
    · exact h.owns u (hsame u heq ▸ hu)
  · intro u j' hu
    by_cases heq : u = t
    · subst heq
      exact absurd (hself.symm.trans hu) (by simp)
    · exact absurd (hsame u heq ▸ hu) fun hclosed => h.quiet hholds heq hclosed
  · intro u j' hu
    by_cases heq : u = t
    · subst heq
      change ((s.setPc u (.leaving j true)).pc u).job = some j' at hu
      rw [hself, Pc.job] at hu
      exact Option.some_inj.mp hu ▸ hallowed
    · exact h.allowed u j' (hsame u heq ▸ hu)
  · intro hoff
    have hbusy : s.pc t ≠ .idle := by simp [ht]
    exact absurd hoff (h.running hbusy)
  · intro hstep hnone
    by_cases heq : t = 0
    · subst heq
      change ((s.setPc 0 (.leaving j true)).pc 0).renamed = none at hnone
      rw [hself] at hnone
      exact absurd hnone (Option.some_ne_none j)
    · rw [hclear heq] at hstep
      exact absurd hstep not_inStep_clear
  · intro j' hj'
    change ((s.setPc t (.leaving j true)).pc 0).renamed = some j' at hj'
    by_cases heq : t = 0
    · subst heq
      rw [hself] at hj'
      exact Option.some_inj.mp hj' ▸ justCommitted_cons
    · rw [hsame 0 (Ne.symm heq)] at hj'
      rw [hclear heq]
      exact (h.pending j' hj').clear
  · intro later earlier uname heq
    cases later with
    | nil => exact absurd (List.cons.inj heq).1 (by simp)
    | cons f later => exact h.reports later earlier uname (List.cons.inj heq).2

/-- The worker takes the name that it has saved. -/
theorem Inv.saved (h : Inv json mac initial s) {uname : List Byte}
    (ht : s.pc t = .returned (.save uname) true) :
    Inv json mac initial { s.setPc t .idle with
      memory := some uname, log := .saved uname :: s.log } := by
  obtain ⟨rfl, hvalid⟩ : t = 0 ∧ validName uname = true :=
    h.allowed t (.save uname) (by rw [ht, Pc.job])
  have hpending : JustCommitted (.save uname) s.log := h.pending _ (by rw [ht, Pc.renamed])
  have hself : (s.setPc 0 .idle).pc 0 = .idle := by simp [State.setPc]
  have hsame : ∀ u, u ≠ 0 → (s.setPc 0 .idle).pc u = s.pc u :=
    fun u hu => Function.update_of_ne hu ..
  constructor
  · exact h.stored
  · intro u hu
    by_cases heq : u = 0
    · subst heq
      change ((s.setPc 0 .idle).pc 0).holds = true at hu
      rw [hself] at hu
      exact absurd hu Bool.false_ne_true
    · exact h.owns u (hsame u heq ▸ hu)
  · intro u j hu
    by_cases heq : u = 0
    · subst heq
      exact absurd (hself.symm.trans hu) (by simp)
    · exact h.tmp u j (hsame u heq ▸ hu)
  · intro u j hu
    by_cases heq : u = 0
    · subst heq
      change ((s.setPc 0 .idle).pc 0).job = some j at hu
      rw [hself] at hu
      exact absurd hu (by simp [Pc.job])
    · exact h.allowed u j (hsame u heq ▸ hu)
  · exact fun hoff => absurd hoff (Option.some_ne_none uname)
  · intro hstep _ m hm
    cases Option.some_inj.mp hm
    have hstored := hpending.storedAfter mac (hstep.tail rfl) initial
    have hne := (ne_zero_of_validName hvalid).2.1
    change _ = loadUsername json mac true s.file
    rw [h.stored, hstored, getUsername, if_neg fun hlen => hne (List.length_eq_zero_iff.mp hlen),
      Job.name]
  · intro j hj
    change ((s.setPc 0 .idle).pc 0).renamed = some j at hj
    rw [hself] at hj
    exact absurd hj (by simp [Pc.renamed])
  · intro later earlier uname' heq
    cases later with
    | nil =>
        obtain ⟨hhead, htail⟩ := List.cons.inj heq
        cases Event.saved.inj hhead
        exact htail ▸ hpending
    | cons f later => exact h.reports later earlier uname' (List.cons.inj heq).2

theorem State.step_boot {readOk : Bool} (h : s.step json mac (.boot readOk) = some s') :
    s.memory = none ∧ s' = { s with
      memory := some (loadUsername json mac readOk s.file), log := .booted readOk :: s.log } := by
  unfold State.step at h
  simp only [Option.ite_none_left_eq_some, Option.some_inj] at h
  obtain ⟨hoff, rfl⟩ := h
  exact ⟨by simpa using hoff, rfl⟩

theorem State.step_call (h : s.step json mac (.call t j) = some s') :
    s.memory ≠ none ∧ s.pc t = .idle ∧ j.AllowedFor t ∧ s' = s.setPc t (.entering j) := by
  unfold State.step at h
  simp only [Option.ite_none_right_eq_some, Option.some_inj] at h
  obtain ⟨⟨hon, hidle, hallowed⟩, rfl⟩ := h
  exact ⟨Option.isSome_iff_ne_none.mp hon, hidle, hallowed, rfl⟩

theorem State.step_enter {opened : Bool} (h : s.step json mac (.enter t opened) = some s') :
    ∃ j, s.pc t = .entering j ∧ s.lock = none ∧
      s' = if opened then { s.setPc t (.writing j) with lock := some t, tmp := some [] }
        else { s.setPc t (.leaving j false) with lock := some t } := by
  unfold State.step at h
  simp only [] at h
  split at h
  · next j ht hlock =>
      refine ⟨j, ht, hlock, ?_⟩
      split_ifs at h ⊢ <;> exact (Option.some_inj.mp h).symm
  · cases h

/-- The worker or a reset comes back from the call. -/
theorem Inv.finished (h : Inv json mac initial s) {ok : Bool} (ht : s.pc t = .returned j ok) :
    Inv json mac initial (s.finishStep t j ok) := by
  have hallowed : j.AllowedFor t := h.allowed t j (by rw [ht, Pc.job])
  have hbusy : s.pc t ≠ .idle := by simp [ht]
  have hidle : j = .clear ∨ ok = false → Inv json mac initial (s.setPc t .idle) := by
    intro hcase
    apply h.wait (h.running hbusy)
    case hfree => rfl
    case hjob => exact fun _ hjob => absurd hjob (by simp [Pc.job])
    case hrenamed =>
      intro h0
      rcases hcase with rfl | rfl
      · exact absurd h0 hallowed
      · rw [ht]
        rfl
  cases j with
  | clear => exact hidle (.inl rfl)
  | save uname =>
      cases ok with
      | true => exact h.saved ht
      | false =>
          obtain ⟨rfl, -⟩ := hallowed
          have hnone : ((s.setPc 0 .idle).pc 0).renamed = none := by simp [State.setPc, Pc.renamed]
          exact (hidle (.inr rfl)).note rfl rfl rfl rfl hnone (by simp)

theorem inv_step (hjson : json.Documented) (s : State) (a : Action) (s' : State)
    (h : Inv json mac initial s) (hs : s.step json mac a = some s') :
    Inv json mac initial s' := by
  cases a with
  | boot readOk =>
      obtain ⟨hoff, rfl⟩ := State.step_boot hs
      exact h.booted hoff readOk
  | cut =>
      cases Option.some_inj.mp hs
      exact h.cut
  | call t j =>
      obtain ⟨hon, hidle, hallowed, rfl⟩ := State.step_call hs
      apply h.wait hon
      case hfree => rfl
      case hjob => exact fun j' hj' => Option.some_inj.mp hj' ▸ hallowed
      case hrenamed => simp [hidle, Pc.renamed]
  | refused t =>
      unfold State.step at hs
      simp only [] at hs
      split at hs
      · next j ht =>
          cases Option.some_inj.mp hs
          have hbusy : s.pc t ≠ .idle := by simp [ht]
          apply h.wait (h.running hbusy)
          case hfree => rfl
          case hjob => exact fun j' hj' => h.allowed t j' (by rw [ht]; exact hj')
          case hrenamed => simp [ht, Pc.renamed]
      · cases hs
  | enter t opened =>
      obtain ⟨j, ht, hlock, rfl⟩ := State.step_enter hs
      have hbusy : s.pc t ≠ .idle := by simp [ht]
      have hnone : ∀ u, (s.pc u).holds = false := by
        intro u
        rw [← Bool.not_eq_true]
        intro hholds
        exact Option.some_ne_none u ((h.owns u hholds).symm.trans hlock)
      cases opened with
      | true =>
          apply h.move (h.running hbusy) fun _ => rfl
          case hlock => exact fun u _ hholds => absurd (hnone u) (by simp [hholds])
          case htmp => simp
          case htmp' => exact fun u j _ hclosed => absurd (hnone u) (by simp [hclosed, Pc.holds])
          case hjob => exact fun j' hj' => h.allowed t j' (by rw [ht]; exact hj')
          case hrenamed => simp [ht, Pc.renamed]
      | false =>
          apply h.move (h.running hbusy) fun _ => rfl
          case hlock => exact fun u _ hholds => absurd (hnone u) (by simp [hholds])
          case htmp => simp
          case htmp' => exact fun _ _ _ _ => rfl
          case hjob => exact fun j' hj' => h.allowed t j' (by rw [ht]; exact hj')
          case hrenamed => simp [ht, Pc.renamed]
  | write t text =>
      unfold State.step at hs
      simp only [] at hs
      split at hs
      · next j ht =>
          cases Option.some_inj.mp hs
          have hholds : (s.pc t).holds = true := by rw [ht, Pc.holds]
          have hpc : s.setPc t (.writing j) = s := by
            rw [State.setPc, ← ht, Function.update_eq_self]
          have hmoved : Inv json mac initial
              { s.setPc t (.writing j) with tmp := some text, lock := s.lock } := by
            apply h.hold hholds fun _ => h.owns t hholds
            case htmp => simp
            case hjob => rw [ht]
            case hrenamed => rw [ht]
          rwa [hpc] at hmoved
      · cases hs
  | close t full =>
      unfold State.step at hs
      simp only [] at hs
      split at hs
      · next j ht =>
          cases Option.some_inj.mp hs
          have hholds : (s.pc t).holds = true := by rw [ht, Pc.holds]
          apply h.hold hholds fun _ => h.owns t hholds
          case htmp =>
            intro j' hj'
            obtain ⟨rfl, rfl⟩ := Pc.closed.inj hj'
            exact if_pos rfl
          case hjob => rw [ht]; rfl
          case hrenamed => simp [ht, Pc.renamed]
      · cases hs
  | rename t ok removed =>
      unfold State.step at hs
      simp only [] at hs
      split at hs
      · next j full ht =>
          cases Option.some_inj.mp hs
          have hholds : (s.pc t).holds = true := by rw [ht, Pc.holds]
          by_cases hok : (full && ok) = true
          · obtain ⟨rfl, rfl⟩ := Bool.and_eq_true_iff.mp hok
            exact h.committed hjson ht
          · rw [State.renameStep, if_neg hok]
            apply h.hold hholds fun _ => h.owns t hholds
            case htmp => simp
            case hjob => rw [ht]; rfl
            case hrenamed => simp [ht, Pc.renamed]
      · cases hs
  | leave t =>
      unfold State.step at hs
      simp only [] at hs
      split at hs
      · next j ok ht =>
          cases Option.some_inj.mp hs
          have hholds : (s.pc t).holds = true := by rw [ht, Pc.holds]
          apply h.hold hholds
          case howns => exact fun hreturned => absurd hreturned Bool.false_ne_true
          case htmp => simp
          case hjob => rw [ht]; rfl
          case hrenamed => cases ok <;> rw [ht] <;> rfl
      · cases hs
  | finish t =>
      unfold State.step at hs
      simp only [] at hs
      split at hs
      · next j ok ht =>
          cases Option.some_inj.mp hs
          exact h.finished ht
      · cases hs

end Invariant

/-- Whatever the tasks do and whenever the power goes, a boot finds the name that was committed
last; without a reset in between the board goes by it; and the page is told of a name only
when it was committed. -/
theorem name_survives (hjson : json.Documented) (file tmp : Option (List Byte))
    (as : List Action) (s : State)
    (hrun : Transition.exec (State.step json mac) (off file tmp) as = some s) :
    loadUsername json mac true s.file =
        storedAfter mac (loadUsername json mac true file) s.log ∧
      (InStep s.log → (s.pc 0).renamed = none → ∀ m, s.memory = some m →
        getUsername m mac = storedAfter mac (loadUsername json mac true file) s.log) ∧
      ∀ later earlier uname, s.log = later ++ .saved uname :: earlier →
        JustCommitted (.save uname) earlier := by
  have hinv : Inv json mac (loadUsername json mac true file) s :=
    Transition.exec_invariant (inv_step hjson) (inv_off file tmp) hrun
  refine ⟨hinv.stored, fun hstep hidle m hm => ?_, hinv.reports⟩
  rw [hinv.sync hstep hidle m hm, hinv.stored]

/-- The flat JSON of one string member. -/
def flatUser : UserJson where
  serializeJson := FlatJson.writeObject
  deserializeJson text :=
    (FlatJson.readObject text).map fun ms => .object (ms.map fun m => (m.1, .string m.2))

theorem flatUser_documented : flatUser.Documented where
  writes _ _ := rfl
  reads uname huname := by
    have hkey : ∀ c ∈ ascii "username", c ≠ 0 := by decide +kernel
    have hread : FlatJson.readObject (FlatJson.writeObject [(ascii "username", uname)]) =
        some [(ascii "username", uname)] :=
      FlatJson.readObject_writeObject (List.forall_mem_singleton.mpr ⟨hkey, huname⟩)
    unfold flatUser
    simp only []
    rw [hread]
    rfl

/-- The power goes after the rename, before the worker is back. -/
def cutAfterRename : List Action :=
  [.boot true, .call 0 (.save (ascii "bob")), .enter 0 true, .write 0 [0x7B], .close 0 true,
    .rename 0 true true, .cut, .boot true]

theorem name_survives_cutAfterRename :
    ∃ s, Transition.exec (State.step flatUser Payload.someMac) (off none none) cutAfterRename =
        some s ∧
      loadUsername flatUser Payload.someMac true s.file = ascii "bob" ∧
      ∀ m, s.memory = some m → getUsername m Payload.someMac = ascii "bob" := by
  refine ⟨_, rfl, ?_⟩
  obtain ⟨hfile, hmemory, -⟩ := name_survives flatUser Payload.someMac flatUser_documented none
    none cutAfterRename _ rfl
  exact ⟨hfile, hmemory ⟨rfl, by decide⟩ rfl⟩

end Username

end Voyager
