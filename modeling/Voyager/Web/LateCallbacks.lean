import Mathlib.Data.List.Perm.Basic
import Voyager.Web.SerialTransfer

/-!
# Late callbacks of a transfer

A callback that outlives its transfer cannot tell that another one is active by now. As long
as none of them decides anything in that time, the page runs one Kermit session at a time,
with the file of the active transfer, and only its own callbacks start and end it.
-/

namespace Voyager

namespace Web

namespace SerialTransfer

open State

/-! ## One transfer at a time -/

/-- An event fits what happened before it: a session is started and a transfer is ended by the
transfer's own callbacks, and a sender starts when its `file_tx_go` was acknowledged, with the
name and the bytes of its own file. -/
def Event.Fits (log : List Event) : Event → Prop
  | started active cause none => cause = active
  | started active cause (some (name, data)) =>
      cause = active ∧ .goAcked active ∈ log ∧ active.file = some ⟨name, data⟩
  | ended active (some cause) => cause = active
  | _ => True

/-- Every event of a log, the newest first, fits the ones before it. -/
def Orderly : List Event → Prop
  | [] => True
  | e :: log => e.Fits log ∧ Orderly log

structure OneAtATime (s : State) : Prop where
  sessions : s.sessions.length ≤ 1
  orderly : Orderly s.log

/-- The callback starts a session or ends the active transfer when it fires in this way. -/
def decides (s : State) : Callback → Outcome → Bool
  | .fileReader .., .read ok => !ok
  | .settleReceiver _, .elapsed => true
  | .loraTx (.go ..) retries, .tx r =>
      if r.ok then s.selectedFile.isSome else r.fatal || retries = 0
  | _, _ => false

/-- While a transfer is active, what decides is its own. -/
def Timely (s : State) : Action → Prop
  | .callback i o => ∀ c ∈ s.pending[i]?, s.transferActive = true → decides s c o = true →
      c.transfer = some s.current
  | _ => True

theorem decides_pending (s : State) (cs : List Callback) (c : Callback) (o : Outcome) :
    decides { s with pending := cs } c o = decides s c o := by
  unfold decides
  rfl

instance (s : State) : ∀ a, Decidable (Timely s a)
  | .callback i o => inferInstanceAs (Decidable (∀ c ∈ s.pending[i]?, s.transferActive = true →
      decides s c o = true → c.transfer = some s.current))
  | .enterPage | .leavePage | .opened _ | .linkLost | .disconnect | .refresh | .setRole _
  | .selectFile _ | .invite _ | .choose _ | .start | .cancel | .reset | .accept .. | .loraRx ..
  | .completed .. => inferInstanceAs (Decidable True)

theorem Orderly.of_suffix {older log : List Event} (h : Orderly log) (hs : older <:+ log) :
    Orderly older := by
  induction log with
  | nil => rwa [List.suffix_nil.mp hs]
  | cons e log ih =>
      rcases List.suffix_cons_iff.mp hs with rfl | hs
      · exact h
      · exact ih h.2 hs

/-! ## The invariant -/

/-- What was captured of the file of a transfer is the file's. -/
def Handshake.Own : Handshake → Prop
  | join .. => True
  | go transfer _ data _ => transfer.file.map File.data = some data

def Callback.Own : Callback → Prop
  | fileReader transfer _ file => transfer.file = some file
  | settleSender transfer _ data => transfer.file.map File.data = some data
  | settleReceiver _ => True
  | loraTx m _ | retryTimer m _ => m.Own

/-- How many callbacks of a transfer will fire. -/
def State.awaited (s : State) (t : Transfer) : ℕ :=
  s.pending.countP fun c => c.transfer = some t

/-- The active transfer waits for one callback or has one session, never both, and no other
transfer has a session. -/
structure Inv (s : State) : Prop where
  early : ∀ c ∈ s.pending, ∀ t ∈ c.transfer, t.number ≤ s.current.number
  own : ∀ c ∈ s.pending, c.Own
  single : s.transferActive = true → s.awaited s.current + s.sessions.length ≤ 1
  idle : s.transferActive = false → s.sessions = []
  held : ∀ k ∈ s.sessions, s.kermitInstance = some k.id ∧ k.transfer = s.current
  selected : s.transferActive = true → ∀ file ∈ s.current.file, s.selectedFile = some file
  hidden : s.transferActive = true → ∀ d ∈ s.dom, d.senderHidden = true
  orderly : Orderly s.log

theorem inv_opened : Inv State.opened where
  early _ hc := absurd hc List.not_mem_nil
  own _ hc := absurd hc List.not_mem_nil
  single h := nomatch h
  idle _ := rfl
  held _ hk := absurd hk List.not_mem_nil
  selected h := nomatch h
  hidden h := nomatch h
  orderly := trivial

variable {s t : State} {c : Callback} {cause : Option Transfer}

theorem Inv.oneAtATime (h : Inv s) : OneAtATime s where
  sessions := by
    cases hactive : s.transferActive with
    | false => rw [h.idle hactive]; exact Nat.zero_le 1
    | true => exact Nat.le_trans (Nat.le_add_left _ _) (h.single hactive)
  orderly := h.orderly

/-- A session that has not completed is the only one. -/
theorem Inv.sessions_eq (h : Inv s) {k : Session} (hk : k ∈ s.sessions) : s.sessions = [k] := by
  have hlen := h.oneAtATime.sessions
  match hs : s.sessions with
  | [] =>
      rw [hs] at hk
      exact absurd hk List.not_mem_nil
  | [k'] =>
      rw [hs] at hk
      rw [List.mem_singleton.mp hk]
  | _ :: _ :: _ =>
      rw [hs] at hlen
      exact absurd hlen (by simp)

/-! ## What leaves the transfer alone -/

/-- The two states agree on everything that concerns the transfer. -/
structure SameTransfer (s t : State) : Prop where
  active : t.transferActive = s.transferActive
  pending : t.pending = s.pending
  sessions : t.sessions = s.sessions
  kermit : t.kermitInstance = s.kermitInstance
  selected : t.selectedFile = s.selectedFile
  current : t.current = s.current
  log : t.log = s.log

theorem Inv.of_same (h : Inv s) (hst : SameTransfer s t)
    (hhidden : t.transferActive = true → ∀ d ∈ t.dom, d.senderHidden = true) : Inv t where
  early := by
    rw [hst.pending, hst.current]
    exact h.early
  own := by
    rw [hst.pending]
    exact h.own
  single := by
    rw [State.awaited, hst.active, hst.pending, hst.current, hst.sessions]
    exact h.single
  idle := by
    rw [hst.active, hst.sessions]
    exact h.idle
  held := by
    rw [hst.sessions, hst.kermit, hst.current]
    exact h.held
  selected := by
    rw [hst.active, hst.current, hst.selected]
    exact h.selected
  hidden := hhidden
  orderly := by
    rw [hst.log]
    exact h.orderly

theorem updateUI_hidden (s : State) (hactive : s.transferActive = true) :
    ∀ d ∈ s.updateUI.dom, d.senderHidden = true := by
  intro d hd
  rw [updateUI, Option.mem_def, Option.map_eq_some_iff] at hd
  obtain ⟨d', -, rfl⟩ := hd
  simp [hactive]

theorem Inv.updateUI (h : Inv s) (hst : SameTransfer s t) : Inv t.updateUI :=
  h.of_same ⟨hst.active, hst.pending, hst.sessions, hst.kermit, hst.selected, hst.current, hst.log⟩
    (updateUI_hidden t)

theorem Inv.refresh (h : Inv s) : Inv s.updateUI :=
  h.updateUI ⟨rfl, rfl, rfl, rfl, rfl, rfl, rfl⟩

/-! ## The end of a transfer -/

/-- Without a session, the transfer may end. -/
theorem Inv.deactivate (h : Inv s) (hsessions : s.sessions = [])
    (hactive : t.transferActive = false) (hpending : t.pending = s.pending)
    (hsame : t.sessions = s.sessions) (hcurrent : t.current = s.current)
    (horderly : Orderly t.log) : Inv t where
  early := by
    rw [hpending, hcurrent]
    exact h.early
  own := by
    rw [hpending]
    exact h.own
  single ha := absurd ha (by rw [hactive]; exact Bool.false_ne_true)
  idle _ := hsame.trans hsessions
  held k hk := by
    rw [hsame, hsessions] at hk
    exact absurd hk List.not_mem_nil
  selected ha := absurd ha (by rw [hactive]; exact Bool.false_ne_true)
  hidden ha := absurd ha (by rw [hactive]; exact Bool.false_ne_true)
  orderly := horderly

theorem Orderly.ended (h : Orderly s.log) (hcause : ∀ t ∈ cause, t = s.current) :
    Orderly (.ended s.current cause :: s.log) := by
  cases cause with
  | none => exact ⟨trivial, h⟩
  | some t => exact ⟨hcause t rfl, h⟩

theorem Inv.endActive (h : Inv s) (hsessions : s.sessions = [])
    (hcause : s.transferActive = true → ∀ t ∈ cause, t = s.current) (success : Bool) :
    Inv (s.endActive success cause) := by
  refine h.deactivate hsessions rfl rfl rfl rfl ?_
  rw [State.endActive]
  dsimp only
  split
  · rename_i hactive
    exact ⟨trivial, h.orderly.ended (hcause hactive)⟩
  · exact h.orderly

/-- A session that is done is gone. -/
theorem Inv.clear (h : Inv s) (data : Option (List Byte)) :
    Inv { s with sessions := [], kermitInstance := none, receivedData := data } where
  early := h.early
  own := h.own
  single ha := Nat.le_trans (Nat.le_add_right _ _) (h.single ha)
  idle _ := rfl
  held _ hk := absurd hk List.not_mem_nil
  selected := h.selected
  hidden := h.hidden
  orderly := h.orderly

theorem Inv.onComplete (h : Inv s) {k : Session} (hk : k ∈ s.sessions)
    (hcause : ∀ t ∈ cause, t = s.current) (ok : Bool) (data : Option (List Byte)) :
    Inv (s.onComplete cause k ok data) ∧ (s.onComplete cause k ok data).sessions = [] := by
  have hnil : s.sessions.filter (fun k' => k'.id ≠ k.id) = [] := by
    rw [h.sessions_eq hk]
    simp
  rw [State.onComplete]
  simp only [hnil]
  split
  · exact ⟨(h.clear s.receivedData).endActive rfl (fun _ => hcause) _, rfl⟩
  · exact ⟨(h.clear _).endActive rfl (fun _ => hcause) _, rfl⟩

/-- After `kermitInstance.cancel()` no session is left. -/
theorem Inv.cancelKermit (h : Inv s) :
    Inv (s.cancelKermit none) ∧ (s.cancelKermit none).sessions = [] := by
  rw [State.cancelKermit]
  split
  · rename_i k hfind
    obtain ⟨id, -, hfind⟩ := Option.bind_eq_some_iff.mp hfind
    exact h.onComplete (List.mem_of_find?_eq_some hfind)
      (fun t ht => absurd ht (Option.not_mem_none t)) _ _
  · rename_i hfind
    refine ⟨h, List.eq_nil_iff_forall_not_mem.mpr fun k hk => ?_⟩
    rw [(h.held k hk).1, Option.bind_some, List.find?_eq_none] at hfind
    exact hfind k hk (decide_eq_true rfl)

/-- The user or the serial port ends the transfer. -/
theorem Inv.endTransfer_cancel (h : Inv s) (success : Bool) :
    Inv (s.endTransfer success true none) ∧ (s.endTransfer success true none).sessions = [] := by
  obtain ⟨hc, hnil⟩ := h.cancelKermit
  exact ⟨hc.endActive hnil (fun _ t ht => absurd ht (Option.not_mem_none t)) success, hnil⟩

theorem Inv.init (h : Inv s) : Inv s.init := by
  have hloaded : Inv { s with dom := some Dom.loaded } := by
    refine h.of_same ⟨rfl, rfl, rfl, rfl, rfl, rfl, rfl⟩ fun _ d hd => ?_
    rw [← Option.mem_some_iff.mp hd]
    rfl
  obtain ⟨hc, hnil⟩ := hloaded.cancelKermit
  rw [State.init]
  apply Inv.refresh
  refine hc.deactivate hnil rfl rfl rfl rfl ?_
  dsimp only
  split
  · exact ⟨trivial, hc.orderly⟩
  · exact hc.orderly

/-! ## The start of a transfer and of a session -/

theorem Inv.note (h : Inv s) {e : Event} (he : e.Fits s.log) : Inv (s.note e) where
  early := h.early
  own := h.own
  single := h.single
  idle := h.idle
  held := h.held
  selected := h.selected
  hidden := h.hidden
  orderly := ⟨he, h.orderly⟩

/-- A new transfer has a number that no callback knows. -/
theorem Inv.awaited_activate (h : Inv s) (file : Option File) :
    s.awaited (s.activate file).current = 0 := by
  rw [State.awaited, List.countP_eq_zero]
  intro c hc heq
  exact absurd (h.early c hc _ (of_decide_eq_true heq)) (Nat.not_le_of_lt (Nat.lt_succ_self _))

theorem Inv.activate (h : Inv s) (hidle : s.transferActive = false) {file : Option File}
    (hfile : ∀ f ∈ file, s.selectedFile = some f) (dom : Option Dom)
    (hdom : ∀ d ∈ dom, d.senderHidden = true) : Inv { s.activate file with dom := dom } where
  early c hc t ht := Nat.le_succ_of_le (h.early c hc t ht)
  own := h.own
  single _ := by
    have hsum : s.awaited (s.activate file).current + s.sessions.length ≤ 1 := by
      rw [h.awaited_activate, h.idle hidle]
      exact Nat.zero_le 1
    exact hsum
  idle ha := nomatch ha
  held k hk := absurd hk (by rw [State.activate, h.idle hidle]; exact List.not_mem_nil)
  selected _ := hfile
  hidden _ := hdom
  orderly := h.orderly

theorem awaited_append (t : Transfer) (s : State) (c : Callback) :
    (s.await c).awaited t = s.awaited t + if c.transfer = some t then 1 else 0 := by
  rw [State.awaited, State.await, List.countP_append, List.countP_singleton]
  simp [State.awaited]

theorem Inv.await (h : Inv s) (hearly : ∀ t ∈ c.transfer, t.number ≤ s.current.number)
    (hown : c.Own)
    (hroom : s.transferActive = true → c.transfer = some s.current →
      s.awaited s.current + s.sessions.length = 0) : Inv (s.await c) where
  early c' hc' := by
    rcases List.mem_append.mp hc' with hc' | hc'
    · exact h.early c' hc'
    · rw [List.mem_singleton.mp hc']
      exact hearly
  own c' hc' := by
    rcases List.mem_append.mp hc' with hc' | hc'
    · exact h.own c' hc'
    · rw [List.mem_singleton.mp hc']
      exact hown
  single ha := by
    have hsingle := h.single ha
    have hsum : s.awaited s.current + (if c.transfer = some s.current then 1 else 0) +
        s.sessions.length ≤ 1 := by
      split
      · rename_i hcurrent
        have hzero := hroom ha hcurrent
        omega
      · exact hsingle
    exact (awaited_append s.current s c).symm ▸ hsum
  idle := h.idle
  held := h.held
  selected := h.selected
  hidden := h.hidden
  orderly := h.orderly

theorem Inv.startSession (h : Inv s) (hactive : s.transferActive = true)
    (hroom : s.awaited s.current + s.sessions.length = 0) {sends : Option (List Byte × List Byte)}
    (hfits : (Event.started s.current s.current sends).Fits s.log) :
    Inv (s.startSession s.current sends) := by
  obtain ⟨hzero, hlen⟩ := Nat.add_eq_zero_iff.mp hroom
  have hnil : (s.startSession s.current sends).sessions = [⟨s.nextSession, s.current, sends⟩] := by
    rw [State.startSession, List.length_eq_zero_iff.mp hlen]
    rfl
  exact {
    early := h.early
    own := h.own
    single := fun _ => by
      have hsum : s.awaited s.current + (s.startSession s.current sends).sessions.length ≤ 1 := by
        rw [hzero, hnil]
        exact Nat.le_refl 1
      exact hsum
    idle := fun ha => Bool.noConfusion (hactive.symm.trans ha)
    held := fun k hk => by
      rw [hnil, List.mem_singleton] at hk
      rw [hk]
      exact ⟨rfl, rfl⟩
    selected := h.selected
    hidden := h.hidden
    orderly := ⟨hfits, h.orderly⟩ }

/-! ## The callbacks -/

/-- The sender starts with the file of the active transfer. -/
theorem Inv.started_fits (h : Inv s) (hactive : s.transferActive = true) {file : File}
    {data : List Byte} (hfile : s.selectedFile = some file)
    (hown : s.current.file.map File.data = some data) (hacked : .goAcked s.current ∈ s.log) :
    (Event.started s.current s.current (some (file.name, data))).Fits s.log := by
  obtain ⟨own, hcurrent, hdata⟩ := Option.map_eq_some_iff.mp hown
  have hsame : own = file := Option.some_inj.mp ((h.selected hactive own hcurrent).symm.trans hfile)
  refine ⟨rfl, hacked, ?_⟩
  rw [hcurrent, hsame, ← hdata, hsame]

theorem Inv.answered_go (h : Inv s) {transfer : Transfer} {p : Participant} {data txId : List Byte}
    (hown : transfer.file.map File.data = some data) (ok : Bool)
    (hroom : s.transferActive = true → transfer = s.current →
      s.awaited s.current + s.sessions.length = 0)
    (htimely : s.transferActive = true → (ok = true → s.selectedFile.isSome = true) →
      transfer = s.current) :
    Inv (s.answered ok (.go transfer p data txId)) := by
  rw [State.answered]
  cases hactive : s.transferActive with
  | false =>
      cases ok with
      | false => simpa [hactive] using h
      | true => simpa [hactive, State.note] using h.note (e := .goAcked transfer) trivial
  | true =>
      cases ok with
      | false =>
          have hcurrent := htimely hactive fun ho => nomatch ho
          have hnil := List.length_eq_zero_iff.mp
            (Nat.add_eq_zero_iff.mp (hroom hactive hcurrent)).2
          have hend : Inv (s.endActive false (some transfer)) :=
            h.endActive hnil (fun _ t ht => (Option.mem_some_iff.mp ht).symm.trans hcurrent) false
          simpa [hactive, State.endTransfer] using hend
      | true =>
          have hnote := h.note (e := .goAcked transfer) trivial
          cases hfile : s.selectedFile with
          | none => simpa [hactive, hfile, State.note] using hnote
          | some file =>
              obtain rfl := htimely hactive fun _ => by rw [hfile]; rfl
              have hstart := hnote.startSession hactive (hroom hactive rfl)
                (hnote.started_fits hactive hfile hown List.mem_cons_self)
              simpa [hactive, hfile, State.note] using hstart

theorem Inv.answered_join (h : Inv s) (txId nonce : List Byte) (ok : Bool) :
    Inv (s.answered ok (.join txId nonce)) := by
  rw [State.answered]
  split
  · exact h.updateUI ⟨rfl, rfl, rfl, rfl, rfl, rfl, rfl⟩
  · exact h

theorem Inv.loraTxRetry (h : Inv s) {m : Handshake} {retries : ℕ} {r : TxResult} (hown : m.Own)
    (hearly : ∀ t ∈ m.transfer, t.number ≤ s.current.number)
    (hroom : s.transferActive = true → m.transfer = some s.current →
      s.awaited s.current + s.sessions.length = 0)
    (htimely : s.transferActive = true → decides s (.loraTx m retries) (.tx r) = true →
      m.transfer = some s.current) :
    Inv (s.loraTxRetry m retries r) := by
  rw [State.loraTxRetry]
  split
  · rename_i hlast
    cases m with
    | join txId nonce => exact h.answered_join txId nonce r.ok
    | go transfer p data txId =>
        refine h.answered_go hown r.ok (fun ha ht => hroom ha (congrArg some ht))
          fun ha hsel => Option.some_inj.mp (htimely ha ?_)
        rw [decides]
        cases hok : r.ok with
        | true => exact hsel hok
        | false => simpa [hok] using hlast
  · split
    · rename_i hcancelled
      cases m with
      | join txId nonce => exact h.answered_join txId nonce false
      | go transfer p data txId =>
          have hidle : s.transferActive = false := by simpa [State.isCancelled] using hcancelled
          have hnot : s.transferActive ≠ true := by simp [hidle]
          exact h.answered_go hown false (fun ha => absurd ha hnot) fun ha => absurd ha hnot
    · exact h.await hearly hown hroom

theorem Inv.fire {o : Outcome} (h : Inv s) (hearly : ∀ t ∈ c.transfer, t.number ≤ s.current.number)
    (hown : c.Own)
    (hroom : s.transferActive = true → c.transfer = some s.current →
      s.awaited s.current + s.sessions.length = 0)
    (htimely : s.transferActive = true → decides s c o = true → c.transfer = some s.current)
    (hf : s.fire c o = some t) : Inv t := by
  unfold State.fire at hf
  split at hf
  · rename_i transfer p file ok
    cases ok with
    | false =>
        cases hf
        refine h.endActive (s := s) ?_ ?_ false
        · cases hactive : s.transferActive with
          | false => exact h.idle hactive
          | true =>
              have hzero := hroom hactive (htimely hactive rfl)
              exact List.length_eq_zero_iff.mp (Nat.add_eq_zero_iff.mp hzero).2
        · intro hactive t ht
          rw [← Option.mem_some_iff.mp ht]
          exact Option.some_inj.mp (htimely hactive rfl)
    | true =>
        rw [if_neg (by decide)] at hf
        split at hf
        · cases hf
          exact h
        · cases hf
          have hdata : transfer.file.map File.data = some file.data := by
            rw [show transfer.file = some file from hown]
            rfl
          exact (h.note (e := .fileTxStart) trivial).await hearly hdata hroom
  · rename_i transfer p data
    split at hf
    · cases hf
      exact h
    · cases hf
      exact h.await hearly hown hroom
  · rename_i transfer
    split at hf
    · cases hf
      exact h
    · rename_i hactive
      cases hf
      have hactive : s.transferActive = true := by simpa using hactive
      obtain rfl := Option.some_inj.mp (htimely hactive rfl)
      exact h.startSession hactive (hroom hactive rfl) rfl
  · cases hf
    exact h.loraTxRetry hown hearly hroom htimely
  · cases hf
    exact h.await hearly hown hroom
  · cases hf

/-- The callback that fires is taken off first. -/
theorem Inv.take (h : Inv s) {i : ℕ} (hc : s.pending[i]? = some c) :
    Inv { s with pending := s.pending.eraseIdx i } ∧
      (s.transferActive = true → c.transfer = some s.current →
        State.awaited { s with pending := s.pending.eraseIdx i } s.current +
          s.sessions.length = 0) := by
  obtain ⟨hi, rfl⟩ := List.getElem?_eq_some_iff.mp hc
  have hcount : State.awaited { s with pending := s.pending.eraseIdx i } s.current +
      (if s.pending[i].transfer = some s.current then 1 else 0) = s.awaited s.current := by
    have hperm := (List.getElem_cons_eraseIdx_perm hi).countP_eq
      fun c : Callback => decide (c.transfer = some s.current)
    rw [List.countP_cons] at hperm
    simpa only [State.awaited, decide_eq_true_eq] using hperm
  have hmem : ∀ c ∈ s.pending.eraseIdx i, c ∈ s.pending := fun c => List.mem_of_mem_eraseIdx
  refine ⟨{ h with
      early := fun c hc => h.early c (hmem c hc)
      own := fun c hc => h.own c (hmem c hc)
      single := fun ha => ?_ }, fun ha hcurrent => ?_⟩
  · have hsingle := h.single ha
    have hle : State.awaited { s with pending := s.pending.eraseIdx i } s.current ≤
        s.awaited s.current := by
      rw [← hcount]
      exact Nat.le_add_right _ _
    exact Nat.le_trans (Nat.add_le_add_right hle _) hsingle
  · have hsingle := h.single ha
    rw [if_pos hcurrent] at hcount
    omega

theorem Inv.callback (h : Inv s) {i : ℕ} {o : Outcome} (hc : s.pending[i]? = some c)
    (htimely : Timely s (.callback i o))
    (hf : State.fire { s with pending := s.pending.eraseIdx i } c o = some t) : Inv t := by
  obtain ⟨htake, hroom⟩ := h.take hc
  have hmem : c ∈ s.pending := List.mem_of_getElem? hc
  exact htake.fire (h.early c hmem) (h.own c hmem) hroom
    (fun ha hd => htimely c hc ha (by rwa [decides_pending] at hd)) hf

/-! ## The other steps -/

/-- The sender's step of the page is hidden while a transfer is active. -/
theorem Inv.idle_of_shown (h : Inv s) (hshown : ¬ s.dom.all Dom.senderHidden = true) :
    s.transferActive = false := by
  cases hactive : s.transferActive with
  | false => rfl
  | true => exact absurd ((Option.all_eq_true _ _).mpr (h.hidden hactive)) hshown

/-- Without a transfer the selected file matters to none. -/
theorem Inv.selectFile (h : Inv s) (hidle : s.transferActive = false) (file : Option File) :
    Inv { s with selectedFile := file } :=
  { h with selected := fun ha => absurd ha (by simp [hidle]) }

/-- The transfer that was just started waits for nothing yet. -/
theorem Inv.shown (h : Inv s) (hidle : s.transferActive = false) {file : Option File}
    (hfile : ∀ f ∈ file, s.selectedFile = some f)
    (ht : (s.activate file).showProgressStep = some t) :
    Inv t ∧ t.current.file = file ∧ t.awaited t.current + t.sessions.length = 0 := by
  obtain ⟨d, -, rfl⟩ := Option.map_eq_some_iff.mp ht
  refine ⟨h.activate hidle hfile _ fun d' hd' => ?_, rfl, ?_⟩
  · rw [← Option.mem_some_iff.mp hd']
  · exact Nat.add_eq_zero_iff.mpr ⟨h.awaited_activate file, List.length_eq_zero_iff.mpr (h.idle hidle)⟩

theorem Inv.thrown (h : Inv s) (hidle : s.transferActive = false) {file : Option File}
    (hfile : ∀ f ∈ file, s.selectedFile = some f)
    (ht : (s.activate file).showProgressStep = none) : Inv (s.activate file) := by
  have hdom : s.dom = none := Option.map_eq_none_iff.mp ht
  exact h.activate hidle hfile s.dom fun d hd => absurd hd (hdom ▸ Option.not_mem_none d)

theorem Inv.startTransfer (h : Inv s) : Inv s.startTransfer := by
  rw [State.startTransfer]
  split
  · rename_i file p hfile hp
    split
    · exact h
    · rename_i hguard
      rw [Bool.or_eq_true, not_or, Bool.not_eq_true, Bool.not_eq_true] at hguard
      have hown : ∀ f ∈ some file, s.selectedFile = some f := fun f hf => hfile.trans hf
      dsimp only
      split
      · rename_i u hu
        obtain ⟨hinv, hcurrent, hroom⟩ := h.shown hguard.2 hown hu
        refine hinv.await (fun t ht => ?_) hcurrent fun _ _ => hroom
        exact Nat.le_of_eq (congrArg Transfer.number (Option.mem_some_iff.mp ht).symm)
      · rename_i hu
        exact h.thrown hguard.2 hown hu
  · exact h

theorem Inv.startReceiving (h : Inv s) (hidle : s.transferActive = false) :
    Inv s.startReceiving := by
  have hown : ∀ f ∈ (none : Option File), s.selectedFile = some f :=
    fun f hf => absurd hf (Option.not_mem_none f)
  rw [State.startReceiving]
  split
  · rename_i u hu
    obtain ⟨hinv, -, hroom⟩ := h.shown hidle hown hu
    refine (hinv.note (e := .fileTxStart) trivial).await (fun t ht => ?_) trivial fun _ _ => hroom
    exact Nat.le_of_eq (congrArg Transfer.number (Option.mem_some_iff.mp ht).symm)
  · rename_i hu
    exact h.thrown hidle hown hu

theorem Inv.handleLoraAction (h : Inv s) (action : LoraAction) (msg : LoraMsg) :
    Inv (s.handleLoraAction action msg) := by
  cases action with
  | fileTxInvite =>
      rw [State.handleLoraAction, State.onInvite]
      split
      · exact h
      · exact h.updateUI ⟨rfl, rfl, rfl, rfl, rfl, rfl, rfl⟩
  | fileTxJoin =>
      rw [State.handleLoraAction, State.onJoin]
      split
      · exact h
      · split
        · exact h
        · exact h.updateUI ⟨rfl, rfl, rfl, rfl, rfl, rfl, rfl⟩
  | fileTxGo =>
      rw [State.handleLoraAction, State.onGo]
      split
      · exact h
      · split
        · exact h
        · rename_i hguard
          split
          · exact h.updateUI ⟨rfl, rfl, rfl, rfl, rfl, rfl, rfl⟩
          · rw [Bool.or_eq_true, not_or, Bool.not_eq_true, Bool.not_eq_true] at hguard
            exact h.startReceiving hguard.2

theorem Inv.acceptInvitation (h : Inv s) (inv : Invitation) (nonce : List Byte) :
    Inv (s.acceptInvitation inv nonce) := by
  rw [State.acceptInvitation]
  split
  · exact h
  · have hjoined : Inv { s with joined := some ⟨inv.txId, nonce, inv⟩ }.updateUI :=
      h.updateUI ⟨rfl, rfl, rfl, rfl, rfl, rfl, rfl⟩
    exact hjoined.await (c := .loraTx (.join inv.txId nonce) 2)
      (fun t ht => absurd ht (Option.not_mem_none t)) trivial fun _ hc => nomatch hc

/-- A step keeps the invariant. -/
theorem Inv.step {a : Action} (h : Inv s) (htimely : Timely s a) (hstep : s.step a = some t) :
    Inv t := by
  cases a with
  | enterPage =>
      cases hstep
      exact h.init
  | leavePage =>
      cases hstep
      exact h.of_same ⟨rfl, rfl, rfl, rfl, rfl, rfl, rfl⟩
        fun _ d hd => absurd hd (Option.not_mem_none d)
  | opened ok =>
      cases hstep
      exact h.updateUI ⟨rfl, rfl, rfl, rfl, rfl, rfl, rfl⟩
  | linkLost =>
      have hoff : Inv { s with connected := false } := h.of_same ⟨rfl, rfl, rfl, rfl, rfl, rfl, rfl⟩ h.hidden
      rw [State.step] at hstep
      split at hstep
      · cases hstep
        exact h
      · cases hstep
        split
        · exact (hoff.endTransfer_cancel false).1.refresh
        · exact hoff.refresh
  | disconnect =>
      obtain ⟨-, hstep⟩ := Option.ite_none_left_eq_some.mp hstep
      cases hstep
      split
      · have hend := (h.endTransfer_cancel false).1
        exact hend.of_same ⟨rfl, rfl, rfl, rfl, rfl, rfl, rfl⟩ hend.hidden
      · exact h.of_same ⟨rfl, rfl, rfl, rfl, rfl, rfl, rfl⟩ h.hidden
  | refresh =>
      cases hstep
      exact h.refresh
  | setRole role =>
      obtain ⟨-, hstep⟩ := Option.ite_none_left_eq_some.mp hstep
      cases hstep
      exact h.updateUI ⟨rfl, rfl, rfl, rfl, rfl, rfl, rfl⟩
  | selectFile file =>
      obtain ⟨hshown, hstep⟩ := Option.ite_none_left_eq_some.mp hstep
      cases hstep
      exact (h.selectFile (h.idle_of_shown hshown) file).updateUI ⟨rfl, rfl, rfl, rfl, rfl, rfl, rfl⟩
  | invite txId =>
      obtain ⟨-, hstep⟩ := Option.ite_none_left_eq_some.mp hstep
      split at hstep
      · cases hstep
        exact h
      · cases hstep
        exact h.of_same ⟨rfl, rfl, rfl, rfl, rfl, rfl, rfl⟩ h.hidden
  | choose nonce =>
      obtain ⟨-, hstep⟩ := Option.ite_none_left_eq_some.mp hstep
      cases hstep
      exact h.updateUI ⟨rfl, rfl, rfl, rfl, rfl, rfl, rfl⟩
  | start =>
      obtain ⟨-, hstep⟩ := Option.ite_none_left_eq_some.mp hstep
      cases hstep
      exact h.startTransfer
  | cancel =>
      obtain ⟨-, hstep⟩ := Option.ite_none_left_eq_some.mp hstep
      cases hstep
      exact (h.endTransfer_cancel false).1
  | reset =>
      obtain ⟨-, hstep⟩ := Option.ite_none_left_eq_some.mp hstep
      cases hstep
      exact h.updateUI ⟨rfl, rfl, rfl, rfl, rfl, rfl, rfl⟩
  | accept inv nonce =>
      obtain ⟨-, hstep⟩ := Option.ite_none_left_eq_some.mp hstep
      cases hstep
      exact h.acceptInvitation inv nonce
  | loraRx action msg =>
      cases hstep
      exact h.handleLoraAction action msg
  | callback i o =>
      obtain ⟨c, hc, hf⟩ := Option.bind_eq_some_iff.mp hstep
      exact h.callback hc htimely hf
  | completed id ok data =>
      obtain ⟨k, hfind, hstep⟩ := Option.map_eq_some_iff.mp hstep
      cases hstep
      have hk := List.mem_of_find?_eq_some hfind
      refine (h.onComplete hk (fun t ht => ?_) ok data).1
      rw [← Option.mem_some_iff.mp ht]
      exact (h.held k hk).2

/-! ## The log only grows -/

theorem log_endActive {u : State} (hsu : s.log <:+ u.log) (success : Bool)
    (cause : Option Transfer) : s.log <:+ (u.endActive success cause).log := by
  rw [State.endActive]
  dsimp only
  split
  · exact (hsu.trans (List.suffix_cons _ _)).trans (List.suffix_cons _ _)
  · exact hsu

theorem log_onComplete (s : State) (cause : Option Transfer) (k : Session) (ok : Bool)
    (data : Option (List Byte)) : s.log <:+ (s.onComplete cause k ok data).log := by
  rw [State.onComplete]
  dsimp only
  split
  · exact log_endActive List.suffix_rfl ok cause
  · exact log_endActive List.suffix_rfl (ok && data.isSome) cause

theorem log_cancelKermit (s : State) (cause : Option Transfer) :
    s.log <:+ (s.cancelKermit cause).log := by
  rw [State.cancelKermit]
  split
  · exact log_onComplete _ _ _ _ _
  · exact List.suffix_rfl

theorem log_endTransfer (s : State) (success cancel : Bool) (cause : Option Transfer) :
    s.log <:+ (s.endTransfer success cancel cause).log := by
  cases cancel with
  | true => exact log_endActive (log_cancelKermit s cause) success cause
  | false => exact log_endActive List.suffix_rfl success cause

theorem log_init (s : State) : s.log <:+ s.init.log := by
  refine (log_cancelKermit { s with dom := some Dom.loaded } none).trans ?_
  rw [State.init]
  dsimp only [State.updateUI]
  split
  · exact List.suffix_cons _ _
  · exact List.suffix_rfl

theorem log_showProgressStep (ht : s.showProgressStep = some t) : t.log = s.log := by
  obtain ⟨d, -, rfl⟩ := Option.map_eq_some_iff.mp ht
  rfl

theorem log_startTransfer (s : State) : s.startTransfer.log = s.log := by
  rw [State.startTransfer]
  split
  · split
    · rfl
    · dsimp only
      split
      · rename_i u hu
        have hlog : u.log = (s.activate _).log := log_showProgressStep hu
        exact hlog
      · rfl
  · rfl

theorem log_startReceiving (s : State) : s.log <:+ s.startReceiving.log := by
  rw [State.startReceiving]
  split
  · rename_i hu
    exact (log_showProgressStep hu) ▸ List.suffix_cons _ _
  · exact List.suffix_rfl

theorem log_handleLoraAction (s : State) (action : LoraAction) (msg : LoraMsg) :
    s.log <:+ (s.handleLoraAction action msg).log := by
  cases action with
  | fileTxInvite =>
      rw [State.handleLoraAction, State.onInvite]
      split <;> exact List.suffix_rfl
  | fileTxJoin =>
      rw [State.handleLoraAction, State.onJoin]
      split
      · exact List.suffix_rfl
      · split <;> exact List.suffix_rfl
  | fileTxGo =>
      rw [State.handleLoraAction, State.onGo]
      split
      · exact List.suffix_rfl
      · split
        · exact List.suffix_rfl
        · split
          · exact List.suffix_rfl
          · exact log_startReceiving s

theorem log_answered (s : State) (ok : Bool) (m : Handshake) : s.log <:+ (s.answered ok m).log := by
  cases m with
  | join txId nonce =>
      rw [State.answered]
      split <;> exact List.suffix_rfl
  | go transfer p data txId =>
      have hnote : s.log <:+ (if ok then s.note (.goAcked transfer) else s).log := by
        split
        · exact List.suffix_cons _ _
        · exact List.suffix_rfl
      refine hnote.trans ?_
      rw [State.answered]
      generalize (if ok then s.note (.goAcked transfer) else s) = u
      split
      · exact List.suffix_rfl
      · split
        · exact log_endTransfer _ _ _ _
        · split
          · exact List.suffix_cons _ _
          · exact List.suffix_rfl

theorem log_loraTxRetry (s : State) (m : Handshake) (retries : ℕ) (r : TxResult) :
    s.log <:+ (s.loraTxRetry m retries r).log := by
  rw [State.loraTxRetry]
  split
  · exact log_answered s _ m
  · split
    · exact log_answered s _ m
    · exact List.suffix_rfl

theorem log_fire {o : Outcome} (hf : s.fire c o = some t) : s.log <:+ t.log := by
  unfold State.fire at hf
  split at hf
  · split at hf
    · cases hf
      exact log_endTransfer _ _ _ _
    · split at hf
      · cases hf
        exact List.suffix_rfl
      · cases hf
        exact List.suffix_cons _ _
  · split at hf <;> cases hf <;> exact List.suffix_rfl
  · split at hf
    · cases hf
      exact List.suffix_rfl
    · cases hf
      exact List.suffix_cons _ _
  · cases hf
    exact log_loraTxRetry _ _ _ _
  · cases hf
    exact List.suffix_rfl
  · cases hf

theorem log_step {a : Action} (hstep : s.step a = some t) : s.log <:+ t.log := by
  cases a with
  | enterPage =>
      cases hstep
      exact log_init s
  | leavePage | opened ok | refresh =>
      cases hstep
      exact List.suffix_rfl
  | linkLost =>
      rw [State.step] at hstep
      split at hstep
      · cases hstep
        exact List.suffix_rfl
      · cases hstep
        split
        · exact log_endTransfer { s with connected := false } false true none
        · exact List.suffix_rfl
  | disconnect =>
      obtain ⟨-, hstep⟩ := Option.ite_none_left_eq_some.mp hstep
      cases hstep
      split
      · exact log_endTransfer s false true none
      · exact List.suffix_rfl
  | setRole _ | selectFile _ | choose _ | reset =>
      obtain ⟨-, hstep⟩ := Option.ite_none_left_eq_some.mp hstep
      cases hstep
      exact List.suffix_rfl
  | invite txId =>
      obtain ⟨-, hstep⟩ := Option.ite_none_left_eq_some.mp hstep
      split at hstep <;> cases hstep <;> exact List.suffix_rfl
  | start =>
      obtain ⟨-, hstep⟩ := Option.ite_none_left_eq_some.mp hstep
      cases hstep
      exact (log_startTransfer s).symm ▸ List.suffix_rfl
  | cancel =>
      obtain ⟨-, hstep⟩ := Option.ite_none_left_eq_some.mp hstep
      cases hstep
      exact log_endTransfer s false true none
  | accept inv nonce =>
      obtain ⟨-, hstep⟩ := Option.ite_none_left_eq_some.mp hstep
      cases hstep
      rw [State.acceptInvitation]
      split <;> exact List.suffix_rfl
  | loraRx action msg =>
      cases hstep
      exact log_handleLoraAction s action msg
  | callback i o =>
      obtain ⟨c, -, hf⟩ := Option.bind_eq_some_iff.mp hstep
      have hlog : State.log { s with pending := s.pending.eraseIdx i } <:+ t.log := log_fire hf
      exact hlog
  | completed id ok data =>
      obtain ⟨k, -, hstep⟩ := Option.map_eq_some_iff.mp hstep
      cases hstep
      exact log_onComplete s _ k ok data

theorem log_exec {as : List Action} (hrun : Transition.exec State.step s as = some t) :
    s.log <:+ t.log := by
  have hstep : ∀ u a v, s.log <:+ u.log → State.step u a = some v → s.log <:+ v.log :=
    fun _ _ _ hsu huv => hsu.trans (log_step huv)
  exact Transition.exec_invariant hstep List.suffix_rfl hrun

/-! ## A late callback that decides -/

theorem answered_go_of_late {transfer : Transfer} {p : Participant} {data txId : List Byte}
    {ok : Bool} (hactive : s.transferActive = true)
    (hselected : ok = true → s.selectedFile.isSome = true) (hlate : transfer ≠ s.current) :
    ¬ Orderly (s.answered ok (.go transfer p data txId)).log := by
  rw [State.answered]
  cases ok with
  | false =>
      simp only [Bool.false_eq_true, if_false, hactive, Bool.not_true, Bool.not_false, if_true,
        State.endTransfer, State.endActive]
      exact fun horderly => hlate horderly.2.1
  | true =>
      obtain ⟨file, hfile⟩ := Option.isSome_iff_exists.mp (hselected rfl)
      simp only [if_true, State.note, hactive, Bool.not_true, Bool.false_eq_true, if_false, hfile,
        State.startSession]
      exact fun horderly => hlate horderly.1.1

theorem fire_of_late {o : Outcome} (hactive : s.transferActive = true)
    (hdecides : decides s c o = true) (hlate : c.transfer ≠ some s.current)
    (hf : s.fire c o = some t) : ¬ Orderly t.log := by
  unfold decides at hdecides
  split at hdecides
  · rename_i transfer p file ok
    have hfailed : ok = false := by simpa using hdecides
    subst hfailed
    cases hf
    simp only [State.endTransfer, Bool.false_eq_true, if_false, State.endActive, hactive, if_true]
    exact fun horderly => hlate (congrArg some horderly.2.1)
  · rename_i transfer
    simp only [State.fire, hactive, Bool.not_true, Bool.false_eq_true, if_false] at hf
    cases hf
    exact fun horderly => hlate (congrArg some horderly.1)
  · rename_i transfer p data txId retries r
    have hlast : (r.ok || r.fatal || decide (retries = 0)) = true := by
      cases hok : r.ok with
      | true => rfl
      | false => simpa [hok] using hdecides
    cases hf
    rw [State.loraTxRetry, if_pos hlast]
    refine answered_go_of_late hactive (fun hok => ?_) fun heq => hlate (congrArg some heq)
    rwa [if_pos hok] at hdecides
  · cases hdecides

theorem step_of_late {a : Action} (hlate : ¬ Timely s a) (hstep : s.step a = some t) :
    ¬ Orderly t.log := by
  cases a with
  | callback i o =>
      obtain ⟨c, hc, hf⟩ := Option.bind_eq_some_iff.mp hstep
      simp only [Timely, not_forall] at hlate
      obtain ⟨c', hc', hactive, hdecides, hne⟩ := hlate
      obtain rfl := Option.some_inj.mp (hc.symm.trans hc')
      rw [← decides_pending s (s.pending.eraseIdx i)] at hdecides
      exact fire_of_late (s := { s with pending := s.pending.eraseIdx i }) hactive hdecides hne hf
  | _ => exact absurd trivial hlate

theorem meets_of_orderly {as : List Action} (h : Inv s)
    (hrun : Transition.exec State.step s as = some t) (horderly : Orderly t.log) :
    Transition.Meets State.step Timely s as := by
  induction as generalizing s with
  | nil => trivial
  | cons a as ih =>
      obtain ⟨u, hu, hrest⟩ := Transition.exec_cons_eq_some_iff.mp hrun
      have htimely : Timely s a := by
        by_contra hlate
        exact step_of_late hlate hu (horderly.of_suffix (log_exec hrest))
      refine ⟨htimely, fun u' hu' => ?_⟩
      obtain rfl := Option.some_inj.mp (hu.symm.trans hu')
      exact ih (h.step htimely hu) hrest

/-! ## Runs -/

/-- In a run from a fresh page there is one transfer at a time exactly when no callback of
an earlier transfer decides anything while a later one is active. -/
theorem oneAtATime_iff {as : List Action}
    (hrun : Transition.exec State.step State.opened as = some s) :
    OneAtATime s ↔ Transition.Meets State.step Timely State.opened as := by
  constructor
  · intro h
    exact meets_of_orderly inv_opened hrun h.orderly
  · intro hmeets
    have h : Inv s := Transition.exec_invariant_of_meets
      (fun _ _ _ hu htimely hstep => hu.step htimely hstep) inv_opened hmeets hrun
    exact h.oneAtATime

def reportFile : File := ⟨ascii "report.pdf", [1, 2, 3]⟩

def photoFile : File := ⟨ascii "photo.jpg", [7, 8]⟩

/-- The user selects a file, invites, and starts with the participant that joins. -/
def startWith (file : File) (txId nonce : List Byte) : List Action :=
  [.selectFile (some file), .invite txId,
    .loraRx .fileTxJoin ⟨txId, nonce, ascii "bob", ascii "24:6F", [], 0⟩, .start]

/-- The `file_tx_go` of the first transfer is under way when the user cancels it. -/
def cancelledStart : List Action :=
  [.enterPage, .opened true] ++ startWith reportFile (ascii "tx1") (ascii "n1") ++
    [.callback 0 (.read true), .callback 0 .elapsed, .cancel]

/-- Its acknowledgement comes before the next transfer is started. -/
def earlyAckRun : List Action :=
  cancelledStart ++ [.callback 0 (.tx ⟨true, false⟩), .reset] ++
    startWith photoFile (ascii "tx2") (ascii "n2") ++
    [.callback 0 (.read true), .callback 0 .elapsed, .callback 0 (.tx ⟨true, false⟩)]

/-- Its acknowledgement comes while the next transfer reads its file. -/
def lateAckRun : List Action :=
  cancelledStart ++ [.reset] ++ startWith photoFile (ascii "tx2") (ascii "n2") ++
    [.callback 0 (.tx ⟨true, false⟩), .callback 0 (.read true), .callback 0 .elapsed,
      .callback 0 (.tx ⟨true, false⟩)]

theorem oneAtATime_iff_earlyAckRun :
    ∃ s, Transition.exec State.step State.opened earlyAckRun = some s ∧ OneAtATime s ∧
      s.sessions = [⟨0, ⟨2, some photoFile⟩, some (photoFile.name, photoFile.data)⟩] := by
  have hview : (Transition.exec State.step State.opened earlyAckRun).map State.sessions =
      some [⟨0, ⟨2, some photoFile⟩, some (photoFile.name, photoFile.data)⟩] := by decide +kernel
  obtain ⟨s, hrun, hsessions⟩ := Option.map_eq_some_iff.mp hview
  exact ⟨s, hrun, (oneAtATime_iff hrun).mpr (by decide +kernel), hsessions⟩

/-- The late acknowledgement starts a session with the bytes of the cancelled transfer and
the name of the active one, and a second session follows. -/
theorem lateAckRun_mixes :
    ¬ ∀ s, Transition.exec State.step State.opened lateAckRun = some s → OneAtATime s := by
  have hview : (Transition.exec State.step State.opened lateAckRun).map State.sessions =
      some [⟨0, ⟨1, some reportFile⟩, some (photoFile.name, reportFile.data)⟩,
        ⟨1, ⟨2, some photoFile⟩, some (photoFile.name, photoFile.data)⟩] := by decide +kernel
  obtain ⟨s, hrun, hsessions⟩ := Option.map_eq_some_iff.mp hview
  intro h
  have hlen := (h s hrun).sessions
  rw [hsessions] at hlen
  exact absurd hlen (by decide)

end SerialTransfer

end Web

end Voyager
