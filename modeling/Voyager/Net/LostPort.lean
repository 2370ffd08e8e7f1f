import Mathlib.Logic.Function.Basic
import Voyager.Basic
import Voyager.Library.Transition

/-!
# A serial port that is lost

A page has at most one serial port open. The read loop of its session opens and closes the
port; a goroutine reads from it, and when a read fails it starts another one that calls
`closePort`. That call closes the port that is open when it gets to run. A step is one access
to what the goroutines share.

Handles and claims are numbered, which the code does not do, to tell the port that was lost
from one that is opened later under the same name.
-/

namespace Voyager

namespace NetCore

namespace LostPort

abbrev Name := List Byte

/-- An open port, with the number of the claim it was opened under. -/
structure Handle where
  name : Name
  no : ℕ
  deriving DecidableEq, Repr

/-- Who has claimed a port: this page, with the number of its claim, or somebody else. -/
inductive Owner
  | page (no : ℕ)
  | other
  deriving DecidableEq, Repr

/-- Where a call of `closePort` stands. -/
inductive Close
  | start
  /-- It has taken the port out of the session. -/
  | taken (h : Handle)
  | released (h : Handle)
  deriving DecidableEq, Repr

/-- The port that it has taken and not released. -/
def Close.held : Close → Option Handle
  | .taken h => some h
  | .start | .released _ => none

/-- Where the read loop stands. -/
inductive Loop
  | idle
  /-- In `closePort`; `next` is the port to be opened after it. -/
  | closing (c : Close) (next : Option Name)
  | claiming (name : Name)
  /-- The port is claimed. -/
  | opening (h : Handle)
  | opened (h : Handle)
  /-- The port could not be opened or not be configured, and is closed. -/
  | givingUp (h : Handle)
  deriving DecidableEq, Repr

/-- What the page asks for. A failed write and the end of the connection close the port too. -/
inductive Request
  | openPort (name : Name)
  | closePort
  deriving DecidableEq, Repr

/-- What a call of `closePort` has done for a lost port: deleted a claim of this page, or
closed a port. -/
inductive Effect
  | released (no : ℕ)
  | closed (h : Handle)
  deriving DecidableEq, Repr

/-- `lost` holds the calls of `closePort` for lost ports, with the port that was lost, and
`effects` what they have done. `claims` is the number of claims so far. -/
structure State where
  port : Option Handle
  owners : Name → Option Owner
  claims : ℕ
  loop : Loop
  readers : List Handle
  lost : List (Handle × Close)
  effects : List (Handle × Effect)

inductive Event
  | request (r : Request)
  /-- The next step of the read loop; `ok` is whether `serial.Open` or the configuration that
  it makes is successful. -/
  | loop (ok : Bool)
  /-- A read fails, and the goroutine looks whether its port is still the one of the session. -/
  | readError (h : Handle)
  /-- The reader returns because the session is over. -/
  | readerReturns (h : Handle)
  /-- The next step of a `closePort` for a lost port. -/
  | lost (i : ℕ)
  | otherClaims (name : Name)
  | otherReleases (name : Name)
  deriving DecidableEq, Repr

variable (portKey : Name → Name)

namespace State

def boot : State :=
  { port := none, owners := fun _ => none, claims := 0, loop := .idle, readers := [], lost := [],
    effects := [] }

/-- `release`, for this page. -/
def release (s : State) (name : Name) : State :=
  match s.owners (portKey name) with
  | some (.page _) => { s with owners := Function.update s.owners (portKey name) none }
  | _ => s

/-- One step of `closePort`: where the call stands then, and `none` when it is over. -/
def closeStep (s : State) : Close → State × Option Close
  | .start =>
      match s.port with
      | none => (s, none)
      | some h => ({ s with port := none }, some (.taken h))
  | .taken h => (s.release portKey h.name, some (.released h))
  | .released _ => (s, none)

/-- What that step does, of what counts. -/
def closeEffect (s : State) : Close → Option Effect
  | .start => none
  | .taken h =>
      match s.owners (portKey h.name) with
      | some (.page no) => some (.released no)
      | _ => none
  | .released h => some (.closed h)

/-- One step of the read loop, in `closePort`. -/
def loopClose (s : State) (c : Close) (next : Option Name) : State :=
  let r := s.closeStep portKey c
  { r.1 with loop := r.2.elim (next.elim .idle .claiming) fun c => .closing c next }

/-- `claim`, and what follows in `openPort`. -/
def claim (s : State) (name : Name) : State :=
  if s.owners (portKey name) = some .other then { s with loop := .idle }
  else
    { s with
      owners := Function.update s.owners (portKey name) (some (.page s.claims))
      claims := s.claims + 1
      loop := .opening ⟨name, s.claims⟩ }

/-- The port becomes the one of the session, and its reader is started. -/
def install (s : State) (h : Handle) : State :=
  { s with port := some h, readers := s.readers ++ [h], loop := .idle }

def loopStep (s : State) (ok : Bool) : Option State :=
  match s.loop with
  | .idle => none
  | .closing c next => some (s.loopClose portKey c next)
  | .claiming name => some (s.claim portKey name)
  | .opening h => some { s with loop := if ok then .opened h else .givingUp h }
  | .opened h => some (if ok then s.install h else { s with loop := .givingUp h })
  | .givingUp h => some { s.release portKey h.name with loop := .idle }

def lostStep (s : State) (i : ℕ) : Option State :=
  match s.lost[i]? with
  | none => none
  | some (l, c) =>
      let r := s.closeStep portKey c
      some { r.1 with
        lost := r.2.elim (s.lost.eraseIdx i) fun c => s.lost.set i (l, c)
        effects := s.effects ++ ((s.closeEffect portKey c).toList.map fun e => (l, e)) }

def step (s : State) : Event → Option State
  | .request r =>
      if s.loop ≠ .idle then none
      else
        match r with
        | .openPort name =>
            if name = [] then some s else some { s with loop := .closing .start (some name) }
        | .closePort => some { s with loop := .closing .start none }
  | .loop ok => s.loopStep portKey ok
  | .readError h =>
      if h ∈ s.readers then
        some { s with
          readers := s.readers.erase h
          lost := if s.port = some h then s.lost ++ [(h, .start)] else s.lost }
      else none
  | .readerReturns h =>
      if h ∈ s.readers then some { s with readers := s.readers.erase h } else none
  | .lost i => s.lostStep portKey i
  | .otherClaims name =>
      match s.owners (portKey name) with
      | none => some { s with owners := Function.update s.owners (portKey name) (some .other) }
      | some _ => none
  | .otherReleases name =>
      match s.owners (portKey name) with
      | some .other => some { s with owners := Function.update s.owners (portKey name) none }
      | _ => none

/-- What was done for a lost port was done to that port and to its claim. -/
def OnlyLost (s : State) : Prop :=
  ∀ e ∈ s.effects, e.2 = .released e.1.no ∨ e.2 = .closed e.1

end State

/-- An open is apart from the closes of lost ports: it claims no port whose claim a close is about
to delete, and it finishes when no close has still to take a port. -/
def Apart (s : State) : Event → Prop
  | .loop ok =>
      match s.loop with
      | .claiming name =>
          s.owners (portKey name) ≠ some .other →
            ∀ c ∈ s.lost, ∀ h ∈ c.2.held, portKey h.name ≠ portKey name
      | .opened _ => ok = true → ∀ c ∈ s.lost, c.2 ≠ .start
      | _ => True
  | _ => True

variable {portKey} {s s' : State} {h : Handle}

/-! ## Claims -/

/-- A claim of this page on the port is that of the handle. -/
def OwnClaim (portKey : Name → Name) (s : State) (h : Handle) : Prop :=
  ∀ no, s.owners (portKey h.name) = some (.page no) → no = h.no

/-- This page has claimed nothing new. -/
def Fewer (s s' : State) : Prop :=
  ∀ key no, s'.owners key = some (.page no) → s.owners key = some (.page no)

theorem OwnClaim.of_fewer (hown : OwnClaim portKey s h) (hfewer : Fewer s s') :
    OwnClaim portKey s' h := fun no hno => hown no (hfewer _ no hno)

theorem fewer_of_eq (h : s'.owners = s.owners) : Fewer s s' := fun _ _ hno => h ▸ hno

/-- An entry that does not name this page is written. -/
theorem fewer_update {key : Name} {o : Option Owner} (ho : ∀ no, o ≠ some (.page no))
    (h : s'.owners = Function.update s.owners key o) : Fewer s s' := by
  intro key' no hno
  rw [h] at hno
  by_cases heq : key' = key
  · subst heq
    rw [Function.update_self] at hno
    exact absurd hno (ho no)
  · rwa [Function.update_of_ne heq] at hno

theorem fewer_release (s : State) (name : Name) : Fewer s (s.release portKey name) := by
  rw [State.release]
  split
  · exact fewer_update (fun _ => (Option.some_ne_none _).symm) rfl
  · exact fewer_of_eq rfl

/-- `release` changes the claims and nothing else. -/
theorem release_eq (s : State) (name : Name) :
    ∃ owners, s.release portKey name = { s with owners } := by
  rw [State.release]
  split
  · exact ⟨_, rfl⟩
  · exact ⟨s.owners, rfl⟩

/-! ## What a step preserves -/

/-- The read loop has taken the port, or there was none. -/
def Loop.past : Loop → Bool
  | .idle | .closing .start _ => false
  | _ => true

/-- The calls of `closePort` for lost ports. A call that has not taken a port will find its own
or none. -/
structure Closes (portKey : Name → Name) (s : State) : Prop where
  start : ∀ l, (l, Close.start) ∈ s.lost → ∀ h, s.port = some h → h = l
  taken : ∀ l h, (l, Close.taken h) ∈ s.lost → h = l ∧ OwnClaim portKey s h
  released : ∀ l h, (l, Close.released h) ∈ s.lost → h = l

/-- The port of the session, and the one that the read loop opens. -/
structure Ports (portKey : Name → Name) (s : State) : Prop where
  current : ∀ h, s.port = some h → OwnClaim portKey s h
  opening : ∀ h, s.loop = .opening h ∨ s.loop = .opened h → OwnClaim portKey s h
  past : s.loop.past = true → s.port = none

theorem Closes.of_fewer (hc : Closes portKey s) (hlost : s'.lost = s.lost)
    (hport : ∀ h, s'.port = some h → s.port = some h) (hfewer : Fewer s s') :
    Closes portKey s' where
  start l hl h hh := hc.start l (hlost ▸ hl) h (hport h hh)
  taken l h hl := ⟨(hc.taken l h (hlost ▸ hl)).1, (hc.taken l h (hlost ▸ hl)).2.of_fewer hfewer⟩
  released l h hl := hc.released l h (hlost ▸ hl)

theorem Ports.of_fewer (hp : Ports portKey s) (hloop : s'.loop = s.loop)
    (hport : ∀ h, s'.port = some h → s.port = some h) (hfewer : Fewer s s') :
    Ports portKey s' where
  current h hh := (hp.current h (hport h hh)).of_fewer hfewer
  opening h hh := (hp.opening h (hloop ▸ hh)).of_fewer hfewer
  past hpast := by
    have hnone := hp.past (hloop ▸ hpast)
    cases hport' : s'.port with
    | none => rfl
    | some h => exact absurd ((hport h hport').symm.trans hnone) (Option.some_ne_none h)

/-- The read loop goes where it has no claim. -/
theorem Ports.of_loop (hp : Ports portKey s)
    (hport : ∀ h, s'.port = some h → s.port = some h) (hfewer : Fewer s s')
    (hopening : ∀ h, s'.loop ≠ .opening h ∧ s'.loop ≠ .opened h)
    (hpast : s'.loop.past = true → s'.port = none) : Ports portKey s' where
  current h hh := (hp.current h (hport h hh)).of_fewer hfewer
  opening h hh := by
    rcases hh with hh | hh
    · exact absurd hh (hopening h).1
    · exact absurd hh (hopening h).2
  past := hpast

structure Inv (portKey : Name → Name) (s : State) : Prop where
  closes : Closes portKey s
  ports : Ports portKey s
  onlyLost : s.OnlyLost

theorem inv_boot : Inv portKey .boot where
  closes := ⟨fun _ h => absurd h List.not_mem_nil, fun _ _ h => absurd h List.not_mem_nil,
    fun _ _ h => absurd h List.not_mem_nil⟩
  ports := by
    refine ⟨fun _ h => absurd h.symm (Option.some_ne_none _), fun _ h => ?_, fun _ => rfl⟩
    rcases h with h | h
    · cases h
    · cases h
  onlyLost := fun _ h => absurd h List.not_mem_nil

/-- What a step of `closePort` leaves of the session: the port or none, and no new claims. -/
theorem closeStep_spec (portKey : Name → Name) (s : State) (c : Close) :
    ∃ port owners, (s.closeStep portKey c).1 = { s with port, owners } ∧
      (port = none ∨ port = s.port ∧ c ≠ .start) ∧ Fewer s (s.closeStep portKey c).1 := by
  cases c with
  | start =>
      cases hport : s.port with
      | none =>
          have hsame : ({ s with port := none } : State) = s := by rw [← hport]
          refine ⟨none, s.owners, ?_, Or.inl rfl, ?_⟩
          · rw [State.closeStep, hport]
            exact hsame.symm
          · rw [State.closeStep, hport]
            exact fewer_of_eq rfl
      | some h =>
          refine ⟨none, s.owners, ?_, Or.inl rfl, ?_⟩
          · rw [State.closeStep, hport]
          · rw [State.closeStep, hport]
            exact fewer_of_eq rfl
  | taken h =>
      have hrelease : ∃ owners, s.release portKey h.name = { s with owners } :=
        release_eq s h.name
      obtain ⟨owners, hrelease⟩ := hrelease
      exact ⟨s.port, owners, hrelease, Or.inr ⟨rfl, Close.noConfusion⟩, fewer_release s h.name⟩
  | released h =>
      exact ⟨s.port, s.owners, rfl, Or.inr ⟨rfl, Close.noConfusion⟩, fewer_of_eq rfl⟩

/-- Where the call stands then. -/
theorem closeStep_next {c c' : Close} (h : (s.closeStep portKey c).2 = some c') :
    (c = .start ∧ ∃ p, s.port = some p ∧ c' = .taken p) ∨
      ∃ p, c = .taken p ∧ c' = .released p := by
  cases c with
  | start =>
      rw [State.closeStep] at h
      split at h
      · cases h
      · rename_i p hport
        cases h
        exact Or.inl ⟨rfl, p, hport, rfl⟩
  | taken p =>
      cases h
      exact Or.inr ⟨p, rfl, rfl⟩
  | released p => cases h

theorem Inv.loopClose (h : Inv portKey s) {c : Close} {next : Option Name}
    (hloop : s.loop = .closing c next) : Inv portKey (s.loopClose portKey c next) := by
  obtain ⟨port, owners, hs, hport, hfewer⟩ := closeStep_spec portKey s c
  have hsub : ∀ p, port = some p → s.port = some p := by
    intro p hp
    rcases hport with hnone | ⟨hsame, -⟩
    · rw [hnone] at hp
      cases hp
    · rw [← hsame]
      exact hp
  have hgone : port = none := by
    rcases hport with hnone | ⟨hsame, hc⟩
    · exact hnone
    · rw [hsame]
      apply h.ports.past
      rw [hloop]
      cases c with
      | start => exact absurd rfl hc
      | taken p => rfl
      | released p => rfl
  rw [State.loopClose]
  rw [hs] at hfewer ⊢
  refine ⟨h.closes.of_fewer rfl hsub hfewer,
    h.ports.of_loop hsub hfewer (fun p => ?_) fun _ => hgone, h.onlyLost⟩
  cases (s.closeStep portKey c).2 with
  | none =>
      cases next with
      | none => exact ⟨Loop.noConfusion, Loop.noConfusion⟩
      | some name => exact ⟨Loop.noConfusion, Loop.noConfusion⟩
  | some c' => exact ⟨Loop.noConfusion, Loop.noConfusion⟩

/-- A new claim is not on a port whose claim is about to be deleted. -/
theorem Inv.claim (h : Inv portKey s) {name : Name} (hloop : s.loop = .claiming name)
    (hapart : Apart portKey s (.loop true)) : Inv portKey (s.claim portKey name) := by
  have hnone : s.port = none := by
    apply h.ports.past
    rw [hloop]
    rfl
  have hidle : ∀ p, (Loop.idle ≠ .opening p) ∧ (Loop.idle ≠ .opened p) :=
    fun _ => ⟨Loop.noConfusion, Loop.noConfusion⟩
  rw [State.claim]
  split
  · exact ⟨h.closes.of_fewer rfl (fun _ hp => hp) (fewer_of_eq rfl),
      h.ports.of_loop (fun _ hp => hp) (fewer_of_eq rfl) hidle (fun _ => hnone), h.onlyLost⟩
  · rename_i hfree
    rw [Apart, hloop] at hapart
    refine ⟨⟨h.closes.start, fun l p hl => ⟨(h.closes.taken l p hl).1, ?_⟩, h.closes.released⟩,
      ⟨fun p hp => ?_, fun p hp => ?_, fun _ => hnone⟩, h.onlyLost⟩
    · intro no hno
      have hne : portKey p.name ≠ portKey name := hapart hfree (l, .taken p) hl p rfl
      dsimp only at hno
      rw [Function.update_of_ne hne] at hno
      exact (h.closes.taken l p hl).2 no hno
    · exact absurd (hp.symm.trans hnone) (Option.some_ne_none p)
    · intro no hno
      rcases hp with hp | hp
      · cases hp
        dsimp only at hno
        rw [Function.update_self] at hno
        cases hno
        rfl
      · cases hp

/-- The new port is taken by no close that waits for another one. -/
theorem Inv.install (h : Inv portKey s) {p : Handle} (hloop : s.loop = .opened p)
    (hapart : Apart portKey s (.loop true)) : Inv portKey (s.install p) := by
  rw [Apart, hloop] at hapart
  have hstart : ∀ c ∈ s.lost, c.2 ≠ .start := hapart rfl
  refine ⟨⟨fun l hl => absurd rfl (hstart _ hl), h.closes.taken, h.closes.released⟩,
    ⟨fun q hq => ?_, fun q hq => ?_, fun hpast => ?_⟩, h.onlyLost⟩
  · cases hq
    exact h.ports.opening p (Or.inr hloop)
  · rcases hq with hq | hq
    · cases hq
    · cases hq
  · cases hpast

theorem Inv.loopStep (h : Inv portKey s) {ok : Bool} (hapart : Apart portKey s (.loop ok))
    (hstep : s.loopStep portKey ok = some s') : Inv portKey s' := by
  rw [State.loopStep] at hstep
  split at hstep
  · cases hstep
  · rename_i c next hloop
    cases hstep
    exact h.loopClose hloop
  · rename_i name hloop
    cases hstep
    refine h.claim hloop ?_
    rw [Apart, hloop] at hapart ⊢
    exact hapart
  · rename_i p hloop
    cases hstep
    have hnone : s.port = none := h.ports.past (by rw [hloop]; rfl)
    refine ⟨h.closes.of_fewer rfl (fun _ hp => hp) (fewer_of_eq rfl),
      ⟨h.ports.current, fun q hq => ?_, fun _ => hnone⟩, h.onlyLost⟩
    have hown : OwnClaim portKey s p := h.ports.opening p (Or.inl hloop)
    cases ok with
    | true =>
        rcases hq with hq | hq
        · cases hq
        · cases hq
          exact hown
    | false =>
        rcases hq with hq | hq
        · cases hq
        · cases hq
  · rename_i p hloop
    cases hstep
    cases ok with
    | true => exact h.install hloop hapart
    | false =>
        have hnone : s.port = none := h.ports.past (by rw [hloop]; rfl)
        exact ⟨h.closes.of_fewer rfl (fun _ hp => hp) (fewer_of_eq rfl),
          h.ports.of_loop (fun _ hp => hp) (fewer_of_eq rfl)
            (fun _ => ⟨Loop.noConfusion, Loop.noConfusion⟩) (fun _ => hnone), h.onlyLost⟩
  · rename_i p hloop
    cases hstep
    have hnone : s.port = none := h.ports.past (by rw [hloop]; rfl)
    have hfewer : Fewer s (s.release portKey p.name) := fewer_release s p.name
    obtain ⟨owners, hrelease⟩ : ∃ owners, s.release portKey p.name = { s with owners } :=
      release_eq s p.name
    rw [hrelease] at hfewer ⊢
    exact ⟨h.closes.of_fewer rfl (fun _ hp => hp) hfewer,
      h.ports.of_loop (fun _ hp => hp) hfewer (fun _ => ⟨Loop.noConfusion, Loop.noConfusion⟩)
        (fun _ => hnone), h.onlyLost⟩

/-- What the step does for a lost port is done to that port. -/
theorem Inv.closeEffect (h : Inv portKey s) {l : Handle} {c : Close} (hl : (l, c) ∈ s.lost)
    {e : Effect} (he : s.closeEffect portKey c = some e) : e = .released l.no ∨ e = .closed l := by
  cases c with
  | start => cases he
  | taken p =>
      obtain ⟨rfl, hown⟩ := h.closes.taken l p hl
      rw [State.closeEffect] at he
      split at he
      · rename_i no hno
        cases he
        rw [hown no hno]
        exact Or.inl rfl
      · cases he
  | released p =>
      cases he
      rw [h.closes.released l p hl]
      exact Or.inr rfl

theorem Inv.lostStep (h : Inv portKey s) {i : ℕ} (hstep : s.lostStep portKey i = some s') :
    Inv portKey s' := by
  rw [State.lostStep] at hstep
  split at hstep
  · cases hstep
  · rename_i l c hi
    have hl : (l, c) ∈ s.lost := List.mem_of_getElem? hi
    obtain ⟨port, owners, hs, hport, hfewer⟩ := closeStep_spec portKey s c
    have hsub : ∀ p, port = some p → s.port = some p := by
      intro p hp
      rcases hport with hnone | ⟨hsame, -⟩
      · rw [hnone] at hp
        cases hp
      · rw [← hsame]
        exact hp
    -- a call in the new list was there before, or it is this one at its next place
    have hmem : ∀ l' c', (l', c') ∈ (s.closeStep portKey c).2.elim (s.lost.eraseIdx i)
        (fun c => s.lost.set i (l, c)) →
          (l', c') ∈ s.lost ∨ l' = l ∧ (s.closeStep portKey c).2 = some c' := by
      intro l' c' hin
      cases hnext : (s.closeStep portKey c).2 with
      | none =>
          rw [hnext] at hin
          exact Or.inl (List.mem_of_mem_eraseIdx hin)
      | some c'' =>
          rw [hnext] at hin
          rcases List.mem_or_eq_of_mem_set hin with hin | heq
          · exact Or.inl hin
          · cases heq
            exact Or.inr ⟨rfl, rfl⟩
    dsimp only at hstep
    rw [Option.some.injEq] at hstep
    rw [hs] at hfewer hstep
    subst hstep
    refine ⟨⟨fun l' hin p hp => ?_, fun l' p hin => ?_, fun l' p hin => ?_⟩,
      ⟨fun p hp => (h.ports.current p (hsub p hp)).of_fewer hfewer,
        fun p hp => (h.ports.opening p hp).of_fewer hfewer, fun hpast => ?_⟩, ?_⟩
    · rcases hmem l' _ hin with hold | ⟨-, hnext⟩
      · exact h.closes.start l' hold p (hsub p hp)
      · rcases closeStep_next hnext with ⟨-, _, -, hno⟩ | ⟨_, -, hno⟩
        · cases hno
        · cases hno
    · rcases hmem l' _ hin with hold | ⟨rfl, hnext⟩
      · exact ⟨(h.closes.taken l' p hold).1, (h.closes.taken l' p hold).2.of_fewer hfewer⟩
      · rcases closeStep_next hnext with ⟨rfl, q, hq, heq⟩ | ⟨_, -, hno⟩
        · cases heq
          exact ⟨h.closes.start l' hl p hq, (h.ports.current p hq).of_fewer hfewer⟩
        · cases hno
    · rcases hmem l' _ hin with hold | ⟨rfl, hnext⟩
      · exact h.closes.released l' p hold
      · rcases closeStep_next hnext with ⟨-, _, -, hno⟩ | ⟨q, rfl, heq⟩
        · cases hno
        · cases heq
          exact (h.closes.taken l' p hl).1
    · rcases hport with hnone | ⟨hsame, -⟩
      · exact hnone
      · exact hsame.trans (h.ports.past hpast)
    · intro e he
      rcases List.mem_append.mp he with he | he
      · exact h.onlyLost e he
      · obtain ⟨e', he', rfl⟩ := List.mem_map.mp he
        exact h.closeEffect hl (Option.mem_toList.mp he')

theorem Inv.step {e : Event} (h : Inv portKey s) (hapart : Apart portKey s e)
    (hstep : s.step portKey e = some s') : Inv portKey s' := by
  cases e with
  | request r =>
      rw [State.step.eq_def] at hstep
      dsimp only at hstep
      split at hstep
      · cases hstep
      · have hclosing : ∀ next, Inv portKey { s with loop := .closing .start next } := fun next =>
          ⟨h.closes.of_fewer rfl (fun _ hp => hp) (fewer_of_eq rfl),
            h.ports.of_loop (fun _ hp => hp) (fewer_of_eq rfl)
              (fun _ => ⟨Loop.noConfusion, Loop.noConfusion⟩)
              (fun hpast => absurd hpast Bool.false_ne_true), h.onlyLost⟩
        split at hstep
        · split at hstep
          · cases hstep
            exact h
          · cases hstep
            exact hclosing _
        · cases hstep
          exact hclosing none
  | loop ok => exact h.loopStep hapart hstep
  | readError p =>
      rw [State.step] at hstep
      split at hstep
      · rw [Option.some.injEq] at hstep
        subst hstep
        have hports : ∀ lost readers, Ports portKey { s with lost, readers } := fun _ _ =>
          ⟨h.ports.current, h.ports.opening, h.ports.past⟩
        refine ⟨?_, hports _ _, h.onlyLost⟩
        by_cases hcurrent : s.port = some p
        · refine ⟨fun l hl q hq => ?_, fun l q hl => ?_, fun l q hl => ?_⟩
          all_goals
            dsimp only at hl
            rw [if_pos hcurrent] at hl
            rcases List.mem_append.mp hl with hl | hl
          · exact h.closes.start l hl q hq
          · cases List.mem_singleton.mp hl
            exact Option.some.inj (hq.symm.trans hcurrent)
          · exact h.closes.taken l q hl
          · cases List.mem_singleton.mp hl
          · exact h.closes.released l q hl
          · cases List.mem_singleton.mp hl
        · exact h.closes.of_fewer (if_neg hcurrent) (fun _ hq => hq) (fewer_of_eq rfl)
      · cases hstep
  | readerReturns p =>
      rw [State.step] at hstep
      split at hstep
      · cases hstep
        exact ⟨h.closes.of_fewer rfl (fun _ hq => hq) (fewer_of_eq rfl),
          h.ports.of_fewer rfl (fun _ hq => hq) (fewer_of_eq rfl), h.onlyLost⟩
      · cases hstep
  | lost i => exact h.lostStep hstep
  | otherClaims name =>
      rw [State.step] at hstep
      split at hstep
      · cases hstep
        have hfewer : Fewer s { s with
            owners := Function.update s.owners (portKey name) (some .other) } :=
          fewer_update (fun no heq => by cases heq) rfl
        exact ⟨h.closes.of_fewer rfl (fun _ hq => hq) hfewer,
          h.ports.of_fewer rfl (fun _ hq => hq) hfewer, h.onlyLost⟩
      · cases hstep
  | otherReleases name =>
      rw [State.step] at hstep
      split at hstep
      · cases hstep
        have hfewer : Fewer s { s with
            owners := Function.update s.owners (portKey name) none } :=
          fewer_update (fun no => (Option.some_ne_none _).symm) rfl
        exact ⟨h.closes.of_fewer rfl (fun _ hq => hq) hfewer,
          h.ports.of_fewer rfl (fun _ hq => hq) hfewer, h.onlyLost⟩
      · cases hstep

/-! ## Lost ports and other ports -/

/-- As long as opens are apart from the closes of lost ports, such a close closes and releases
the port that was lost. -/
theorem onlyLost_of_apart {events : List Event}
    (hapart : Transition.Meets (State.step portKey) (Apart portKey) .boot events)
    (hrun : Transition.exec (State.step portKey) .boot events = some s) : s.OnlyLost :=
  (Transition.exec_invariant_of_meets (fun _ _ _ h hapart hstep => h.step hapart hstep) inv_boot
    hapart hrun).onlyLost

instance (portKey : Name → Name) (s : State) : DecidablePred (Apart portKey s)
  | .loop ok =>
      match h : s.loop with
      | .claiming name =>
          decidable_of_iff (s.owners (portKey name) ≠ some .other →
            ∀ c ∈ s.lost, ∀ h ∈ c.2.held, portKey h.name ≠ portKey name)
            (by rw [Apart, h])
      | .opened _ =>
          decidable_of_iff (ok = true → ∀ c ∈ s.lost, c.2 ≠ .start) (by rw [Apart, h])
      | .idle => isTrue (by rw [Apart, h]; trivial)
      | .closing _ _ => isTrue (by rw [Apart, h]; trivial)
      | .opening _ => isTrue (by rw [Apart, h]; trivial)
      | .givingUp _ => isTrue (by rw [Apart, h]; trivial)
  | .request _ | .readError _ | .readerReturns _ | .lost _ | .otherClaims _
  | .otherReleases _ => isTrue trivial

/-- The page opens a port; the steps of the read loop when no port is open. -/
def opens (name : Name) : List Event :=
  [.request (.openPort name), .loop true, .loop true, .loop true, .loop true]

/-- The port is lost and closed, and the page opens it again. -/
def lostAndOpened : List Event :=
  opens (ascii "COM3") ++ [.readError ⟨ascii "COM3", 0⟩, .lost 0, .lost 0, .lost 0] ++
    opens (ascii "COM3")

theorem onlyLost_of_apart_lostAndOpened :
    ∃ s, Transition.exec (State.step id) .boot lostAndOpened = some s ∧
      s.port = some ⟨ascii "COM3", 1⟩ ∧ s.effects.length = 2 ∧ s.OnlyLost := by
  have hview : (Transition.exec (State.step id) .boot lostAndOpened).map
      (fun s => (s.port, s.effects.length)) = some (some ⟨ascii "COM3", 1⟩, 2) := by
    decide +kernel
  obtain ⟨s, hs, hfields⟩ := Option.map_eq_some_iff.mp hview
  rw [Prod.mk.injEq] at hfields
  have hapart : Transition.Meets (State.step id) (Apart id) .boot lostAndOpened := by
    decide +kernel
  exact ⟨s, hs, hfields.1, hfields.2, onlyLost_of_apart hapart hs⟩

/-- The page opens another port after the read error, and before the close has run. -/
def reopened : List Event :=
  opens (ascii "COM3") ++ [.readError ⟨ascii "COM3", 0⟩, .request (.openPort (ascii "COM4")),
    .loop true, .loop true, .loop true, .loop true, .loop true, .loop true, .lost 0, .lost 0,
    .lost 0]

theorem not_onlyLost :
    ¬ ∀ events s, Transition.exec (State.step id) .boot events = some s → s.OnlyLost := by
  intro h
  have hview : (Transition.exec (State.step id) .boot reopened).map
      (fun s => (s.port, s.effects)) =
        some (none, [(⟨ascii "COM3", 0⟩, .released 1),
          (⟨ascii "COM3", 0⟩, .closed ⟨ascii "COM4", 1⟩)]) := by
    decide +kernel
  obtain ⟨s, hs, heffects⟩ := Option.map_eq_some_iff.mp hview
  rw [Prod.mk.injEq] at heffects
  have hown := h reopened s hs (⟨ascii "COM3", 0⟩, .released 1) (by rw [heffects.2]; simp)
  rcases hown with hown | hown
  · cases hown
  · cases hown

end LostPort

end NetCore

end Voyager
