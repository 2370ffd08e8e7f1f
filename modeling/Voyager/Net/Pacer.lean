import Voyager.Library.Mealy
import Voyager.Net.ClampMss

/-!
# The pacer of the PC helper

The radio carries a few frames a second, the adapter offers tens of packets a second. The
pacer between them is a short queue of two lanes: interactive packets go before bulk ones and
are dropped last, and a packet that waited too long is not sent at all. The board's reports
of a filling queue slow the pacer down, and quiet brings it back.
-/

namespace Voyager

namespace NetCore

def pacerMaxQueued : ℕ := 10
def pacerMaxFactor : ℕ := 4000

/-- Three seconds; times are in nanoseconds. -/
def pacerMaxAge : ℤ := 3 * 1000000000

/-- Whether a packet should go before bulk data. -/
def interactive (p : List Byte) : Bool :=
  if p.length < 20 then true
  else
    let ihl := headerLen p
    if byteAt p 9 = 1 then true
    else if byteAt p 9 = 17 then
      -- DNS
      if p.length ≥ ihl + 4 then
        decide (uint16At p ihl = 53 ∨ uint16At p (ihl + 2) = 53)
      else false
    else if byteAt p 9 = 6 then
      if p.length < ihl + 20 then true
      else if byteAt p (ihl + 13) &&& 0x07 ≠ 0 then true
      else
        let doff := (byteAt p (ihl + 12) >>> 4).toNat * 4
        decide ((p.length : ℤ) - ihl - doff ≤ 64)
    else false

/-- A queued packet: what goes on the serial line, how long it is on the air, when it came. -/
structure PacedPkt where
  frame : List Byte
  airLen : ℕ
  pushedAt : ℤ
  deriving DecidableEq, Repr

inductive Lane where
  | hi | lo
  deriving DecidableEq, Repr

/-- The pacer. Each of `push`, `pop` and `close` holds its mutex, and `Dropped` would take
`2 ^ 64` drops to come round. -/
structure Pacer where
  hi : List PacedPkt
  lo : List PacedPkt
  closed : Bool
  queued : ℕ
  dropped : ℕ
  factor : ℕ
  lastBusy : ℤ
  deriving DecidableEq, Repr

def newPacer : Pacer :=
  { hi := [], lo := [], closed := false, queued := 0, dropped := 0, factor := 1000, lastBusy := 0 }

namespace Pacer

/-- The packets of a lane, the oldest first. -/
def lane (p : Pacer) : Lane → List PacedPkt
  | .hi => p.hi
  | .lo => p.lo

/-- `len(p.hi) + len(p.lo)`. -/
def size (p : Pacer) : ℕ := p.hi.length + p.lo.length

/-- One turn of the loop of `backoff`: the swap of the factor `f` it has read works when the
factor is still `f`; otherwise the loop goes round. -/
def backoff (p : Pacer) (f : ℕ) (now : ℤ) : Pacer :=
  let n := f * 3 / 2
  let n := if n > pacerMaxFactor then pacerMaxFactor else n
  if p.factor = f then { p with factor := n, lastBusy := now } else p

/-- One turn of the loop of `recover`. -/
def recover (p : Pacer) (f : ℕ) : Pacer :=
  let n := f * 95 / 100
  let n := if n < 1000 then 1000 else n
  if p.factor = f then { p with factor := n } else p

/-- The last steps of `push`: the packet goes to the end of its lane. -/
def enqueue (p : Pacer) (l : Lane) (pk : PacedPkt) : Pacer :=
  let p : Pacer := match l with
    | .hi => { p with hi := p.hi ++ [pk] }
    | .lo => { p with lo := p.lo ++ [pk] }
  { p with queued := p.size }

/-- The lane a packet belongs to. -/
def laneOf (ip : List Byte) : Lane := if interactive ip then .hi else .lo

/-- The queued form of a packet that comes at the time `now`. -/
def paced (ip frame : List Byte) (now : ℤ) : PacedPkt :=
  { frame := frame, airLen := ip.length, pushedAt := now }

/-- `push`: queues one IP packet. -/
def push (p : Pacer) (ip frame : List Byte) (now : ℤ) : Pacer :=
  if p.closed then p
  else if p.size ≥ pacerMaxQueued then
    -- tail drop of bulk; else room is made, from the bulk lane if it has any
    if ¬ interactive ip then { p with dropped := p.dropped + 1 }
    else if p.lo.length > 0 then
      enqueue { p with lo := p.lo.tail, dropped := p.dropped + 1 } (laneOf ip)
        (paced ip frame now)
    else
      enqueue { p with hi := p.hi.tail, dropped := p.dropped + 1 } (laneOf ip)
        (paced ip frame now)
  else enqueue p (laneOf ip) (paced ip frame now)

/-- The packet `pop` takes out of a pacer that is not empty. -/
def take (p : Pacer) : Option (Lane × PacedPkt × Pacer) :=
  match p.hi, p.lo with
  | pk :: hi, lo => some (.hi, pk, { p with hi := hi, queued := hi.length + lo.length })
  | [], pk :: lo => some (.lo, pk, { p with lo := lo, queued := lo.length })
  | [], [] => none

/-- A packet that `pop` returns, its lane, and the time read just before. -/
structure Popped where
  lane : Lane
  pkt : PacedPkt
  now : ℤ
  deriving DecidableEq, Repr

/-- What a call of `pop` does before it returns or waits. -/
inductive PopResult where
  | packet (out : Popped)
  | stopped
  | waits
  deriving DecidableEq, Repr

/-- The packet a pop returns, if it returns one. -/
def PopResult.returned : PopResult → List Popped
  | .packet out => [out]
  | .stopped => []
  | .waits => []

theorem size_of_take {p p' : Pacer} {l : Lane} {pk : PacedPkt} (h : p.take = some (l, pk, p')) :
    p.size = p'.size + 1 := by
  unfold take at h
  split at h
  · cases h
    simp only [size, *, List.length_cons]
    omega
  · cases h
    simp only [size, *, List.length_cons, List.length_nil]
    omega
  · cases h

/-- `pop`, with the clock as its turns read it. A pop that waits goes on, when a push wakes it,
as a new one would: its loop keeps nothing. -/
def pop (p : Pacer) (clock : ℕ → ℤ) : Pacer × PopResult :=
  if p.closed then (p, .stopped)
  else match _h : p.take with
    | none => (p, .waits)
    | some (l, pk, p') =>
        if clock 0 - pk.pushedAt > pacerMaxAge then
          pop { p' with dropped := p'.dropped + 1 } fun k => clock (k + 1)
        else (p', .packet { lane := l, pkt := pk, now := clock 0 })
termination_by p.size
decreasing_by
  have hsize := size_of_take _h
  simp only [size] at hsize ⊢
  omega

def close (p : Pacer) : Pacer := { p with closed := true, hi := [], lo := [] }

inductive Action where
  | push (ip frame : List Byte) (now : ℤ)
  | pop (clock : ℕ → ℤ)
  | backoff (f : ℕ) (now : ℤ)
  | recover (f : ℕ)
  | close

/-- One action, and the packet it returns if it returns one. -/
def step (p : Pacer) : Action → Pacer × List Popped
  | .push ip frame now => (p.push ip frame now, [])
  | .pop clock => ((p.pop clock).1, (p.pop clock).2.returned)
  | .backoff f now => (p.backoff f now, [])
  | .recover f => (p.recover f, [])
  | .close => (p.close, [])

/-! ## What each operation does -/

theorem backoff_eq (p : Pacer) (f : ℕ) (now : ℤ) :
    ∃ n b, p.backoff f now = { p with factor := n, lastBusy := b } := by
  rw [backoff]
  split
  · exact ⟨_, _, rfl⟩
  · exact ⟨p.factor, p.lastBusy, rfl⟩

theorem recover_eq (p : Pacer) (f : ℕ) : ∃ n, p.recover f = { p with factor := n } := by
  rw [recover]
  split
  · exact ⟨_, rfl⟩
  · exact ⟨p.factor, rfl⟩

section Enqueue

variable (p : Pacer) (l : Lane) (pk : PacedPkt)

@[simp] theorem closed_enqueue : (p.enqueue l pk).closed = p.closed := by
  cases l <;> rfl

@[simp] theorem dropped_enqueue : (p.enqueue l pk).dropped = p.dropped := by
  cases l <;> rfl

@[simp] theorem factor_enqueue : (p.enqueue l pk).factor = p.factor := by
  cases l <;> rfl

@[simp] theorem size_enqueue : (p.enqueue l pk).size = p.size + 1 := by
  cases l with
  | hi =>
      simp only [enqueue, size, List.length_append, List.length_singleton]
      omega
  | lo =>
      simp only [enqueue, size, List.length_append, List.length_singleton]
      omega

@[simp] theorem queued_enqueue : (p.enqueue l pk).queued = (p.enqueue l pk).size := by
  cases l <;> rfl

theorem lane_enqueue (m : Lane) :
    (p.enqueue l pk).lane m = p.lane m ++ if l = m then [pk] else [] := by
  cases l <;> cases m <;> simp [enqueue, lane]

end Enqueue

theorem laneOf_of_interactive {ip : List Byte} (h : interactive ip) : laneOf ip = .hi := if_pos h

/-- What a push does: nothing when the pacer is closed; else the packet is queued if there is
room, and if there is none a bulk packet is dropped, the new one or the oldest, unless all that
is queued and the packet itself are interactive. -/
theorem push_cases (p : Pacer) (ip frame : List Byte) (now : ℤ) :
    (p.closed = true ∧ p.push ip frame now = p) ∨
    (p.closed = false ∧ p.size < pacerMaxQueued ∧
      p.push ip frame now = p.enqueue (laneOf ip) (paced ip frame now)) ∨
    (p.closed = false ∧ interactive ip = false ∧
      p.push ip frame now = { p with dropped := p.dropped + 1 }) ∨
    (p.closed = false ∧ interactive ip = true ∧ (∃ pk, p.lo = pk :: p.lo.tail) ∧
      p.push ip frame now =
        enqueue { p with lo := p.lo.tail, dropped := p.dropped + 1 } .hi (paced ip frame now)) ∨
    (p.closed = false ∧ interactive ip = true ∧ p.lo = [] ∧ pacerMaxQueued ≤ p.hi.length ∧
      p.push ip frame now =
        enqueue { p with hi := p.hi.tail, dropped := p.dropped + 1 } .hi (paced ip frame now)) := by
  rw [push]
  by_cases hclosed : p.closed = true
  · rw [if_pos hclosed]
    exact .inl ⟨hclosed, rfl⟩
  rw [if_neg hclosed]
  rw [Bool.not_eq_true] at hclosed
  by_cases hfull : p.size ≥ pacerMaxQueued
  swap
  · rw [if_neg hfull]
    exact .inr (.inl ⟨hclosed, Nat.not_le.mp hfull, rfl⟩)
  rw [if_pos hfull]
  by_cases hip : ¬ interactive ip
  · rw [if_pos hip]
    exact .inr (.inr (.inl ⟨hclosed, Bool.not_eq_true _ ▸ hip, rfl⟩))
  have hint : interactive ip = true := not_not.mp hip
  rw [if_neg hip, laneOf_of_interactive hint]
  cases hlo : p.lo with
  | cons pk rest => exact .inr (.inr (.inr (.inl ⟨hclosed, hint, ⟨pk, rfl⟩, rfl⟩)))
  | nil =>
      have hlen : pacerMaxQueued ≤ p.hi.length := by
        rwa [size, hlo, List.length_nil, Nat.add_zero] at hfull
      exact .inr (.inr (.inr (.inr ⟨hclosed, hint, rfl, hlen, rfl⟩)))

/-- What `take` does: the oldest interactive packet is taken, and without one the oldest bulk
packet. -/
theorem take_cases {p p' : Pacer} {l : Lane} {pk : PacedPkt} (h : p.take = some (l, pk, p')) :
    (l = .hi ∧ p.hi = pk :: p'.hi ∨ l = .lo ∧ p.hi = [] ∧ p.lo = pk :: p'.lo) ∧
      p' = { p with hi := p'.hi, lo := p'.lo, queued := p'.size } ∧
      (l = .hi → p'.lo = p.lo) ∧ (l = .lo → p'.hi = []) := by
  rw [take] at h
  cases hhi : p.hi with
  | cons a hi =>
      rw [hhi] at h
      cases h
      exact ⟨.inl ⟨rfl, rfl⟩, rfl, fun _ => rfl, nofun⟩
  | nil =>
      rw [hhi] at h
      cases hlo : p.lo with
      | nil =>
          rw [hlo] at h
          cases h
      | cons a lo =>
          rw [hlo] at h
          cases h
          refine ⟨.inr ⟨rfl, rfl, rfl⟩, ?_, nofun, fun _ => rfl⟩
          simp [size]

/-- A take leaves all but the lanes and their count. -/
theorem kept_of_take {p p' : Pacer} {l : Lane} {pk : PacedPkt} (h : p.take = some (l, pk, p')) :
    p'.closed = p.closed ∧ p'.dropped = p.dropped ∧ p'.factor = p.factor := by
  obtain ⟨-, hp', -⟩ := take_cases h
  rw [hp']
  exact ⟨rfl, rfl, rfl⟩

theorem lane_of_take {p p' : Pacer} {l : Lane} {pk : PacedPkt} (h : p.take = some (l, pk, p'))
    (m : Lane) : p.lane m = (if l = m then [pk] else []) ++ p'.lane m := by
  obtain ⟨⟨rfl, hhi⟩ | ⟨rfl, hhi, hlo⟩, -, hkeep, hempty⟩ := take_cases h
  · cases m with
    | hi => exact hhi
    | lo => exact (hkeep rfl).symm
  · cases m with
    | hi => exact hhi.trans (hempty rfl).symm
    | lo => exact hlo

/-- What a pop comes to is what its turns come to. -/
theorem pop_induction {R : Pacer → Pacer × PopResult → Prop}
    (hstopped : ∀ p : Pacer, p.closed = true → R p (p, .stopped))
    (hwaits : ∀ p : Pacer, p.closed = false → R p (p, .waits))
    (hstale : ∀ (p : Pacer) l pk p' r, p.closed = false → p.take = some (l, pk, p') →
      R { p' with dropped := p'.dropped + 1 } r → R p r)
    (hfresh : ∀ (p : Pacer) l pk p' now, p.closed = false → p.take = some (l, pk, p') →
      now - pk.pushedAt ≤ pacerMaxAge → R p (p', .packet { lane := l, pkt := pk, now := now }))
    (p : Pacer) (clock : ℕ → ℤ) : R p (p.pop clock) := by
  induction p, clock using pop.induct with
  | case1 p clock hclosed =>
      rw [pop, if_pos hclosed]
      exact hstopped p hclosed
  | case2 p clock hclosed htake =>
      rw [pop, if_neg hclosed, htake]
      exact hwaits p (Bool.not_eq_true _ ▸ hclosed)
  | case3 p clock hclosed l pk p' htake hage ih =>
      rw [pop, if_neg hclosed, htake]
      simp only [if_pos hage]
      exact hstale p l pk p' _ (Bool.not_eq_true _ ▸ hclosed) htake ih
  | case4 p clock hclosed l pk p' htake hage =>
      rw [pop, if_neg hclosed, htake]
      simp only [if_neg hage]
      exact hfresh p l pk p' _ (Bool.not_eq_true _ ▸ hclosed) htake (Int.not_lt.mp hage)

/-! ## The invariant of the queue -/

/-- What holds of a pacer at all times. -/
structure Valid (p : Pacer) : Prop where
  size_le : p.size ≤ pacerMaxQueued
  le_factor : 1000 ≤ p.factor
  factor_le : p.factor ≤ pacerMaxFactor
  empty : p.closed = true → p.size = 0
  queued : p.closed = false → p.queued = p.size

theorem valid_newPacer : Valid newPacer where
  size_le := Nat.zero_le _
  le_factor := Nat.le_refl _
  factor_le := by decide
  empty := fun _ => rfl
  queued := fun _ => rfl

theorem Valid.backoff {p : Pacer} (h : p.Valid) (f : ℕ) (now : ℤ) : (p.backoff f now).Valid := by
  by_cases hf : p.factor = f
  · have hle := h.le_factor
    have hmax : pacerMaxFactor = 4000 := rfl
    have hbounds : 1000 ≤ (if f * 3 / 2 > pacerMaxFactor then pacerMaxFactor else f * 3 / 2) ∧
        (if f * 3 / 2 > pacerMaxFactor then pacerMaxFactor else f * 3 / 2) ≤ pacerMaxFactor := by
      split <;> omega
    rw [Pacer.backoff, if_pos hf]
    exact ⟨h.size_le, hbounds.1, hbounds.2, h.empty, h.queued⟩
  · rw [Pacer.backoff, if_neg hf]
    exact h

theorem Valid.recover {p : Pacer} (h : p.Valid) (f : ℕ) : (p.recover f).Valid := by
  by_cases hf : p.factor = f
  · have hge := h.factor_le
    have hmax : pacerMaxFactor = 4000 := rfl
    have hbounds : 1000 ≤ (if f * 95 / 100 < 1000 then 1000 else f * 95 / 100) ∧
        (if f * 95 / 100 < 1000 then 1000 else f * 95 / 100) ≤ pacerMaxFactor := by
      split <;> omega
    rw [Pacer.recover, if_pos hf]
    exact ⟨h.size_le, hbounds.1, hbounds.2, h.empty, h.queued⟩
  · rw [Pacer.recover, if_neg hf]
    exact h

/-- A packet that finds room keeps the bound. -/
theorem Valid.enqueue {p : Pacer} (hle : 1000 ≤ p.factor) (hge : p.factor ≤ pacerMaxFactor)
    (hopen : p.closed = false) (hsize : p.size < pacerMaxQueued) (l : Lane) (pk : PacedPkt) :
    (p.enqueue l pk).Valid where
  size_le := by
    rw [size_enqueue]
    exact hsize
  le_factor := by rwa [factor_enqueue]
  factor_le := by rwa [factor_enqueue]
  empty := by
    rw [closed_enqueue, hopen]
    exact nofun
  queued := fun _ => queued_enqueue p l pk

theorem Valid.push {p : Pacer} (h : p.Valid) (ip frame : List Byte) (now : ℤ) :
    (p.push ip frame now).Valid := by
  have hsize := h.size_le
  rcases push_cases p ip frame now with ⟨-, heq⟩ | ⟨hopen, hroom, heq⟩ | ⟨hopen, -, heq⟩ |
    ⟨hopen, -, ⟨pk, hlo⟩, heq⟩ | ⟨hopen, -, hlo, hfull, heq⟩
  · rw [heq]
    exact h
  · rw [heq]
    exact .enqueue h.le_factor h.factor_le hopen hroom _ _
  · rw [heq]
    exact ⟨hsize, h.le_factor, h.factor_le, h.empty, h.queued⟩
  · rw [heq]
    have hroom : size { p with lo := p.lo.tail, dropped := p.dropped + 1 } < pacerMaxQueued := by
      rw [size, hlo, List.length_cons] at hsize
      simp only [size]
      omega
    exact .enqueue (p := { p with lo := p.lo.tail, dropped := p.dropped + 1 }) h.le_factor
      h.factor_le hopen hroom _ _
  · rw [heq]
    have hroom : size { p with hi := p.hi.tail, dropped := p.dropped + 1 } < pacerMaxQueued := by
      rw [size, hlo, List.length_nil] at hsize
      rw [pacerMaxQueued] at hfull hsize ⊢
      simp only [size, List.length_tail, hlo, List.length_nil]
      omega
    exact .enqueue (p := { p with hi := p.hi.tail, dropped := p.dropped + 1 }) h.le_factor
      h.factor_le hopen hroom _ _

theorem Valid.of_take {p p' : Pacer} (h : p.Valid) {l : Lane} {pk : PacedPkt} (n : ℕ)
    (htake : p.take = some (l, pk, p')) : Valid { p' with dropped := n } := by
  have hsize := size_of_take htake
  have hle := h.size_le
  have hempty := h.empty
  obtain ⟨-, hp', -⟩ := take_cases htake
  obtain ⟨hclosed, -, hfactor⟩ := kept_of_take htake
  constructor
  · simp only [size] at hsize hle ⊢
    omega
  · exact hfactor.symm ▸ h.le_factor
  · exact hfactor.symm ▸ h.factor_le
  · intro hclosed'
    have hzero := hempty (hclosed.symm.trans hclosed')
    omega
  · intro _
    rw [hp']
    rfl

theorem Valid.pop {p : Pacer} (h : p.Valid) (clock : ℕ → ℤ) : (p.pop clock).1.Valid := by
  have hkeep : p.Valid → (p.pop clock).1.Valid := by
    apply pop_induction (R := fun p r => p.Valid → r.1.Valid)
    · exact fun p _ hp => hp
    · exact fun p _ hp => hp
    · exact fun p l pk p' r _ htake ih hp => ih (hp.of_take _ htake)
    · exact fun p l pk p' now _ htake _ hp => hp.of_take p'.dropped htake
  exact hkeep h

theorem Valid.close {p : Pacer} (h : p.Valid) : p.close.Valid where
  size_le := Nat.zero_le _
  le_factor := h.le_factor
  factor_le := h.factor_le
  empty := fun _ => rfl
  queued := nofun

theorem Valid.step {p : Pacer} (h : p.Valid) (a : Action) : (p.step a).1.Valid := by
  cases a with
  | push ip frame now => exact h.push ip frame now
  | pop clock => exact h.pop clock
  | backoff f now => exact h.backoff f now
  | recover f => exact h.recover f
  | close => exact h.close

/-! ## What goes in and what comes out -/

/-- The packet an action brings to a lane. -/
def Action.pushed (m : Lane) : Action → List PacedPkt
  | .push ip frame now => if laneOf ip = m then [paced ip frame now] else []
  | _ => []

/-- How many packets an action brings. -/
def Action.pushes : Action → ℕ
  | .push .. => 1
  | _ => 0

/-- The packet, if it comes from the lane. -/
def Popped.from? (m : Lane) (out : Popped) : Option PacedPkt :=
  if out.lane = m then some out.pkt else none

/-- A push adds to the end of the packet's lane and takes from the front of one. -/
theorem sublist_push (p : Pacer) (ip frame : List Byte) (now : ℤ) (m : Lane) :
    ((p.push ip frame now).lane m).Sublist
      (p.lane m ++ (Action.push ip frame now).pushed m) := by
  have hint : interactive ip = true → laneOf ip = .hi := laneOf_of_interactive
  rw [Action.pushed]
  rcases push_cases p ip frame now with ⟨-, heq⟩ | ⟨-, -, heq⟩ | ⟨-, -, heq⟩ |
    ⟨-, hip, -, heq⟩ | ⟨-, hip, -, -, heq⟩
  · rw [heq]
    exact List.sublist_append_left _ _
  · rw [heq, lane_enqueue]
  · rw [heq]
    exact List.sublist_append_left _ _
  · rw [heq, lane_enqueue, hint hip]
    apply List.Sublist.append_right
    cases m with
    | hi => exact List.Sublist.refl _
    | lo => exact List.tail_sublist _
  · rw [heq, lane_enqueue, hint hip]
    apply List.Sublist.append_right
    cases m with
    | hi => exact List.tail_sublist _
    | lo => exact List.Sublist.refl _

/-- A pop hands out from the front of a lane. -/
theorem sublist_pop (p : Pacer) (clock : ℕ → ℤ) (m : Lane) :
    ((p.pop clock).2.returned.filterMap (Popped.from? m) ++ (p.pop clock).1.lane m).Sublist
      (p.lane m) := by
  apply pop_induction (R := fun p r =>
    (r.2.returned.filterMap (Popped.from? m) ++ r.1.lane m).Sublist (p.lane m))
  · exact fun p _ => List.Sublist.refl _
  · exact fun p _ => List.Sublist.refl _
  · intro p l pk p' r _ htake ih
    rw [lane_of_take htake]
    exact ih.trans (List.sublist_append_right _ _)
  · intro p l pk p' now _ htake _
    rw [lane_of_take htake]
    apply List.Sublist.append_right
    by_cases hl : l = m
    · simp [PopResult.returned, Popped.from?, hl]
    · simp [PopResult.returned, Popped.from?, hl]

theorem sublist_step (p : Pacer) (a : Action) (m : Lane) :
    ((p.step a).2.filterMap (Popped.from? m) ++ (p.step a).1.lane m).Sublist
      (p.lane m ++ a.pushed m) := by
  cases a with
  | push ip frame now => exact sublist_push p ip frame now m
  | pop clock => exact (sublist_pop p clock m).trans (List.sublist_append_left _ _)
  | backoff f now =>
      obtain ⟨n, b, heq⟩ := backoff_eq p f now
      cases m <;> simp [step, Action.pushed, heq, lane]
  | recover f =>
      obtain ⟨n, heq⟩ := recover_eq p f
      cases m <;> simp [step, Action.pushed, heq, lane]
  | close =>
      cases m <;> simp [step, close, lane]

/-- What a pop takes it returns or drops. -/
theorem balance_pop (p : Pacer) (clock : ℕ → ℤ) :
    (p.pop clock).1.closed = p.closed ∧
      p.dropped + p.size =
        (p.pop clock).2.returned.length + ((p.pop clock).1.dropped + (p.pop clock).1.size) := by
  apply pop_induction (R := fun p r => r.1.closed = p.closed ∧
    p.dropped + p.size = r.2.returned.length + (r.1.dropped + r.1.size))
  · exact fun p _ => ⟨rfl, (Nat.zero_add _).symm⟩
  · exact fun p _ => ⟨rfl, (Nat.zero_add _).symm⟩
  · intro p l pk p' r _ htake ih
    have hsize := size_of_take htake
    obtain ⟨hclosed, hdropped, -⟩ := kept_of_take htake
    refine ⟨ih.1.trans hclosed, ?_⟩
    rw [← ih.2, hsize, ← hdropped]
    simp only [size]
    omega
  · intro p l pk p' now _ htake _
    have hsize := size_of_take htake
    obtain ⟨hclosed, hdropped, -⟩ := kept_of_take htake
    refine ⟨hclosed, ?_⟩
    rw [hsize, ← hdropped]
    simp only [PopResult.returned, List.length_singleton]
    omega

/-- What a push brings is queued, or it is dropped, or another packet is. -/
theorem balance_push {p : Pacer} {ip frame : List Byte} {now : ℤ}
    (h : (p.push ip frame now).closed = false) :
    p.closed = false ∧
      p.dropped + p.size + 1 =
        (p.push ip frame now).dropped + (p.push ip frame now).size := by
  rcases push_cases p ip frame now with ⟨hclosed, heq⟩ | ⟨hopen, -, heq⟩ | ⟨hopen, -, heq⟩ |
    ⟨hopen, -, ⟨pk, hlo⟩, heq⟩ | ⟨hopen, -, hlo, hfull, heq⟩
  · rw [heq, hclosed] at h
    cases h
  · rw [heq, dropped_enqueue, size_enqueue]
    exact ⟨hopen, by omega⟩
  · rw [heq]
    refine ⟨hopen, ?_⟩
    simp only [size]
    omega
  · have hlen : p.lo.length = p.lo.tail.length + 1 := by
      rw [hlo, List.length_cons, List.tail_cons]
    rw [heq, dropped_enqueue, size_enqueue]
    refine ⟨hopen, ?_⟩
    simp only [size]
    omega
  · have hlen : p.hi.length = p.hi.tail.length + 1 := by
      rw [pacerMaxQueued] at hfull
      rw [List.length_tail]
      omega
    rw [heq, dropped_enqueue, size_enqueue]
    refine ⟨hopen, ?_⟩
    simp only [size]
    omega

theorem balance_step (p : Pacer) (a : Action) (h : (p.step a).1.closed = false) :
    p.closed = false ∧
      p.dropped + p.size + a.pushes =
        (p.step a).2.length + ((p.step a).1.dropped + (p.step a).1.size) := by
  cases a with
  | push ip frame now =>
      obtain ⟨hopen, hbalance⟩ := balance_push h
      exact ⟨hopen, hbalance.trans (Nat.zero_add _).symm⟩
  | pop clock =>
      obtain ⟨hclosed, hbalance⟩ := balance_pop p clock
      exact ⟨hclosed.symm.trans h, hbalance⟩
  | backoff f now =>
      obtain ⟨n, b, heq⟩ := backoff_eq p f now
      rw [step, heq] at h
      simp [step, Action.pushes, heq, size, show p.closed = false from h]
  | recover f =>
      obtain ⟨n, heq⟩ := recover_eq p f
      rw [step, heq] at h
      simp [step, Action.pushes, heq, size, show p.closed = false from h]
  | close => cases h

/-! ## Over a whole run -/

/-- A bulk packet comes out when no interactive packet is queued, and no packet comes out that
waited too long. -/
theorem pop_packet {p : Pacer} {clock : ℕ → ℤ} {out : Popped}
    (h : (p.pop clock).2 = .packet out) :
    (out.lane = .lo → (p.pop clock).1.hi = []) ∧ out.now - out.pkt.pushedAt ≤ pacerMaxAge := by
  have hout : ∀ out, (p.pop clock).2 = .packet out → (out.lane = .lo → (p.pop clock).1.hi = []) ∧
      out.now - out.pkt.pushedAt ≤ pacerMaxAge := by
    apply pop_induction (R := fun _ r => ∀ out, r.2 = .packet out →
      (out.lane = .lo → r.1.hi = []) ∧ out.now - out.pkt.pushedAt ≤ pacerMaxAge)
    · exact fun p _ => nofun
    · exact fun p _ => nofun
    · exact fun p l pk p' r _ _ ih => ih
    · intro p l pk p' now _ htake hage out hout
      cases hout
      exact ⟨(take_cases htake).2.2.2, hage⟩
  exact hout out h

/-- A push loses no interactive packet, queued or new, unless the queue is full of them; a
closed pacer takes nothing. -/
theorem push_interactive {p : Pacer} (h : p.Valid) (ip frame : List Byte) (now : ℤ) :
    (p.closed = true ∧ p.push ip frame now = p) ∨
      (p.push ip frame now).hi =
        p.hi ++ (if interactive ip = true then [paced ip frame now] else []) ∨
      (p.hi.length = pacerMaxQueued ∧ p.lo = []) := by
  rcases push_cases p ip frame now with hclosed | ⟨-, -, heq⟩ | ⟨-, hip, heq⟩ |
    ⟨-, hip, -, heq⟩ | ⟨-, -, hlo, hfull, -⟩
  · exact .inl hclosed
  · have hlane := lane_enqueue p (laneOf ip) (paced ip frame now) .hi
    have hlaneOf : laneOf ip = .hi ↔ interactive ip = true := by
      rw [laneOf]
      split <;> simp_all
    rw [heq]
    simp only [hlaneOf] at hlane
    exact .inr (.inl hlane)
  · rw [heq, hip]
    exact .inr (.inl (List.append_nil _).symm)
  · rw [heq, if_pos hip]
    exact .inr (.inl rfl)
  · have hle := h.size_le
    rw [size, hlo, List.length_nil] at hle
    exact .inr (.inr ⟨Nat.le_antisymm hle hfull, hlo⟩)

/-- The pacer after a run. -/
def after (as : List Action) : Pacer := (Mealy.run step newPacer as).1

/-- The packets returned in a run, in order. -/
def popped (as : List Action) : List Popped := (Mealy.run step newPacer as).2

theorem valid_after (as : List Action) : (after as).Valid :=
  Mealy.run_invariant Valid (fun _ a h => Valid.step h a) valid_newPacer as

/-- The discipline of the queue, after every run and for whatever is done next: at most ten
packets are queued; as long as the pacer is open every packet pushed has been returned or
dropped or is queued; each lane comes out in the order it went in; bulk waits for interactive,
and nothing comes out late; a push keeps the interactive packets and adds an interactive one,
unless the queue is full of them, and a closed pacer takes nothing; and the pace stays between
the radio's own and a quarter of it. -/
theorem discipline (as : List Action) :
    (after as).size ≤ pacerMaxQueued ∧
      ((after as).closed = false → (as.map Action.pushes).sum =
        (popped as).length + (after as).dropped + (after as).size) ∧
      (∀ m, ((popped as).filterMap (Popped.from? m) ++ (after as).lane m).Sublist
        (as.flatMap (Action.pushed m))) ∧
      (∀ clock out, ((after as).pop clock).2 = .packet out →
        (out.lane = .lo → ((after as).pop clock).1.hi = []) ∧
          out.now - out.pkt.pushedAt ≤ pacerMaxAge) ∧
      (∀ ip frame now,
        ((after as).closed = true ∧ (after as).push ip frame now = after as) ∨
          ((after as).push ip frame now).hi =
            (after as).hi ++ (if interactive ip = true then [paced ip frame now] else []) ∨
          ((after as).hi.length = pacerMaxQueued ∧ (after as).lo = [])) ∧
      1000 ≤ (after as).factor ∧ (after as).factor ≤ pacerMaxFactor := by
  have hvalid := valid_after as
  refine ⟨hvalid.size_le, fun hopen => ?_, fun m => ?_, fun clock out hout => pop_packet hout,
    push_interactive hvalid, hvalid.le_factor,
    hvalid.factor_le⟩
  · have hbalance := (Mealy.run_balance (fun p : Pacer => p.closed = false)
      (fun p => p.dropped + p.size) Action.pushes balance_step hopen).2
    rw [Nat.add_assoc]
    exact (Nat.zero_add _).symm.trans hbalance
  · have hlane : newPacer.lane m = [] := by cases m <;> rfl
    have hsub := Mealy.run_sublist (fun p => lane p m) (Action.pushed m) (Popped.from? m)
      (fun p a => sublist_step p a m) newPacer as
    rwa [hlane, List.nil_append] at hsub

end Pacer

end NetCore

end Voyager
