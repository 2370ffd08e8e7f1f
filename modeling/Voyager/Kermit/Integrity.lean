import Mathlib.Data.List.InsertIdx
import Voyager.Kermit.ReceiverRuns

/-!
# A transfer delivers the file or reports a failure

The invariant of a transfer ties the sender's packet number, the number of packets the
receiver has accepted and everything in flight together: the wires are those of stop and
wait, each packet in flight is one that its tag explains, and the calls of `onComplete`
so far were right. Every event keeps it.
-/

namespace Voyager

namespace Kermit

open StopAndWait

section

variable (o : SenderOptions) (timeoutMs : ℕ)

/-- What is in flight, with its tags. -/
structure Wires (k m : ℕ) (fwd bwd : List (ℕ × List Byte)) (x : Transfer) : Prop where
  link : Link k m fwd bwd
  toReceiver : x.toReceiver = fwd.map Prod.snd
  toSender : x.toSender = bwd.map Prod.snd
  forward : ∀ y ∈ fwd, Forward o y.1 y.2
  answer : ∀ y ∈ bwd, Answer timeoutMs y.1 y.2

/-- The calls of `onComplete`: the receiver reports success only with the file, the sender
only after the receiver, and the receiver has done so when it has accepted everything. -/
structure Honest (m : ℕ) (log : List Completion) : Prop where
  receiver : ∀ data, Completion.receiver true data ∈ log → data = some o.data.bytes
  sender : ∀ i : ℕ, log[i]? = some (Completion.sender true) →
    ∃ j : ℕ, j < i ∧ log[j]? = some (Completion.receiver true (some o.data.bytes))
  complete : cursorAt o m = .fin → Completion.receiver true (some o.data.bytes) ∈ log

def Sender.Unstarted (s : Sender) : Prop := s.listening = false ∧ s.waiting = none

def Receiver.Unstarted (r : Receiver) : Prop :=
  r.listening = false ∧ r.waiting = false ∧ r.lingering = none

structure Transfer.At (k m : ℕ) (fwd bwd : List (ℕ × List Byte)) (x : Transfer) : Prop where
  wires : Wires o timeoutMs k m fwd bwd x
  sender : SenderAt o timeoutMs k x.sender
  receiver : ReceiverAt o timeoutMs m x.receiver
  senderUnstarted : x.senderStarted = false → x.sender.Unstarted
  receiverUnstarted : x.receiverStarted = false → m = 0 ∧ x.receiver.Unstarted
  honest : Honest o m x.log

/-- The invariant. -/
def Transfer.Sound (x : Transfer) : Prop :=
  ∃ k m fwd bwd, Transfer.At o timeoutMs k m fwd bwd x

variable {o timeoutMs} {k m : ℕ} {fwd bwd : List (ℕ × List Byte)} {x : Transfer}

/-- Calls of the sender's `onComplete`, made when it is at packet `k`. -/
theorem Honest.append_sender {log cs : List Completion} (h : Honest o m log) (hle : k ≤ m)
    (hside : ∀ c ∈ cs, ∃ ok, c = .sender ok)
    (hcs : ∀ c ∈ cs, c = .sender true → cursorAt o k = .fin) : Honest o m (log ++ cs) where
  receiver := by
    intro data hdata
    rcases List.mem_append.mp hdata with hdata | hdata
    · exact h.receiver data hdata
    · obtain ⟨ok, hok⟩ := hside _ hdata
      cases hok
  sender := by
    intro i hi
    rw [List.getElem?_append] at hi
    split at hi
    · obtain ⟨j, hj, hlog⟩ := h.sender i hi
      exact ⟨j, hj, by rw [List.getElem?_append_left (by omega)]; exact hlog⟩
    · next hlen =>
        -- The sender is through, so the receiver was before.
        have hfin := hcs _ (List.mem_of_getElem? hi) rfl
        obtain ⟨j, hj⟩ := List.mem_iff_getElem?.mp (h.complete (cursorAt_fin o hfin hle))
        have hlt := (List.getElem?_eq_some_iff.mp hj).1
        exact ⟨j, by omega, by rw [List.getElem?_append_left hlt]; exact hj⟩
  complete := fun hfin => List.mem_append_left _ (h.complete hfin)

/-- Calls of the receiver's `onComplete`, which take it from `m` to `m'` packets. -/
theorem Honest.append_receiver {m' : ℕ} {log cs : List Completion} (h : Honest o m log)
    (hside : ∀ c ∈ cs, ∃ ok data, c = .receiver ok data)
    (hcs : ∀ data, .receiver true data ∈ cs → data = some o.data.bytes)
    (hfin : cursorAt o m' = .fin →
      cursorAt o m = .fin ∨ .receiver true (some o.data.bytes) ∈ cs) :
    Honest o m' (log ++ cs) where
  receiver := by
    intro data hdata
    rcases List.mem_append.mp hdata with hdata | hdata
    · exact h.receiver data hdata
    · exact hcs data hdata
  sender := by
    intro i hi
    rw [List.getElem?_append] at hi
    split at hi
    · obtain ⟨j, hj, hlog⟩ := h.sender i hi
      exact ⟨j, hj, by rw [List.getElem?_append_left (by omega)]; exact hlog⟩
    · obtain ⟨ok, data, hok⟩ := hside _ (List.mem_of_getElem? hi)
      cases hok
  complete := by
    intro hm'
    rcases hfin hm' with hm | hcs'
    · exact List.mem_append_left _ (h.complete hm)
    · exact List.mem_append_right _ hcs'

theorem SenderEffect.completion_side {e : SenderEffect} {c : Completion}
    (h : e.completion = some c) : ∃ ok, c = .sender ok := by
  cases e with
  | complete ok msg =>
      cases h
      exact ⟨ok, rfl⟩
  | write bytes => cases h
  | progress sent total => cases h

theorem ReceiverEffect.completion_side {e : ReceiverEffect} {c : Completion}
    (h : e.completion = some c) : ∃ ok data, c = .receiver ok data := by
  cases e with
  | complete ok data msg name =>
      cases h
      exact ⟨ok, data, rfl⟩
  | write bytes => cases h
  | fileStart name size => cases h
  | progress received size => cases h
  | throws => cases h

/-- The sender did something and is at packet `k`. -/
theorem Transfer.Sound.of_sender {a : Sender × List SenderEffect}
    (hwires : Wires o timeoutMs k m fwd bwd x) (hreceiver : ReceiverAt o timeoutMs m x.receiver)
    (hsenderUn : x.senderStarted = false → a.1.Unstarted)
    (hreceiverUn : x.receiverStarted = false → m = 0 ∧ x.receiver.Unstarted)
    (hhonest : Honest o m x.log) (hdoes : Sender.Does o timeoutMs k a) :
    Transfer.Sound o timeoutMs (x.withSender a) := by
  refine ⟨k, m, fwd ++ (a.2.filterMap SenderEffect.written).map fun b => (k, b), bwd,
    ⟨hwires.link.sendAll _, ?_, hwires.toSender, ?_, hwires.answer⟩, hdoes.state, hreceiver,
    hsenderUn, hreceiverUn, hhonest.append_sender hwires.link.le ?_ ?_⟩
  · rw [List.map_append, ← hwires.toReceiver, List.map_map]
    exact congrArg _ (List.map_id _).symm
  · intro y hy
    rcases List.mem_append.mp hy with hy | hy
    · exact hwires.forward y hy
    · obtain ⟨b, hb, rfl⟩ := List.mem_map.mp hy
      obtain ⟨e, he, hwritten⟩ := List.mem_filterMap.mp hb
      exact hdoes.written e he b hwritten
  · intro c hc
    obtain ⟨e, he, hcompletion⟩ := List.mem_filterMap.mp hc
    exact SenderEffect.completion_side hcompletion
  · rintro c hc rfl
    obtain ⟨e, he, hcompletion⟩ := List.mem_filterMap.mp hc
    exact hdoes.completed e he hcompletion

/-- The receiver did something and went from `m` to `m'` packets. -/
theorem Transfer.Sound.of_receiver {m' : ℕ} {a : Receiver × List ReceiverEffect}
    (hwires : Wires o timeoutMs k m' fwd bwd x) (hsender : SenderAt o timeoutMs k x.sender)
    (hsenderUn : x.senderStarted = false → x.sender.Unstarted)
    (hreceiverUn : x.receiverStarted = false → m' = 0 ∧ a.1.Unstarted)
    (hhonest : Honest o m x.log) (hdoes : Receiver.Does o timeoutMs m' a)
    (hfin : cursorAt o m' = .fin → cursorAt o m = .fin ∨
      ∃ e ∈ a.2, e.completion = some (Completion.receiver true (some o.data.bytes))) :
    Transfer.Sound o timeoutMs (x.withReceiver a) := by
  refine ⟨k, m', fwd, bwd ++ (a.2.filterMap ReceiverEffect.written).map fun b => (m', b),
    ⟨hwires.link.answerAll _, hwires.toReceiver, ?_, hwires.forward, ?_⟩, hsender, hdoes.state,
    hsenderUn, hreceiverUn, hhonest.append_receiver ?_ ?_ ?_⟩
  · rw [List.map_append, ← hwires.toSender, List.map_map]
    exact congrArg _ (List.map_id _).symm
  · intro y hy
    rcases List.mem_append.mp hy with hy | hy
    · exact hwires.answer y hy
    · obtain ⟨b, hb, rfl⟩ := List.mem_map.mp hy
      obtain ⟨e, he, hwritten⟩ := List.mem_filterMap.mp hb
      exact hdoes.written e he b hwritten
  · intro c hc
    obtain ⟨e, he, hcompletion⟩ := List.mem_filterMap.mp hc
    exact ReceiverEffect.completion_side hcompletion
  · intro data hdata
    obtain ⟨e, he, hcompletion⟩ := List.mem_filterMap.mp hdata
    exact hdoes.completed e he data hcompletion
  · intro hm'
    rcases hfin hm' with hm | ⟨e, he, hcompletion⟩
    · exact .inl hm
    · exact .inr (List.mem_filterMap.mpr ⟨e, he, hcompletion⟩)

theorem Transfer.At.sender_does {a : Sender × List SenderEffect}
    (h : Transfer.At o timeoutMs k m fwd bwd x) (hdoes : Sender.Does o timeoutMs k a)
    (hun : x.sender.Unstarted → a.1.Unstarted) : Transfer.Sound o timeoutMs (x.withSender a) :=
  .of_sender h.wires h.receiver (fun hx => hun (h.senderUnstarted hx)) h.receiverUnstarted
    h.honest hdoes

theorem Transfer.At.receiver_does {a : Receiver × List ReceiverEffect}
    (h : Transfer.At o timeoutMs k m fwd bwd x) (hdoes : Receiver.Does o timeoutMs m a)
    (hun : x.receiver.Unstarted → a.1.Unstarted) : Transfer.Sound o timeoutMs (x.withReceiver a) :=
  .of_receiver h.wires h.sender h.senderUnstarted
    (fun hx => ⟨(h.receiverUnstarted hx).1, hun (h.receiverUnstarted hx).2⟩) h.honest hdoes .inl

/-! ## A side that has not started -/

section

variable {s : Sender} {r : Receiver}

theorem Sender.Unstarted.fail (h : s.Unstarted) (msg : JsString) (notifyPeer : Bool) :
    (s.fail msg notifyPeer).1.Unstarted := by
  rw [Sender.fail]
  split
  · exact h
  · exact ⟨rfl, rfl⟩

theorem Sender.Unstarted.timeout (h : s.Unstarted) : s.timeout.1.Unstarted := by
  simp only [Sender.timeout, h.2]
  exact ⟨h.1, rfl⟩

theorem Sender.Unstarted.deliver (h : s.Unstarted) (bytes : List Byte) :
    (s.deliver o bytes).1.Unstarted := by
  rw [Sender.deliver, if_neg (by rw [h.1]; exact fun hl => absurd hl.1 Bool.false_ne_true)]
  exact h

theorem Receiver.Unstarted.fail (h : r.Unstarted) (msg : JsString) (notifyPeer : Bool) :
    (r.fail msg notifyPeer).1.Unstarted := by
  rw [Receiver.fail]
  split
  · exact h
  · exact ⟨rfl, rfl, h.2.2⟩

theorem Receiver.Unstarted.timeout (h : r.Unstarted) : r.timeout.1.Unstarted := by
  have hidle : r.done = true ∨ ¬ r.waiting = true := .inr (by rw [h.2.1]; exact Bool.false_ne_true)
  rw [Receiver.timeout]
  dsimp only
  rw [if_pos hidle]
  exact h

theorem Receiver.Unstarted.deliver_eq (h : r.Unstarted) (bytes : List Byte) :
    r.deliver timeoutMs bytes = (r, []) := by
  rw [Receiver.deliver, h.2.2]
  dsimp only
  rw [if_neg (by rw [h.1]; exact fun hl => absurd hl.1 Bool.false_ne_true)]

end

/-! ## The channels -/

theorem Transfer.At.lose {fwd' bwd' : List (ℕ × List Byte)} {x' : Transfer}
    (h : Transfer.At o timeoutMs k m fwd bwd x) (hfwd : fwd'.Sublist fwd) (hbwd : bwd'.Sublist bwd)
    (hx : x' = { x with toReceiver := fwd'.map Prod.snd, toSender := bwd'.map Prod.snd }) :
    Transfer.At o timeoutMs k m fwd' bwd' x' := by
  subst hx
  exact ⟨⟨h.wires.link.lose hfwd hbwd, rfl, rfl, fun y hy => h.wires.forward y (hfwd.subset hy),
    fun y hy => h.wires.answer y (hbwd.subset hy)⟩, h.sender, h.receiver, h.senderUnstarted,
    h.receiverUnstarted, h.honest⟩

/-- The first of the channel to the sender, taken out. -/
theorem Transfer.At.pop_toSender (h : Transfer.At o timeoutMs k m fwd bwd x) {bytes : List Byte}
    {rest : List (List Byte)} (hx : x.toSender = bytes :: rest) :
    ∃ l bwd', bwd = (l, bytes) :: bwd' ∧
      Transfer.At o timeoutMs k m fwd bwd' { x with toSender := rest } := by
  have hbwd := h.wires.toSender
  rw [hx] at hbwd
  cases bwd with
  | nil => cases hbwd
  | cons y bwd' =>
      obtain ⟨hy, hrest⟩ := List.cons_eq_cons.mp hbwd
      refine ⟨y.1, bwd', by rw [hy], h.lose (List.Sublist.refl _) (List.sublist_cons_self _ _) ?_⟩
      rw [hrest, h.wires.toReceiver]

theorem Transfer.At.pop_toReceiver (h : Transfer.At o timeoutMs k m fwd bwd x) {bytes : List Byte}
    {rest : List (List Byte)} (hx : x.toReceiver = bytes :: rest) :
    ∃ j fwd', fwd = (j, bytes) :: fwd' ∧
      Transfer.At o timeoutMs k m fwd' bwd { x with toReceiver := rest } := by
  have hfwd := h.wires.toReceiver
  rw [hx] at hfwd
  cases fwd with
  | nil => cases hfwd
  | cons y fwd' =>
      obtain ⟨hy, hrest⟩ := List.cons_eq_cons.mp hfwd
      refine ⟨y.1, fwd', by rw [hy], h.lose (List.sublist_cons_self _ _) (List.Sublist.refl _) ?_⟩
      rw [hrest, h.wires.toSender]

/-! ## Events -/

theorem Transfer.At.deliver_toSender (h : Transfer.At o timeoutMs k m fwd bwd x)
    {bytes : List Byte} {rest : List (List Byte)} (hx : x.toSender = bytes :: rest) :
    Transfer.Sound o timeoutMs
      ({ x with toSender := rest }.withSender (x.sender.deliver o bytes)) := by
  obtain ⟨l, bwd', rfl, hpop⟩ := h.pop_toSender hx
  have hhead : (l, bytes) ∈ (l, bytes) :: bwd' := List.mem_cons_self
  have hl : l = k ∨ l = k + 1 := by
    rcases h.wires.link.bwd_cases hhead with ⟨hl, -⟩ | hl
    · exact .inr hl
    · exact .inl hl
  rcases h.sender.moves_deliver hl (h.wires.answer _ hhead) with hdoes | ⟨rfl, hdoes⟩
  · exact hpop.sender_does hdoes fun hun => hun.deliver bytes
  · have hlink := h.wires.link.advance
    have hwires : Wires o timeoutMs (k + 1) m fwd bwd' { x with toSender := rest } :=
      ⟨hlink, hpop.wires.toReceiver, hpop.wires.toSender, hpop.wires.forward, hpop.wires.answer⟩
    exact .of_sender hwires hpop.receiver (fun hs => (h.senderUnstarted hs).deliver bytes)
      hpop.receiverUnstarted hpop.honest hdoes

theorem Transfer.At.deliver_toReceiver (h : Transfer.At o timeoutMs k m fwd bwd x)
    {bytes : List Byte} {rest : List (List Byte)} (hx : x.toReceiver = bytes :: rest) :
    Transfer.Sound o timeoutMs
      ({ x with toReceiver := rest }.withReceiver (x.receiver.deliver timeoutMs bytes)) := by
  obtain ⟨j, fwd', rfl, hpop⟩ := h.pop_toReceiver hx
  by_cases hstarted : x.receiverStarted = false
  · have hun := (h.receiverUnstarted hstarted).2
    rw [hun.deliver_eq]
    exact hpop.receiver_does hpop.receiver.does_nil id
  have hhead : (j, bytes) ∈ (j, bytes) :: fwd' := List.mem_cons_self
  have hj : j = m ∨ j + 1 = m := by
    rcases h.wires.link.fwd_cases hhead with ⟨hj, -⟩ | hj
    · exact .inl hj
    · exact .inr hj
  have hforward : Forward o j bytes := h.wires.forward _ hhead
  have hmoves := h.receiver.moves_deliver hj hforward
  rcases hmoves with hdoes | ⟨rfl, hdoes, hfin⟩
  · exact .of_receiver hpop.wires hpop.sender hpop.senderUnstarted
      (fun hr => absurd hr hstarted) hpop.honest hdoes .inl
  · have hlink := h.wires.link.accept
    have hwires : Wires o timeoutMs k (j + 1) fwd' bwd { x with toReceiver := rest } :=
      ⟨hlink, hpop.wires.toReceiver, hpop.wires.toSender, hpop.wires.forward, hpop.wires.answer⟩
    exact .of_receiver hwires hpop.sender hpop.senderUnstarted (fun hr => absurd hr hstarted)
      hpop.honest hdoes fun hm => .inr (hfin hm)

theorem Transfer.At.start_sender (h : Transfer.At o timeoutMs k m fwd bwd x)
    (hstarted : ¬ x.senderStarted = true) :
    Transfer.Sound o timeoutMs ({ x with senderStarted := true }.withSender (x.sender.start o)) :=
  have hun := h.senderUnstarted (Bool.eq_false_iff.mpr hstarted)
  .of_sender (x := { x with senderStarted := true })
    ⟨h.wires.link, h.wires.toReceiver, h.wires.toSender, h.wires.forward, h.wires.answer⟩
    h.receiver nofun h.receiverUnstarted h.honest (h.sender.does_start hun.2)

theorem Transfer.At.start_receiver (h : Transfer.At o timeoutMs k m fwd bwd x)
    (hstarted : ¬ x.receiverStarted = true) :
    Transfer.Sound o timeoutMs
      ({ x with receiverStarted := true }.withReceiver x.receiver.start) := by
  obtain ⟨rfl, hun⟩ := h.receiverUnstarted (Bool.eq_false_iff.mpr hstarted)
  exact .of_receiver (x := { x with receiverStarted := true })
    ⟨h.wires.link, h.wires.toReceiver, h.wires.toSender, h.wires.forward, h.wires.answer⟩
    h.sender h.senderUnstarted nofun h.honest (h.receiver.does_start hun.2.1 hun.2.2) .inl

theorem Transfer.At.damage_toSender (h : Transfer.At o timeoutMs k m fwd bwd x)
    {old bytes : List Byte} {rest : List (List Byte)} (hx : x.toSender = old :: rest)
    (hbad : x.sender.Detects bytes) :
    Transfer.Sound o timeoutMs
      ({ x with toSender := rest }.withSender (x.sender.deliver o bytes)) := by
  obtain ⟨l, bwd', rfl, hpop⟩ := h.pop_toSender hx
  exact hpop.sender_does (h.sender.does_deliver_damaged hbad) fun hun => hun.deliver bytes

theorem Transfer.At.damage_toReceiver (h : Transfer.At o timeoutMs k m fwd bwd x)
    {old bytes : List Byte} {rest : List (List Byte)} (hx : x.toReceiver = old :: rest)
    (hbad : x.receiver.Detects bytes) :
    Transfer.Sound o timeoutMs
      ({ x with toReceiver := rest }.withReceiver (x.receiver.deliver timeoutMs bytes)) := by
  obtain ⟨j, fwd', rfl, hpop⟩ := h.pop_toReceiver hx
  refine hpop.receiver_does (h.receiver.does_deliver_damaged hbad) fun hun => ?_
  rw [hun.deliver_eq]
  exact hun

theorem Transfer.At.stop_receiver (h : Transfer.At o timeoutMs k m fwd bwd x) :
    Transfer.Sound o timeoutMs { x with receiver := x.receiver.stop } :=
  ⟨k, m, fwd, bwd, ⟨h.wires.link, h.wires.toReceiver, h.wires.toSender, h.wires.forward,
    h.wires.answer⟩, h.sender, h.receiver.stop, h.senderUnstarted,
    fun hr => ⟨(h.receiverUnstarted hr).1, (h.receiverUnstarted hr).2.1,
      (h.receiverUnstarted hr).2.2.1, rfl⟩, h.honest⟩

/-- Every event keeps the invariant. -/
theorem Transfer.Sound.step (h : Transfer.Sound o timeoutMs x) (event : TransferEvent) :
    Transfer.Sound o timeoutMs (x.step o timeoutMs event) := by
  obtain ⟨k, m, fwd, bwd, h⟩ := h
  have hsame : Transfer.Sound o timeoutMs x := ⟨k, m, fwd, bwd, h⟩
  cases event with
  | startSender =>
      rw [Transfer.step]
      split
      · exact hsame
      · next hstarted => exact h.start_sender hstarted
  | startReceiver =>
      rw [Transfer.step]
      split
      · exact hsame
      · next hstarted => exact h.start_receiver hstarted
  | cancelSender => exact h.sender_does h.sender.does_cancel fun hun => hun.fail _ _
  | cancelReceiver => exact h.receiver_does h.receiver.does_cancel fun hun => hun.fail _ _
  | timeoutSender =>
      rw [Transfer.step]
      split
      · exact h.sender_does h.sender.does_timeout fun hun => hun.timeout
      · exact hsame
  | timeoutReceiver =>
      rw [Transfer.step]
      split
      · exact h.receiver_does h.receiver.does_timeout fun hun => hun.timeout
      · exact hsame
  | stopReceiver => exact h.stop_receiver
  | deliverToSender =>
      rw [Transfer.step]
      split
      · exact hsame
      · next hx => exact h.deliver_toSender hx
  | deliverToReceiver =>
      rw [Transfer.step]
      split
      · exact hsame
      · next hx => exact h.deliver_toReceiver hx
  | loseToSender i =>
      refine ⟨k, m, fwd, bwd.eraseIdx i,
        h.lose (List.Sublist.refl _) (List.eraseIdx_sublist _ _) ?_⟩
      rw [Transfer.step, ← List.eraseIdx_map, ← h.wires.toSender, ← h.wires.toReceiver]
  | loseToReceiver i =>
      refine ⟨k, m, fwd.eraseIdx i, bwd,
        h.lose (List.eraseIdx_sublist _ _) (List.Sublist.refl _) ?_⟩
      rw [Transfer.step, ← List.eraseIdx_map, ← h.wires.toSender, ← h.wires.toReceiver]
  | damageToSender bytes =>
      rw [Transfer.step]
      split
      · exact hsame
      · next hx =>
          split
          · next hbad => exact h.damage_toSender hx hbad
          · exact hsame
  | damageToReceiver bytes =>
      rw [Transfer.step]
      split
      · exact hsame
      · next hx =>
          split
          · next hbad => exact h.damage_toReceiver hx hbad
          · exact hsame

theorem Transfer.sound_init : Transfer.Sound o timeoutMs Transfer.init :=
  ⟨0, 0, [], [], ⟨Link.init, rfl, rfl, fun _ hy => absurd hy List.not_mem_nil,
    fun _ hy => absurd hy List.not_mem_nil⟩, .idle rfl rfl rfl rfl rfl,
    .idle rfl rfl rfl rfl rfl rfl rfl rfl rfl, fun _ => ⟨rfl, rfl⟩, fun _ => ⟨rfl, rfl, rfl, rfl⟩,
    ⟨fun _ hdata => absurd hdata List.not_mem_nil, nofun, nofun⟩⟩

theorem Transfer.sound_run (events : List TransferEvent) :
    Transfer.Sound o timeoutMs (Transfer.run o timeoutMs events) :=
  List.foldlRecOn events _ Transfer.sound_init fun _ h event _ => h.step event

end

/-- Whatever the link loses, delays or damages, and whenever the timers and the two
`cancel` fire: a receiver that reports success hands out the bytes of the file, and a
sender reports success only after its receiver did. -/
theorem transfer_integrity (o : SenderOptions) (timeoutMs : ℕ) (events : List TransferEvent) :
    (∀ data, Completion.receiver true data ∈ (Transfer.run o timeoutMs events).log →
      data = some o.data.bytes) ∧
    ∀ i : ℕ, (Transfer.run o timeoutMs events).log[i]? = some (Completion.sender true) →
      ∃ j : ℕ, j < i ∧ (Transfer.run o timeoutMs events).log[j]? =
        some (Completion.receiver true (some o.data.bytes)) := by
  obtain ⟨k, m, fwd, bwd, h⟩ := Transfer.sound_run events
  exact ⟨h.honest.receiver, h.honest.sender⟩

end Kermit

end Voyager
