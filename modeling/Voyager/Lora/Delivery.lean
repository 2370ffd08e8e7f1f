import Voyager.Lora.Channel

/-!
# What an acknowledgement means

An acknowledgement carries a seq and a value, and every board hears it. So the value `1`
with the right seq tells a sender that its message was delivered only if it was sent for
that message: the board that sent it may have answered another board's packet, or taken
the message for an older packet that its dedup table still holds. The invariant follows
each frame and each dedup entry back to the call it comes from.
-/

namespace Voyager

open LoraProto

variable {ι : Type}

/-! ## The log since a call began -/

/-- The event that starts a call. -/
def Event.IsBegan (call : Call ι) (e : Event ι) : Prop :=
  ∃ p seq, e = .began call p seq

/-- The call has taken its seq. -/
def Begun (log : List (Event ι)) (call : Call ι) : Prop :=
  ∃ p seq, .began call p seq ∈ log

/-- The event happened after the call took its seq: nothing that is newer starts it. -/
def Since (log : List (Event ι)) (call : Call ι) (e : Event ι) : Prop :=
  ∃ newer older, log = newer ++ e :: older ∧ ∀ x ∈ newer ++ [e], ¬ x.IsBegan call

/-- The event is one of board `i`. -/
def Event.IsOf (i : ι) : Event ι → Prop
  | .began call _ _ => call.board = i
  | .ackHeard j _ _ _ => j = i
  | .queued j _ _ => j = i
  | .returned call _ _ => call.board = i

/-- An event that starts no call that has begun before. -/
def Event.Fresh (log : List (Event ι)) (e : Event ι) : Prop :=
  ∀ call p seq, e = .began call p seq → ¬ Begun log call

variable {log : List (Event ι)} {call : Call ι} {e x : Event ι}

theorem Begun.cons (h : Begun log call) : Begun (x :: log) call := by
  obtain ⟨p, seq, h⟩ := h
  exact ⟨p, seq, List.mem_cons_of_mem x h⟩

theorem Since.mem (h : Since log call e) : e ∈ log := by
  obtain ⟨newer, older, rfl, -⟩ := h
  simp

theorem Since.cons (h : Since log call e) (hx : ¬ x.IsBegan call) : Since (x :: log) call e := by
  obtain ⟨newer, older, rfl, hnewer⟩ := h
  refine ⟨x :: newer, older, rfl, ?_⟩
  intro y hy
  rcases List.mem_cons.mp hy with rfl | hy
  · exact hx
  · exact hnewer y hy

theorem Since.of_cons (h : Since (x :: log) call e) : e = x ∨ Since log call e := by
  obtain ⟨newer, older, heq, hnewer⟩ := h
  cases newer with
  | nil =>
      cases heq
      exact .inl rfl
  | cons y newer =>
      cases heq
      exact .inr ⟨newer, older, rfl, fun z hz => hnewer z (List.mem_cons_of_mem _ hz)⟩

/-- Nothing has happened in a call that has just begun. -/
theorem not_since_began {p : QueueParam} {seq : Byte} :
    ¬ Since (.began call p seq :: log) call e := by
  rintro ⟨newer, older, heq, hnewer⟩
  have hmem : Event.began call p seq ∈ newer ++ [e] := by
    cases newer <;> simp_all
  exact hnewer _ hmem ⟨p, seq, rfl⟩

theorem Event.IsOf.board_eq {i : ι} (h : e.IsOf i) (hbegan : e.IsBegan call) : call.board = i := by
  obtain ⟨p, seq, rfl⟩ := hbegan
  exact h

theorem Since.head (hx : ¬ x.IsBegan call) : Since (x :: log) call x :=
  ⟨[], log, rfl, by simpa using hx⟩

theorem Event.Fresh.not_isBegan (h : x.Fresh log) (hcall : Begun log call) : ¬ x.IsBegan call := by
  rintro ⟨p, seq, rfl⟩
  exact h call p seq rfl hcall

/-! ## When a seq comes round

A board takes the same seq again 256 calls later. The code relies on the age of a dedup entry,
and on the time an answer takes, to tell the two calls apart. -/

/-- The seq of the running call, from `take_seq` on. -/
def TxTask.seq : TxTask → Option Byte
  | .begun _ t | .sending _ t | .waiting _ t => some t.seq
  | _ => none

section Apart

variable (jsonMac : List Byte → Option (List Byte))

/-- The call that the dedup table takes a packet for. -/
def Node.takenFor (nd : Node ι) (p : Parsed) : Option (Call ι) :=
  if rxIsDuplicateMulti nd.board.rxDedup (Node.dedupKey jsonMac p) p.seq then
    (rxDedupLookup nd.board.rxDedup (Node.dedupKey jsonMac p)).bind nd.owner
  else none

/-- A frame is not mixed up with one of an earlier call of the same board: the table does not
take its packet for that call's, and the call it answers is the one that is running. -/
def Node.Unmixed (i : ι) (nd : Node ι) (f : Heard ι) : Prop :=
  match f.origin with
  | none => True
  | some (.packet call) =>
      ∀ left ∈ nd.takenFor jsonMac (parsePacket f.bytes), left.board = call.board → left = call
  | some (.answer a) =>
      nd.tx.seq = some (parsePacket f.bytes).seq →
        ∀ c ∈ a.call, c.board = i → c = { board := i, index := nd.calls }

/-- A step that handles a frame handles one that is not mixed up. -/
def Node.Apart (i : ι) (nd : Node ι) : Action ι → Prop
  | .rxHandle _ =>
      match nd.rx with
      | .handling f => nd.Unmixed jsonMac i f
      | _ => True
  | _ => True

/-- In the run from `s` two calls of one board with the same seq are never mixed up. -/
def Channel.CallsApart [DecidableEq ι] : Channel ι → List (ι × Action ι) → Prop
  | _, [] => True
  | s, a :: as => (s.nodes a.1).Apart jsonMac a.1 a.2 ∧ CallsApart (s.step jsonMac a) as

end Apart

/-- The calls that have taken a seq, with it. -/
def begun (log : List (Event ι)) : List (Call ι × Byte) :=
  log.filterMap fun
    | .began call _ seq => some (call, seq)
    | _ => none

/-- No board has taken one seq for two calls. -/
def SeqsOnce (log : List (Event ι)) : Prop :=
  ∀ a ∈ begun log, ∀ b ∈ begun log, a.2 = b.2 → a.1.board = b.1.board → a.1 = b.1

theorem mem_begun {p : QueueParam} {seq : Byte} (h : .began call p seq ∈ log) :
    (call, seq) ∈ begun log :=
  List.mem_filterMap.mpr ⟨_, h, rfl⟩

theorem SeqsOnce.eq {left : Call ι} {p q : QueueParam} {seq : Byte} (h : SeqsOnce log)
    (hleft : .began left q seq ∈ log) (hcall : .began call p seq ∈ log)
    (hboard : left.board = call.board) : left = call :=
  h _ (mem_begun hleft) _ (mem_begun hcall) rfl hboard

theorem SeqsOnce.mono {log' : List (Event ι)} (h : SeqsOnce log) (hsub : log' ⊆ log) :
    SeqsOnce log' := by
  have hbegun : ∀ a ∈ begun log', a ∈ begun log := fun a ha => by
    obtain ⟨x, hx, hxa⟩ := List.mem_filterMap.mp ha
    exact List.mem_filterMap.mpr ⟨x, hsub hx, hxa⟩
  exact fun a ha b hb => h a (hbegun a ha) b (hbegun b hb)

/-! ## The invariant -/

/-- The key under which a dedup table knows the packet of a submission. -/
def QueueParam.dedupKey (jsonMac : List Byte → Option (List Byte)) (p : QueueParam) : UInt32 :=
  if p.type = T_NET then netDedupKey ((netParse p.message).elim 0 NetFrame.src)
  else extractMacKey jsonMac (cString p.message)

section Invariant

variable (jsonMac : List Byte → Option (List Byte))

/-- A message of the call was queued by board `j`, since the call began. -/
def Kept (log : List (Event ι)) (j : ι) (call : Call ι) : Prop :=
  Begun log call ∧ ∀ p seq, .began call p seq ∈ log → p.type = T_LORA_MSG →
    Since log call (.queued j p.message (some call))

/-- The answer is for the packet of that call, and the board has it from there. -/
def Answer.For (a : Answer ι) (call : Call ι) : Prop :=
  a.call = some call ∧ (a.verdict = .accepted ∨ a.verdict = .duplicate (some call))

/-- An answer has the seq of the packet it answers, and a `1` for a packet that the board
has from the call means that it keeps it. -/
structure AnswerOk (log : List (Event ι)) (akn : Akn) (a : Answer ι) : Prop where
  seq : ∀ call, a.call = some call → ∃ p, .began call p akn.seq ∈ log
  verdict : akn.result = ACK_OK → a.verdict ≠ .refused
  kept : akn.result = ACK_OK → ∀ call, a.For call → Kept log a.board call
  entry : ∀ call, a.call = some call → ∀ left, a.verdict = .duplicate (some left) → left ≠ call →
    left.board ≠ call.board ∧ ∃ p q, .began call p akn.seq ∈ log ∧ .began left q akn.seq ∈ log ∧
      q.dedupKey jsonMac = p.dedupKey jsonMac

/-- A frame with an origin is the frame of that origin. -/
def FrameOk (log : List (Event ι)) (bytes : List Byte) : Option (Origin ι) → Prop
  | none => True
  | some (.packet call) =>
      ∃ p seq, .began call p seq ∈ log ∧ loRaSendFrame p.message p.type seq = some bytes
  | some (.answer a) =>
      ∃ akn : Akn, frameAck akn.seq akn.result (HEADER_LEN + 1) = some bytes ∧
        AnswerOk jsonMac log akn a

/-- What an acknowledgement that was heard can be. -/
def AckOk (log : List (Event ι)) (seq : Byte) : Option (Origin ι) → Prop
  | none => True
  | some (.packet _) => False
  | some (.answer a) => AnswerOk jsonMac log { seq, result := ACK_OK } a

/-- The answers heard during a call that are for a packet of its own board are for its own. -/
def OwnAnswers (log : List (Event ι)) (call : Call ι) (seq : Byte) : Prop :=
  ∀ a c, Since log call (.ackHeard call.board seq ACK_OK (some (.answer a))) →
    a.call = some c → c.board = call.board → c = call

/-- What the TX task relies on: its call has begun, and the acknowledgements it can still
take were heard since. -/
def TxOk (log : List (Event ι)) (i : ι) (nd : Node ι) : Prop :=
  match nd.tx with
  | .idle | .taken _ => ¬ Begun log { board := i, index := nd.calls }
  | .begun p t =>
      .began { board := i, index := nd.calls } p t.seq ∈ log ∧
        OwnAnswers log { board := i, index := nd.calls } t.seq
  | .broadcasting p seq =>
      p.type = T_NET ∧ .began { board := i, index := nd.calls } p seq ∈ log
  | .sending p t | .waiting p t =>
      .began { board := i, index := nd.calls } p t.seq ∈ log ∧
        OwnAnswers log { board := i, index := nd.calls } t.seq ∧
        ∀ v ∈ nd.board.ackQueue.items, ∃ o,
          Since log { board := i, index := nd.calls } (.ackHeard i (wordHi v) (wordLo v) o)

/-- The part of the invariant about one board. -/
structure NodeOk (log : List (Event ι)) (i : ι) (nd : Node ι) : Prop where
  fifo : ∀ h, nd.fifo = some h → FrameOk jsonMac log h.bytes h.origin
  handling : ∀ h, nd.rx = .handling h → FrameOk jsonMac log h.bytes h.origin
  answering : ∀ akn a, nd.rx = .answering akn a → AnswerOk jsonMac log akn a
  owner : ∀ slot call, nd.owner slot = some call → Kept log i call
  entry : ∀ slot call, nd.owner slot = some call →
    ∃ q, .began call q (nd.board.rxDedup.entries slot).seq ∈ log ∧
      q.dedupKey jsonMac = (nd.board.rxDedup.entries slot).key
  tx : TxOk log i nd
  fresh : ∀ index, nd.calls < index → ¬ Begun log { board := i, index }

/-- An acknowledgement with the right seq and a `1` that says nothing about the call: it
came damaged, it answers a damaged packet or one of another board's call with the same seq, or
it comes from a board whose dedup entry for the packet was left by a damaged frame or by
another board's call with the same key and seq. -/
def Foreign (log : List (Event ι)) (call : Call ι) (p : QueueParam) (seq : Byte)
    (o : Option (Origin ι)) : Prop :=
  o = none ∨ ∃ a, o = some (.answer a) ∧
    (a.call = none ∨
      (∃ other q, other.board ≠ call.board ∧ a.call = some other ∧ .began other q seq ∈ log) ∨
      a.call = some call ∧
        (a.verdict = .duplicate none ∨
          ∃ left q, a.verdict = .duplicate (some left) ∧ left.board ≠ call.board ∧
            .began left q seq ∈ log ∧ q.dedupKey jsonMac = p.dedupKey jsonMac))

/-- What has happened when a call returns `true`: since it took its seq its board has heard
an acknowledgement with that seq and a `1`, and either some board has queued its message
since, or no such acknowledgement says anything about the call. -/
def Explained (log : List (Event ι)) (call : Call ι) (p : QueueParam) : Prop :=
  ∃ seq, .began call p seq ∈ log ∧
    (∃ o, Since log call (.ackHeard call.board seq ACK_OK o)) ∧
    ((∃ j, Since log call (.queued j p.message (some call))) ∨
      ∀ o, Since log call (.ackHeard call.board seq ACK_OK o) → Foreign jsonMac log call p seq o)

/-- The part of the invariant about the log. -/
structure LogOk (log : List (Event ι)) : Prop where
  unique : ∀ call p seq p' seq', .began call p seq ∈ log → .began call p' seq' ∈ log →
    p = p' ∧ seq = seq'
  acks : ∀ i seq o, .ackHeard i seq ACK_OK o ∈ log → AckOk jsonMac log seq o
  explained : ∀ call p older, .returned call p true :: older <:+ log → p.type = T_LORA_MSG →
    Explained jsonMac older call p

structure Inv (s : Channel ι) : Prop where
  log : LogOk jsonMac s.log
  node : ∀ i, NodeOk jsonMac s.log i (s.nodes i)

variable {jsonMac}

/-! ## The log only grows -/

theorem Kept.cons {j : ι} (h : Kept log j call) (hx : x.Fresh log) : Kept (x :: log) j call := by
  obtain ⟨hbegun, hkept⟩ := h
  refine ⟨hbegun.cons, ?_⟩
  intro p seq hp htype
  rcases List.mem_cons.mp hp with h | hp
  · exact absurd hbegun (hx call p seq h.symm)
  · exact (hkept p seq hp htype).cons (hx.not_isBegan hbegun)

theorem AnswerOk.cons {akn : Akn} {a : Answer ι} (h : AnswerOk jsonMac log akn a)
    (hx : x.Fresh log) : AnswerOk jsonMac (x :: log) akn a where
  seq call hcall := by
    obtain ⟨p, hp⟩ := h.seq call hcall
    exact ⟨p, List.mem_cons_of_mem x hp⟩
  verdict := h.verdict
  kept hresult call hcall := (h.kept hresult call hcall).cons hx
  entry call hcall left hleft hne := by
    obtain ⟨hboard, p, q, hp, hq, hkey⟩ := h.entry call hcall left hleft hne
    exact ⟨hboard, p, q, List.mem_cons_of_mem x hp, List.mem_cons_of_mem x hq, hkey⟩

theorem FrameOk.cons {bytes : List Byte} {o : Option (Origin ι)} (h : FrameOk jsonMac log bytes o)
    (hx : x.Fresh log) : FrameOk jsonMac (x :: log) bytes o := by
  match o, h with
  | none, _ => trivial
  | some (.packet call), ⟨p, seq, hp, hbytes⟩ => exact ⟨p, seq, List.mem_cons_of_mem x hp, hbytes⟩
  | some (.answer a), ⟨akn, hbytes, ha⟩ => exact ⟨akn, hbytes, ha.cons hx⟩

theorem AckOk.cons {seq : Byte} {o : Option (Origin ι)} (h : AckOk jsonMac log seq o)
    (hx : x.Fresh log) : AckOk jsonMac (x :: log) seq o := by
  match o, h with
  | none, _ => trivial
  | some (.answer a), ha => exact AnswerOk.cons ha hx

theorem not_begun_cons (h : ¬ Begun log call) (hx : ¬ x.IsBegan call) :
    ¬ Begun (x :: log) call := by
  rintro ⟨p, seq, hp⟩
  rcases List.mem_cons.mp hp with rfl | hp
  · exact hx ⟨p, seq, rfl⟩
  · exact h ⟨p, seq, hp⟩

theorem OwnAnswers.cons {seq : Byte} (h : OwnAnswers log call seq)
    (hx : ∀ a c, x = .ackHeard call.board seq ACK_OK (some (.answer a)) →
      a.call = some c → c.board = call.board → c = call) : OwnAnswers (x :: log) call seq := by
  intro a c hsince
  rcases hsince.of_cons with heq | hold
  · exact hx a c heq.symm
  · exact h a c hold

/-- An answer that board `i` hears in a call is for no other call of the board. -/
def Event.OwnAnswer (i : ι) (nd : Node ι) (x : Event ι) : Prop :=
  ∀ seq a c, x = .ackHeard i seq ACK_OK (some (.answer a)) → nd.tx.seq = some seq →
    a.call = some c → c.board = i → c = { board := i, index := nd.calls }

theorem TxOk.cons {i : ι} {nd : Node ι} (h : TxOk log i nd)
    (hboard : ∀ c, c.board = i → ¬ x.IsBegan c) (hown : x.OwnAnswer i nd) :
    TxOk (x :: log) i nd := by
  have hthis : ¬ x.IsBegan { board := i, index := nd.calls } := hboard _ rfl
  unfold TxOk at h ⊢
  cases htx : nd.tx with
  | idle | taken =>
      rw [htx] at h
      exact not_begun_cons h hthis
  | begun p t =>
      rw [htx] at h
      exact ⟨List.mem_cons_of_mem x h.1, h.2.cons fun a c hx => hown t.seq a c hx (by rw [htx]; rfl)⟩
  | broadcasting =>
      rw [htx] at h
      exact ⟨h.1, List.mem_cons_of_mem x h.2⟩
  | sending p t | waiting p t =>
      rw [htx] at h
      refine ⟨List.mem_cons_of_mem x h.1,
        h.2.1.cons fun a c hx => hown t.seq a c hx (by rw [htx]; rfl), ?_⟩
      intro v hv
      obtain ⟨o, ho⟩ := h.2.2 v hv
      exact ⟨o, ho.cons hthis⟩

/-- An event that starts no call of board `i` leaves what is known of it. -/
theorem NodeOk.cons {i : ι} {nd : Node ι} (h : NodeOk jsonMac log i nd) (hx : x.Fresh log)
    (hboard : ∀ c, c.board = i → ¬ x.IsBegan c) (hown : x.OwnAnswer i nd) :
    NodeOk jsonMac (x :: log) i nd where
  fifo f hf := (h.fifo f hf).cons hx
  handling f hf := (h.handling f hf).cons hx
  answering akn a ha := (h.answering akn a ha).cons hx
  owner slot c hc := (h.owner slot c hc).cons hx
  entry slot c hc := by
    obtain ⟨q, hq, hkey⟩ := h.entry slot c hc
    exact ⟨q, List.mem_cons_of_mem x hq, hkey⟩
  tx := h.tx.cons hboard hown
  fresh index hindex := not_begun_cons (h.fresh index hindex) (hboard _ rfl)

variable (jsonMac) in
/-- What an event needs to be true of the log before it. -/
def EventOk (log : List (Event ι)) : Event ι → Prop
  | .began call _ _ => ¬ Begun log call
  | .ackHeard _ seq value o => value = ACK_OK → AckOk jsonMac log seq o
  | .queued _ _ _ => True
  | .returned call p ok => ok = true → p.type = T_LORA_MSG → Explained jsonMac log call p

theorem EventOk.fresh (h : EventOk jsonMac log x) : x.Fresh log := by
  rintro call p seq rfl
  exact h

theorem LogOk.cons (h : LogOk jsonMac log) (hx : EventOk jsonMac log x) :
    LogOk jsonMac (x :: log) where
  unique call p seq p' seq' hp hp' := by
    rcases List.mem_cons.mp hp with rfl | hold <;> rcases List.mem_cons.mp hp' with h' | hold'
    · cases h'
      exact ⟨rfl, rfl⟩
    · exact absurd ⟨p', seq', hold'⟩ hx
    · subst h'
      exact absurd ⟨p, seq, hold⟩ hx
    · exact h.unique call p seq p' seq' hold hold'
  acks i seq o ho := by
    rcases List.mem_cons.mp ho with rfl | ho
    · exact AckOk.cons (hx rfl) hx.fresh
    · exact (h.acks i seq o ho).cons hx.fresh
  explained call p older hsuffix htype := by
    rcases List.suffix_cons_iff.mp hsuffix with heq | hsuffix
    · cases heq
      exact hx rfl htype
    · exact h.explained call p older hsuffix htype

variable (jsonMac) in
/-- What a step of board `i` needs to be true of its effect. -/
structure EffectOk (log : List (Event ι)) (i : ι) (e : Effect ι) : Prop where
  event : ∀ x, e.event = some x → EventOk jsonMac log x ∧ x.IsOf i
  sent : ∀ sent, e.sent = some sent → FrameOk jsonMac log sent.bytes sent.origin
  node : NodeOk jsonMac (e.event.toList ++ log) i e.node

theorem NodeOk.hear {i : ι} {nd : Node ι} {sent : Sent ι} (h : NodeOk jsonMac log i nd)
    (hsent : FrameOk jsonMac log sent.bytes sent.origin) :
    NodeOk jsonMac log i (nd.hear i sent) := by
  unfold Node.hear
  split
  · exact h
  · refine { h with fifo := ?_ }
    rintro f hf
    cases hf
    by_cases hbytes : ‹List Byte› = sent.bytes
    · simp only [hbytes, if_true]
      exact hsent
    · simp only [hbytes, if_false]
      trivial

theorem Inv.apply [DecidableEq ι] {s : Channel ι} (h : Inv jsonMac s) {i : ι} {e : Effect ι}
    (he : EffectOk jsonMac s.log i e) : Inv jsonMac (s.apply i e) := by
  have hlog : LogOk jsonMac (e.event.toList ++ s.log) := by
    cases hx : e.event with
    | none => exact h.log
    | some x => exact h.log.cons (he.event x hx).1
  have hother : ∀ j, j ≠ i → NodeOk jsonMac (e.event.toList ++ s.log) j (s.nodes j) := by
    intro j hj
    cases hx : e.event with
    | none => exact h.node j
    | some x =>
        obtain ⟨hevent, hboard⟩ := he.event x hx
        refine (h.node j).cons hevent.fresh
          (fun c hc hbegan => hj (hc.symm.trans (hboard.board_eq hbegan))) ?_
        rintro seq a c rfl
        exact absurd hboard hj
  have hsent : ∀ sent, e.sent = some sent →
      FrameOk jsonMac (e.event.toList ++ s.log) sent.bytes sent.origin := by
    intro sent h'
    cases hx : e.event with
    | none => exact he.sent sent h'
    | some x => exact (he.sent sent h').cons (he.event x hx).1.fresh
  refine ⟨hlog, ?_⟩
  intro j
  simp only [Channel.apply]
  split
  · rename_i hj
    subst hj
    exact he.node
  · rename_i hj
    split
    · exact hother j hj
    · rename_i sent h'
      exact (hother j hj).hear (hsent sent h')

/-! ## The steps of a board -/

section Steps

variable {i : ι} {nd : Node ι} {p : QueueParam}

/-- The tasks around the radio leave the queue of acknowledgements alone. -/
theorem NodeOk.withBoard (h : NodeOk jsonMac log i nd) {b : Board}
    (hb : b.ackQueue = nd.board.ackQueue) (hd : b.rxDedup = nd.board.rxDedup) :
    NodeOk jsonMac log i { nd with board := b } := by
  refine { h with entry := ?_, tx := ?_ }
  · have hentry := h.entry
    rw [← hd] at hentry
    exact hentry
  · have htx := h.tx
    unfold TxOk at htx ⊢
    rw [hb]
    exact htx

theorem EffectOk.silent (h : NodeOk jsonMac log i nd) : EffectOk jsonMac log i nd.silent where
  event := nofun
  sent := nofun
  node := h

theorem not_isBegan_returned {c : Call ι} {ok : Bool} : ¬ (Event.returned call p ok).IsBegan c := by
  rintro ⟨_, _, h⟩
  cases h

/-- A call returns: the board may make its next one. -/
theorem finish_ok (h : NodeOk jsonMac log i nd) {ok : Bool}
    (hok : ok = true → p.type = T_LORA_MSG →
      Explained jsonMac log { board := i, index := nd.calls } p) :
    EffectOk jsonMac log i (nd.finish i p ok) where
  event := by
    rintro x hx
    cases hx
    exact ⟨hok, rfl⟩
  sent := nofun
  node := by
    have hcons := h.cons (x := .returned { board := i, index := nd.calls } p ok)
      (fun _ _ _ h' => by cases h') (fun _ _ => not_isBegan_returned) nofun
    refine { hcons with tx := ?_, fresh := ?_ }
    · exact hcons.fresh (nd.calls + 1) (Nat.lt_succ_self _)
    · intro index hindex
      exact hcons.fresh index (Nat.lt_of_succ_lt hindex)

/-- An attempt is over: the call returns or tries again. -/
theorem proceed_ok (h : NodeOk jsonMac log i nd) {t : TxRetry} {a : TxAction × TxRetry}
    (htx : TxOk log i { nd with tx := .sending p t }) (hseq : a.2.seq = t.seq)
    (hok : a.1 = .success → p.type = T_LORA_MSG →
      Explained jsonMac log { board := i, index := nd.calls } p) :
    EffectOk jsonMac log i (nd.proceed i p a) := by
  unfold Node.proceed
  split
  · rename_i hsuccess
    exact finish_ok h fun _ => hok hsuccess
  · exact finish_ok h nofun
  · refine .silent { h with tx := ?_ }
    exact ⟨hseq ▸ htx.1, hseq ▸ htx.2.1, htx.2.2⟩

theorem timeout_ok (h : NodeOk jsonMac log i nd) {t : TxRetry}
    (htx : TxOk log i { nd with tx := .sending p t }) :
    EffectOk jsonMac log i (nd.proceed i p (txOnTimeout t)) :=
  proceed_ok h htx (txOnTimeout_seq t) fun hsuccess => absurd hsuccess (txOnTimeout_ne_success t)

theorem begin_ok (h : NodeOk jsonMac log i nd) (htx : nd.tx = .taken p) :
    EffectOk jsonMac log i (nd.begin i p) := by
  unfold Node.begin
  split
  · exact finish_ok h nofun
  · split
    · exact finish_ok h nofun
    · have hfresh : ¬ Begun log { board := i, index := nd.calls } := by
        have hnode := h.tx
        unfold TxOk at hnode
        rw [htx] at hnode
        exact hnode
      refine ⟨?_, nofun, ?_⟩
      · rintro x hx
        cases hx
        exact ⟨hfresh, rfl⟩
      · have hx : (Event.began { board := i, index := nd.calls } p
            nd.board.takeSeq.1).Fresh log := by
          rintro call p seq hc
          cases hc
          exact hfresh
        exact {
          fifo := fun f hf => (h.fifo f hf).cons hx
          handling := fun f hf => (h.handling f hf).cons hx
          answering := fun akn a ha => (h.answering akn a ha).cons hx
          owner := fun slot c hc => (h.owner slot c hc).cons hx
          entry := fun slot c hc => by
            obtain ⟨q, hq, hkey⟩ := h.entry slot c hc
            exact ⟨q, List.mem_cons_of_mem _ hq, hkey⟩
          tx := by
            by_cases hcast : IsNetBroadcast p
            · simp [TxOk, hcast, hcast.1]
            · simp [TxOk, hcast, txBegin, OwnAnswers, not_since_began]
          fresh := by
            intro index hindex
            refine not_begun_cons (h.fresh index hindex) ?_
            rintro ⟨_, _, hc⟩
            cases hc
            exact absurd hindex (Nat.lt_irrefl _) }

theorem packet_ok {seq : Byte} {bytes : List Byte} {reception : Reception ι}
    (hbegan : .began { board := i, index := nd.calls } p seq ∈ log)
    (hframe : loRaSendFrame p.message p.type seq = some bytes) :
    FrameOk jsonMac log (nd.packet i bytes reception).bytes (nd.packet i bytes reception).origin :=
  ⟨p, seq, hbegan, hframe⟩

theorem send_ok (h : NodeOk jsonMac log i nd) (radio : Option (Reception ι)) :
    EffectOk jsonMac log i (nd.send i radio) := by
  have hnode := h.tx
  unfold Node.send
  split
  · rename_i q seq htx
    rw [TxOk, htx] at hnode
    split
    · rename_i bytes reception hframe
      have hfinish : EffectOk jsonMac log i (nd.finish i q true) :=
        finish_ok h fun _ hmsg => absurd (hnode.1.symm.trans hmsg) (by decide)
      exact
        { event := hfinish.event
          sent := by
            rintro sent hsent
            cases hsent
            exact packet_ok hnode.2 hframe
          node := hfinish.node }
    · exact finish_ok h nofun
  · rename_i q t htx
    rw [TxOk, htx] at hnode
    split
    · rename_i bytes reception hframe
      refine ⟨nofun, ?_, { h with tx := hnode }⟩
      rintro sent hsent
      cases hsent
      exact packet_ok hnode.1 hframe
    · exact timeout_ok h hnode
  · exact .silent h

/-- The TX task takes the acknowledgement it has been waiting for: what the log knows about
those with its seq explains why the call returns `true`. -/
theorem explained_of_ack (hlog : LogOk jsonMac log) {t : TxRetry} {v : UInt16} {call : Call ι}
    (hbegan : .began call p t.seq ∈ log) (hown : OwnAnswers log call t.seq)
    (hheard : ∃ o, Since log call (.ackHeard call.board (wordHi v) (wordLo v) o))
    (hsuccess : (txOnAck t (wordHi v) (wordLo v)).1 = .success) (htype : p.type = T_LORA_MSG) :
    Explained jsonMac log call p := by
  obtain ⟨hseq, hvalue⟩ := txOnAck_success hsuccess
  obtain ⟨o, ho⟩ := hheard
  rw [hseq, hvalue] at ho
  refine ⟨t.seq, hbegan, ⟨o, ho⟩, ?_⟩
  by_cases hqueued : ∃ j, Since log call (.queued j p.message (some call))
  · exact .inl hqueued
  right
  intro o ho
  have hack : AckOk jsonMac log t.seq o := hlog.acks call.board t.seq o ho.mem
  match o, hack with
  | none, _ => exact .inl rfl
  | some (.answer a), ha =>
      refine .inr ⟨a, rfl, ?_⟩
      -- the board has nothing from the call, so the answer is not for its packet
      have hnot : ¬ a.For call := fun hfor =>
        hqueued ⟨a.board, (ha.kept rfl _ hfor).2 p t.seq hbegan htype⟩
      cases hcall : a.call with
      | none => exact .inl rfl
      | some other =>
          by_cases hother : other = call
          · subst hother
            refine .inr (.inr ⟨rfl, ?_⟩)
            cases hverdict : a.verdict with
            | accepted => exact absurd ⟨hcall, .inl hverdict⟩ hnot
            | refused => exact absurd hverdict (ha.verdict rfl)
            | duplicate left =>
                cases left with
                | none => exact .inl rfl
                | some left =>
                    have hne : left ≠ other := by
                      rintro rfl
                      exact hnot ⟨hcall, .inr hverdict⟩
                    obtain ⟨hboard, p', q, hp', hq, hkey⟩ := ha.entry other hcall left hverdict hne
                    obtain ⟨rfl, -⟩ := hlog.unique other p' t.seq p t.seq hp' hbegan
                    exact .inr ⟨left, q, rfl, hboard, hq, hkey⟩
          · obtain ⟨q, hq⟩ := ha.seq other hcall
            refine .inr (.inl ⟨other, q, fun hboard => hother ?_, rfl, hq⟩)
            exact hown a other ho hcall hboard

theorem ack_ok (h : NodeOk jsonMac log i nd) (hlog : LogOk jsonMac log) :
    EffectOk jsonMac log i (nd.ack i) := by
  have hnode := h.tx
  unfold Node.ack
  split
  · rename_i q t v ackQueue htx hreceive
    rw [TxOk, htx] at hnode
    have hitems := BoundedQueue.receive_eq_some_iff.mp hreceive
    have hrest : ∀ w ∈ ackQueue.items, w ∈ nd.board.ackQueue.items := by
      intro w hw
      rw [hitems]
      exact List.mem_cons_of_mem v hw
    have hv : v ∈ nd.board.ackQueue.items := by
      rw [hitems]
      exact List.mem_cons_self
    have hafter : ∀ t', t'.seq = t.seq → TxOk log i
        { nd with board := { nd.board with ackQueue }, tx := .sending q t' } :=
      fun t' ht' => ⟨ht' ▸ hnode.1, ht' ▸ hnode.2.1, fun w hw => hnode.2.2 w (hrest w hw)⟩
    have hseq := txOnAck_seq t (wordHi v) (wordLo v)
    simp only
    split
    · exact .silent { h with tx := hafter _ hseq }
    · have hwait : TxOk log i { nd with board := { nd.board with ackQueue } } := by
        rw [TxOk]
        simp only [htx]
        exact ⟨hnode.1, hnode.2.1, fun w hw => hnode.2.2 w (hrest w hw)⟩
      have hboard : NodeOk jsonMac log i { nd with board := { nd.board with ackQueue } } :=
        { h with tx := hwait }
      exact proceed_ok hboard (hafter t rfl) hseq fun hsuccess htype =>
        explained_of_ack hlog hnode.1 hnode.2.1 (hnode.2.2 v hv) hsuccess htype
  · exact .silent h

/-! ### The RX task handles a frame -/

theorem parsePacket_loRaSendFrame {data bytes : List Byte} {type seq : Byte}
    (h : loRaSendFrame data type seq = some bytes) :
    parsePacket bytes =
        { ok := true, err := .none, type, seq, len := UInt8.ofNat data.length, payload := data } ∧
      type ≠ T_REC_AKNG ∧ data.length = (UInt8.ofNat data.length).toNat := by
  unfold loRaSendFrame at h
  split at h
  · cases h
  · rename_i hlen
    obtain ⟨⟨-, hack⟩, hmax, -, -⟩ := framePacket_eq_some_iff.mp h
    refine ⟨parsePacket_framePacket h, hack, (toNat_ofNat_of_lt ?_).symm⟩
    simp only [MAX_PAYLOAD] at hmax
    omega

variable {env : Env} {f : Heard ι}

theorem heardCall_eq_some (h : Node.heardCall f = some call) :
    f.origin = some (.packet call) := by
  unfold Node.heardCall at h
  split at h
  · rename_i heq
    cases h
    exact heq
  · cases h

/-- Handling a frame starts no call. -/
theorem handle_event_not_isBegan {c : Call ι} (hx : (nd.handle jsonMac i env f).event = some x) :
    ¬ x.IsBegan c := by
  rintro ⟨_, _, rfl⟩
  simp only [Node.handle] at hx
  split at hx
  · cases hx
  · obtain ⟨_, -, hx⟩ := Option.map_eq_some_iff.mp hx
    cases hx

theorem handle_event_fresh (hx : (nd.handle jsonMac i env f).event = some x) : x.Fresh log := by
  rintro call p seq rfl
  exact absurd ⟨p, seq, rfl⟩ (handle_event_not_isBegan hx (c := call))

/-- An acknowledgement that arrives as it was sent is the answer it was sent as. -/
theorem ackOk_of_frameOk (hframe : FrameOk jsonMac log f.bytes f.origin)
    (htype : (parsePacket f.bytes).type = T_REC_AKNG)
    (hvalue : byteAt (parsePacket f.bytes).payload 0 = ACK_OK) :
    AckOk jsonMac log (parsePacket f.bytes).seq f.origin := by
  match ho : f.origin, hframe with
  | none, _ => trivial
  | some (.packet call), ⟨q, seq, _, hbytes⟩ =>
      obtain ⟨hparse, hack, -⟩ := parsePacket_loRaSendFrame hbytes
      rw [hparse] at htype
      exact absurd htype hack
  | some (.answer a), ⟨akn, hbytes, ha⟩ =>
      rw [parsePacket_frameAck hbytes] at hvalue ⊢
      have hakn : akn = { seq := akn.seq, result := ACK_OK } := by
        cases akn
        simpa using hvalue
      rw [hakn] at ha
      exact ha

/-- A packet that a board accepts undamaged is kept for its call. -/
theorem kept_of_accepted (hlog : LogOk jsonMac log) (hframe : FrameOk jsonMac log f.bytes f.origin)
    (hcall : Node.heardCall f = some call)
    (hverdict : nd.verdict jsonMac (parsePacket f.bytes)
      (nd.board.handleRxFrame jsonMac env f.bytes).2 = .accepted) :
    Kept ((nd.handle jsonMac i env f).event.toList ++ log) i call := by
  rw [heardCall_eq_some hcall] at hframe
  obtain ⟨q, seq, hbegan, hbytes⟩ := hframe
  obtain ⟨hparse, hack, hlen⟩ := parsePacket_loRaSendFrame hbytes
  refine ⟨⟨q, seq, List.mem_append_right _ hbegan⟩, ?_⟩
  intro q' seq' hbegan' htype
  have hold : .began call q' seq' ∈ log := by
    rcases List.mem_append.mp hbegan' with h | h
    · have hx := Option.mem_toList.mp h
      exact absurd ⟨q', seq', rfl⟩ (handle_event_not_isBegan hx (c := call))
    · exact h
  obtain ⟨rfl, rfl⟩ := hlog.unique call q seq q' seq' hbegan hold
  -- the verdict says that the answer is a `1` and that the packet is no duplicate
  unfold Node.verdict at hverdict
  split at hverdict
  · cases hverdict
  · rename_i hresult
    split at hverdict
    · cases hverdict
    · rename_i hdup
      obtain ⟨akn, hakn, hok⟩ := Option.map_eq_some_iff.mp (not_not.mp hresult)
      have hnet : ¬ T_LORA_MSG = T_NET := by decide
      have hkey : Node.dedupKey jsonMac (parsePacket f.bytes) =
          extractMacKey jsonMac (cString (parsePacket f.bytes).payload) := by
        simp [Node.dedupKey, hparse, htype, hnet]
      rw [hkey] at hdup
      obtain ⟨item, hmessage, hitems⟩ := Board.handleRxFrame_msg_queued (by rw [hparse])
        (by rw [hparse]; exact htype) (by rw [hparse]; exact hlen) (Bool.eq_false_iff.mpr hdup)
        hakn hok
      have hevent : (nd.handle jsonMac i env f).event =
          some (.queued i q.message (some call)) := by
        have hnack : ¬ T_LORA_MSG = T_REC_AKNG := by decide
        rw [hparse] at hmessage
        simp [Node.handle, hparse, htype, hnack, hitems, hmessage, hcall]
      rw [hevent]
      exact .head (by rintro ⟨_, _, h⟩; cases h)

theorem dedupKey_parsePacket {q : QueueParam} {seq : Byte}
    (h : loRaSendFrame q.message q.type seq = some f.bytes) :
    Node.dedupKey jsonMac (parsePacket f.bytes) = q.dedupKey jsonMac := by
  rw [(parsePacket_loRaSendFrame h).1]
  rfl

/-- The dedup table takes a packet that the board accepts. -/
theorem handle_commits :
    Board.Commits nd.board.rxDedup (nd.handle jsonMac i env f).node.board.rxDedup
      (Node.dedupKey jsonMac (parsePacket f.bytes)) (parsePacket f.bytes).seq
      (nd.board.handleRxFrame jsonMac env f.bytes).2 := by
  have hnone : (none : Option Akn).map Akn.result ≠ some ACK_OK := by simp
  have hboard : (nd.handle jsonMac i env f).node.board =
      (nd.board.handleRxFrame jsonMac env f.bytes).1 := rfl
  rw [hboard]
  unfold Board.handleRxFrame Node.dedupKey
  simp only
  split
  · refine Board.commits_of_ne ?_
    split <;> simp [ACK_RETRY, ACK_OK]
  · split
    · exact Board.commits_of_ne hnone
    · split
      · split <;> exact Board.commits_of_ne hnone
      · split
        · exact Board.handleNet_commits
        · split
          · exact Board.commits_of_ne hnone
          · exact Board.handleMsg_commits

/-- What is known of the calls that left the entries of the table. -/
theorem handle_entry (h : NodeOk jsonMac log i nd) (hframe : FrameOk jsonMac log f.bytes f.origin)
    {slot : Fin DEDUP_SLOTS} (hc : (nd.handle jsonMac i env f).node.owner slot = some call) :
    ∃ q, .began call q ((nd.handle jsonMac i env f).node.board.rxDedup.entries slot).seq ∈ log ∧
      q.dedupKey jsonMac =
        ((nd.handle jsonMac i env f).node.board.rxDedup.entries slot).key := by
  have hcommits : Board.Commits nd.board.rxDedup (nd.handle jsonMac i env f).node.board.rxDedup
      (Node.dedupKey jsonMac (parsePacket f.bytes)) (parsePacket f.bytes).seq
      (nd.board.handleRxFrame jsonMac env f.bytes).2 := handle_commits
  have howner : (nd.handle jsonMac i env f).node.owner = nd.ownerAfter
      (nd.verdict jsonMac (parsePacket f.bytes)
        (nd.board.handleRxFrame jsonMac env f.bytes).2)
      (rxDedupFind nd.board.rxDedup (Node.dedupKey jsonMac (parsePacket f.bytes))).1
      (Node.heardCall f) := rfl
  rw [howner] at hc
  generalize (nd.handle jsonMac i env f).node.board.rxDedup = d at hcommits ⊢
  unfold Node.verdict Node.ownerAfter at hc
  by_cases hok : (nd.board.handleRxFrame jsonMac env f.bytes).2.map Akn.result = some ACK_OK
  · by_cases hdup : rxIsDuplicateMulti nd.board.rxDedup
        (Node.dedupKey jsonMac (parsePacket f.bytes)) (parsePacket f.bytes).seq = true
    · rw [if_neg (not_not.mpr hok), if_pos hdup] at hc
      rw [Board.Commits, if_neg fun hnew => Bool.false_ne_true (hnew.2.symm.trans hdup)] at hcommits
      rw [hcommits]
      exact h.entry slot call hc
    · rw [if_neg (not_not.mpr hok), if_neg hdup] at hc
      rw [Board.Commits, if_pos ⟨hok, Bool.eq_false_iff.mpr hdup⟩] at hcommits
      rw [hcommits, (rxCommitMulti_entries _ _ _).1]
      simp only at hc
      by_cases hslot : slot =
          (rxDedupFind nd.board.rxDedup (Node.dedupKey jsonMac (parsePacket f.bytes))).1
      · rw [hslot, Function.update_self] at hc ⊢
        rw [heardCall_eq_some hc] at hframe
        obtain ⟨q, seq, hbegan, hbytes⟩ := hframe
        refine ⟨q, ?_, (dedupKey_parsePacket hbytes).symm⟩
        rw [(parsePacket_loRaSendFrame hbytes).1]
        exact hbegan
      · rw [Function.update_of_ne hslot] at hc ⊢
        exact h.entry slot call hc
  · rw [if_pos hok] at hc
    rw [Board.Commits, if_neg fun hnew => hok hnew.1] at hcommits
    rw [hcommits]
    exact h.entry slot call hc

theorem sendOrDrop_subset {α : Type*} {depth : ℕ} {q : BoundedQueue α depth} {a b : α}
    (h : b ∈ (sendOrDrop q a).items) : b ∈ q.items ∨ b = a := by
  unfold sendOrDrop at h
  cases hsend : q.send a with
  | none =>
      rw [hsend] at h
      exact .inl h
  | some q' =>
      rw [hsend, Option.getD_some, (BoundedQueue.send_eq_some_iff.mp hsend).2] at h
      simpa using h

/-- Every value in the queue afterwards was heard since the call of the TX task began. -/
theorem handle_ackQueue {v : UInt16}
    (hold : ∀ v ∈ nd.board.ackQueue.items,
      ∃ o, Since log call (.ackHeard i (wordHi v) (wordLo v) o))
    (hv : v ∈ (nd.handle jsonMac i env f).node.board.ackQueue.items) :
    ∃ o, Since ((nd.handle jsonMac i env f).event.toList ++ log) call
      (.ackHeard i (wordHi v) (wordLo v) o) := by
  have hcons : ∀ o, Since log call (.ackHeard i (wordHi v) (wordLo v) o) →
      Since ((nd.handle jsonMac i env f).event.toList ++ log) call
        (.ackHeard i (wordHi v) (wordLo v) o) := by
    intro o ho
    cases hx : (nd.handle jsonMac i env f).event with
    | none => exact ho
    | some x => exact ho.cons (handle_event_not_isBegan hx)
  have hqueue : (nd.handle jsonMac i env f).node.board.ackQueue = _ :=
    Board.handleRxFrame_ackQueue f.bytes
  rw [hqueue] at hv
  split at hv
  · rename_i hack
    rcases sendOrDrop_subset hv with hv | rfl
    · obtain ⟨o, ho⟩ := hold v hv
      exact ⟨o, hcons o ho⟩
    · have hevent : (nd.handle jsonMac i env f).event = some (.ackHeard i (parsePacket f.bytes).seq
          (byteAt (parsePacket f.bytes).payload 0) f.origin) := if_pos hack
      rw [hevent, wordHi_word, wordLo_word]
      exact ⟨f.origin, .head (by rintro ⟨_, _, h⟩; cases h)⟩
  · obtain ⟨o, ho⟩ := hold v hv
    exact ⟨o, hcons o ho⟩

theorem ownerAfter_eq_some {verdict : Verdict ι} {slot slot' : Fin DEDUP_SLOTS}
    {heard : Option (Call ι)} (h : nd.ownerAfter verdict slot heard slot' = some call) :
    nd.owner slot' = some call ∨ verdict = .accepted ∧ heard = some call := by
  unfold Node.ownerAfter at h
  split at h
  · by_cases hslot : slot' = slot
    · rw [hslot, Function.update_self] at h
      exact .inr ⟨rfl, h⟩
    · rw [Function.update_of_ne hslot] at h
      exact .inl h
  · exact .inl h

/-- The answer to a packet that the table takes for that of another call. -/
theorem handle_duplicate (h : NodeOk jsonMac log i nd)
    (hframe : FrameOk jsonMac log f.bytes f.origin) (hapart : nd.Unmixed jsonMac i f)
    (hcall : Node.heardCall f = some call) {left : Call ι} (hne : left ≠ call)
    (hverdict : nd.verdict jsonMac (parsePacket f.bytes)
      (nd.board.handleRxFrame jsonMac env f.bytes).2 = .duplicate (some left)) :
    left.board ≠ call.board ∧ ∃ p q, .began call p (parsePacket f.bytes).seq ∈ log ∧
      .began left q (parsePacket f.bytes).seq ∈ log ∧
      q.dedupKey jsonMac = p.dedupKey jsonMac := by
  have horigin := heardCall_eq_some hcall
  rw [horigin] at hframe
  obtain ⟨p, seq, hbegan, hbytes⟩ := hframe
  unfold Node.verdict at hverdict
  split at hverdict
  · cases hverdict
  · split at hverdict
    · rename_i hdup
      have hleft := Verdict.duplicate.inj hverdict
      obtain ⟨slot, hlookup, hseq, -⟩ := rxIsDuplicateMulti_eq_true.mp hdup
      refine ⟨fun hboard => hne ?_, p, ?_⟩
      · rw [Node.Unmixed, horigin] at hapart
        refine hapart left ?_ hboard
        rw [Node.takenFor, if_pos hdup, hleft]
        rfl
      · rw [hlookup] at hleft
        obtain ⟨q, hq, hkey⟩ := h.entry slot left hleft
        refine ⟨q, ?_, hseq ▸ hq, ?_⟩
        · rw [(parsePacket_loRaSendFrame hbytes).1]
          exact hbegan
        · rw [hkey, (rxDedupLookup_eq_some hlookup).2, dedupKey_parsePacket hbytes]
    · cases hverdict

/-- An answer that a board hears is for the running call, or not for one of its calls. -/
theorem handle_ownAnswer (hapart : nd.Unmixed jsonMac i f)
    (hx : (nd.handle jsonMac i env f).event = some x) : x.OwnAnswer i nd := by
  rintro seq a c rfl hrunning hcall hboard
  simp only [Node.handle] at hx
  split at hx
  · obtain ⟨-, hseq, -, horigin⟩ := Event.ackHeard.inj (Option.some.inj hx)
    rw [Node.Unmixed, horigin] at hapart
    exact hapart (hseq ▸ hrunning) c hcall hboard
  · obtain ⟨_, -, hx⟩ := Option.map_eq_some_iff.mp hx
    cases hx

theorem handle_ok (h : NodeOk jsonMac log i nd) (hlog : LogOk jsonMac log)
    (hrx : nd.rx = .handling f) (hapart : nd.Unmixed jsonMac i f) :
    EffectOk jsonMac log i (nd.handle jsonMac i env f) := by
  have hframe := h.handling f hrx
  have hfresh : ∀ x, (nd.handle jsonMac i env f).event = some x → x.Fresh log :=
    fun x hx => handle_event_fresh hx
  -- what was known is known after the event
  have hcons : NodeOk jsonMac ((nd.handle jsonMac i env f).event.toList ++ log) i nd := by
    cases hx : (nd.handle jsonMac i env f).event with
    | none => exact h
    | some x =>
        exact h.cons (hfresh x hx) (fun c _ => handle_event_not_isBegan hx)
          (handle_ownAnswer hapart hx)
  refine ⟨?_, nofun, ?_⟩
  · intro x hx
    simp only [Node.handle] at hx
    split at hx
    · rename_i hack
      cases hx
      exact ⟨fun hvalue => ackOk_of_frameOk hframe hack.2 hvalue, rfl⟩
    · obtain ⟨_, -, rfl⟩ := Option.map_eq_some_iff.mp hx
      exact ⟨trivial, rfl⟩
  · refine ⟨hcons.fifo, ?_, ?_, ?_, ?_, ?_, hcons.fresh⟩
    · intro g hg
      simp only [Node.handle] at hg
      split at hg <;> cases hg
    · intro akn a ha
      simp only [Node.handle] at ha
      split at ha
      · cases ha
      · rename_i akn' hakn
        cases ha
        refine ⟨?_, ?_, ?_, ?_⟩
        · intro c hc
          have hpacket := hframe
          rw [heardCall_eq_some hc] at hpacket
          obtain ⟨q, seq, hbegan, hbytes⟩ := hpacket
          have hseq : akn.seq = seq := by
            rw [Board.handleRxFrame_akn_seq hakn, (parsePacket_loRaSendFrame hbytes).1]
          exact ⟨q, List.mem_append_right _ (hseq ▸ hbegan)⟩
        · intro hresult hrefused
          simp [Node.verdict, hakn, hresult] at hrefused
          split at hrefused <;> cases hrefused
        · rintro hresult c ⟨hc, hverdict | hverdict⟩
          · exact kept_of_accepted hlog hframe hc hverdict
          · simp only [Node.verdict] at hverdict
            split at hverdict
            · cases hverdict
            · split at hverdict
              · cases hlookup : rxDedupLookup nd.board.rxDedup
                    (Node.dedupKey jsonMac (parsePacket f.bytes)) with
                | none =>
                    rw [hlookup] at hverdict
                    cases hverdict
                | some slot =>
                    rw [hlookup] at hverdict
                    exact hcons.owner slot c (Verdict.duplicate.inj hverdict)
              · cases hverdict
        · intro c hc left hverdict hne
          obtain ⟨hboard, p, q, hp, hq, hkey⟩ := handle_duplicate h hframe hapart hc hne hverdict
          rw [← Board.handleRxFrame_akn_seq hakn] at hp hq
          exact ⟨hboard, p, q, List.mem_append_right _ hp, List.mem_append_right _ hq, hkey⟩
    · intro slot c hc
      rcases ownerAfter_eq_some hc with hold | ⟨hverdict, hcall⟩
      · exact hcons.owner slot c hold
      · exact kept_of_accepted hlog hframe hcall hverdict
    · intro slot c hc
      obtain ⟨q, hq, hkey⟩ := handle_entry h hframe hc
      exact ⟨q, List.mem_append_right _ hq, hkey⟩
    · have htx := h.tx
      have htx' := hcons.tx
      unfold TxOk at htx htx' ⊢
      cases hnd : nd.tx with
      | idle | taken | begun | broadcasting =>
          rw [hnd] at htx'
          simp only [Node.handle, hnd]
          exact htx'
      | sending | waiting =>
          rw [hnd] at htx htx'
          simp only [Node.handle, hnd]
          exact ⟨htx'.1, htx'.2.1, fun v hv => handle_ackQueue htx.2.2 hv⟩

end Steps

/-- Every step of a board has an effect that keeps the invariant. -/
theorem effect_ok {i : ι} {nd : Node ι} (h : NodeOk jsonMac log i nd) (hlog : LogOk jsonMac log)
    {a : Action ι} (hapart : nd.Apart jsonMac i a) :
    EffectOk jsonMac log i (nd.effect jsonMac i a) := by
  have htx := h.tx
  cases a with
  | submit q => exact .silent (h.withBoard rfl rfl)
  | txTake =>
      simp only [Node.effect]
      split
      · rename_i q sendPackets hidle _
        rw [TxOk, hidle] at htx
        exact .silent { h.withBoard rfl rfl with tx := htx }
      · exact .silent h
  | txBegin =>
      simp only [Node.effect]
      split
      · exact begin_ok h ‹_›
      · exact .silent h
  | txReset =>
      simp only [Node.effect]
      split
      · rename_i q t hbegun
        rw [TxOk, hbegun] at htx
        exact .silent { h with tx := ⟨htx.1, htx.2, nofun⟩ }
      · exact .silent h
  | txSend radio => exact send_ok h radio
  | txAck => exact ack_ok h hlog
  | txTimeout =>
      simp only [Node.effect]
      split
      · rename_i q t hwaiting
        rw [TxOk, hwaiting] at htx
        exact timeout_ok h htx
      · exact .silent h
  | rxRead =>
      simp only [Node.effect]
      split
      · rename_i f _ hfifo
        refine .silent { h with fifo := nofun, handling := ?_, answering := nofun }
        rintro g hg
        cases hg
        exact h.fifo f hfifo
      · exact .silent h
  | rxHandle env =>
      simp only [Node.effect]
      split
      · rename_i f hrx
        rw [Node.Apart, hrx] at hapart
        exact handle_ok h hlog hrx hapart
      · exact .silent h
  | rxAnswer radio =>
      simp only [Node.effect]
      split
      · rename_i akn answer hanswering
        refine ⟨nofun, ?_, { h with handling := nofun, answering := nofun }⟩
        intro sent hsent
        simp only at hsent
        split at hsent
        · rename_i bytes reception hframe
          cases hsent
          exact ⟨akn, hframe, h.answering akn answer hanswering⟩
        · cases hsent
      · exact .silent h
  | noise bytes =>
      refine .silent { h with fifo := ?_ }
      intro f hf
      obtain ⟨bytes', -, rfl⟩ := Option.map_eq_some_iff.mp hf
      trivial
  | netEnter env =>
      obtain ⟨hack, hdedup⟩ := Board.netEnter_queue env nd.board
      exact .silent (h.withBoard hack hdedup)
  | netLeave => exact .silent (h.withBoard rfl rfl)
  | netFeed env c =>
      simp only [Node.effect]
      split
      · have hkept : Board.NetKept nd.board (nd.board.netFeed env c) := Board.netKept_netFeed c
        exact .silent (h.withBoard hkept.ackQueue hkept.rxDedup)
      · exact .silent h
  | netWrite =>
      have hkept := Board.netKept_netWrite (b := nd.board)
      exact .silent (h.withBoard hkept.ackQueue hkept.rxDedup)
  | drainRecv =>
      simp only [Node.effect]
      split
      · exact .silent (h.withBoard rfl rfl)
      · exact .silent h
  | drainSerial =>
      simp only [Node.effect]
      split
      · exact .silent (h.withBoard rfl rfl)
      · exact .silent h
  | sendSerial data reception =>
      refine ⟨nofun, ?_, h⟩
      intro sent hsent
      obtain ⟨bytes, -, rfl⟩ := Option.map_eq_some_iff.mp hsent
      trivial

theorem TxOk.began {i : ι} {nd : Node ι} {seq : Byte} (h : TxOk log i nd)
    (hseq : nd.tx.seq = some seq) :
    ∃ p, .began { board := i, index := nd.calls } p seq ∈ log := by
  unfold TxOk at h
  cases htx : nd.tx with
  | idle | taken | broadcasting =>
      rw [htx] at hseq
      cases hseq
  | begun p t | sending p t | waiting p t =>
      rw [htx] at h hseq
      cases hseq
      exact ⟨p, h.1⟩

theorem inv_start (boards : ι → Board) : Inv jsonMac (Channel.start boards) where
  log :=
    { unique := nofun
      acks := nofun
      explained := fun call p older h => by
        have hnil := List.suffix_nil.mp h
        cases hnil }
  node i :=
    { fifo := nofun
      handling := nofun
      answering := nofun
      owner := nofun
      entry := nofun
      tx := by rintro ⟨_, _, h⟩; cases h
      fresh := by rintro _ _ ⟨_, _, h⟩; cases h }

section Run

variable [DecidableEq ι]

theorem inv_step {s : Channel ι} (h : Inv jsonMac s) {a : ι × Action ι}
    (hapart : (s.nodes a.1).Apart jsonMac a.1 a.2) : Inv jsonMac (s.step jsonMac a) :=
  h.apply (effect_ok (h.node a.1) h.log hapart)

theorem inv_run {s : Channel ι} (h : Inv jsonMac s) {as : List (ι × Action ι)}
    (hapart : s.CallsApart jsonMac as) : Inv jsonMac (as.foldl (Channel.step jsonMac) s) := by
  induction as generalizing s with
  | nil => exact h
  | cons a as ih => exact ih (inv_step h hapart.1) hapart.2

theorem Channel.log_subset_run (jsonMac : List Byte → Option (List Byte)) (s : Channel ι)
    (as : List (ι × Action ι)) : s.log ⊆ (as.foldl (Channel.step jsonMac) s).log := by
  induction as generalizing s with
  | nil => exact List.Subset.refl _
  | cons a as ih =>
      have hstep : s.log ⊆ (s.step jsonMac a).log := List.subset_append_right _ _
      exact List.Subset.trans hstep (ih _)

theorem Inv.apart {s : Channel ι} (h : Inv jsonMac s) (honce : SeqsOnce s.log) (i : ι)
    (a : Action ι) : (s.nodes i).Apart jsonMac i a := by
  cases a with
  | rxHandle env =>
      rw [Node.Apart]
      split
      · rename_i f hrx
        have hframe := (h.node i).handling f hrx
        rw [Node.Unmixed]
        split
        · trivial
        · rename_i call horigin
          rw [horigin] at hframe
          obtain ⟨p, seq, hbegan, hbytes⟩ := hframe
          intro left hleft hboard
          rw [Node.takenFor] at hleft
          split at hleft
          · rename_i hdup
            obtain ⟨slot, hlookup, hseq, -⟩ := rxIsDuplicateMulti_eq_true.mp hdup
            rw [hlookup] at hleft
            obtain ⟨q, hq, -⟩ := (h.node i).entry slot left hleft
            rw [hseq, (parsePacket_loRaSendFrame hbytes).1] at hq
            exact honce.eq hq hbegan hboard
          · cases hleft
        · rename_i a horigin
          rw [horigin] at hframe
          obtain ⟨akn, hbytes, ha⟩ := hframe
          rw [parsePacket_frameAck hbytes]
          intro hrunning c hc hboard
          obtain ⟨p, hp⟩ := ha.seq c hc
          obtain ⟨p', hp'⟩ := (h.node i).tx.began hrunning
          exact honce.eq hp hp' hboard
      · trivial
  | _ => trivial

/-- As long as no board takes one seq for two calls, no two calls are mixed up. -/
theorem callsApart_of_seqsOnce {s : Channel ι} (h : Inv jsonMac s) {as : List (ι × Action ι)}
    (honce : SeqsOnce (as.foldl (Channel.step jsonMac) s).log) : s.CallsApart jsonMac as := by
  induction as generalizing s with
  | nil => trivial
  | cons a as ih =>
      have hapart := h.apart (honce.mono (s.log_subset_run jsonMac (a :: as))) a.1 a.2
      exact ⟨hapart, ih (inv_step h hapart) honce⟩

end Run

end Invariant

/-- In the run, a call that returns `true` for a message means that some board has queued
that very message since the call began. -/
def AckMeansDelivered [DecidableEq ι] (jsonMac : List Byte → Option (List Byte))
    (boards : ι → Board) (as : List (ι × Action ι)) : Prop :=
  ∀ (call : Call ι) (p : QueueParam) (older : List (Event ι)),
    .returned call p true :: older <:+ (Channel.run jsonMac boards as).log →
    p.type = T_LORA_MSG → ∃ j, Since older call (.queued j p.message (some call))

namespace ThreeBoards

/-- Boards `0` and `2` have addresses with the same hash. -/
def macOf (i : Fin 3) : String :=
  if i = 0 then "24:6F:28:00:04:8F" else if i = 1 then "24:6F:28:00:04:01"
  else "24:6F:28:00:04:F8"

/-- A message of a board without a user name, as the web server makes it. -/
def message (i : Fin 3) (data : String) : List Byte :=
  ascii ("\x7b\"name\":\"\",\"mac\":\"" ++ macOf i ++ "\",\"data\":\"" ++ data ++ "\"\x7d")

/-- The MAC of such a message. -/
def jsonMac (text : List Byte) : Option (List Byte) :=
  if text.take 18 = ascii ("\x7b\"name\":\"\",\"mac\":\"") then some ((text.drop 18).take 17)
  else none

def boards (i : Fin 3) : Board := .init (netNodeId fun _ => UInt8.ofNat i.val) 0

def submission (i : Fin 3) (data : String) : QueueParam :=
  { type := T_LORA_MSG, message := message i data, id := 1 }

/-- The boards of `js` hear `bytes`, the others nothing. -/
def heardBy (js : List (Fin 3)) (bytes : List Byte) : Option (Reception (Fin 3)) :=
  some fun j => if j ∈ js then some bytes else none

def env : Env := { heap := true, millis := 0, rssi := -60 }

/-- The frame of a message with seq `0`. -/
def frame (i : Fin 3) (data : String) : List Byte :=
  (loRaSendFrame (message i data) T_LORA_MSG 0).getD []

/-- A board takes a message and begins to send it. -/
def begins (i : Fin 3) (p : QueueParam) : List (Fin 3 × Action (Fin 3)) :=
  [(i, .submit p), (i, .txTake), (i, .txBegin), (i, .txReset)]

/-- A board handles what its radio holds. -/
def handles (i : Fin 3) : List (Fin 3 × Action (Fin 3)) := [(i, .rxRead), (i, .rxHandle env)]

/-- The acknowledgement of board `1` for seq `0`, heard by the others. -/
def acks : List (Fin 3 × Action (Fin 3)) :=
  [(1, .rxAnswer (heardBy [0, 2] [1, T_REC_AKNG, 0, 0, ACK_OK]))]

/-- Board `1` queues the message of board `0`. -/
def delivered : List (Fin 3 × Action (Fin 3)) :=
  begins 0 (submission 0 "a") ++ [(0, .txSend (heardBy [1, 2] (frame 0 "a")))] ++ handles 1 ++
    acks ++ handles 0 ++ [(0, .txAck)]

/-- Board `1` answers a message of board `2` while board `0`, which nobody hears, waits. -/
def foreignPacket : List (Fin 3 × Action (Fin 3)) :=
  begins 2 (submission 2 "c") ++ [(2, .txSend (heardBy [1] (frame 2 "c")))] ++ handles 1 ++
    begins 0 (submission 0 "a") ++ [(0, .txSend (heardBy [] []))] ++ acks ++ handles 0 ++
    [(0, .txAck)]

/-- Noise becomes an acknowledgement, which has no CRC. -/
def damagedAck : List (Fin 3 × Action (Fin 3)) :=
  begins 0 (submission 0 "a") ++ [(0, .txSend (heardBy [] []))] ++
    [(0, .noise (some [1, T_REC_AKNG, 0, 0, ACK_OK]))] ++ handles 0 ++ [(0, .txAck)]

/-- Board `1` hears another message than the one that was sent. -/
def damagedPacket : List (Fin 3 × Action (Fin 3)) :=
  begins 0 (submission 0 "a") ++ [(0, .txSend (heardBy [1] (frame 0 "b")))] ++ handles 1 ++
    acks ++ handles 0 ++ [(0, .txAck)]

/-- Board `1` takes the message of board `0` for the one of board `2`, which it has. -/
def sameKey : List (Fin 3 × Action (Fin 3)) :=
  begins 2 (submission 2 "c") ++ [(2, .txSend (heardBy [1] (frame 2 "c")))] ++ handles 1 ++
    acks ++ handles 2 ++ [(2, .txAck)] ++
    begins 0 (submission 0 "a") ++ [(0, .txSend (heardBy [1] (frame 0 "a")))] ++ handles 1 ++
    acks ++ handles 0 ++ [(0, .txAck)]

/-- Board `1` hears a message of board `2` as another one with the MAC of board `0`, and takes
the next message of board `0` for it. -/
def leftByNoise : List (Fin 3 × Action (Fin 3)) :=
  begins 2 (submission 2 "c") ++ [(2, .txSend (heardBy [1] (frame 0 "b")))] ++ handles 1 ++
    acks ++ handles 2 ++ [(2, .txAck)] ++
    begins 0 (submission 0 "a") ++ [(0, .txSend (heardBy [1] (frame 0 "a")))] ++ handles 1 ++
    acks ++ handles 0 ++ [(0, .txAck)]

/-- A run whose newest event is the return of a call whose message nobody queued. -/
theorem not_ackMeansDelivered {as : List (Fin 3 × Action (Fin 3))} (call : Call (Fin 3))
    (p : QueueParam) (htype : p.type = T_LORA_MSG)
    (hrun : (Channel.run jsonMac boards as).log.head? = some (.returned call p true) ∧
      ∀ j, .queued j p.message (some call) ∉ (Channel.run jsonMac boards as).log) :
    ¬ AckMeansDelivered jsonMac boards as := by
  intro h
  obtain ⟨hreturned, hqueued⟩ := hrun
  obtain ⟨older, hlog⟩ := List.head?_eq_some_iff.mp hreturned
  obtain ⟨j, hj⟩ := h call p older (hlog ▸ List.suffix_rfl) htype
  refine hqueued j ?_
  rw [hlog]
  exact List.mem_cons_of_mem _ hj.mem

end ThreeBoards

end Voyager
