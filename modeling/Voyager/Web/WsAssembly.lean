import Mathlib.Data.List.Induction
import Mathlib.Data.List.Forall2
import Mathlib.Logic.Function.Basic
import Voyager.Library.MemBlock
import Voyager.Library.Transition
import Voyager.Web.WsFrames

/-!
# Reassembly of WebSocket frames

`ws_handle_data` collects each client's frame in a block of its own and hands the complete
message to the worker. A frame that is not as announced is forgotten.

A copy outside a block has no result in the model, so the theorems also say that there
is none.
-/

namespace Voyager

namespace Web

namespace WsAssembly

/-- `sizeof(WsAssembly)` and `offsetof(WsAssembly, buf)`. -/
def SIZEOF_WS_ASSEMBLY : ℕ := 12
def BUF : ℕ := 8

/-- The header of the block of an unfinished frame, and the block. -/
structure Assembly where
  total : ℕ
  received : ℕ
  block : MemBlock Byte

/-- What is written to the log and to the clients. -/
inductive Output (κ : Type*)
  | rejected (c : κ)
  | outOfMemory
  | outOfOrder (c : κ)
  | busy
  | close (c : κ) (code : ℕ)
  deriving DecidableEq

/-- `blocks` counts, for each client, the blocks that were allocated for its frames and are
neither freed nor handed over. `rxQueue` is everything that was sent to the worker. -/
structure State (κ : Type*) where
  tempObject : κ → Option Assembly
  blocks : κ → ℕ
  rxQueue : List (MemBlock Byte)
  clientCount : ℕ
  out : List (Output κ)

def boot (κ : Type*) : State κ :=
  { tempObject := fun _ => none, blocks := fun _ => 0, rxQueue := [], clientCount := 0, out := [] }

namespace State

variable {κ : Type*} [DecidableEq κ]

def print (s : State κ) (o : Output κ) : State κ := { s with out := s.out ++ [o] }

def malloc (s : State κ) (c : κ) : State κ :=
  { s with blocks := Function.update s.blocks c (s.blocks c + 1) }

def free (s : State κ) (c : κ) : State κ :=
  { s with blocks := Function.update s.blocks c (s.blocks c - 1) }

def setTemp (s : State κ) (c : κ) (a : Option Assembly) : State κ :=
  { s with tempObject := Function.update s.tempObject c a }

/-- `ws_assembly_free`. -/
def assemblyFree (s : State κ) (c : κ) : State κ :=
  if (s.tempObject c).isSome then (s.free c).setTemp c none else s

/-- `ws_deliver`: the block belongs to the worker from here on. -/
def deliver (s : State κ) (c : κ) (msg : MemBlock Byte) (res : Resources) : State κ :=
  if res.queue then { s.free c with rxQueue := s.rxQueue ++ [msg] }
  else (s.free c).print .busy

/-- The end of `ws_handle_data`: the chunk belongs to a frame being reassembled, or to one
that was rejected. `none` is a copy outside the block. -/
def handleChunk (s : State κ) (c : κ) (info : AwsFrameInfo) (data : List Byte)
    (res : Resources) : Option (State κ) :=
  match s.tempObject c with
  | none => some s
  | some a =>
      if !wsChunkInOrder a.received a.total info.index info.len data.length then
        some ((s.assemblyFree c).print (.outOfOrder c))
      else
        (a.block.memcpy (BUF + a.received) data).bind fun block =>
          let a := { a with block, received := a.received + data.length }
          if a.received < a.total then some (s.setTemp c (some a))
          else
            -- the block becomes a plain string, with its terminating zero
            (a.block.memmove 0 BUF a.total).bind fun msg =>
              (msg.memcpy a.total [0]).map fun msg => (s.setTemp c none).deliver c msg res

/-- `ws_handle_data`. -/
def handleData (s : State κ) (c : κ) (info : Option AwsFrameInfo) (data : List Byte)
    (res : Resources) : Option (State κ) :=
  match info with
  | none => some s
  | some info =>
      if info.index = 0 then
        let s := s.assemblyFree c
        if !wsFrameStartOk info.final info.opcode info.len then
          let s := s.print (.rejected c)
          some (if info.len > WS_MAX_MESSAGE then s.print (.close c 1009) else s)
        else if data.length = info.len then
          if !res.heap then some (s.print .outOfMemory)
          else
            ((MemBlock.alloc (data.length + 1)).memcpy 0 data).bind fun copy =>
              (copy.memcpy data.length [0]).map fun copy => (s.malloc c).deliver c copy res
        else if !res.heap then some (s.print .outOfMemory)
        else
          let a : Assembly :=
            { total := info.len, received := 0, block := .alloc (SIZEOF_WS_ASSEMBLY + info.len) }
          ((s.malloc c).setTemp c (some a)).handleChunk c info data res
      else s.handleChunk c info data res

/-- `onEvent`. -/
def onEvent (s : State κ) : Event κ → Option (State κ)
  | .connect _ => some { s with clientCount := s.clientCount + 1 }
  | .disconnect c =>
      let s := s.assemblyFree c
      some { s with clientCount := s.clientCount - 1 }
  | .data c info data res => s.handleData c info data res

end State

/-! ## The block of an unfinished frame -/

section Unfinished

variable {chunks : List Chunk} {ch : Chunk} {len : ℕ}

/-- The block of an unfinished frame, after these chunks of it. -/
structure Unfinished (chunks : List Chunk) (a : Assembly) : Prop where
  accepted : Accepted a.total chunks
  received : a.received = totalLength chunks
  lt : a.received < a.total
  size : a.block.size = SIZEOF_WS_ASSEMBLY + a.total
  holds : a.block.Holds BUF (payload chunks)

variable {a : Assembly}

/-- What `ws_chunk_in_order` admits keeps the frame accepted and not too long. -/
theorem Unfinished.inOrder_iff (h : Unfinished chunks a) (ch : Chunk)
    (hstart : chunks = [] →
      wsFrameStartOk ch.info.final ch.info.opcode ch.info.len = true) :
    wsChunkInOrder a.received a.total ch.info.index ch.info.len ch.bytes.length = true ↔
      Accepted a.total (chunks ++ [ch]) ∧ totalLength (chunks ++ [ch]) ≤ a.total := by
  rw [accepted_append_singleton, totalLength_append_singleton, wsChunkInOrder, h.received]
  simp only [Bool.and_eq_true, beq_iff_eq, decide_eq_true_eq, gt_iff_lt, List.length_pos_iff]
  constructor
  · rintro ⟨⟨⟨hindex, hlen⟩, hnonempty⟩, hle⟩
    exact ⟨⟨h.accepted, hstart, hnonempty, hlen, hindex⟩, hle⟩
  · rintro ⟨⟨-, -, hnonempty, hlen, hindex⟩, hle⟩
    exact ⟨⟨⟨hindex, hlen⟩, hnonempty⟩, hle⟩

/-- The first chunk decides the length of the frame. -/
theorem Unfinished.len_eq (h : Unfinished chunks a)
    (hlen : chunks = [] → ch.info.len = a.total) (haccepted : Accepted len (chunks ++ [ch])) :
    len = a.total := by
  cases chunks with
  | nil =>
      rw [← hlen rfl]
      exact (haccepted.len_eq ch List.mem_cons_self).symm
  | cons c chunks =>
      have hfirst := h.accepted.len_eq c List.mem_cons_self
      rw [← hfirst]
      exact (haccepted.len_eq c (List.mem_append_left _ List.mem_cons_self)).symm

end Unfinished

/-! ## What the operations change -/

namespace State

variable {κ : Type*} [DecidableEq κ] (s : State κ) (c : κ)

omit [DecidableEq κ] in
@[simp] theorem tempObject_print (o : Output κ) : (s.print o).tempObject = s.tempObject := rfl

omit [DecidableEq κ] in
@[simp] theorem blocks_print (o : Output κ) : (s.print o).blocks = s.blocks := rfl

omit [DecidableEq κ] in
@[simp] theorem rxQueue_print (o : Output κ) : (s.print o).rxQueue = s.rxQueue := rfl

@[simp] theorem tempObject_malloc : (s.malloc c).tempObject = s.tempObject := rfl

@[simp] theorem blocks_malloc :
    (s.malloc c).blocks = Function.update s.blocks c (s.blocks c + 1) := rfl

@[simp] theorem rxQueue_malloc : (s.malloc c).rxQueue = s.rxQueue := rfl

@[simp] theorem tempObject_setTemp (a : Option Assembly) :
    (s.setTemp c a).tempObject = Function.update s.tempObject c a := rfl

@[simp] theorem blocks_setTemp (a : Option Assembly) : (s.setTemp c a).blocks = s.blocks := rfl

@[simp] theorem rxQueue_setTemp (a : Option Assembly) : (s.setTemp c a).rxQueue = s.rxQueue := rfl

@[simp] theorem tempObject_assemblyFree :
    (s.assemblyFree c).tempObject = Function.update s.tempObject c none := by
  unfold assemblyFree
  split
  · rfl
  · rename_i h
    rw [Bool.not_eq_true, Option.isSome_eq_false_iff, Option.isNone_iff_eq_none] at h
    rw [← h, Function.update_eq_self]

@[simp] theorem rxQueue_assemblyFree : (s.assemblyFree c).rxQueue = s.rxQueue := by
  unfold assemblyFree
  split
  · rfl
  · rfl

/-- Only the blocks of the client change. -/
theorem blocks_assemblyFree_of_ne {c' : κ} (h : c' ≠ c) :
    (s.assemblyFree c).blocks c' = s.blocks c' := by
  unfold assemblyFree
  split
  · exact Function.update_of_ne h ..
  · rfl

@[simp] theorem tempObject_deliver (msg : MemBlock Byte) (res : Resources) :
    (s.deliver c msg res).tempObject = s.tempObject := by
  unfold deliver
  split
  · rfl
  · rfl

@[simp] theorem blocks_deliver (msg : MemBlock Byte) (res : Resources) :
    (s.deliver c msg res).blocks = Function.update s.blocks c (s.blocks c - 1) := by
  unfold deliver
  split
  · rfl
  · rfl

theorem rxQueue_deliver (msg : MemBlock Byte) {res : Resources} (h : res.queue = true) :
    (s.deliver c msg res).rxQueue = s.rxQueue ++ [msg] := by
  rw [deliver, if_pos h]

end State

/-! ## One client -/

/-- The client's object is the block of its unfinished frame, and the only one there is. -/
structure ClientOk (chunks : List Chunk) (temp : Option Assembly) (blocks : ℕ) : Prop where
  unfinished : ∀ a, temp = some a → chunks ≠ [] ∧ Unfinished chunks a
  blocks : blocks = if temp.isSome then 1 else 0

/-- No frame that could still become complete has been forgotten. -/
def NoneForgotten (chunks : List Chunk) (temp : Option Assembly) : Prop :=
  temp = none → chunks ≠ [] → ∀ len, Accepted len chunks → len ≤ totalLength chunks

/-- The block is a message for the worker: the payload, and the terminating zero. -/
def HoldsMessage (b : MemBlock Byte) (p : List Byte) : Prop := b.Holds 0 (p ++ [0])

section Client

variable {κ : Type*} [DecidableEq κ] {s s' : State κ} {c : κ} {chunks chunks' : List Chunk}

/-- A call for the client `c` has left its object as it should be, and the others alone. -/
structure Handled (s s' : State κ) (c : κ) (chunks' : List Chunk) : Prop where
  others : ∀ c' ≠ c, s'.tempObject c' = s.tempObject c' ∧ s'.blocks c' = s.blocks c'
  client : ClientOk chunks' (s'.tempObject c) (s'.blocks c)

/-- It has handed over the frame that is complete, if one is. -/
structure HandedOver (s s' : State κ) (c : κ) (chunks' : List Chunk) : Prop where
  forgotten : NoneForgotten chunks' (s'.tempObject c)
  queue : ∃ msgs, s'.rxQueue = s.rxQueue ++ msgs ∧
    List.Forall₂ HoldsMessage msgs (if Complete chunks' then [payload chunks'] else [])

omit [DecidableEq κ] in
/-- Nothing is handed over when the frame is not complete. -/
theorem handedOver_of_not_complete (hforgotten : NoneForgotten chunks' (s'.tempObject c))
    (hqueue : s'.rxQueue = s.rxQueue) (h : ¬ Complete chunks') : HandedOver s s' c chunks' := by
  refine ⟨hforgotten, [], ?_, ?_⟩
  · rw [hqueue, List.append_nil]
  · rw [if_neg h]
    exact .nil

omit [DecidableEq κ] in
/-- A call that leaves the client without an object. -/
theorem handled_of_none (hothers : ∀ c' ≠ c, s'.tempObject c' = s.tempObject c' ∧
    s'.blocks c' = s.blocks c') (htemp : s'.tempObject c = none) (hblocks : s'.blocks c = 0) :
    Handled s s' c chunks' := by
  refine ⟨hothers, ?_, ?_⟩
  · intro a ha
    rw [htemp] at ha
    cases ha
  · rw [hblocks, htemp]
    rfl

theorem others_assemblyFree (s : State κ) {c c' : κ} (h : c' ≠ c) :
    (s.assemblyFree c).tempObject c' = s.tempObject c' ∧
      (s.assemblyFree c).blocks c' = s.blocks c' := by
  rw [State.tempObject_assemblyFree, Function.update_of_ne h, State.blocks_assemblyFree_of_ne s c h]
  exact ⟨rfl, rfl⟩

theorem blocks_assemblyFree_self (hblocks : s.blocks c = if (s.tempObject c).isSome then 1 else 0) :
    (s.assemblyFree c).blocks c = 0 := by
  unfold State.assemblyFree
  split
  · rename_i h
    rw [State.blocks_setTemp, State.free]
    dsimp only
    rw [Function.update_self, hblocks, if_pos h]
  · rename_i h
    rw [hblocks, if_neg h]

omit [DecidableEq κ] in
/-- What is known of another state that differs only in the object of the client. -/
theorem Handled.of_others {s₁ : State κ} (h : Handled s₁ s' c chunks')
    (hothers : ∀ c' ≠ c, s₁.tempObject c' = s.tempObject c' ∧ s₁.blocks c' = s.blocks c') :
    Handled s s' c chunks' := by
  refine ⟨fun c' hc' => ?_, h.client⟩
  rw [← (hothers c' hc').1, ← (hothers c' hc').2]
  exact h.others c' hc'

/-- A block with the whole payload becomes a message where it is. -/
theorem exists_message {block : MemBlock Byte} {p : List Byte} {total : ℕ}
    (hsize : block.size = SIZEOF_WS_ASSEMBLY + total) (hp : p.length = total)
    (h : block.Holds BUF p) :
    ∃ msg msg', block.memmove 0 BUF total = some msg ∧ msg.memcpy total [0] = some msg' ∧
      HoldsMessage msg' p := by
  have hheader : SIZEOF_WS_ASSEMBLY = 12 := rfl
  have hbuf : BUF = 8 := rfl
  obtain ⟨msg, hmove, hmsg, hmoved⟩ :=
    MemBlock.exists_memmove 0 (by omega) (by omega) h
  obtain ⟨msg', hend, -, hmessage⟩ :=
    MemBlock.exists_memcpy [0] (by rw [List.length_singleton]; omega) hmoved
  rw [hp] at hmove
  rw [hp, Nat.zero_add] at hend
  exact ⟨msg, msg', hmove, hend, hmessage⟩

/-- A frame that came in one chunk is copied into a block of its own. -/
theorem exists_copy (data : List Byte) :
    ∃ copy msg, (MemBlock.alloc (data.length + 1)).memcpy 0 data = some copy ∧
      copy.memcpy data.length [0] = some msg ∧ HoldsMessage msg data := by
  obtain ⟨copy, hcopy, hsize, hdata⟩ :=
    MemBlock.exists_memcpy data (by simp [MemBlock.alloc])
      (MemBlock.holds_nil (.alloc (data.length + 1)) 0)
  obtain ⟨msg, hend, -, hmessage⟩ :=
    MemBlock.exists_memcpy [0]
      (by rw [hsize, MemBlock.alloc, List.length_append, List.length_singleton]; simp) hdata
  rw [List.nil_append, Nat.zero_add] at hend
  exact ⟨copy, msg, hcopy, hend, hmessage⟩

/-! ### The next chunk of an unfinished frame -/

section Chunk

variable {a : Assembly} {info : AwsFrameInfo} {data : List Byte}

/-- The copy of a chunk goes right behind the chunks before it. -/
theorem Unfinished.exists_memcpy (h : Unfinished chunks a)
    (hle : totalLength (chunks ++ [⟨info, data⟩]) ≤ a.total) :
    ∃ block, a.block.memcpy (BUF + a.received) data = some block ∧
      block.size = SIZEOF_WS_ASSEMBLY + a.total ∧
      block.Holds BUF (payload (chunks ++ [⟨info, data⟩])) := by
  have hheader : SIZEOF_WS_ASSEMBLY = 12 := rfl
  have hbuf : BUF = 8 := rfl
  have hsize := h.size
  have hpayload := payload_length chunks
  rw [totalLength_append_singleton] at hle
  dsimp only at hle
  obtain ⟨block, hcopy, hblock, hholds⟩ :=
    MemBlock.exists_memcpy data (by omega) h.holds
  rw [hpayload, ← h.received] at hcopy
  rw [payload_append_singleton]
  exact ⟨block, hcopy, hblock.trans hsize, hholds⟩

/-- A chunk that is out of order: the frame is given up. -/
theorem handleChunk_of_not_inOrder (res : Resources) (htemp : s.tempObject c = some a)
    (hblocks : s.blocks c = 1)
    (horder : wsChunkInOrder a.received a.total info.index info.len data.length = false)
    (hlong : ∀ len, Accepted len chunks' → len < totalLength chunks') :
    ∃ s', s.handleChunk c info data res = some s' ∧ Handled s s' c chunks' ∧
      HandedOver s s' c chunks' := by
  have hone : s.blocks c = if (s.tempObject c).isSome then 1 else 0 := by
    rw [hblocks, htemp]
    rfl
  rw [State.handleChunk, htemp]
  dsimp only
  rw [horder, Bool.not_false, if_pos rfl]
  refine ⟨_, rfl, handled_of_none (fun c' hc' => ?_) ?_ ?_, ?_⟩
  · rw [State.tempObject_print, State.blocks_print]
    exact others_assemblyFree s hc'
  · rw [State.tempObject_print, State.tempObject_assemblyFree, Function.update_self]
  · rw [State.blocks_print]
    exact blocks_assemblyFree_self hone
  · refine handedOver_of_not_complete ?_ ?_ ?_
    · exact fun _ _ len hlen' => Nat.le_of_lt (hlong len hlen')
    · rw [State.rxQueue_print, State.rxQueue_assemblyFree]
    · exact fun hcomplete => Nat.lt_irrefl _ (hlong _ hcomplete.2)

/-- A chunk that leaves the frame unfinished. -/
theorem handleChunk_of_lt (res : Resources) (htemp : s.tempObject c = some a)
    (hblocks : s.blocks c = 1) (h : Unfinished chunks a)
    (horder : wsChunkInOrder a.received a.total info.index info.len data.length = true)
    (haccepted : Accepted a.total (chunks ++ [⟨info, data⟩]))
    (huniq : ∀ len, Accepted len (chunks ++ [⟨info, data⟩]) → len = a.total)
    (hlt : totalLength (chunks ++ [⟨info, data⟩]) < a.total) :
    ∃ s', s.handleChunk c info data res = some s' ∧
      Handled s s' c (chunks ++ [⟨info, data⟩]) ∧
      HandedOver s s' c (chunks ++ [⟨info, data⟩]) := by
  obtain ⟨block, hcopy, hsize, hholds⟩ := h.exists_memcpy (Nat.le_of_lt hlt)
  have hreceived : a.received + data.length = totalLength (chunks ++ [⟨info, data⟩]) := by
    rw [totalLength_append_singleton, h.received]
  rw [State.handleChunk, htemp]
  dsimp only
  rw [horder, Bool.not_true, if_neg Bool.false_ne_true, hcopy, Option.bind_some, hreceived,
    if_pos hlt]
  refine ⟨_, rfl, ⟨fun c' hc' => ?_, ?_, ?_⟩, ?_⟩
  · rw [State.tempObject_setTemp, Function.update_of_ne hc', State.blocks_setTemp]
    exact ⟨rfl, rfl⟩
  · intro a' ha'
    rw [State.tempObject_setTemp, Function.update_self, Option.some.injEq] at ha'
    subst ha'
    exact ⟨List.append_ne_nil_of_right_ne_nil _ (List.cons_ne_nil _ _),
      haccepted, rfl, hlt, hsize, hholds⟩
  · rw [State.blocks_setTemp, State.tempObject_setTemp, Function.update_self, hblocks]
    rfl
  · refine handedOver_of_not_complete ?_ rfl ?_
    · intro hnone
      rw [State.tempObject_setTemp, Function.update_self] at hnone
      cases hnone
    · rintro ⟨-, hcomplete⟩
      exact Nat.ne_of_lt hlt (huniq _ hcomplete)

/-- A chunk that makes the frame complete. -/
theorem handleChunk_of_eq (res : Resources) (htemp : s.tempObject c = some a)
    (hblocks : s.blocks c = 1) (h : Unfinished chunks a)
    (horder : wsChunkInOrder a.received a.total info.index info.len data.length = true)
    (haccepted : Accepted a.total (chunks ++ [⟨info, data⟩]))
    (huniq : ∀ len, Accepted len (chunks ++ [⟨info, data⟩]) → len = a.total)
    (heq : totalLength (chunks ++ [⟨info, data⟩]) = a.total) :
    ∃ s', s.handleChunk c info data res = some s' ∧
      Handled s s' c (chunks ++ [⟨info, data⟩]) ∧
      (res.queue = true → HandedOver s s' c (chunks ++ [⟨info, data⟩])) := by
  obtain ⟨block, hcopy, hsize, hholds⟩ := h.exists_memcpy (Nat.le_of_eq heq)
  have hreceived : a.received + data.length = totalLength (chunks ++ [⟨info, data⟩]) := by
    rw [totalLength_append_singleton, h.received]
  obtain ⟨msg, msg', hmove, hend, hmessage⟩ :=
    exists_message hsize ((payload_length _).trans heq) hholds
  have hcomplete : Complete (chunks ++ [⟨info, data⟩]) :=
    ⟨List.append_ne_nil_of_right_ne_nil _ (List.cons_ne_nil _ _), heq.symm ▸ haccepted⟩
  rw [State.handleChunk, htemp]
  dsimp only
  rw [horder, Bool.not_true, if_neg Bool.false_ne_true, hcopy, Option.bind_some, hreceived,
    if_neg (Nat.not_lt.mpr (Nat.le_of_eq heq.symm)), hmove, Option.bind_some, hend,
    Option.map_some]
  refine ⟨_, rfl, handled_of_none (fun c' hc' => ?_) ?_ ?_, fun hqueue => ⟨?_, [msg'], ?_, ?_⟩⟩
  · rw [State.tempObject_deliver, State.tempObject_setTemp, Function.update_of_ne hc',
      State.blocks_deliver, Function.update_of_ne hc', State.blocks_setTemp]
    exact ⟨rfl, rfl⟩
  · rw [State.tempObject_deliver, State.tempObject_setTemp, Function.update_self]
  · rw [State.blocks_deliver, Function.update_self, State.blocks_setTemp, hblocks]
  · intro _ _ len hlen
    exact Nat.le_of_eq ((huniq len hlen).trans heq.symm)
  · rw [State.rxQueue_deliver _ _ _ hqueue, State.rxQueue_setTemp]
  · rw [if_pos hcomplete]
    exact .cons hmessage .nil

/-- The next chunk of an unfinished frame. -/
theorem handleChunk_of_some (info : AwsFrameInfo) (data : List Byte) (res : Resources)
    (htemp : s.tempObject c = some a)
    (hblocks : s.blocks c = 1) (h : Unfinished chunks a)
    (hstart : chunks = [] → wsFrameStartOk info.final info.opcode info.len = true)
    (hlen : chunks = [] → info.len = a.total) :
    ∃ s', s.handleChunk c info data res = some s' ∧
      Handled s s' c (chunks ++ [⟨info, data⟩]) ∧
      (res.queue = true → HandedOver s s' c (chunks ++ [⟨info, data⟩])) := by
  have hiff := h.inOrder_iff ⟨info, data⟩ hstart
  have huniq : ∀ len, Accepted len (chunks ++ [⟨info, data⟩]) → len = a.total :=
    fun len => h.len_eq hlen
  cases horder : wsChunkInOrder a.received a.total info.index info.len data.length with
  | true =>
      obtain ⟨haccepted, hle⟩ := hiff.mp horder
      rcases Nat.lt_or_eq_of_le hle with hlt | heq
      · obtain ⟨s', hs', hhandled, hover⟩ :=
          handleChunk_of_lt res htemp hblocks h horder haccepted huniq hlt
        exact ⟨s', hs', hhandled, fun _ => hover⟩
      · exact handleChunk_of_eq res htemp hblocks h horder haccepted huniq heq
  | false =>
      have hlong : ∀ len, Accepted len (chunks ++ [⟨info, data⟩]) →
          len < totalLength (chunks ++ [⟨info, data⟩]) := by
        intro len haccepted
        obtain rfl := huniq len haccepted
        refine Nat.lt_of_not_le fun hle => ?_
        have hadmitted := hiff.mpr ⟨haccepted, hle⟩
        dsimp only at hadmitted
        rw [horder] at hadmitted
        cases hadmitted
      obtain ⟨s', hs', hhandled, hover⟩ :=
        handleChunk_of_not_inOrder res htemp hblocks horder hlong
      exact ⟨s', hs', hhandled, fun _ => hover⟩

end Chunk

/-! ### A data event -/

section Data

variable {info : AwsFrameInfo} {data : List Byte}

/-- A single chunk is the whole frame, or none. -/
theorem complete_singleton_iff :
    Complete [⟨info, data⟩] ↔ Accepted data.length [⟨info, data⟩] :=
  and_iff_right (List.cons_ne_nil _ _)

theorem accepted_singleton_iff {len : ℕ} :
    Accepted len [⟨info, data⟩] ↔
      wsFrameStartOk info.final info.opcode info.len = true ∧ data ≠ [] ∧ info.len = len ∧
        info.index = 0 := by
  have h : Accepted len ([] ++ [⟨info, data⟩]) ↔ _ := accepted_append_singleton
  rw [List.nil_append] at h
  rw [h, and_iff_right (accepted_nil len),
    forall_prop_of_true (rfl : ([] : List Chunk) = [])]
  rfl

/-- A chunk after which the client has no object, and that is not a whole frame. -/
theorem handledFirst_of_none (hblocks : s.blocks c = if (s.tempObject c).isSome then 1 else 0)
    (htemp' : s'.tempObject = (s.assemblyFree c).tempObject)
    (hblocks' : s'.blocks = (s.assemblyFree c).blocks) : Handled s s' c chunks' := by
  refine handled_of_none (fun c' hc' => ?_) ?_ ?_
  · rw [htemp', hblocks']
    exact others_assemblyFree s hc'
  · rw [htemp', State.tempObject_assemblyFree, Function.update_self]
  · rw [hblocks']
    exact blocks_assemblyFree_self hblocks

/-- The first chunk of a frame that is not accepted. -/
theorem handleData_of_rejected (data : List Byte) (res : Resources) (hindex : info.index = 0)
    (hblocks : s.blocks c = if (s.tempObject c).isSome then 1 else 0)
    (hstart : wsFrameStartOk info.final info.opcode info.len = false) :
    ∃ s', s.handleData c (some info) data res = some s' ∧
      Handled s s' c [⟨info, data⟩] ∧ HandedOver s s' c [⟨info, data⟩] := by
  have hrejected : ∀ len, ¬ Accepted len [⟨info, data⟩] := by
    intro len h
    rw [accepted_singleton_iff, hstart] at h
    exact Bool.false_ne_true h.1
  have hnone : ∀ s' : State κ, s'.rxQueue = (s.assemblyFree c).rxQueue →
      HandedOver s s' c [⟨info, data⟩] := by
    intro s' hqueue
    refine handedOver_of_not_complete (fun _ _ len h => absurd h (hrejected len)) ?_
      (fun h => hrejected _ h.2)
    rw [hqueue, State.rxQueue_assemblyFree]
  rw [State.handleData]
  dsimp only
  rw [if_pos hindex, hstart, Bool.not_false, if_pos rfl]
  refine ⟨_, rfl, ?_⟩
  split
  · exact ⟨handledFirst_of_none hblocks rfl rfl, hnone _ rfl⟩
  · exact ⟨handledFirst_of_none hblocks rfl rfl, hnone _ rfl⟩

/-- The whole frame in one chunk. -/
theorem handleData_of_whole (res : Resources) (hindex : info.index = 0)
    (hblocks : s.blocks c = if (s.tempObject c).isSome then 1 else 0)
    (hstart : wsFrameStartOk info.final info.opcode info.len = true)
    (hwhole : data.length = info.len) :
    ∃ s', s.handleData c (some info) data res = some s' ∧
      Handled s s' c [⟨info, data⟩] ∧
      (res.heap = true → res.queue = true → HandedOver s s' c [⟨info, data⟩]) := by
  rw [State.handleData]
  dsimp only
  rw [if_pos hindex, hstart, Bool.not_true, if_neg Bool.false_ne_true, if_pos hwhole]
  cases res.heap with
  | false => exact ⟨_, rfl, handledFirst_of_none hblocks rfl rfl, fun h => absurd h Bool.false_ne_true⟩
  | true =>
      obtain ⟨copy, msg, hcopy, hend, hmessage⟩ := exists_copy data
      rw [Bool.not_true, if_neg Bool.false_ne_true, hcopy, Option.bind_some, hend, Option.map_some]
      have hlen : 0 < info.len := by
        rw [wsFrameStartOk, Bool.and_eq_true, Bool.and_eq_true, decide_eq_true_eq] at hstart
        exact hstart.1.2
      have hcomplete : Complete [⟨info, data⟩] :=
        complete_singleton_iff.mpr (accepted_singleton_iff.mpr
          ⟨hstart, List.ne_nil_of_length_pos (hwhole ▸ hlen), hwhole.symm, hindex⟩)
      refine ⟨_, rfl, handled_of_none (fun c' hc' => ?_) ?_ ?_, fun _ hqueue => ⟨?_, [msg], ?_, ?_⟩⟩
      · rw [State.tempObject_deliver, State.tempObject_malloc, State.blocks_deliver,
          Function.update_of_ne hc', State.blocks_malloc, Function.update_of_ne hc']
        exact others_assemblyFree s hc'
      · rw [State.tempObject_deliver, State.tempObject_malloc, State.tempObject_assemblyFree,
          Function.update_self]
      · rw [State.blocks_deliver, Function.update_self, State.blocks_malloc, Function.update_self,
          blocks_assemblyFree_self hblocks]
      · intro _ _ len h
        rw [accepted_singleton_iff] at h
        rw [← h.2.2.1, ← hwhole]
        exact Nat.le_refl _
      · rw [State.rxQueue_deliver _ _ _ hqueue, State.rxQueue_malloc, State.rxQueue_assemblyFree]
      · rw [if_pos hcomplete]
        refine .cons ?_ .nil
        rw [payload, List.flatMap_singleton]
        exact hmessage

/-- The first chunk of a frame that is accepted and goes on. -/
theorem handleData_of_part (res : Resources) (hindex : info.index = 0)
    (hblocks : s.blocks c = if (s.tempObject c).isSome then 1 else 0)
    (hstart : wsFrameStartOk info.final info.opcode info.len = true)
    (hpart : data.length ≠ info.len) :
    ∃ s', s.handleData c (some info) data res = some s' ∧
      Handled s s' c [⟨info, data⟩] ∧
      (res.heap = true → res.queue = true → HandedOver s s' c [⟨info, data⟩]) := by
  rw [State.handleData]
  dsimp only
  rw [if_pos hindex, hstart, Bool.not_true, if_neg Bool.false_ne_true, if_neg hpart]
  cases res.heap with
  | false => exact ⟨_, rfl, handledFirst_of_none hblocks rfl rfl, fun h => absurd h Bool.false_ne_true⟩
  | true =>
      rw [Bool.not_true, if_neg Bool.false_ne_true]
      have hlen : 0 < info.len := by
        rw [wsFrameStartOk, Bool.and_eq_true, Bool.and_eq_true, decide_eq_true_eq] at hstart
        exact hstart.1.2
      set a : Assembly :=
        { total := info.len, received := 0, block := .alloc (SIZEOF_WS_ASSEMBLY + info.len) }
      set s₁ := ((s.assemblyFree c).malloc c).setTemp c (some a) with hs₁
      have htemp : s₁.tempObject c = some a := by
        rw [hs₁, State.tempObject_setTemp, Function.update_self]
      have hone : s₁.blocks c = 1 := by
        rw [hs₁, State.blocks_setTemp, State.blocks_malloc, Function.update_self,
          blocks_assemblyFree_self hblocks]
      have hothers : ∀ c' ≠ c,
          s₁.tempObject c' = s.tempObject c' ∧ s₁.blocks c' = s.blocks c' := by
        intro c' hc'
        rw [hs₁, State.tempObject_setTemp, Function.update_of_ne hc', State.tempObject_malloc,
          State.blocks_setTemp, State.blocks_malloc, Function.update_of_ne hc']
        exact others_assemblyFree s hc'
      have hqueue₁ : s₁.rxQueue = s.rxQueue := by
        rw [hs₁, State.rxQueue_setTemp, State.rxQueue_malloc, State.rxQueue_assemblyFree]
      have hfresh : Unfinished [] a :=
        ⟨accepted_nil _, rfl, hlen, rfl, MemBlock.holds_nil _ _⟩
      obtain ⟨s', hs', hhandled, hover⟩ :=
        handleChunk_of_some info data res htemp hone hfresh (fun _ => hstart)
          (fun _ => rfl)
      rw [List.nil_append] at hhandled hover
      refine ⟨s', hs', hhandled.of_others hothers, fun _ hqueue => ?_⟩
      have h := hover hqueue
      exact ⟨h.forgotten, hqueue₁ ▸ h.queue⟩

/-- A later chunk of a frame. -/
theorem handleData_of_later (data : List Byte) (res : Resources) (hindex : info.index ≠ 0)
    (hclient : ClientOk chunks (s.tempObject c) (s.blocks c)) :
    ∃ s', s.handleData c (some info) data res = some s' ∧
      Handled s s' c (if chunks = [] then [] else chunks ++ [⟨info, data⟩]) ∧
      (res.queue = true → NoneForgotten chunks (s.tempObject c) →
        HandedOver s s' c (if chunks = [] then [] else chunks ++ [⟨info, data⟩])) := by
  rw [State.handleData]
  dsimp only
  rw [if_neg hindex]
  cases htemp : s.tempObject c with
  | none =>
      have hblocks := hclient.blocks
      rw [htemp] at hblocks
      have hsame : s.handleChunk c info data res = some s := by
        rw [State.handleChunk, htemp]
      refine ⟨s, hsame, handled_of_none (fun _ _ => ⟨rfl, rfl⟩) htemp hblocks, fun _ hforgotten => ?_⟩
      by_cases hchunks : chunks = []
      · rw [if_pos hchunks]
        exact handedOver_of_not_complete (fun _ h => absurd rfl h) rfl (fun h => h.1 rfl)
      · rw [if_neg hchunks]
        have hlong : ∀ len, Accepted len (chunks ++ [⟨info, data⟩]) →
            len < totalLength (chunks ++ [⟨info, data⟩]) := by
          intro len h
          obtain ⟨hbefore, -, hnonempty, -, -⟩ := accepted_append_singleton.mp h
          have hle := hforgotten rfl hchunks len hbefore
          rw [totalLength_append_singleton]
          exact Nat.lt_of_le_of_lt hle (Nat.lt_add_of_pos_right (List.length_pos_of_ne_nil hnonempty))
        exact handedOver_of_not_complete (fun _ _ len h => Nat.le_of_lt (hlong len h)) rfl
          (fun h => Nat.lt_irrefl _ (hlong _ h.2))
  | some a =>
      obtain ⟨hchunks, hunfinished⟩ := hclient.unfinished a htemp
      have hone : s.blocks c = 1 := by
        rw [hclient.blocks, htemp]
        rfl
      rw [if_neg hchunks]
      obtain ⟨s', hs', hhandled, hover⟩ :=
        handleChunk_of_some info data res htemp hone hunfinished
          (fun h => absurd h hchunks) (fun h => absurd h hchunks)
      exact ⟨s', hs', hhandled, fun hqueue _ => hover hqueue⟩

end Data

/-! ### Runs -/

/-- Every object of a client is the block of its unfinished frame. -/
def ClientsOk (events : List (Event κ)) (s : State κ) : Prop :=
  ∀ c, ClientOk (openChunks c events) (s.tempObject c) (s.blocks c)

/-- What was sent to the worker is what should be delivered. -/
structure Delivered (events : List (Event κ)) (s : State κ) : Prop where
  forgotten : ∀ c, NoneForgotten (openChunks c events) (s.tempObject c)
  queue : List.Forall₂ HoldsMessage s.rxQueue (completed events)

variable {events : List (Event κ)} {e : Event κ}

/-- An event of one client. -/
theorem ClientsOk.of_handled (hok : ClientsOk events s)
    (h : Handled s s' c (openChunks c (events ++ [e])))
    (hothers : ∀ c' ≠ c, openChunks c' (events ++ [e]) = openChunks c' events) :
    ClientsOk (events ++ [e]) s' := by
  intro c'
  by_cases hc' : c' = c
  · rw [hc']
    exact h.client
  · rw [hothers c' hc', (h.others c' hc').1, (h.others c' hc').2]
    exact hok c'

theorem Delivered.of_handedOver (hdelivered : Delivered events s)
    (h : Handled s s' c (openChunks c (events ++ [e])))
    (hover : HandedOver s s' c (openChunks c (events ++ [e])))
    (hothers : ∀ c' ≠ c, openChunks c' (events ++ [e]) = openChunks c' events)
    (hcompleted : completedBy events e =
      if Complete (openChunks c (events ++ [e])) then [payload (openChunks c (events ++ [e]))]
      else []) : Delivered (events ++ [e]) s' := by
  constructor
  · intro c'
    by_cases hc' : c' = c
    · rw [hc']
      exact hover.forgotten
    · rw [hothers c' hc', (h.others c' hc').1]
      exact hdelivered.forgotten c'
  · obtain ⟨msgs, hqueue, hmsgs⟩ := hover.queue
    rw [completed_append_singleton, hqueue, hcompleted]
    exact List.rel_append hdelivered.queue hmsgs

/-- An event that is nothing to the clients' frames. -/
theorem ClientsOk.of_same (hok : ClientsOk events s) (htemp : s'.tempObject = s.tempObject)
    (hblocks : s'.blocks = s.blocks)
    (hsame : ∀ c, openChunks c (events ++ [e]) = openChunks c events) :
    ClientsOk (events ++ [e]) s' := by
  intro c
  rw [hsame, htemp, hblocks]
  exact hok c

theorem Delivered.of_same (hdelivered : Delivered events s) (htemp : s'.tempObject = s.tempObject)
    (hqueue : s'.rxQueue = s.rxQueue)
    (hsame : ∀ c, openChunks c (events ++ [e]) = openChunks c events)
    (hcompleted : completedBy events e = []) : Delivered (events ++ [e]) s' := by
  constructor
  · intro c
    rw [hsame, htemp]
    exact hdelivered.forgotten c
  · rw [completed_append_singleton, hcompleted, List.append_nil, hqueue]
    exact hdelivered.queue

/-- A data event of a client, as `nextChunks` counts it. -/
theorem handleData_some (info : AwsFrameInfo) (data : List Byte) (res : Resources)
    (hclient : ClientOk chunks (s.tempObject c) (s.blocks c)) :
    ∃ s', s.handleData c (some info) data res = some s' ∧
      Handled s s' c (nextChunks c chunks (.data c (some info) data res)) ∧
      (res.heap = true → res.queue = true → NoneForgotten chunks (s.tempObject c) →
        HandedOver s s' c (nextChunks c chunks (.data c (some info) data res))) := by
  rw [nextChunks, if_neg (not_not_intro rfl)]
  by_cases hindex : info.index = 0
  · rw [if_pos hindex]
    cases hstart : wsFrameStartOk info.final info.opcode info.len with
    | false =>
        obtain ⟨s', hs', hhandled, hover⟩ :=
          handleData_of_rejected data res hindex hclient.blocks hstart
        exact ⟨s', hs', hhandled, fun _ _ _ => hover⟩
    | true =>
        by_cases hwhole : data.length = info.len
        · obtain ⟨s', hs', hhandled, hover⟩ :=
            handleData_of_whole res hindex hclient.blocks hstart hwhole
          exact ⟨s', hs', hhandled, fun hheap hqueue _ => hover hheap hqueue⟩
        · obtain ⟨s', hs', hhandled, hover⟩ :=
            handleData_of_part res hindex hclient.blocks hstart hwhole
          exact ⟨s', hs', hhandled, fun hheap hqueue _ => hover hheap hqueue⟩
  · rw [if_neg hindex]
    obtain ⟨s', hs', hhandled, hover⟩ :=
      handleData_of_later data res hindex hclient
    exact ⟨s', hs', hhandled, fun _ => hover⟩

/-- One event keeps the clients' objects as they should be, and hands over what is complete. -/
theorem onEvent_ok (hok : ClientsOk events s) (e : Event κ) :
    ∃ s', s.onEvent e = some s' ∧ ClientsOk (events ++ [e]) s' ∧
      (e.Succeeds → Delivered events s → Delivered (events ++ [e]) s') := by
  cases e with
  | connect c =>
      have hsame : ∀ c', openChunks c' (events ++ [.connect c]) = openChunks c' events :=
        fun c' => openChunks_append_singleton c' events _
      exact ⟨_, rfl, hok.of_same rfl rfl hsame,
        fun _ hdelivered => hdelivered.of_same rfl rfl hsame rfl⟩
  | disconnect c =>
      have hgone : openChunks c (events ++ [.disconnect c]) = [] := by
        rw [openChunks_append_singleton, nextChunks, if_pos rfl]
      have hothers : ∀ c' ≠ c, openChunks c' (events ++ [.disconnect c]) = openChunks c' events := by
        intro c' hc'
        rw [openChunks_append_singleton, nextChunks, if_neg (Ne.symm hc')]
      have hhandled : Handled s { s.assemblyFree c with clientCount := (s.assemblyFree c).clientCount - 1 } c
          (openChunks c (events ++ [.disconnect c])) :=
        handledFirst_of_none (hok c).blocks rfl rfl
      refine ⟨_, rfl, hok.of_handled hhandled hothers, fun _ hdelivered => ?_⟩
      refine hdelivered.of_handedOver hhandled ?_ hothers ?_
      · rw [hgone]
        exact handedOver_of_not_complete (fun _ h => absurd rfl h) (State.rxQueue_assemblyFree s c)
          (fun h => h.1 rfl)
      · rw [hgone, if_neg fun h => h.1 rfl]
        rfl
  | data c info data res =>
      cases info with
      | none =>
          have hsame : ∀ c', openChunks c' (events ++ [.data c none data res]) =
              openChunks c' events :=
            fun c' => openChunks_append_singleton c' events _
          exact ⟨s, rfl, hok.of_same rfl rfl hsame,
            fun _ hdelivered => hdelivered.of_same rfl rfl hsame rfl⟩
      | some info =>
          have hothers : ∀ c' ≠ c, openChunks c' (events ++ [.data c (some info) data res]) =
              openChunks c' events := by
            intro c' hc'
            rw [openChunks_append_singleton, nextChunks]
            exact if_pos (Ne.symm hc')
          obtain ⟨s', hs', hhandled, hover⟩ :=
            handleData_some info data res (hok c)
          rw [← openChunks_append_singleton] at hhandled hover
          exact ⟨s', hs', hok.of_handled hhandled hothers, fun hsucceeds hdelivered =>
            hdelivered.of_handedOver hhandled
              (hover hsucceeds.1 hsucceeds.2 (hdelivered.forgotten c)) hothers rfl⟩

theorem clientsOk_boot : ClientsOk [] (boot κ) :=
  fun _ => ⟨fun _ h => absurd h.symm (Option.some_ne_none _), rfl⟩

theorem delivered_boot : Delivered [] (boot κ) :=
  ⟨fun _ _ h => absurd rfl h, .nil⟩

theorem exec_onEvent_ok (events : List (Event κ)) :
    ∃ s, Transition.exec State.onEvent (boot κ) events = some s ∧ ClientsOk events s ∧
      ((∀ e ∈ events, e.Succeeds) → Delivered events s) := by
  induction events using List.reverseRecOn with
  | nil => exact ⟨_, rfl, clientsOk_boot, fun _ => delivered_boot⟩
  | append_singleton events e ih =>
      obtain ⟨s, hs, hok, hdelivered⟩ := ih
      obtain ⟨s', hs', hok', hdelivered'⟩ := onEvent_ok hok e
      refine ⟨s', ?_, hok', fun hall => ?_⟩
      · rw [Transition.exec_append, hs, Option.bind_some, Transition.exec_cons, hs',
          Option.bind_some, Transition.exec_nil]
      · rw [List.forall_mem_append] at hall
        exact hdelivered' (hall.2 e List.mem_cons_self) (hdelivered hall.1)

/-- Whatever the clients send, every copy stays inside its block and no client has more than
one; and when memory and queue suffice, the worker gets the complete frames, as they
were completed. -/
theorem complete_frames_delivered (events : List (Event κ)) :
    ∃ s, Transition.exec State.onEvent (boot κ) events = some s ∧
      (∀ c, s.blocks c ≤ 1) ∧
      ((∀ e ∈ events, e.Succeeds) → List.Forall₂ HoldsMessage s.rxQueue (completed events)) := by
  obtain ⟨s, hs, hok, hdelivered⟩ := exec_onEvent_ok events
  refine ⟨s, hs, fun c => ?_, fun hall => (hdelivered hall).queue⟩
  rw [(hok c).blocks]
  split
  · exact Nat.le_refl 1
  · exact Nat.zero_le 1

end Client

/-- The chunks of two clients, mixed: one frame in two parts, one in one. -/
def mixedRun : List (Event Bool) :=
  [.connect false, .connect true,
    .data false (some ⟨true, 1, 3, 0⟩) [97, 98] ⟨true, true⟩,
    .data true (some ⟨true, 1, 2, 0⟩) [120, 121] ⟨true, true⟩,
    .data false (some ⟨true, 1, 3, 2⟩) [99] ⟨true, true⟩]

theorem completed_mixedRun : completed mixedRun = [[120, 121], [97, 98, 99]] := by decide

theorem complete_frames_delivered_mixedRun :
    ∃ s, Transition.exec State.onEvent (boot Bool) mixedRun = some s ∧
      List.Forall₂ HoldsMessage s.rxQueue [[120, 121], [97, 98, 99]] := by
  obtain ⟨s, hs, -, hqueue⟩ := complete_frames_delivered mixedRun
  exact ⟨s, hs, completed_mixedRun ▸ hqueue (by decide)⟩

end WsAssembly

end Web

end Voyager
