import Mathlib.Algebra.Ring.Nat
import Mathlib.Data.List.Basic
import Voyager.Basic

/-!
# WebSocket frames in chunks

A frame from a browser can arrive in several chunks, those of different clients mixed.
Here is what of it should be delivered, from the events of the library alone.
-/

namespace Voyager

namespace Web

namespace WsAssembly

def WS_MAX_MESSAGE : ℕ := 2048

/-- What the library says about a chunk: `len` is the length of the frame, `index` the place
of the chunk in it. -/
structure AwsFrameInfo where
  final : Bool
  opcode : Byte
  len : ℕ
  index : ℕ
  deriving DecidableEq, Repr

/-- `ws_frame_start_ok`. -/
def wsFrameStartOk (final : Bool) (opcode : Byte) (totalLen : ℕ) : Bool :=
  final && opcode == 1 && decide (totalLen > 0) && decide (totalLen ≤ WS_MAX_MESSAGE)

/-- `ws_chunk_in_order`. -/
def wsChunkInOrder (received expectedTotal index totalLen chunkLen : ℕ) : Bool :=
  index == received && totalLen == expectedTotal && decide (chunkLen > 0) &&
    decide (received + chunkLen ≤ expectedTotal)

/-- Whether `malloc` finds memory and the queue of the worker has room. -/
structure Resources where
  heap : Bool
  queue : Bool
  deriving DecidableEq, Repr

/-- The events of the library, from clients of type `κ`. -/
inductive Event (κ : Type*)
  | connect (c : κ)
  | disconnect (c : κ)
  | data (c : κ) (info : Option AwsFrameInfo) (bytes : List Byte) (res : Resources)
  deriving DecidableEq

section Succeeds

variable {κ : Type*}

/-- Whether the event finds the memory and the room it needs. -/
def Event.Succeeds : Event κ → Prop
  | .connect _ => True
  | .disconnect _ => True
  | .data _ _ _ res => res.heap = true ∧ res.queue = true

instance (e : Event κ) : Decidable e.Succeeds := by
  cases e with
  | connect _ => exact isTrue trivial
  | disconnect _ => exact isTrue trivial
  | data _ _ _ res => exact inferInstanceAs (Decidable (_ ∧ _))

end Succeeds

/-! ## Complete frames -/

/-- A chunk as it came. -/
structure Chunk where
  info : AwsFrameInfo
  bytes : List Byte
  deriving DecidableEq

/-- The length of the chunks together. -/
def totalLength (chunks : List Chunk) : ℕ := (chunks.map fun ch => ch.bytes.length).sum

/-- Every chunk starts where the one before it ended, the first one at `start`. -/
def Contiguous : ℕ → List Chunk → Prop
  | _, [] => True
  | start, ch :: chunks => ch.info.index = start ∧ Contiguous (start + ch.bytes.length) chunks

/-- The chunks are the beginning of a frame of `len` bytes that is accepted. -/
structure Accepted (len : ℕ) (chunks : List Chunk) : Prop where
  start : ∀ ch ∈ chunks.head?, wsFrameStartOk ch.info.final ch.info.opcode ch.info.len = true
  nonempty : ∀ ch ∈ chunks, ch.bytes ≠ []
  len_eq : ∀ ch ∈ chunks, ch.info.len = len
  contiguous : Contiguous 0 chunks

/-- The chunks are a whole frame. -/
def Complete (chunks : List Chunk) : Prop :=
  chunks ≠ [] ∧ Accepted (totalLength chunks) chunks

instance : ∀ start chunks, Decidable (Contiguous start chunks)
  | _, [] => isTrue trivial
  | start, ch :: chunks =>
      have : Decidable (Contiguous (start + ch.bytes.length) chunks) :=
        instDecidableContiguous (start + ch.bytes.length) chunks
      inferInstanceAs (Decidable (_ ∧ _))

instance (len : ℕ) (chunks : List Chunk) : Decidable (Accepted len chunks) :=
  decidable_of_iff
    ((∀ ch ∈ chunks.head?, wsFrameStartOk ch.info.final ch.info.opcode ch.info.len = true) ∧
      (∀ ch ∈ chunks, ch.bytes ≠ []) ∧ (∀ ch ∈ chunks, ch.info.len = len) ∧ Contiguous 0 chunks)
    ⟨fun h => ⟨h.1, h.2.1, h.2.2.1, h.2.2.2⟩, fun h => ⟨h.1, h.2, h.3, h.4⟩⟩

instance (chunks : List Chunk) : Decidable (Complete chunks) :=
  inferInstanceAs (Decidable (_ ∧ _))

def payload (chunks : List Chunk) : List Byte := chunks.flatMap Chunk.bytes

section Spec

variable {κ : Type*} [DecidableEq κ]

/-- What an event does to the chunks of the client since the last one with index 0. -/
def nextChunks (c : κ) (chunks : List Chunk) : Event κ → List Chunk
  | .connect _ => chunks
  | .disconnect c' => if c' = c then [] else chunks
  | .data c' info bytes _ =>
      match info with
      | none => chunks
      | some info =>
          if c' ≠ c then chunks
          else if info.index = 0 then [⟨info, bytes⟩]
          else if chunks = [] then []
          else chunks ++ [⟨info, bytes⟩]

/-- The chunks of a client since the last one with index 0, when no disconnect came after. -/
def openChunks (c : κ) (events : List (Event κ)) : List Chunk := events.foldl (nextChunks c) []

/-- The payload of the frame that the event makes complete. -/
def completedBy (before : List (Event κ)) (e : Event κ) : List (List Byte) :=
  match e with
  | .data c (some _) _ _ =>
      let chunks := openChunks c (before ++ [e])
      if Complete chunks then [payload chunks] else []
  | _ => []

/-- The payloads of the complete frames after `before`, in the order of completion. -/
def completedFrom (before : List (Event κ)) : List (Event κ) → List (List Byte)
  | [] => []
  | e :: events => completedBy before e ++ completedFrom (before ++ [e]) events

def completed (events : List (Event κ)) : List (List Byte) := completedFrom [] events

theorem completedFrom_append (before es es' : List (Event κ)) :
    completedFrom before (es ++ es') =
      completedFrom before es ++ completedFrom (before ++ es) es' := by
  induction es generalizing before with
  | nil => rw [List.nil_append, completedFrom, List.nil_append, List.append_nil]
  | cons e es ih =>
      rw [List.cons_append, completedFrom, completedFrom, ih, List.append_assoc, List.append_assoc,
        List.singleton_append]

theorem completed_append_singleton (events : List (Event κ)) (e : Event κ) :
    completed (events ++ [e]) = completed events ++ completedBy events e := by
  rw [completed, completed, completedFrom_append, List.nil_append, completedFrom, completedFrom,
    List.append_nil]

theorem openChunks_append_singleton (c : κ) (events : List (Event κ)) (e : Event κ) :
    openChunks c (events ++ [e]) = nextChunks c (openChunks c events) e := by
  rw [openChunks, List.foldl_append]
  rfl

end Spec

/-! ## Chunks -/

section Chunks

variable {chunks : List Chunk} {ch : Chunk} {len : ℕ}

theorem totalLength_append_singleton (chunks : List Chunk) (ch : Chunk) :
    totalLength (chunks ++ [ch]) = totalLength chunks + ch.bytes.length := by
  rw [totalLength, totalLength, List.map_append, List.sum_append]
  rfl

theorem payload_append_singleton (chunks : List Chunk) (ch : Chunk) :
    payload (chunks ++ [ch]) = payload chunks ++ ch.bytes := by
  rw [payload, payload, List.flatMap_append, List.flatMap_singleton]

theorem payload_length (chunks : List Chunk) : (payload chunks).length = totalLength chunks := by
  rw [payload, List.length_flatMap, totalLength]

theorem contiguous_append_singleton (start : ℕ) :
    Contiguous start (chunks ++ [ch]) ↔
      Contiguous start chunks ∧ ch.info.index = start + totalLength chunks := by
  induction chunks generalizing start with
  | nil =>
      rw [List.nil_append, Contiguous, Contiguous, Contiguous, and_true, true_and]
      rfl
  | cons c chunks ih =>
      have hsum : totalLength (c :: chunks) = c.bytes.length + totalLength chunks := rfl
      rw [List.cons_append, Contiguous, Contiguous, ih, and_assoc, hsum, Nat.add_assoc]

theorem head?_append_singleton (chunks : List Chunk) (ch : Chunk) :
    (chunks ++ [ch]).head? = chunks.head?.or (some ch) :=
  List.head?_append

/-- A chunk goes on with a frame that is accepted so far. -/
theorem accepted_append_singleton :
    Accepted len (chunks ++ [ch]) ↔
      Accepted len chunks ∧
        (chunks = [] → wsFrameStartOk ch.info.final ch.info.opcode ch.info.len = true) ∧
        ch.bytes ≠ [] ∧ ch.info.len = len ∧ ch.info.index = totalLength chunks := by
  constructor
  · rintro ⟨hstart, hnonempty, hlen, hcontiguous⟩
    rw [contiguous_append_singleton, Nat.zero_add] at hcontiguous
    refine ⟨⟨?_, fun c hc => hnonempty c (List.mem_append_left _ hc),
      fun c hc => hlen c (List.mem_append_left _ hc), hcontiguous.1⟩, ?_,
      hnonempty ch (List.mem_append_right _ List.mem_cons_self),
      hlen ch (List.mem_append_right _ List.mem_cons_self), hcontiguous.2⟩
    · intro c hc
      refine hstart c ?_
      rw [head?_append_singleton, Option.mem_def.mp hc]
      rfl
    · rintro rfl
      exact hstart ch rfl
  · rintro ⟨haccepted, hstart, hnonempty, hlen, hindex⟩
    constructor
    · intro c hc
      cases chunks with
      | nil =>
          cases hc
          exact hstart rfl
      | cons d chunks => exact haccepted.start c hc
    · intro c hc
      rcases List.mem_append.mp hc with hc | hc
      · exact haccepted.nonempty c hc
      · exact List.mem_singleton.mp hc ▸ hnonempty
    · intro c hc
      rcases List.mem_append.mp hc with hc | hc
      · exact haccepted.len_eq c hc
      · exact List.mem_singleton.mp hc ▸ hlen
    · rw [contiguous_append_singleton, Nat.zero_add]
      exact ⟨haccepted.contiguous, hindex⟩

theorem accepted_nil (len : ℕ) : Accepted len [] where
  start _ h := absurd h.symm (Option.some_ne_none _)
  nonempty _ h := absurd h List.not_mem_nil
  len_eq _ h := absurd h List.not_mem_nil
  contiguous := trivial

end Chunks

end WsAssembly

end Web

end Voyager
