import Voyager.Library.Mealy

/-!
# Byte stuffing

Frames are sent over a stream of symbols between two `stop` symbols; a `stop` or an
`esc` inside a frame is sent as `esc` followed by a substitute. The decoder holds
the symbols of the frame it is in, drops a frame that is longer than `max` or badly
escaped, and says nothing at an empty frame. Whatever state it is in, a well formed
stream brings it back in step at the first `stop` (`run_encodeAll`).
-/

namespace Stuffing

/-- The four special symbols, with what makes an escape sequence readable. -/
structure Alphabet (β : Type*) where
  stop : β
  esc : β
  escStop : β
  escEsc : β
  stop_ne_esc : stop ≠ esc
  escStop_ne_stop : escStop ≠ stop
  escEsc_ne_stop : escEsc ≠ stop
  escStop_ne_escEsc : escStop ≠ escEsc

/-- The decoder between two symbols. `bad` marks a frame that is being dropped. -/
structure State (β : Type*) where
  buf : List β
  esc : Bool
  bad : Bool

variable {β : Type*}

/-- Between frames. -/
def State.empty : State β := { buf := [], esc := false, bad := false }

/-- The frame a `stop` would end now. -/
def State.pending (s : State β) : List (List β) :=
  if s.bad ∨ s.esc ∨ s.buf.length = 0 then [] else [s.buf]

@[simp] theorem State.pending_empty : (State.empty : State β).pending = [] := rfl

theorem State.pending_length_le (s : State β) : s.pending.length ≤ 1 := by
  unfold State.pending
  split <;> simp

variable [DecidableEq β] (A : Alphabet β)

/-- One symbol of a frame on the stream. -/
def encodeSymbol (b : β) : List β :=
  if b = A.stop then [A.esc, A.escStop] else if b = A.esc then [A.esc, A.escEsc] else [b]

/-- A frame on the stream, with the `stop` before and after it. -/
def encode (f : List β) : List β := A.stop :: f.flatMap (encodeSymbol A) ++ [A.stop]

/-- The symbols that are sent as two. -/
def IsSpecial (b : β) : Prop := b = A.stop ∨ b = A.esc

/-- Keep one symbol of the frame, or drop the frame when it is full. -/
def State.store (max : ℕ) (s : State β) (b : β) : State β :=
  if s.buf.length ≥ max then { s with bad := true } else { s with buf := s.buf ++ [b] }

/-- The decoder on one symbol. -/
def step (max : ℕ) (s : State β) (b : β) : State β × List (List β) :=
  if b = A.stop then (State.empty, s.pending)
  else if s.bad then (s, [])
  else if s.esc then
    if b = A.escStop then ({ s with esc := false }.store max A.stop, [])
    else if b = A.escEsc then ({ s with esc := false }.store max A.esc, [])
    else ({ s with esc := false, bad := true }, [])
  else if b = A.esc then ({ s with esc := true }, [])
  else (s.store max b, [])

theorem step_stop (max : ℕ) (s : State β) :
    step A max s A.stop = (State.empty, s.pending) := by
  rw [step, if_pos rfl]

theorem step_of_bad {max : ℕ} {s : State β} {b : β} (hb : b ≠ A.stop) (hbad : s.bad = true) :
    step A max s b = (s, []) := by
  rw [step, if_neg hb, if_pos hbad]

theorem step_escStop {max : ℕ} {s : State β} (hbad : s.bad = false) (hesc : s.esc = true) :
    step A max s A.escStop = ({ s with esc := false }.store max A.stop, []) := by
  simp [step, A.escStop_ne_stop, hbad, hesc]

theorem step_escEsc {max : ℕ} {s : State β} (hbad : s.bad = false) (hesc : s.esc = true) :
    step A max s A.escEsc = ({ s with esc := false }.store max A.esc, []) := by
  simp [step, A.escEsc_ne_stop, A.escStop_ne_escEsc.symm, hbad, hesc]

theorem step_of_badEscape {max : ℕ} {s : State β} {b : β} (hbad : s.bad = false)
    (hesc : s.esc = true) (hb : b ≠ A.stop) (hs : b ≠ A.escStop) (he : b ≠ A.escEsc) :
    step A max s b = ({ s with esc := false, bad := true }, []) := by
  simp [step, hb, hs, he, hbad, hesc]

theorem step_esc {max : ℕ} {s : State β} (hbad : s.bad = false) (hesc : s.esc = false) :
    step A max s A.esc = ({ s with esc := true }, []) := by
  simp [step, A.stop_ne_esc.symm, hbad, hesc]

theorem step_of_plain {max : ℕ} {s : State β} {b : β} (hbad : s.bad = false)
    (hesc : s.esc = false) (hb : ¬ IsSpecial A b) :
    step A max s b = (s.store max b, []) := by
  rw [IsSpecial, not_or] at hb
  simp [step, hb, hbad, hesc]

omit [DecidableEq β] in
theorem State.store_of_lt {max : ℕ} {s : State β} (b : β) (h : s.buf.length < max) :
    s.store max b = { s with buf := s.buf ++ [b] } :=
  if_neg (Nat.not_le.mpr h)

/-- The symbols of one frame symbol add it to the frame. -/
theorem run_encodeSymbol {max : ℕ} {buf : List β} (b : β) (h : buf.length < max) :
    Mealy.run (step A max) { buf, esc := false, bad := false } (encodeSymbol A b) =
      ({ buf := buf ++ [b], esc := false, bad := false }, []) := by
  unfold encodeSymbol
  by_cases hs : b = A.stop
  · rw [if_pos hs, Mealy.run_cons, step_esc A rfl rfl, Mealy.run_cons, step_escStop A rfl rfl,
      State.store_of_lt _ h, hs]
    rfl
  · by_cases he : b = A.esc
    · rw [if_neg hs, if_pos he, Mealy.run_cons, step_esc A rfl rfl, Mealy.run_cons,
        step_escEsc A rfl rfl, State.store_of_lt _ h, he]
      rfl
    · have hplain : ¬ IsSpecial A b := not_or.mpr ⟨hs, he⟩
      rw [if_neg hs, if_neg he, Mealy.run_cons, step_of_plain A rfl rfl hplain,
        State.store_of_lt b h]
      rfl

/-- The symbols between the two `stop`s add up to the frame. -/
theorem run_flatMap_encodeSymbol {max : ℕ} (f buf : List β) (h : buf.length + f.length ≤ max) :
    Mealy.run (step A max) { buf, esc := false, bad := false } (f.flatMap (encodeSymbol A)) =
      ({ buf := buf ++ f, esc := false, bad := false }, []) := by
  induction f generalizing buf with
  | nil => simp
  | cons b f ih =>
      rw [List.length_cons] at h
      rw [List.flatMap_cons, Mealy.run_append, run_encodeSymbol A b (by omega),
        ih (buf ++ [b]) (by simp; omega)]
      simp

/-- A frame from any state, empty or not, leaves the decoder between frames. -/
theorem run_encode_of_le {max : ℕ} (s : State β) {f : List β} (hmax : f.length ≤ max) :
    Mealy.run (step A max) s (encode A f) =
      (State.empty, s.pending ++ if f.length = 0 then [] else [f]) := by
  rw [encode, List.cons_append, Mealy.run_cons, step_stop, Mealy.run_append, State.empty,
    run_flatMap_encodeSymbol A f [] (by simpa using hmax)]
  simp [Mealy.run_cons, step_stop, State.pending, State.empty]

/-- A frame from any state: what was pending is ended, then the frame comes out. -/
theorem run_encode {max : ℕ} (s : State β) {f : List β} (hpos : 1 ≤ f.length)
    (hmax : f.length ≤ max) :
    Mealy.run (step A max) s (encode A f) = (State.empty, s.pending ++ [f]) := by
  rw [run_encode_of_le A s hmax, if_neg (Nat.ne_of_gt hpos)]

/-- A stream of frames from any state: at most the pending frame, then the frames. -/
theorem run_encodeAll {max : ℕ} (s : State β) {fs : List (List β)}
    (h : ∀ f ∈ fs, 1 ≤ f.length ∧ f.length ≤ max) :
    (Mealy.run (step A max) s (fs.flatMap (encode A))).2 =
      if fs = [] then [] else s.pending ++ fs := by
  induction fs generalizing s with
  | nil => rfl
  | cons f fs ih =>
      obtain ⟨hpos, hmax⟩ := h f (by simp)
      rw [List.flatMap_cons, Mealy.run_append, run_encode A s hpos hmax,
        ih State.empty fun g hg => h g (by simp [hg])]
      cases fs <;> simp

/-- From any state at most one frame is left over, then the frames come out in order. -/
theorem exists_run_encodeAll {max : ℕ} (s : State β) {fs : List (List β)}
    (h : ∀ f ∈ fs, 1 ≤ f.length ∧ f.length ≤ max) :
    ∃ left, left.length ≤ 1 ∧
      (Mealy.run (step A max) s (fs.flatMap (encode A))).2 = left ++ fs := by
  rw [run_encodeAll A s h]
  by_cases hfs : fs = []
  · exact ⟨[], Nat.zero_le 1, by simp [hfs]⟩
  · exact ⟨s.pending, s.pending_length_le, if_neg hfs⟩

/-- A stream of frames from between frames: the empty ones vanish, the others come out. -/
theorem run_encodeAll_empty {max : ℕ} {fs : List (List β)} (h : ∀ f ∈ fs, f.length ≤ max) :
    Mealy.run (step A max) State.empty (fs.flatMap (encode A)) =
      (State.empty, fs.filter (·.length ≠ 0)) := by
  induction fs with
  | nil => rfl
  | cons f fs ih =>
      rw [List.flatMap_cons, Mealy.run_append, run_encode_of_le A _ (h f (by simp)),
        ih fun g hg => h g (by simp [hg]), State.pending_empty, List.nil_append,
        List.filter_cons]
      by_cases hf : f.length = 0 <;> simp [hf]

end Stuffing
