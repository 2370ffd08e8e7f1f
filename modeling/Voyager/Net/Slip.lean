import Voyager.Basic
import Voyager.Library.Stuffing

/-!
# SLIP on the USB link

The firmware and the PC helper each have their own encoder and decoder. The
firmware writes into a buffer of `cap` bytes and gives up when the frame does not
fit; its decoder is fed byte by byte and holds at most `CAP` bytes. The helper's
encoder allocates what it needs and its decoder is fed chunks. Both decoders are
the byte-stuffing decoder over the SLIP alphabet, so they agree on every stream,
malformed ones included.
-/

namespace Voyager

/-- The SLIP alphabet of RFC 1055. -/
def slipAlphabet : Stuffing.Alphabet Byte where
  stop := 0xC0
  esc := 0xDB
  escStop := 0xDC
  escEsc := 0xDD
  stop_ne_esc := by decide
  escStop_ne_stop := by decide
  escEsc_ne_stop := by decide
  escStop_ne_escEsc := by decide

namespace LoraProto

def SLIP_END : Byte := 0xC0
def SLIP_ESC : Byte := 0xDB
def SLIP_ESC_END : Byte := 0xDC
def SLIP_ESC_ESC : Byte := 0xDD

/-- The loop of `slip_encode` over the remaining input; `out` is what has been
written, so `out.length` is the source's `o`. -/
def slipEncodeLoop (cap : ℕ) : List Byte → List Byte → Option (List Byte)
  | out, [] => some (out ++ [SLIP_END])
  | out, b :: rest =>
      let esc := b = SLIP_END ∨ b = SLIP_ESC
      if out.length + (if esc then 2 else 1) > cap - 1 then none
      else if esc then
        slipEncodeLoop cap
          (out ++ [SLIP_ESC, if b = SLIP_END then SLIP_ESC_END else SLIP_ESC_ESC]) rest
      else slipEncodeLoop cap (out ++ [b]) rest

/-- `slip_encode`: the bytes written, or `none` where the source returns `0`. -/
def slipEncode (inp : List Byte) (cap : ℕ) : Option (List Byte) :=
  if cap < 2 then none else slipEncodeLoop cap [SLIP_END] inp

/-- `SlipDecoder<CAP>`: `buf` is the first `len_` bytes of `buf_`, which never
outgrow the array. -/
structure SlipDecoder (CAP : ℕ) where
  buf : List Byte
  esc : Bool
  bad : Bool
  length_le : buf.length ≤ CAP

namespace SlipDecoder

variable {CAP : ℕ}

/-- A decoder between frames. -/
def reset : SlipDecoder CAP :=
  { buf := [], esc := false, bad := false, length_le := Nat.zero_le CAP }

/-- The last lines of `feed`: keep the byte, or drop the frame when it is full. -/
def store (d : SlipDecoder CAP) (b : Byte) : SlipDecoder CAP :=
  if h : d.buf.length ≥ CAP then { d with bad := true }
  else
    { d with buf := d.buf ++ [b], length_le := by rw [List.length_append]; exact Nat.not_le.mp h }

/-- `feed`, with the frame it leaves in `frame()` when it returns its length. -/
def feed (d : SlipDecoder CAP) (b : Byte) : SlipDecoder CAP × List (List Byte) :=
  if b = SLIP_END then
    (reset, if (d.bad ∨ d.esc) ∨ d.buf.length = 0 then [] else [d.buf])
  else if d.bad then (d, [])
  else if d.esc then
    if b = SLIP_ESC_END then (store { d with esc := false } SLIP_END, [])
    else if b = SLIP_ESC_ESC then (store { d with esc := false } SLIP_ESC, [])
    else ({ d with esc := false, bad := true }, [])
  else if b = SLIP_ESC then ({ d with esc := true }, [])
  else (store d b, [])

end SlipDecoder

end LoraProto

namespace NetCore

/-- `slipEncode` of the helper. -/
def slipEncode (p : List Byte) : List Byte :=
  0xC0 :: p.flatMap (fun b =>
    if b = 0xC0 then [0xDB, 0xDC] else if b = 0xDB then [0xDB, 0xDD] else [b]) ++ [0xC0]

/-- `slipDecoder` of the helper. -/
structure SlipDecoder where
  buf : List Byte
  max : ℕ
  esc : Bool
  bad : Bool

def newSlipDecoder (max : ℕ) : SlipDecoder := { buf := [], max, esc := false, bad := false }

namespace SlipDecoder

/-- The end of the loop body: append the byte, or drop the frame when it is full. -/
def store (d : SlipDecoder) (b : Byte) : SlipDecoder :=
  if d.buf.length ≥ d.max then { d with bad := true } else { d with buf := d.buf ++ [b] }

/-- The loop body of `feed`: the decoder after one byte and the frames it completes. -/
def feedByte (d : SlipDecoder) (b : Byte) : SlipDecoder × List (List Byte) :=
  if b = 0xC0 then
    ({ d with buf := [], esc := false, bad := false },
      if ¬ d.bad ∧ ¬ d.esc ∧ d.buf.length > 0 then [d.buf] else [])
  else if d.bad then (d, [])
  else if d.esc then
    if b = 0xDC then (store { d with esc := false } 0xC0, [])
    else if b = 0xDD then (store { d with esc := false } 0xDB, [])
    else ({ d with esc := false, bad := true }, [])
  else if b = 0xDB then ({ d with esc := true }, [])
  else (store d b, [])

/-- `feed`: the completed frames found in a chunk. -/
def feed (d : SlipDecoder) (chunk : List Byte) : SlipDecoder × List (List Byte) :=
  Mealy.run feedByte d chunk

end SlipDecoder

end NetCore

open LoraProto

/-! ## The encoders -/

/-- How many bytes of a frame are escaped. -/
def slipSpecials (f : List Byte) : ℕ := f.countP fun b => b = SLIP_END ∨ b = SLIP_ESC

/-- The firmware's loop writes what the helper writes, as long as it fits. -/
theorem slipEncodeLoop_eq (cap : ℕ) (out f : List Byte) (hcap : out.length + 1 ≤ cap) :
    slipEncodeLoop cap out f =
      if out.length + f.length + slipSpecials f + 1 > cap then none
      else some (out ++ f.flatMap (Stuffing.encodeSymbol slipAlphabet) ++ [SLIP_END]) := by
  induction f generalizing out with
  | nil =>
      have h : ¬ out.length + 0 + slipSpecials [] + 1 > cap := by
        simp only [slipSpecials, List.countP_nil]
        omega
      rw [slipEncodeLoop, List.length_nil, if_neg h, List.flatMap_nil, List.append_nil]
  | cons b f ih =>
      have hspec : slipSpecials (b :: f) =
          slipSpecials f + if b = SLIP_END ∨ b = SLIP_ESC then 1 else 0 := by
        simp only [slipSpecials, List.countP_cons, decide_eq_true_eq]
      rw [slipEncodeLoop, hspec, List.length_cons]
      by_cases hesc : b = SLIP_END ∨ b = SLIP_ESC
      · have hsym : Stuffing.encodeSymbol slipAlphabet b =
            [SLIP_ESC, if b = SLIP_END then SLIP_ESC_END else SLIP_ESC_ESC] := by
          rcases hesc with rfl | rfl <;> rfl
        simp only [hesc, if_true]
        by_cases hfull : out.length + 2 > cap - 1
        · rw [if_pos hfull, if_pos (by omega)]
        · have hout : (out ++ [SLIP_ESC, if b = SLIP_END then SLIP_ESC_END else
              SLIP_ESC_ESC]).length = out.length + 2 := List.length_append
          rw [if_neg hfull, ih _ (by omega), hout, List.flatMap_cons, hsym, List.append_assoc]
          have harith : out.length + 2 + f.length + slipSpecials f + 1 > cap ↔
              out.length + (f.length + 1) + (slipSpecials f + 1) + 1 > cap := by omega
          simp only [harith, List.append_assoc]
      · have hsym : Stuffing.encodeSymbol slipAlphabet b = [b] := by
          rw [not_or] at hesc
          exact (if_neg hesc.1).trans (if_neg hesc.2)
        simp only [hesc, if_false]
        by_cases hfull : out.length + 1 > cap - 1
        · rw [if_pos hfull, if_pos (by omega)]
        · have hout : (out ++ [b]).length = out.length + 1 := List.length_append
          rw [if_neg hfull, ih _ (by omega), hout, List.flatMap_cons, hsym, List.append_assoc]
          have harith : out.length + 1 + f.length + slipSpecials f + 1 > cap ↔
              out.length + (f.length + 1) + (slipSpecials f + 0) + 1 > cap := by omega
          simp only [harith, List.append_assoc]

/-- The firmware's encoder is the helper's encoder cut off at `cap`. -/
theorem slipEncode_eq (f : List Byte) (cap : ℕ) :
    LoraProto.slipEncode f cap =
      if 2 + f.length + slipSpecials f > cap then none else some (NetCore.slipEncode f) := by
  unfold LoraProto.slipEncode
  by_cases hcap : cap < 2
  · rw [if_pos hcap, if_pos (by omega)]
  · rw [if_neg hcap, slipEncodeLoop_eq cap [SLIP_END] f (by rw [List.length_singleton]; omega)]
    have harith : [SLIP_END].length + f.length + slipSpecials f + 1 > cap ↔
        2 + f.length + slipSpecials f > cap := by
      rw [List.length_singleton]
      omega
    simp only [harith]
    rfl

/-! ## The decoders -/

/-- What the firmware's decoder holds, as a byte-stuffing decoder. -/
def LoraProto.SlipDecoder.toState {CAP : ℕ} (d : LoraProto.SlipDecoder CAP) :
    Stuffing.State Byte :=
  { buf := d.buf, esc := d.esc, bad := d.bad }

/-- What the helper's decoder holds, as a byte-stuffing decoder. -/
def NetCore.SlipDecoder.toState (d : NetCore.SlipDecoder) : Stuffing.State Byte :=
  { buf := d.buf, esc := d.esc, bad := d.bad }

theorem LoraProto.SlipDecoder.toState_store {CAP : ℕ} (d : LoraProto.SlipDecoder CAP) (b : Byte) :
    d.toState.store CAP b = (d.store b).toState := by
  by_cases h : d.buf.length ≥ CAP
  · rw [LoraProto.SlipDecoder.store, dif_pos h]
    exact if_pos h
  · rw [LoraProto.SlipDecoder.store, dif_neg h]
    exact if_neg h

theorem NetCore.SlipDecoder.toState_store (d : NetCore.SlipDecoder) (b : Byte) :
    d.toState.store d.max b = (d.store b).toState := by
  by_cases h : d.buf.length ≥ d.max
  · rw [NetCore.SlipDecoder.store, if_pos h]
    exact if_pos h
  · rw [NetCore.SlipDecoder.store, if_neg h]
    exact if_neg h

@[simp] theorem NetCore.SlipDecoder.store_max (d : NetCore.SlipDecoder) (b : Byte) :
    (d.store b).max = d.max := by
  unfold NetCore.SlipDecoder.store
  split <;> rfl

/-- One byte into the firmware's decoder is one symbol of the byte-stuffing decoder. -/
theorem LoraProto.SlipDecoder.feed_eq {CAP : ℕ} (d : LoraProto.SlipDecoder CAP) (b : Byte) :
    Stuffing.step slipAlphabet CAP d.toState b = ((d.feed b).1.toState, (d.feed b).2) := by
  -- the checks of the source, in its order
  by_cases hend : b = SLIP_END
  · have hfeed : d.feed b = (reset, d.toState.pending) := by
      rw [LoraProto.SlipDecoder.feed, if_pos hend, Stuffing.State.pending, toState]
      cases d.bad <;> cases d.esc <;> simp
    rw [hfeed, hend]
    exact Stuffing.step_stop slipAlphabet CAP d.toState
  cases hbad : d.bad with
  | true =>
      have hfeed : d.feed b = (d, []) := by simp [LoraProto.SlipDecoder.feed, hend, hbad]
      rw [hfeed]
      exact Stuffing.step_of_bad slipAlphabet hend hbad
  | false =>
      cases hesc : d.esc with
      | true =>
          by_cases h1 : b = SLIP_ESC_END
          · have hfeed : d.feed b = (store { d with esc := false } SLIP_END, []) := by
              rw [LoraProto.SlipDecoder.feed, if_neg hend, if_neg (Bool.eq_false_iff.mp hbad),
                if_pos hesc, if_pos h1]
            rw [hfeed, ← toState_store, h1]
            exact Stuffing.step_escStop slipAlphabet hbad hesc
          by_cases h2 : b = SLIP_ESC_ESC
          · have hfeed : d.feed b = (store { d with esc := false } SLIP_ESC, []) := by
              rw [LoraProto.SlipDecoder.feed, if_neg hend, if_neg (Bool.eq_false_iff.mp hbad),
                if_pos hesc, if_neg h1, if_pos h2]
            rw [hfeed, ← toState_store, h2]
            exact Stuffing.step_escEsc slipAlphabet hbad hesc
          · have hfeed : d.feed b = ({ d with esc := false, bad := true }, []) := by
              simp [LoraProto.SlipDecoder.feed, hend, hbad, hesc, h1, h2]
            rw [hfeed]
            exact Stuffing.step_of_badEscape slipAlphabet hbad hesc hend h1 h2
      | false =>
          by_cases h3 : b = SLIP_ESC
          · have hfeed : d.feed b = ({ d with esc := true }, []) := by
              rw [LoraProto.SlipDecoder.feed, if_neg hend, if_neg (Bool.eq_false_iff.mp hbad),
                if_neg (Bool.eq_false_iff.mp hesc), if_pos h3]
            rw [hfeed, h3]
            exact Stuffing.step_esc slipAlphabet hbad hesc
          · have hfeed : d.feed b = (store d b, []) := by
              simp [LoraProto.SlipDecoder.feed, hend, hbad, hesc, h3]
            rw [hfeed, ← toState_store]
            exact Stuffing.step_of_plain slipAlphabet hbad hesc (not_or.mpr ⟨hend, h3⟩)

/-- One byte into the helper's decoder is one symbol of the byte-stuffing decoder, and
`max` stays. -/
theorem NetCore.SlipDecoder.feedByte_eq (d : NetCore.SlipDecoder) (b : Byte) :
    Stuffing.step slipAlphabet d.max d.toState b =
        ((d.feedByte b).1.toState, (d.feedByte b).2) ∧
      (d.feedByte b).1.max = d.max := by
  by_cases hend : b = 0xC0
  · have hfeed : d.feedByte b =
        ({ d with buf := [], esc := false, bad := false }, d.toState.pending) := by
      rw [NetCore.SlipDecoder.feedByte, if_pos hend, Stuffing.State.pending, toState]
      cases d.bad <;> cases d.esc <;> cases d.buf <;> rfl
    rw [hfeed, hend]
    exact ⟨Stuffing.step_stop slipAlphabet d.max d.toState, rfl⟩
  cases hbad : d.bad with
  | true =>
      have hfeed : d.feedByte b = (d, []) := by simp [NetCore.SlipDecoder.feedByte, hend, hbad]
      rw [hfeed]
      exact ⟨Stuffing.step_of_bad slipAlphabet hend hbad, rfl⟩
  | false =>
      cases hesc : d.esc with
      | true =>
          by_cases h1 : b = 0xDC
          · have hfeed : d.feedByte b = (store { d with esc := false } 0xC0, []) := by
              simp [NetCore.SlipDecoder.feedByte, hbad, hesc, h1]
            rw [hfeed, ← toState_store, h1]
            exact ⟨Stuffing.step_escStop slipAlphabet hbad hesc, store_max _ _⟩
          by_cases h2 : b = 0xDD
          · have hfeed : d.feedByte b = (store { d with esc := false } 0xDB, []) := by
              simp [NetCore.SlipDecoder.feedByte, hbad, hesc, h2]
            rw [hfeed, ← toState_store, h2]
            exact ⟨Stuffing.step_escEsc slipAlphabet hbad hesc, store_max _ _⟩
          · have hfeed : d.feedByte b = ({ d with esc := false, bad := true }, []) := by
              simp [NetCore.SlipDecoder.feedByte, hend, hbad, hesc, h1, h2]
            rw [hfeed]
            exact ⟨Stuffing.step_of_badEscape slipAlphabet hbad hesc hend h1 h2, rfl⟩
      | false =>
          by_cases h3 : b = 0xDB
          · have hfeed : d.feedByte b = ({ d with esc := true }, []) := by
              simp [NetCore.SlipDecoder.feedByte, hbad, hesc, h3]
            rw [hfeed, h3]
            exact ⟨Stuffing.step_esc slipAlphabet hbad hesc, rfl⟩
          · have hfeed : d.feedByte b = (store d b, []) := by
              simp [NetCore.SlipDecoder.feedByte, hend, hbad, hesc, h3]
            rw [hfeed, ← toState_store]
            exact ⟨Stuffing.step_of_plain slipAlphabet hbad hesc (not_or.mpr ⟨hend, h3⟩),
              store_max _ _⟩

/-- The firmware's decoder on a stream: the frames `feed` announces, in order. -/
def LoraProto.SlipDecoder.feedAll {CAP : ℕ} (d : LoraProto.SlipDecoder CAP) (bs : List Byte) :
    LoraProto.SlipDecoder CAP × List (List Byte) :=
  Mealy.run LoraProto.SlipDecoder.feed d bs

/-- The firmware's decoder refines the byte-stuffing decoder. -/
theorem LoraProto.SlipDecoder.feedAll_eq {CAP : ℕ} (d : LoraProto.SlipDecoder CAP)
    (bs : List Byte) :
    Mealy.run (Stuffing.step slipAlphabet CAP) d.toState bs =
      ((d.feedAll bs).1.toState, (d.feedAll bs).2) := by
  have hstep : ∀ (s : Stuffing.State Byte) (e : LoraProto.SlipDecoder CAP) (b : Byte),
      s = e.toState → (Stuffing.step slipAlphabet CAP s b).1 = (e.feed b).1.toState ∧
        (Stuffing.step slipAlphabet CAP s b).2 = (e.feed b).2 := by
    rintro s e b rfl
    rw [feed_eq]
    exact ⟨rfl, rfl⟩
  obtain ⟨hstate, hframes⟩ := Mealy.run_simulation hstep (rfl : d.toState = d.toState) bs
  exact Prod.ext hstate hframes

/-- The helper's decoder refines the byte-stuffing decoder. -/
theorem NetCore.SlipDecoder.feed_eq (d : NetCore.SlipDecoder) (chunk : List Byte) :
    Mealy.run (Stuffing.step slipAlphabet d.max) d.toState chunk =
        ((d.feed chunk).1.toState, (d.feed chunk).2) ∧
      (d.feed chunk).1.max = d.max := by
  have hstep : ∀ (s : Stuffing.State Byte) (e : NetCore.SlipDecoder) (b : Byte),
      s = e.toState ∧ e.max = d.max →
        ((Stuffing.step slipAlphabet d.max s b).1 = (e.feedByte b).1.toState ∧
          (e.feedByte b).1.max = d.max) ∧
        (Stuffing.step slipAlphabet d.max s b).2 = (e.feedByte b).2 := by
    rintro s e b ⟨rfl, hmax⟩
    obtain ⟨heq, hkeep⟩ := feedByte_eq e b
    rw [← hmax, heq, hkeep]
    exact ⟨⟨rfl, rfl⟩, rfl⟩
  obtain ⟨⟨hstate, hmax⟩, hframes⟩ :=
    Mealy.run_simulation hstep (s := d.toState) (t := d) ⟨rfl, rfl⟩ chunk
  exact ⟨Prod.ext hstate hframes, hmax⟩

/-- How a stream is cut into chunks makes no difference to the helper's decoder. -/
theorem NetCore.SlipDecoder.run_feed (d : NetCore.SlipDecoder) (chunks : List (List Byte)) :
    Mealy.run NetCore.SlipDecoder.feed d chunks = d.feed chunks.flatten := by
  apply Mealy.run_flatten
  · intro s
    rfl
  · intro s as bs
    exact Mealy.run_append NetCore.SlipDecoder.feedByte s as bs

/-- Both decoders, in the same state, find the same frames in every stream. -/
theorem slipDecoders_agree {CAP : ℕ} (d : LoraProto.SlipDecoder CAP) (e : NetCore.SlipDecoder)
    (hmax : e.max = CAP) (hstate : d.toState = e.toState) (chunks : List (List Byte)) :
    (Mealy.run NetCore.SlipDecoder.feed e chunks).2 = (d.feedAll chunks.flatten).2 := by
  subst hmax
  have hfirm := d.feedAll_eq chunks.flatten
  rw [hstate, (e.feed_eq chunks.flatten).1] at hfirm
  rw [e.run_feed]
  exact (Prod.ext_iff.mp hfirm).2

/-- A stream of frames brings the firmware's decoder back in step: at most one frame is
left over from the state it was in, then the frames come out in order. -/
theorem LoraProto.SlipDecoder.feedAll_frames {CAP : ℕ} (d : LoraProto.SlipDecoder CAP)
    {fs : List (List Byte)} (h : ∀ f ∈ fs, 1 ≤ f.length ∧ f.length ≤ CAP) :
    ∃ left, left.length ≤ 1 ∧
      (d.feedAll (fs.flatMap NetCore.slipEncode)).2 = left ++ fs := by
  obtain ⟨left, hleft, hframes⟩ := Stuffing.exists_run_encodeAll slipAlphabet d.toState h
  have hfirm := d.feedAll_eq (fs.flatMap NetCore.slipEncode)
  exact ⟨left, hleft, (Prod.ext_iff.mp hfirm).2.symm.trans hframes⟩

/-- The same for the helper's decoder. -/
theorem NetCore.SlipDecoder.feed_frames (d : NetCore.SlipDecoder)
    {fs : List (List Byte)} (h : ∀ f ∈ fs, 1 ≤ f.length ∧ f.length ≤ d.max) :
    ∃ left, left.length ≤ 1 ∧ (d.feed (fs.flatMap NetCore.slipEncode)).2 = left ++ fs := by
  obtain ⟨left, hleft, hframes⟩ := Stuffing.exists_run_encodeAll slipAlphabet d.toState h
  have hhelper := (d.feed_eq (fs.flatMap NetCore.slipEncode)).1
  exact ⟨left, hleft, (Prod.ext_iff.mp hhelper).2.symm.trans hframes⟩

/-- One frame into the firmware's decoder between frames. -/
theorem LoraProto.SlipDecoder.feedAll_slipEncode {CAP : ℕ} {f : List Byte} (hpos : 1 ≤ f.length)
    (hmax : f.length ≤ CAP) :
    ((LoraProto.SlipDecoder.reset : LoraProto.SlipDecoder CAP).feedAll
      (NetCore.slipEncode f)).2 = [f] := by
  have hfirm := (reset : LoraProto.SlipDecoder CAP).feedAll_eq (NetCore.slipEncode f)
  have hrun := Stuffing.run_encode slipAlphabet (reset : LoraProto.SlipDecoder CAP).toState hpos hmax
  exact (Prod.ext_iff.mp (hfirm.symm.trans hrun)).2

/-- Frames into the helper's decoder between frames. -/
theorem NetCore.SlipDecoder.feed_flatMap_slipEncode {d : NetCore.SlipDecoder}
    (hbetween : d.toState = Stuffing.State.empty) {fs : List (List Byte)}
    (h : ∀ f ∈ fs, f.length ≤ d.max) :
    (d.feed (fs.flatMap NetCore.slipEncode)).2 = fs.filter (·.length ≠ 0) := by
  have hhelper := (d.feed_eq (fs.flatMap NetCore.slipEncode)).1
  rw [hbetween] at hhelper
  have hrun := Stuffing.run_encodeAll_empty slipAlphabet h
  exact (Prod.ext_iff.mp (hhelper.symm.trans hrun)).2

/-- The firmware and the helper speak the same SLIP. The encoders write the same bytes,
except that the firmware's gives up exactly when the frame does not fit; the decoders find
the same frames in every stream however it is chunked; and from any state of either decoder
a stream of frames yields at most one left-over frame and then those frames. -/
theorem slip_same_language (CAP : ℕ) :
    (∀ f cap, (LoraProto.slipEncode f cap = none ↔ 2 + f.length + slipSpecials f > cap) ∧
      ∀ out, LoraProto.slipEncode f cap = some out → out = NetCore.slipEncode f) ∧
    (∀ chunks, (Mealy.run NetCore.SlipDecoder.feed (NetCore.newSlipDecoder CAP) chunks).2 =
      ((LoraProto.SlipDecoder.reset : LoraProto.SlipDecoder CAP).feedAll chunks.flatten).2) ∧
    (∀ fs : List (List Byte), (∀ f ∈ fs, 1 ≤ f.length ∧ f.length ≤ CAP) →
      (∀ d : LoraProto.SlipDecoder CAP, ∃ left, left.length ≤ 1 ∧
        (d.feedAll (fs.flatMap NetCore.slipEncode)).2 = left ++ fs) ∧
      (∀ d : NetCore.SlipDecoder, d.max = CAP → ∃ left, left.length ≤ 1 ∧
        (d.feed (fs.flatMap NetCore.slipEncode)).2 = left ++ fs)) := by
  refine ⟨?_, ?_, ?_⟩
  · intro f cap
    rw [slipEncode_eq]
    by_cases hfit : 2 + f.length + slipSpecials f > cap
    · simp [hfit]
    · simp only [hfit, if_false, reduceCtorEq, Option.some.injEq, true_and]
      intro out hout
      exact hout.symm
  · intro chunks
    exact slipDecoders_agree _ _ rfl rfl chunks
  · intro fs hfs
    refine ⟨fun d => d.feedAll_frames hfs, ?_⟩
    rintro d rfl
    exact d.feed_frames hfs

/-- Two frames, the second all specials, after a stream cut in the middle of an escape. -/
theorem slip_same_language_twoFrames :
    ∃ left, left.length ≤ 1 ∧
      (({ buf := [7], esc := true, bad := false, length_le := by decide } :
          LoraProto.SlipDecoder 600).feedAll
        ([[1, 2], [SLIP_END, SLIP_ESC]].flatMap NetCore.slipEncode)).2 =
        left ++ [[1, 2], [SLIP_END, SLIP_ESC]] :=
  ((slip_same_language 600).2.2 [[1, 2], [SLIP_END, SLIP_ESC]] (by decide)).1 _

end Voyager
