import Mathlib.Algebra.Ring.Parity
import Mathlib.Data.List.Basic
import Mathlib.Logic.Function.Iterate

/-!
# Cyclic redundancy checks

The register of a CRC of width `w` takes a message bit by bit, the most significant bit
of the register first. `g` is the generator polynomial without its leading term. The
register is linear in the message, so what an error does to a checksum is the checksum of
the error alone. A generator with a constant term sees every burst that fits the register;
one with an even number of terms sees every error of odd weight.
-/

namespace Crc

variable {w : ℕ}

/-- Shift the register by one, and subtract the generator when a one falls out. -/
def shift (g c : BitVec w) : BitVec w := if c.msb then (c <<< 1) ^^^ g else c <<< 1

/-- Take one bit of the message. -/
def feed (g c : BitVec w) (b : Bool) : BitVec w := if c.msb ^^ b then (c <<< 1) ^^^ g else c <<< 1

/-- The register after the bits of a message. -/
def feedAll (g c : BitVec w) (bits : List Bool) : BitVec w := bits.foldl (feed g) c

/-- The bits of a word, the most significant one first. -/
def bitsOf (c : BitVec w) : List Bool := (List.range w).map c.getMsbD

@[simp] theorem length_bitsOf (c : BitVec w) : (bitsOf c).length = w := by
  rw [bitsOf, List.length_map, List.length_range]

@[simp] theorem feedAll_nil (g c : BitVec w) : feedAll g c [] = c := rfl

theorem feedAll_cons (g c : BitVec w) (b : Bool) (bits : List Bool) :
    feedAll g c (b :: bits) = feedAll g (feed g c b) bits := rfl

theorem feedAll_append (g c : BitVec w) (bits bits' : List Bool) :
    feedAll g c (bits ++ bits') = feedAll g (feedAll g c bits) bits' :=
  List.foldl_append

theorem feed_false (g c : BitVec w) : feed g c false = shift g c := by
  rw [feed, Bool.xor_false, shift]

/-! ## Linearity -/

theorem feed_xor (g c d : BitVec w) (a b : Bool) :
    feed g (c ^^^ d) (a ^^ b) = feed g c a ^^^ feed g d b := by
  have hmsb : ((c ^^^ d).msb ^^ (a ^^ b)) = ((c.msb ^^ a) ^^ (d.msb ^^ b)) := by
    rw [BitVec.msb_xor, Bool.xor_assoc, Bool.xor_left_comm d.msb, ← Bool.xor_assoc]
  rw [feed, feed, feed, hmsb, BitVec.shiftLeft_xor_distrib]
  cases c.msb ^^ a with
  | false =>
      cases d.msb ^^ b with
      | false => rfl
      | true => exact BitVec.xor_assoc _ _ _
  | true =>
      cases d.msb ^^ b with
      | false =>
          change (c <<< 1 ^^^ d <<< 1) ^^^ g = (c <<< 1 ^^^ g) ^^^ d <<< 1
          ac_rfl
      | true =>
          change c <<< 1 ^^^ d <<< 1 = (c <<< 1 ^^^ g) ^^^ (d <<< 1 ^^^ g)
          have hcancel : (c <<< 1 ^^^ g) ^^^ (d <<< 1 ^^^ g) =
              (c <<< 1 ^^^ d <<< 1) ^^^ (g ^^^ g) := by ac_rfl
          rw [hcancel, BitVec.xor_self, BitVec.xor_zero]

/-- The register after the sum of two messages is the sum of the registers. -/
theorem feedAll_xor (g : BitVec w) {bits bits' : List Bool} (h : bits.length = bits'.length)
    (c d : BitVec w) :
    feedAll g (c ^^^ d) (List.zipWith xor bits bits') = feedAll g c bits ^^^ feedAll g d bits' := by
  induction bits generalizing bits' c d with
  | nil =>
      rw [List.eq_nil_of_length_eq_zero h.symm]
      rfl
  | cons a bits ih =>
      cases bits' with
      | nil => cases h
      | cons b bits' =>
          rw [List.zipWith_cons_cons, feedAll_cons, feed_xor, ih (Nat.succ.inj h)]
          rfl

/-- Adding a word to the register and shifting it through is feeding its bits: `n` of them
are in, the others are still in the register. -/
theorem iterate_shift_xor (g c v : BitVec w) (n : ℕ) :
    (shift g)^[n] (c ^^^ v) = feedAll g c ((List.range n).map v.getMsbD) ^^^ (v <<< n) := by
  induction n with
  | zero => rw [BitVec.shiftLeft_zero]; rfl
  | succ n ih =>
      have hbit : (v <<< n).msb = v.getMsbD n := by
        rw [BitVec.msb_eq_getMsbD_zero, BitVec.getMsbD_shiftLeft, Nat.zero_add]
      have hshift := feed_xor g (feedAll g c ((List.range n).map v.getMsbD)) (v <<< n)
        (v.getMsbD n) (v.getMsbD n)
      have hout : feed g (v <<< n) (v.getMsbD n) = v <<< (n + 1) := by
        rw [feed, hbit, Bool.xor_self, BitVec.shiftLeft_add]
        rfl
      rw [Bool.xor_self, feed_false, hout] at hshift
      rw [Function.iterate_succ_apply', ih, hshift, List.range_succ, List.map_append,
        feedAll_append]
      rfl

/-- The usual loop over a word: add it to the register and shift once for each bit. -/
theorem iterate_shift_xor_eq_feedAll (g c v : BitVec w) :
    (shift g)^[w] (c ^^^ v) = feedAll g c (bitsOf v) := by
  rw [iterate_shift_xor, BitVec.shiftLeft_eq_zero le_rfl, BitVec.xor_zero]
  rfl

/-! ## Errors -/

theorem feedAll_replicate_false (g c : BitVec w) (n : ℕ) :
    feedAll g c (List.replicate n false) = (shift g)^[n] c := by
  induction n generalizing c with
  | zero => rfl
  | succ n ih => rw [List.replicate_succ, feedAll_cons, feed_false, ih, Function.iterate_succ_apply]

theorem shift_zero (g : BitVec w) : shift g 0#w = 0#w := by
  rw [shift, if_neg (by simp)]
  exact BitVec.zero_shiftLeft 1

/-- With a constant term in the generator, only the zero register is shifted to zero. -/
theorem shift_eq_zero {g c : BitVec w} (hg : g.getLsbD 0 = true) (h : shift g c = 0#w) : c = 0#w := by
  rw [shift] at h
  split at h
  · -- the bit shifted in is a zero, and the generator makes it a one
    have hbit := congrArg (fun x : BitVec w => x.getLsbD 0) h
    simp [hg] at hbit
  · rename_i hmsb
    apply BitVec.eq_of_getMsbD_eq
    intro i hi
    rw [BitVec.getMsbD_zero]
    cases i with
    | zero => rw [← BitVec.msb_eq_getMsbD_zero, Bool.eq_false_iff]; exact hmsb
    | succ i =>
        have hbit := congrArg (fun x : BitVec w => x.getMsbD i) h
        simpa [BitVec.getMsbD_shiftLeft, Nat.add_comm] using hbit

theorem iterate_shift_eq_zero {g c : BitVec w} (hg : g.getLsbD 0 = true) {n : ℕ}
    (h : (shift g)^[n] c = 0#w) : c = 0#w := by
  induction n with
  | zero => exact h
  | succ n ih =>
      rw [Function.iterate_succ_apply'] at h
      exact ih (shift_eq_zero hg h)

/-- A message no longer than the register leaves it zero only when all its bits are. -/
theorem eq_false_of_feedAll_eq_zero {g : BitVec w} (hg : g.getLsbD 0 = true) {bits : List Bool}
    (hlen : bits.length ≤ w) (h : feedAll g 0#w bits = 0#w) : ∀ b ∈ bits, b = false := by
  obtain ⟨n, rfl⟩ := Nat.exists_eq_add_of_le hlen
  set word := bits ++ List.replicate n false with hword
  have hlength : word.length = bits.length + n := by
    rw [hword, List.length_append, List.length_replicate]
  set v : BitVec (bits.length + n) := (BitVec.ofBoolListBE word).cast hlength with hv
  have hbits : bitsOf v = word := by
    apply List.ext_getElem
    · rw [length_bitsOf, hlength]
    · intro i hi hi'
      simp [bitsOf, hv, List.getD_eq_getElem?_getD, List.getElem?_eq_getElem hi']
  have hzero : v = 0#_ := by
    apply iterate_shift_eq_zero (g := g) hg (n := bits.length + n)
    have hfeed := iterate_shift_xor_eq_feedAll g 0#_ v
    rw [BitVec.zero_xor, hbits, hword, feedAll_append, h, feedAll_replicate_false,
      Function.iterate_fixed (shift_zero g)] at hfeed
    exact hfeed
  intro b hb
  have hmem : b ∈ bitsOf v := by
    rw [hbits]
    exact List.mem_append_left _ hb
  rw [hzero, bitsOf, List.mem_map] at hmem
  obtain ⟨i, -, hi⟩ := hmem
  rw [← hi]
  exact BitVec.getMsbD_zero

/-- All the ones of an error lie within `n` bits from the `i`-th on. -/
def IsBurst (n i : ℕ) (bits : List Bool) : Prop := ∀ j, bits[j]? = some true → i ≤ j ∧ j < i + n

/-- A burst that fits the register is seen. -/
theorem feedAll_ne_zero_of_isBurst {g : BitVec w} (hg : g.getLsbD 0 = true) {bits : List Bool}
    {i : ℕ} (hburst : IsBurst w i bits) (hone : true ∈ bits) : feedAll g 0#w bits ≠ 0#w := by
  have hfalse {part : List Bool} (h : ∀ b ∈ part, b = false) :
      part = List.replicate part.length false := List.eq_replicate_of_mem h
  have hbefore : ∀ b ∈ bits.take i, b = false := by
    intro b hb
    obtain ⟨j, hj, hget⟩ := List.mem_take_iff_getElem.mp hb
    rw [← hget, Bool.eq_false_iff]
    intro htrue
    have hle := (hburst j (List.getElem?_eq_some_iff.mpr ⟨_, htrue⟩)).1
    omega
  have hafter : ∀ b ∈ (bits.drop i).drop w, b = false := by
    intro b hb
    rw [List.drop_drop] at hb
    obtain ⟨j, hj, hget⟩ := List.mem_drop_iff_getElem.mp hb
    rw [← hget, Bool.eq_false_iff]
    intro htrue
    have hlt := (hburst _ (List.getElem?_eq_some_iff.mpr ⟨_, htrue⟩)).2
    omega
  have hsplit : bits = bits.take i ++ ((bits.drop i).take w ++ (bits.drop i).drop w) := by
    rw [List.take_append_drop, List.take_append_drop]
  intro hzero
  rw [hsplit, hfalse hbefore, hfalse hafter, feedAll_append, feedAll_append,
    feedAll_replicate_false, feedAll_replicate_false,
    Function.iterate_fixed (shift_zero g)] at hzero
  have hmid := eq_false_of_feedAll_eq_zero hg (List.length_take_le w _)
    (iterate_shift_eq_zero hg hzero)
  rw [hsplit] at hone
  rcases List.mem_append.mp hone with h | h
  · exact Bool.noConfusion (hbefore true h)
  · rcases List.mem_append.mp h with h | h
    · exact Bool.noConfusion (hmid true h)
    · exact Bool.noConfusion (hafter true h)

/-! ## Parity -/

/-- Whether the number of ones is odd. -/
def parity (bits : List Bool) : Bool := bits.foldr xor false

@[simp] theorem parity_cons (b : Bool) (bits : List Bool) :
    parity (b :: bits) = (b ^^ parity bits) := rfl

theorem parity_append (bits bits' : List Bool) :
    parity (bits ++ bits') = (parity bits ^^ parity bits') := by
  induction bits with
  | nil => exact (Bool.false_xor _).symm
  | cons b bits ih => rw [List.cons_append, parity_cons, ih, parity_cons, Bool.xor_assoc]

theorem parity_eq_true_iff (bits : List Bool) : parity bits = true ↔ Odd (bits.count true) := by
  induction bits with
  | nil => simp [parity]
  | cons b bits ih =>
      cases b with
      | false => rw [parity_cons, Bool.false_xor, ih, List.count_cons_of_ne (by decide)]
      | true =>
          rw [parity_cons, Bool.true_xor, List.count_cons_self, Nat.odd_add_one, ← ih,
            Bool.not_eq_true', Bool.not_eq_true]

theorem parity_map_xor {ι : Type*} (f g : ι → Bool) (is : List ι) :
    parity (is.map fun i => f i ^^ g i) = (parity (is.map f) ^^ parity (is.map g)) := by
  induction is with
  | nil => rfl
  | cons i is ih =>
      rw [List.map_cons, parity_cons, ih, List.map_cons, List.map_cons, parity_cons, parity_cons,
        Bool.xor_assoc, Bool.xor_left_comm (g i), ← Bool.xor_assoc]

theorem parity_bitsOf_xor (c d : BitVec w) :
    parity (bitsOf (c ^^^ d)) = (parity (bitsOf c) ^^ parity (bitsOf d)) := by
  rw [bitsOf, bitsOf, bitsOf, ← parity_map_xor]
  exact congrArg parity (List.map_congr_left fun i _ => BitVec.getMsbD_xor)

theorem parity_bitsOf_zero : parity (bitsOf 0#w) = false := by
  have hxor := parity_bitsOf_xor 0#w 0#w
  rwa [Bool.xor_self, BitVec.xor_self] at hxor

/-- A shift loses the bit that falls out. -/
theorem parity_bitsOf_shiftLeft (c : BitVec w) :
    parity (bitsOf (c <<< 1)) = (c.msb ^^ parity (bitsOf c)) := by
  cases w with
  | zero => rw [BitVec.eq_nil c]; rfl
  | succ w =>
      have htail : (List.range w).map (c <<< 1).getMsbD =
          (List.range w).map (c.getMsbD ∘ Nat.succ) := by
        refine List.map_congr_left fun i hi => ?_
        have hlt := List.mem_range.mp hi
        rw [BitVec.getMsbD_shiftLeft]
        rfl
      have hlast : (c <<< 1).getMsbD w = false := by
        rw [BitVec.getMsbD_shiftLeft]
        exact BitVec.getMsbD_of_ge c _ le_rfl
      have hshifted : parity (bitsOf (c <<< 1)) =
          parity ((List.range w).map (c.getMsbD ∘ Nat.succ)) := by
        rw [bitsOf, List.range_succ, List.map_append, parity_append, htail, List.map_singleton,
          hlast]
        exact Bool.xor_false _
      rw [hshifted, bitsOf, List.range_succ_eq_map, List.map_cons, parity_cons, List.map_map,
        BitVec.msb_eq_getMsbD_zero, ← Bool.xor_assoc, Bool.xor_self, Bool.false_xor]

/-- With an even number of terms in the generator, the register keeps the parity of what
it was fed. -/
theorem parity_feed {g : BitVec w} (hg : parity (bitsOf g) = true) (c : BitVec w) (b : Bool) :
    parity (bitsOf (feed g c b)) = (parity (bitsOf c) ^^ b) := by
  rw [feed]
  split
  · rename_i h
    rw [parity_bitsOf_xor, parity_bitsOf_shiftLeft, hg]
    revert h
    cases c.msb <;> cases b <;> simp
  · rename_i h
    rw [parity_bitsOf_shiftLeft]
    revert h
    cases c.msb <;> cases b <;> simp

theorem parity_feedAll {g : BitVec w} (hg : parity (bitsOf g) = true) (c : BitVec w)
    (bits : List Bool) :
    parity (bitsOf (feedAll g c bits)) = (parity (bitsOf c) ^^ parity bits) := by
  induction bits generalizing c with
  | nil => exact (Bool.xor_false _).symm
  | cons b bits ih => rw [feedAll_cons, ih, parity_feed hg, parity_cons, Bool.xor_assoc]

/-- An error of odd weight is seen. -/
theorem feedAll_ne_zero_of_odd {g : BitVec w} (hg : parity (bitsOf g) = true) {bits : List Bool}
    (hodd : Odd (bits.count true)) : feedAll g 0#w bits ≠ 0#w := by
  intro hzero
  have hparity := parity_feedAll hg 0#w bits
  rw [hzero, parity_bitsOf_zero, Bool.false_xor, (parity_eq_true_iff bits).mpr hodd] at hparity
  exact Bool.noConfusion hparity

end Crc
