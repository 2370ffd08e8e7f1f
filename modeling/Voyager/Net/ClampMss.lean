import Voyager.Library.OnesComplement
import Voyager.Net.Outbound

/-!
# The MSS of a TCP SYN

Before a SYN goes out or comes in, the helper lowers the largest segment size it announces,
so that the segments that follow fit one frame. `clampMSS` walks the options of the header,
whose lengths are whatever the packet says, and writes into the packet: the size and the
checksum of the segment. Here every access is checked, and `none` is an index out of range.
-/

namespace Voyager

namespace NetCore

/-! ## Slices of a packet -/

/-- A slice of a packet, the bytes from `lo` up to `hi`. -/
structure Slice where
  lo : ℕ
  hi : ℕ
  deriving DecidableEq, Repr

namespace Slice

/-- The slice that is all of `p`. -/
def whole (p : List Byte) : Slice := { lo := 0, hi := p.length }

def len (s : Slice) : ℕ := s.hi - s.lo

/-- `s[a:b]`. -/
def sub (s : Slice) (a b : ℕ) : Option Slice :=
  if a ≤ b ∧ b ≤ s.len then some { lo := s.lo + a, hi := s.lo + b } else none

/-- `s[i]`, for a slice of `p`. -/
def get (s : Slice) (p : List Byte) (i : ℕ) : Option Byte :=
  if i < s.len then p[s.lo + i]? else none

/-- `binary.BigEndian.Uint16(s[i:i+2])`. -/
def uint16 (s : Slice) (p : List Byte) (i : ℕ) : Option UInt16 := do
  let w ← s.sub i (i + 2)
  let hi ← w.get p 0
  let lo ← w.get p 1
  return word hi lo

/-- `binary.BigEndian.PutUint16(s[i:i+2], v)`. -/
def putUint16 (s : Slice) (p : List Byte) (i : ℕ) (v : UInt16) : Option (List Byte) := do
  let w ← s.sub i (i + 2)
  let _ ← w.get p 0
  let _ ← w.get p 1
  return (p.set w.lo (wordHi v)).set (w.lo + 1) (wordLo v)

/-- A slice the packet has the bytes of. -/
def Within (s : Slice) (p : List Byte) : Prop := s.lo ≤ s.hi ∧ s.hi ≤ p.length

end Slice

/-- The big-endian word at a place of a packet. -/
def uint16At (p : List Byte) (i : ℕ) : UInt16 := word (byteAt p i) (byteAt p (i + 1))

/-- A packet with a word written into it. -/
def putUint16At (p : List Byte) (i : ℕ) (v : UInt16) : List Byte :=
  (p.set i (wordHi v)).set (i + 1) (wordLo v)

/-! ## The code -/

/-- `ipv4OK` with its accesses checked. -/
def ipv4OKChecked (p : List Byte) : Option Bool :=
  if p.length < 20 then some false
  else do
    let b ← (Slice.whole p).get p 0
    if b >>> 4 ≠ 4 then return false
    let b ← (Slice.whole p).get p 0
    let ihl := (b &&& 0x0F).toNat * 4
    let total ← (Slice.whole p).uint16 p 2
    return decide (ihl ≥ 20 ∧ ihl ≤ total.toNat ∧ total.toNat = p.length)

/-- The new checksum; three words do not overflow the 32 bits the source adds them in. -/
def updatedChecksum (check old max : UInt16) : UInt16 :=
  ~~~ UInt16.ofNat (OnesComplement.fold 65536 ((~~~ check).toNat + (~~~ old).toNat + max.toNat))

/-- The loop of `clampMSS` over the options, from option byte `i` on. -/
def clampOptions (p : List Byte) (tcp opts : Slice) (max : UInt16) (i : ℕ) :
    Option (Bool × List Byte) :=
  if _h : i < opts.len then do
    let kind ← opts.get p i
    if kind = 0 then return (false, p)
    if kind = 1 then clampOptions p tcp opts max (i + 1)
    else if i + 1 ≥ opts.len then return (false, p)
    else
      let b ← opts.get p (i + 1)
      let l := b.toNat
      if _hl : l < 2 ∨ i + l > opts.len then return (false, p)
      else if kind = 2 ∧ l = 4 then
        let old ← opts.uint16 p (i + 2)
        if old ≤ max then return (false, p)
        let p ← opts.putUint16 p (i + 2) max
        let check ← tcp.uint16 p 16
        let p ← tcp.putUint16 p 16 (updatedChecksum check old max)
        return (true, p)
      else clampOptions p tcp opts max (i + l)
  else some (false, p)
termination_by opts.len - i

/-- `clampMSS`: whether the packet was changed, and the packet. -/
def clampMSS (p : List Byte) (max : UInt16) : Option (Bool × List Byte) := do
  let ok ← ipv4OKChecked p
  if ¬ ok then return (false, p)
  let proto ← (Slice.whole p).get p 9
  if proto ≠ 6 then return (false, p)
  let b ← (Slice.whole p).get p 0
  let ihl := (b &&& 0x0F).toNat * 4
  let frag ← (Slice.whole p).uint16 p 6
  if frag &&& 0x1FFF ≠ 0 then return (false, p)
  let tcp ← (Slice.whole p).sub ihl p.length
  if tcp.len < 20 then return (false, p)
  let flags ← tcp.get p 13
  if flags &&& 0x02 = 0 then return (false, p)
  let b ← tcp.get p 12
  let doff := (b >>> 4).toNat * 4
  if doff < 20 ∨ doff > tcp.len then return (false, p)
  let opts ← tcp.sub 20 doff
  clampOptions p tcp opts max 0

/-! ## No access is out of range -/

namespace Slice

@[simp] theorem len_whole (p : List Byte) : (whole p).len = p.length := rfl

theorem within_whole (p : List Byte) : (whole p).Within p := ⟨Nat.zero_le _, Nat.le_refl _⟩

/-- The bytes of a slice. -/
def bytes (s : Slice) (p : List Byte) : List Byte := (p.take s.hi).drop s.lo

variable {s : Slice} {p : List Byte}

theorem length_bytes (hs : s.Within p) : (s.bytes p).length = s.len := by
  rw [bytes, List.length_drop, List.length_take, Nat.min_eq_left hs.2, len]

theorem getElem?_bytes (s : Slice) (p : List Byte) (k : ℕ) :
    (s.bytes p)[k]? = if s.lo + k < s.hi then p[s.lo + k]? else none := by
  rw [bytes, List.getElem?_drop, List.getElem?_take]

theorem sub_eq {a b : ℕ} (hab : a ≤ b) (hb : b ≤ s.len) :
    s.sub a b = some { lo := s.lo + a, hi := s.lo + b } := if_pos ⟨hab, hb⟩

theorem get_eq (hs : s.Within p) {i : ℕ} (hi : i < s.len) :
    s.get p i = some (byteAt p (s.lo + i)) := by
  have hlt : s.lo + i < p.length := by
    have hbounds := hs
    rw [len] at hi
    unfold Within at hbounds
    omega
  rw [get, if_pos hi, byteAt, List.getD_eq_getElem?_getD, List.getElem?_eq_getElem hlt]
  rfl

/-- The two bytes of a word, in a slice of their own. -/
theorem within_pair (hs : s.Within p) {i : ℕ} (hi : i + 2 ≤ s.len) :
    Within { lo := s.lo + i, hi := s.lo + (i + 2) } p := by
  have hbounds := hs
  rw [len] at hi
  unfold Within at hbounds ⊢
  simp only
  omega

theorem len_pair (lo i : ℕ) : len { lo := lo + i, hi := lo + (i + 2) } = 2 := by
  simp only [len]
  omega

theorem uint16_eq (hs : s.Within p) {i : ℕ} (hi : i + 2 ≤ s.len) :
    s.uint16 p i = some (uint16At p (s.lo + i)) := by
  have hpair := within_pair hs hi
  have hlen := len_pair s.lo i
  rw [uint16, sub_eq (Nat.le_add_right i 2) hi]
  simp only [Option.bind_eq_bind, Option.bind_some, get_eq hpair (i := 0) (by omega),
    get_eq hpair (i := 1) (by omega)]
  rfl

theorem putUint16_eq (hs : s.Within p) {i : ℕ} (hi : i + 2 ≤ s.len) (v : UInt16) :
    s.putUint16 p i v = some (putUint16At p (s.lo + i) v) := by
  have hpair := within_pair hs hi
  have hlen := len_pair s.lo i
  rw [putUint16, sub_eq (Nat.le_add_right i 2) hi]
  simp only [Option.bind_eq_bind, Option.bind_some, get_eq hpair (i := 0) (by omega),
    get_eq hpair (i := 1) (by omega)]
  rfl

theorem get_whole {i : ℕ} (h : i < p.length) : (whole p).get p i = some (byteAt p i) := by
  rw [get_eq (within_whole p) h, whole, Nat.zero_add]

theorem uint16_whole {i : ℕ} (h : i + 2 ≤ p.length) :
    (whole p).uint16 p i = some (uint16At p i) := by
  rw [uint16_eq (within_whole p) h, whole, Nat.zero_add]

end Slice

theorem ipv4OKChecked_eq (p : List Byte) : ipv4OKChecked p = some (ipv4OK p) := by
  rw [ipv4OKChecked, ipv4OK]
  by_cases hlen : p.length < 20
  · rw [if_pos hlen, if_pos (.inl hlen)]
  rw [if_neg hlen, Slice.get_whole (by omega : 0 < p.length)]
  simp only [Option.bind_eq_bind, Option.bind_some,
    Slice.uint16_whole (by omega : 2 + 2 ≤ p.length)]
  by_cases h4 : byteAt p 0 >>> 4 ≠ 4
  · rw [if_pos h4, if_pos (.inr h4)]
    rfl
  · rw [if_neg h4, if_neg (by tauto)]
    rfl

/-! ## The options of a header -/

/-- The first MSS option of a list of options starts at byte `j` of it. Kind `1` is one byte
long, kind `0` ends the list, and any other option says its length. -/
inductive FirstMss : List Byte → ℕ → Prop
  | here {kind l : Byte} {rest : List Byte} (hkind : kind = 2) (hl : l.toNat = 4)
      (hrest : 2 ≤ rest.length) : FirstMss (kind :: l :: rest) 0
  | nop {kind : Byte} {rest : List Byte} {j : ℕ} (hkind : kind = 1) (h : FirstMss rest j) :
      FirstMss (kind :: rest) (j + 1)
  | skip {kind l : Byte} {rest : List Byte} {j : ℕ} (hkind : kind ≠ 0 ∧ kind ≠ 1)
      (hl : 2 ≤ l.toNat ∧ l.toNat ≤ rest.length + 2) (hmss : ¬ (kind = 2 ∧ l.toNat = 4))
      (h : FirstMss (rest.drop (l.toNat - 2)) j) : FirstMss (kind :: l :: rest) (j + l.toNat)

namespace FirstMss

theorem length_le {opts : List Byte} {j : ℕ} (h : FirstMss opts j) : j + 4 ≤ opts.length := by
  induction h with
  | here hkind hl hrest =>
      simp only [List.length_cons]
      omega
  | nop hkind h ih =>
      simp only [List.length_cons]
      omega
  | skip hkind hl hmss h ih =>
      simp only [List.length_cons, List.length_drop] at ih ⊢
      omega

/-- There is one first MSS option at most. -/
theorem unique {opts : List Byte} {j j' : ℕ} (h : FirstMss opts j) (h' : FirstMss opts j') :
    j = j' := by
  induction h generalizing j' with
  | here hkind hl hrest =>
      cases h' with
      | here => rfl
      | nop hkind' => exact absurd (hkind.symm.trans hkind') (by decide)
      | skip _ _ hmss => exact absurd ⟨hkind, hl⟩ hmss
  | nop hkind h ih =>
      cases h' with
      | here hkind' => exact absurd (hkind.symm.trans hkind') (by decide)
      | nop _ h' => rw [ih h']
      | skip hkind' => exact absurd hkind hkind'.2
  | skip hkind hl hmss h ih =>
      cases h' with
      | here hkind' hl' => exact absurd ⟨hkind', hl'⟩ hmss
      | nop hkind' => exact absurd hkind' hkind.2
      | skip _ _ _ h' => rw [ih h']

/-- The two bytes of the value have no say in where the option is. -/
theorem of_agree {opts opts' : List Byte} {j : ℕ} (h : FirstMss opts j)
    (hagree : ∀ k, k ≠ j + 2 → k ≠ j + 3 → opts'[k]? = opts[k]?)
    (hlen : opts'.length = opts.length) : FirstMss opts' j := by
  induction h generalizing opts' with
  | @here kind l rest hkind hl hrest =>
      match opts', hlen with
      | kind' :: l' :: rest', hlen =>
          have hk : kind' = kind := by simpa using hagree 0 (by omega) (by omega)
          have hl' : l' = l := by simpa using hagree 1 (by omega) (by omega)
          subst hk hl'
          simp only [List.length_cons, Nat.add_right_cancel_iff] at hlen
          exact .here hkind hl (hlen ▸ hrest)
  | @nop kind rest j hkind h ih =>
      match opts', hlen with
      | kind' :: rest', hlen =>
          have hk : kind' = kind := by simpa using hagree 0 (by omega) (by omega)
          subst hk
          apply FirstMss.nop hkind
          apply ih
          · intro k h2 h3
            simpa using hagree (k + 1) (by omega) (by omega)
          · simpa using hlen
  | @skip kind l rest j hkind hl hmss h ih =>
      match opts', hlen with
      | kind' :: l' :: rest', hlen =>
          have hk : kind' = kind := by simpa using hagree 0 (by omega) (by omega)
          have hl' : l' = l := by simpa using hagree 1 (by omega) (by omega)
          subst hk hl'
          have hrest : rest'.length = rest.length := by simpa using hlen
          apply FirstMss.skip hkind (hrest ▸ hl) hmss
          apply ih
          · intro k h2 h3
            have hget := hagree (k + l'.toNat) (by omega) (by omega)
            have hsplit : k + l'.toNat = l'.toNat - 2 + k + 1 + 1 := by omega
            rw [hsplit, List.getElem?_cons_succ, List.getElem?_cons_succ,
              List.getElem?_cons_succ, List.getElem?_cons_succ] at hget
            rwa [List.getElem?_drop, List.getElem?_drop]
          · rw [List.length_drop, List.length_drop, hrest]

end FirstMss

/-! ## What the walk finds -/

/-- The packet with the value at `v` lowered to `max` and the checksum at `c` brought up to
date. -/
def clampedAt (p : List Byte) (c v : ℕ) (max : UInt16) : List Byte :=
  putUint16At (putUint16At p v max) c (updatedChecksum (uint16At p c) (uint16At p v) max)

@[simp] theorem length_putUint16At (p : List Byte) (i : ℕ) (v : UInt16) :
    (putUint16At p i v).length = p.length := by
  rw [putUint16At, List.length_set, List.length_set]

theorem getElem?_putUint16At (p : List Byte) {i k : ℕ} (v : UInt16) (h : k ≠ i)
    (h' : k ≠ i + 1) : (putUint16At p i v)[k]? = p[k]? := by
  rw [putUint16At, List.getElem?_set_ne h'.symm, List.getElem?_set_ne h.symm]

theorem byteAt_putUint16At (p : List Byte) {i k : ℕ} (v : UInt16) (h : k ≠ i)
    (h' : k ≠ i + 1) : byteAt (putUint16At p i v) k = byteAt p k := by
  rw [byteAt, byteAt, List.getD_eq_getElem?_getD, List.getD_eq_getElem?_getD,
    getElem?_putUint16At p v h h']

theorem uint16At_putUint16At_self {p : List Byte} {i : ℕ} (h : i + 1 < p.length) (v : UInt16) :
    uint16At (putUint16At p i v) i = v := by
  have hhi : byteAt (putUint16At p i v) i = wordHi v := by
    rw [byteAt, List.getD_eq_getElem?_getD, putUint16At, List.getElem?_set_ne (by omega),
      List.getElem?_set_self (by omega)]
    rfl
  have hlo : byteAt (putUint16At p i v) (i + 1) = wordLo v := by
    rw [byteAt, List.getD_eq_getElem?_getD, putUint16At,
      List.getElem?_set_self (by rw [List.length_set]; omega)]
    rfl
  rw [uint16At, hhi, hlo, word_eta]

theorem uint16At_putUint16At (p : List Byte) {i k : ℕ} (v : UInt16) (h : k + 1 < i ∨ i + 1 < k) :
    uint16At (putUint16At p i v) k = uint16At p k := by
  rw [uint16At, uint16At, byteAt_putUint16At p v (by omega) (by omega),
    byteAt_putUint16At p v (by omega) (by omega)]

/-- The options from a place on, taken apart. -/
theorem Slice.bytes_drop_eq_cons {s : Slice} {p : List Byte} {i : ℕ} {b : Byte}
    {rest : List Byte} (h : (s.bytes p).drop i = b :: rest) :
    byteAt p (s.lo + i) = b ∧ (s.bytes p).drop (i + 1) = rest := by
  constructor
  · have hget : (s.bytes p)[i]? = some b := by
      have hzero : ((s.bytes p).drop i)[0]? = (s.bytes p)[i + 0]? := List.getElem?_drop
      rw [h, List.getElem?_cons_zero] at hzero
      exact hzero.symm
    rw [Slice.getElem?_bytes] at hget
    split at hget
    · rw [byteAt, List.getD_eq_getElem?_getD, hget]
      rfl
    · cases hget
  · rw [← List.tail_drop, h, List.tail_cons]

section Walk

variable {p : List Byte} {tcp opts : Slice}

theorem clampOptions_of_drop_eq_nil (hopts : opts.Within p) {i : ℕ}
    (h : (opts.bytes p).drop i = []) (max : UInt16) :
    clampOptions p tcp opts max i = some (false, p) := by
  have hlen := List.drop_eq_nil_iff.mp h
  rw [Slice.length_bytes hopts] at hlen
  rw [clampOptions, dif_neg (Nat.not_lt.mpr hlen)]

/-- One turn of the loop. -/
theorem clampOptions_of_drop_eq_cons (htcp : tcp.Within p) (hroom : 18 ≤ tcp.len)
    (hopts : opts.Within p) (hsep : tcp.lo + 18 ≤ opts.lo) {i : ℕ} {kind : Byte}
    {rest : List Byte} (h : (opts.bytes p).drop i = kind :: rest) (max : UInt16) :
    clampOptions p tcp opts max i =
      if kind = 0 then some (false, p)
      else if kind = 1 then clampOptions p tcp opts max (i + 1)
      else if rest = [] then some (false, p)
      else if (byteAt rest 0).toNat < 2 ∨ rest.length + 1 < (byteAt rest 0).toNat then
        some (false, p)
      else if kind = 2 ∧ (byteAt rest 0).toNat = 4 then
        if uint16At p (opts.lo + i + 2) ≤ max then some (false, p)
        else some (true, clampedAt p (tcp.lo + 16) (opts.lo + i + 2) max)
      else clampOptions p tcp opts max (i + (byteAt rest 0).toNat) := by
  have hlen : opts.len = i + (rest.length + 1) := by
    have hdrop := congrArg List.length h
    rw [List.length_drop, Slice.length_bytes hopts, List.length_cons] at hdrop
    omega
  obtain ⟨hkind, hrest⟩ := Slice.bytes_drop_eq_cons h
  rw [clampOptions, dif_pos (by omega), Slice.get_eq hopts (by omega), hkind]
  simp only [Option.bind_eq_bind, Option.bind_some]
  by_cases h0 : kind = 0
  · rw [if_pos h0, if_pos h0]
    rfl
  rw [if_neg h0, if_neg h0]
  by_cases h1 : kind = 1
  · rw [if_pos h1, if_pos h1]
  rw [if_neg h1, if_neg h1]
  match rest, hrest, hlen with
  | [], _, hlen =>
      rw [if_pos (by simp only [List.length_nil] at hlen; omega), if_pos rfl]
      rfl
  | l :: rest, hrest, hlen =>
      rw [List.length_cons] at hlen
      rw [if_neg (by omega), if_neg (List.cons_ne_nil l rest), Slice.get_eq hopts (by omega),
        (Slice.bytes_drop_eq_cons hrest).1, byteAt_cons_zero, List.length_cons]
      simp only [Option.bind_some]
      by_cases hbad : l.toNat < 2 ∨ i + l.toNat > opts.len
      · have hbad' : l.toNat < 2 ∨ rest.length + 1 + 1 < l.toNat := by omega
        rw [dif_pos hbad, if_pos hbad']
        rfl
      have hbad' : ¬ (l.toNat < 2 ∨ rest.length + 1 + 1 < l.toNat) := by omega
      rw [dif_neg hbad, if_neg hbad']
      by_cases hmss : kind = 2 ∧ l.toNat = 4
      · have hroom' : i + 2 + 2 ≤ opts.len := by omega
        rw [if_pos hmss, if_pos hmss, Slice.uint16_eq hopts hroom', Nat.add_assoc]
        simp only [Option.bind_some]
        by_cases hle : uint16At p (opts.lo + (i + 2)) ≤ max
        · rw [if_pos hle, if_pos hle]
          rfl
        · -- the size, and then the checksum, which the size does not overlap
          have hkeep : uint16At (putUint16At p (opts.lo + (i + 2)) max) (tcp.lo + 16) =
              uint16At p (tcp.lo + 16) := uint16At_putUint16At p max (.inl (by omega))
          have htcp' : tcp.Within (putUint16At p (opts.lo + (i + 2)) max) := by
            rwa [Slice.Within, length_putUint16At]
          rw [if_neg hle, if_neg hle, Slice.putUint16_eq hopts hroom']
          simp only [Option.bind_some]
          rw [Slice.uint16_eq htcp' hroom, hkeep]
          simp only [Option.bind_some]
          rw [Slice.putUint16_eq htcp' hroom]
          rfl
      · rw [if_neg hmss, if_neg hmss]

/-- The walk comes to the first MSS option. -/
theorem clampOptions_of_firstMss (htcp : tcp.Within p) (hroom : 18 ≤ tcp.len)
    (hopts : opts.Within p) (hsep : tcp.lo + 18 ≤ opts.lo) {i j : ℕ}
    (h : FirstMss ((opts.bytes p).drop i) j) (max : UInt16) :
    clampOptions p tcp opts max i =
      if uint16At p (opts.lo + i + j + 2) ≤ max then some (false, p)
      else some (true, clampedAt p (tcp.lo + 16) (opts.lo + i + j + 2) max) := by
  generalize hrest : (opts.bytes p).drop i = rest at h
  induction h generalizing i with
  | @here kind l rest hkind hl hlen =>
      have h0 : kind ≠ 0 := by rw [hkind]; decide
      have h1 : kind ≠ 1 := by rw [hkind]; decide
      rw [clampOptions_of_drop_eq_cons htcp hroom hopts hsep hrest, if_neg h0, if_neg h1,
        if_neg (List.cons_ne_nil l rest), byteAt_cons_zero, hl, List.length_cons,
        if_neg (by omega), if_pos ⟨hkind, rfl⟩, Nat.add_zero]
  | @nop kind rest j hkind h ih =>
      have h0 : kind ≠ 0 := by rw [hkind]; decide
      rw [clampOptions_of_drop_eq_cons htcp hroom hopts hsep hrest, if_neg h0, if_pos hkind,
        ih (Slice.bytes_drop_eq_cons hrest).2]
      have hplace : opts.lo + (i + 1) + j + 2 = opts.lo + i + (j + 1) + 2 := by omega
      rw [hplace]
  | @skip kind l rest j hkind hl hmss h ih =>
      have hnext : (opts.bytes p).drop (i + l.toNat) = rest.drop (l.toNat - 2) := by
        have htwo := (Slice.bytes_drop_eq_cons (Slice.bytes_drop_eq_cons hrest).2).2
        rw [← htwo, List.drop_drop]
        congr 1
        omega
      rw [clampOptions_of_drop_eq_cons htcp hroom hopts hsep hrest, if_neg hkind.1,
        if_neg hkind.2, if_neg (List.cons_ne_nil l rest), byteAt_cons_zero, List.length_cons,
        if_neg (by omega), if_neg hmss, ih hnext]
      have hplace : opts.lo + (i + l.toNat) + j + 2 = opts.lo + i + (j + l.toNat) + 2 := by
        omega
      rw [hplace]

/-- Without an MSS option the walk ends, and nothing is written. -/
theorem clampOptions_of_forall_not (htcp : tcp.Within p) (hroom : 18 ≤ tcp.len)
    (hopts : opts.Within p) (hsep : tcp.lo + 18 ≤ opts.lo) {i : ℕ}
    (h : ∀ j, ¬ FirstMss ((opts.bytes p).drop i) j) (max : UInt16) :
    clampOptions p tcp opts max i = some (false, p) := by
  induction hn : ((opts.bytes p).drop i).length using Nat.strong_induction_on generalizing i with
  | _ n ih =>
      match hrest : (opts.bytes p).drop i with
      | [] => exact clampOptions_of_drop_eq_nil hopts hrest max
      | [kind] =>
          rw [clampOptions_of_drop_eq_cons htcp hroom hopts hsep hrest, if_pos rfl]
          have hnext := (Slice.bytes_drop_eq_cons hrest).2
          split_ifs with h0 h1
          · rfl
          · exact clampOptions_of_drop_eq_nil hopts hnext max
          · rfl
      | kind :: l :: rest =>
          rw [clampOptions_of_drop_eq_cons htcp hroom hopts hsep hrest,
            if_neg (List.cons_ne_nil l rest), byteAt_cons_zero, List.length_cons]
          obtain ⟨-, hnext⟩ := Slice.bytes_drop_eq_cons hrest
          obtain ⟨-, hbody⟩ := Slice.bytes_drop_eq_cons hnext
          rw [hrest] at h hn
          rw [List.length_cons, List.length_cons] at hn
          split_ifs with h0 h1 hbad hmss
          · rfl
          · apply ih (rest.length + 1) (by omega) _ (by rw [hnext, List.length_cons])
            intro j hj
            rw [hnext] at hj
            exact h _ (.nop h1 hj)
          · rfl
          · exact absurd (FirstMss.here hmss.1 hmss.2 (by omega)) (h 0)
          · exact absurd (FirstMss.here hmss.1 hmss.2 (by omega)) (h 0)
          · have hskip : (opts.bytes p).drop (i + l.toNat) = rest.drop (l.toNat - 2) := by
              rw [← hbody, List.drop_drop]
              congr 1
              omega
            apply ih (rest.drop (l.toNat - 2)).length
            · rw [List.length_drop]
              omega
            · intro j hj
              rw [hskip] at hj
              exact h _ (.skip ⟨h0, h1⟩ (by omega) hmss hj)
            · rw [hskip]

end Walk

/-! ## Which packets are changed, and how -/

/-- The length of the IP header, as the packet says. -/
def headerLen (p : List Byte) : ℕ := (byteAt p 0 &&& 0x0F).toNat * 4

/-- The length of the TCP header, as the segment says. -/
def dataOffset (p : List Byte) : ℕ := (byteAt p (headerLen p + 12) >>> 4).toNat * 4

/-- The options of the TCP header. -/
def tcpOptions (p : List Byte) : Slice :=
  { lo := headerLen p + 20, hi := headerLen p + dataOffset p }

/-- The first fragment of a TCP SYN, its header all there. -/
structure IsSyn (p : List Byte) : Prop where
  ipv4 : ipv4OK p = true
  tcp : byteAt p 9 = 6
  firstFragment : uint16At p 6 &&& 0x1FFF = 0
  segment : headerLen p + 20 ≤ p.length
  syn : byteAt p (headerLen p + 13) &&& 0x02 ≠ 0
  header : 20 ≤ dataOffset p
  options : headerLen p + dataOffset p ≤ p.length

/-- Where the value of the MSS option at option byte `j` is. -/
def mssAt (p : List Byte) (j : ℕ) : ℕ := headerLen p + 20 + j + 2

/-- A SYN whose first MSS option, at option byte `j`, announces more than `max`. -/
structure Exceeds (p : List Byte) (max : UInt16) (j : ℕ) : Prop where
  syn : IsSyn p
  first : FirstMss ((tcpOptions p).bytes p) j
  above : max < uint16At p (mssAt p j)

theorem ipv4OK_bounds {p : List Byte} (h : ipv4OK p = true) :
    20 ≤ p.length ∧ 20 ≤ headerLen p ∧ headerLen p ≤ p.length := by
  rw [ipv4OK] at h
  split at h
  · cases h
  · rename_i hnot
    have hok := of_decide_eq_true h
    rw [headerLen]
    omega

/-- The checks of the code on a packet, none of which reads past its end. -/
theorem clampMSS_eq (p : List Byte) (max : UInt16) :
    clampMSS p max =
      if ¬ ipv4OK p then some (false, p)
      else if byteAt p 9 ≠ 6 then some (false, p)
      else if uint16At p 6 &&& 0x1FFF ≠ 0 then some (false, p)
      else if p.length - headerLen p < 20 then some (false, p)
      else if byteAt p (headerLen p + 13) &&& 0x02 = 0 then some (false, p)
      else if dataOffset p < 20 ∨ dataOffset p > p.length - headerLen p then some (false, p)
      else clampOptions p { lo := headerLen p, hi := p.length } (tcpOptions p) max 0 := by
  rw [clampMSS, ipv4OKChecked_eq]
  simp only [Option.bind_eq_bind, Option.bind_some]
  by_cases hok : ¬ ipv4OK p
  · rw [if_pos hok, if_pos hok]
    rfl
  obtain ⟨hlen, hihl, hfits⟩ := ipv4OK_bounds (not_not.mp hok)
  rw [if_neg hok, if_neg hok, Slice.get_whole (by omega : 9 < p.length)]
  simp only [Option.bind_some]
  by_cases hproto : byteAt p 9 ≠ 6
  · rw [if_pos hproto, if_pos hproto]
    rfl
  rw [if_neg hproto, if_neg hproto, Slice.get_whole (by omega : 0 < p.length),
    Slice.uint16_whole (by omega : 6 + 2 ≤ p.length)]
  simp only [Option.bind_some]
  by_cases hfrag : uint16At p 6 &&& 0x1FFF ≠ 0
  · rw [if_pos hfrag, if_pos hfrag]
    rfl
  have hsub : (Slice.whole p).sub (headerLen p) p.length =
      some { lo := headerLen p, hi := p.length } := by
    rw [Slice.sub_eq hfits (Nat.le_refl _), Slice.whole, Nat.zero_add, Nat.zero_add]
  have htcp : Slice.Within { lo := headerLen p, hi := p.length } p := ⟨hfits, Nat.le_refl _⟩
  rw [if_neg hfrag, if_neg hfrag]
  change ((Slice.whole p).sub (headerLen p) p.length).bind _ = _
  rw [hsub, Option.bind_some]
  by_cases hroom : p.length - headerLen p < 20
  · rw [if_pos hroom]
    exact if_pos hroom
  have hlen' : 20 ≤ Slice.len { lo := headerLen p, hi := p.length } := Nat.not_lt.mp hroom
  rw [if_neg hroom, if_neg (Nat.not_lt.mpr hlen'), Slice.get_eq htcp (by omega)]
  simp only [Option.bind_some]
  by_cases hsyn : byteAt p (headerLen p + 13) &&& 0x02 = 0
  · rw [if_pos hsyn, if_pos hsyn]
    rfl
  rw [if_neg hsyn, if_neg hsyn, Slice.get_eq htcp (by omega)]
  simp only [Option.bind_some]
  by_cases hoff : dataOffset p < 20 ∨ dataOffset p > p.length - headerLen p
  · rw [if_pos hoff]
    exact if_pos hoff
  have hopts : Slice.sub { lo := headerLen p, hi := p.length } 20 (dataOffset p) =
      some (tcpOptions p) := by
    apply Slice.sub_eq
    · omega
    · change dataOffset p ≤ p.length - headerLen p
      omega
  rw [if_neg hoff]
  refine (if_neg hoff).trans ?_
  change (Slice.sub { lo := headerLen p, hi := p.length } 20 (dataOffset p)).bind _ = _
  rw [hopts, Option.bind_some]

/-- The options of a SYN are walked from the first on. -/
theorem clampMSS_of_isSyn {p : List Byte} (h : IsSyn p) (max : UInt16) :
    clampMSS p max =
      clampOptions p { lo := headerLen p, hi := p.length } (tcpOptions p) max 0 := by
  have hseg := h.segment
  have hdoff := h.header
  have hopts := h.options
  rw [clampMSS_eq, if_neg (not_not.mpr h.ipv4), if_neg (not_not.mpr h.tcp),
    if_neg (not_not.mpr h.firstFragment), if_neg (by omega), if_neg h.syn, if_neg (by omega)]

/-- Any other packet is left alone. -/
theorem clampMSS_of_not_isSyn {p : List Byte} (h : ¬ IsSyn p) (max : UInt16) :
    clampMSS p max = some (false, p) := by
  rw [clampMSS_eq]
  split_ifs with hok hproto hfrag hroom hsyn hoff
  · rfl
  · rfl
  · rfl
  · rfl
  · rfl
  · have hfits := (ipv4OK_bounds hok).2.2
    exact absurd ⟨hok, not_not.mp hproto, not_not.mp hfrag, by omega, hsyn, by omega, by omega⟩ h
  · rfl

theorem within_tcpOptions {p : List Byte} (h : IsSyn p) : (tcpOptions p).Within p :=
  ⟨Nat.add_le_add_left h.header _, h.options⟩

theorem within_segment {p : List Byte} (h : IsSyn p) :
    Slice.Within { lo := headerLen p, hi := p.length } p :=
  ⟨(ipv4OK_bounds h.ipv4).2.2, Nat.le_refl _⟩

/-- The checksum lies in the segment, and the options behind it. -/
theorem checksum_room {p : List Byte} (h : IsSyn p) :
    18 ≤ Slice.len { lo := headerLen p, hi := p.length } ∧
      headerLen p + 18 ≤ (tcpOptions p).lo := by
  have hseg := h.segment
  refine ⟨?_, Nat.add_le_add_left (by omega) _⟩
  change 18 ≤ p.length - headerLen p
  omega

/-- A SYN comes out by what its first MSS option announces. -/
theorem clampMSS_of_firstMss {p : List Byte} (h : IsSyn p) {j : ℕ}
    (hj : FirstMss ((tcpOptions p).bytes p) j) (max : UInt16) :
    clampMSS p max =
      if uint16At p (mssAt p j) ≤ max then some (false, p)
      else some (true, clampedAt p (headerLen p + 16) (mssAt p j) max) := by
  obtain ⟨hroom, hsep⟩ := checksum_room h
  rw [clampMSS_of_isSyn h, clampOptions_of_firstMss (within_segment h) hroom
    (within_tcpOptions h) hsep (i := 0) hj]
  rfl

/-- A SYN that announces too much is changed in two words. -/
theorem clampMSS_of_exceeds {p : List Byte} {max : UInt16} {j : ℕ} (h : Exceeds p max j) :
    clampMSS p max = some (true, clampedAt p (headerLen p + 16) (mssAt p j) max) := by
  rw [clampMSS_of_firstMss h.syn h.first, if_neg (UInt16.not_le.mpr h.above)]

/-- And any other packet is left alone. -/
theorem clampMSS_of_forall_not {p : List Byte} {max : UInt16} (h : ∀ j, ¬ Exceeds p max j) :
    clampMSS p max = some (false, p) := by
  by_cases hsyn : IsSyn p
  swap
  · exact clampMSS_of_not_isSyn hsyn max
  by_cases hmss : ∃ j, FirstMss ((tcpOptions p).bytes p) j
  · obtain ⟨j, hj⟩ := hmss
    have hle : uint16At p (mssAt p j) ≤ max :=
      UInt16.not_lt.mp fun hlt => h j ⟨hsyn, hj, hlt⟩
    rw [clampMSS_of_firstMss hsyn hj, if_pos hle]
  · obtain ⟨hroom, hsep⟩ := checksum_room hsyn
    rw [clampMSS_of_isSyn hsyn]
    exact clampOptions_of_forall_not (within_segment hsyn) hroom (within_tcpOptions hsyn) hsep
      (i := 0) (not_exists.mp hmss) max

/-! ## What the change does -/

section Clamped

variable {p : List Byte} {max : UInt16} {j : ℕ}

/-- The four bytes that change. -/
def Written (p : List Byte) (j k : ℕ) : Prop :=
  k = mssAt p j ∨ k = mssAt p j + 1 ∨ k = headerLen p + 16 ∨ k = headerLen p + 17

/-- The packet a SYN that announces too much becomes. -/
def clamped (p : List Byte) (max : UInt16) (j : ℕ) : List Byte :=
  clampedAt p (headerLen p + 16) (mssAt p j) max

@[simp] theorem length_clamped (p : List Byte) (max : UInt16) (j : ℕ) :
    (clamped p max j).length = p.length := by
  rw [clamped, clampedAt, length_putUint16At, length_putUint16At]

theorem getElem?_clamped {k : ℕ} (h : ¬ Written p j k) : (clamped p max j)[k]? = p[k]? := by
  unfold Written at h
  rw [clamped, clampedAt, getElem?_putUint16At _ _ (by omega) (by omega),
    getElem?_putUint16At _ _ (by omega) (by omega)]

theorem byteAt_clamped {k : ℕ} (h : ¬ Written p j k) : byteAt (clamped p max j) k = byteAt p k := by
  rw [byteAt, byteAt, List.getD_eq_getElem?_getD, List.getD_eq_getElem?_getD, getElem?_clamped h]

/-- The bytes of the headers that decide are not among them. -/
theorem not_written_of_lt {k : ℕ} (hk : k < headerLen p + 16) : ¬ Written p j k := by
  unfold Written mssAt
  omega

theorem mssAt_lt (h : IsSyn p) (hj : FirstMss ((tcpOptions p).bytes p) j) :
    mssAt p j + 1 < headerLen p + dataOffset p := by
  have hlen := hj.length_le
  have hdoff := h.header
  rw [Slice.length_bytes (within_tcpOptions h), Slice.len, tcpOptions] at hlen
  simp only at hlen
  rw [mssAt]
  omega

theorem headerLen_clamped (h : IsSyn p) : headerLen (clamped p max j) = headerLen p := by
  have hihl := (ipv4OK_bounds h.ipv4).2.1
  rw [headerLen, headerLen, byteAt_clamped (not_written_of_lt (by omega))]

theorem dataOffset_clamped (h : IsSyn p) : dataOffset (clamped p max j) = dataOffset p := by
  rw [dataOffset, dataOffset, headerLen_clamped h,
    byteAt_clamped (not_written_of_lt (by omega))]

theorem ipv4OK_clamped (h : IsSyn p) : ipv4OK (clamped p max j) = true := by
  have hihl := (ipv4OK_bounds h.ipv4).2.1
  rw [← h.ipv4, ipv4OK, ipv4OK, length_clamped,
    byteAt_clamped (not_written_of_lt (by omega : 0 < _)),
    byteAt_clamped (not_written_of_lt (by omega : 2 < _)),
    byteAt_clamped (not_written_of_lt (by omega : 3 < _))]

theorem isSyn_clamped (h : IsSyn p) : IsSyn (clamped p max j) := by
  have hihl := (ipv4OK_bounds h.ipv4).2.1
  have hihl' : headerLen (clamped p max j) = headerLen p := headerLen_clamped h
  have hdoff : dataOffset (clamped p max j) = dataOffset p := dataOffset_clamped h
  constructor
  · exact ipv4OK_clamped h
  · rw [byteAt_clamped (not_written_of_lt (by omega))]
    exact h.tcp
  · rw [uint16At, byteAt_clamped (not_written_of_lt (by omega)),
      byteAt_clamped (not_written_of_lt (by omega))]
    exact h.firstFragment
  · rw [hihl', length_clamped]
    exact h.segment
  · rw [hihl', byteAt_clamped (not_written_of_lt (by omega))]
    exact h.syn
  · rw [hdoff]
    exact h.header
  · rw [hihl', hdoff, length_clamped]
    exact h.options

/-- The changed packet has its first MSS option where it was. -/
theorem firstMss_clamped (h : IsSyn p) (hj : FirstMss ((tcpOptions p).bytes p) j) :
    FirstMss ((tcpOptions (clamped p max j)).bytes (clamped p max j)) j := by
  have hopts : tcpOptions (clamped p max j) = tcpOptions p := by
    rw [tcpOptions, tcpOptions, headerLen_clamped h, dataOffset_clamped h]
  rw [hopts]
  apply hj.of_agree
  · intro k h2 h3
    have hk : ¬ Written p j ((tcpOptions p).lo + k) := by
      unfold Written mssAt tcpOptions
      simp only
      omega
    rw [Slice.getElem?_bytes, Slice.getElem?_bytes, getElem?_clamped hk]
  · rw [Slice.length_bytes (within_tcpOptions h), Slice.length_bytes]
    rw [Slice.Within, length_clamped]
    exact within_tcpOptions h

/-- And it announces `max` now. -/
theorem uint16At_clamped (h : IsSyn p) (hj : FirstMss ((tcpOptions p).bytes p) j) :
    uint16At (clamped p max j) (mssAt p j) = max := by
  have hlt := mssAt_lt h hj
  have hfits := h.options
  rw [clamped, clampedAt, uint16At_putUint16At _ _ (.inr (by rw [mssAt]; omega)),
    uint16At_putUint16At_self (by omega)]

/-- So there is nothing left to change. -/
theorem clampMSS_clamped (h : IsSyn p) (hj : FirstMss ((tcpOptions p).bytes p) j) :
    clampMSS (clamped p max j) max = some (false, clamped p max j) := by
  have hplace : mssAt (clamped p max j) j = mssAt p j := by
    rw [mssAt, mssAt, headerLen_clamped h]
  rw [clampMSS_of_firstMss (isSyn_clamped h) (firstMss_clamped h hj), hplace,
    uint16At_clamped h hj, if_pos (UInt16.le_refl max)]

/-- The clamp runs to its end on every packet without an access out of range, changes a SYN
whose first MSS option announces too much in that value and the checksum only, and leaves
every other packet as it is, its own results included. -/
theorem clampMSS_minimal (p : List Byte) (max : UInt16) :
    ∃ changed p', clampMSS p max = some (changed, p') ∧
      (changed = false → p' = p) ∧
      (changed = true → p'.length = p.length ∧ ∃ j, Exceeds p max j ∧
        uint16At p' (mssAt p j) = max ∧ ∀ k, ¬ Written p j k → p'[k]? = p[k]?) ∧
      clampMSS p' max = some (false, p') := by
  by_cases h : ∃ j, Exceeds p max j
  · obtain ⟨j, hj⟩ := h
    refine ⟨true, clamped p max j, clampMSS_of_exceeds hj, nofun, fun _ => ?_,
      clampMSS_clamped hj.syn hj.first⟩
    exact ⟨length_clamped p max j, j, hj, uint16At_clamped hj.syn hj.first,
      fun k hk => getElem?_clamped hk⟩
  · have hnone := clampMSS_of_forall_not (not_exists.mp h)
    exact ⟨false, p, hnone, fun _ => rfl, nofun, hnone⟩

end Clamped

end NetCore

end Voyager
