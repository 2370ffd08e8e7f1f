import Voyager.Core.ImprovResult
import Voyager.Net.ImprovScan

/-!
# The answer to the network-start command

The board answers with the strings of a result packet, and the helper takes the data of the
packet apart again. The data comes from a serial port, so any bytes may stand in it; every
access to them is checked against their number.
-/

namespace Voyager

namespace NetCore

def improvCmdNetStart : Byte := 0xF0

/-- How the loop of `parseNetStart` ends: with the strings, with its error, or by an access
outside of `data`. -/
inductive SplitResult where
  | strs (strs : List (List Byte))
  | truncated
  | outside
  deriving DecidableEq, Repr

/-- `data[lo:hi]`. -/
def slice (data : List Byte) (lo hi : ℕ) : Option (List Byte) :=
  if lo ≤ hi ∧ hi ≤ data.length then some ((data.take hi).drop lo) else none

/-- The loop of `parseNetStart` over the strings, from the index `i`. -/
def splitFrom (data : List Byte) (i : ℕ) (strs : List (List Byte)) : SplitResult :=
  if i < data.length then
    match data[i]? with
    | none => .outside
    | some b =>
        let l := b.toNat
        if i + 1 + l > data.length then .truncated
        else
          match slice data (i + 1) (i + 1 + l) with
          | none => .outside
          | some s => splitFrom data (i + 1 + l) (strs ++ [s])
  else .strs strs
termination_by data.length - i

/-- The loop of `parseNetStart`. -/
def splitStrings (data : List Byte) : SplitResult := splitFrom data 2 []

open Improv (packed packed_nil packed_cons packedSize resultData)

variable {data rest : List Byte} {strs : List (List Byte)} {i : ℕ}

/-! ## One string -/

theorem splitFrom_of_le (h : data.length ≤ i) (strs : List (List Byte)) :
    splitFrom data i strs = .strs strs := by
  rw [splitFrom, if_neg (Nat.not_lt.mpr h)]

theorem slice_of_drop {s : List Byte} (h : data.drop i = s ++ rest) (hi : i ≤ data.length) :
    slice data i (i + s.length) = some s := by
  have hlength := congrArg List.length h
  rw [List.length_drop, List.length_append] at hlength
  have hin : i ≤ i + s.length ∧ i + s.length ≤ data.length := by omega
  rw [slice, if_pos hin, List.drop_take, h, Nat.add_sub_cancel_left, List.take_left]

/-- A string that is all there. -/
theorem splitFrom_string {s : List Byte} (hs : s.length ≤ 255)
    (h : data.drop i = UInt8.ofNat s.length :: (s ++ rest)) (strs : List (List Byte)) :
    splitFrom data i strs = splitFrom data (i + 1 + s.length) (strs ++ [s]) ∧
      data.drop (i + 1 + s.length) = rest := by
  have hlength := congrArg List.length h
  rw [List.length_drop, List.length_cons, List.length_append] at hlength
  have hget : data[i]? = some (UInt8.ofNat s.length) := by
    rw [← List.head?_drop, h, List.head?_cons]
  have hnat : (UInt8.ofNat s.length).toNat = s.length := toNat_ofNat_of_lt (by omega)
  have htail : data.drop (i + 1) = s ++ rest := by
    rw [← List.drop_drop, h, List.drop_one, List.tail_cons]
  have hslice : slice data (i + 1) (i + 1 + s.length) = some s := slice_of_drop htail (by omega)
  constructor
  · rw [splitFrom, if_pos (by omega), hget]
    dsimp only
    rw [hnat, if_neg (by omega), hslice]
  · rw [← List.drop_drop, htail, List.drop_left]

/-- A length byte that overruns. -/
theorem splitFrom_overrun {l : Byte} (h : data.drop i = l :: rest) (hl : rest.length < l.toNat)
    (strs : List (List Byte)) : splitFrom data i strs = .truncated := by
  have hlength := congrArg List.length h
  rw [List.length_drop, List.length_cons] at hlength
  have hget : data[i]? = some l := by rw [← List.head?_drop, h, List.head?_cons]
  rw [splitFrom, if_pos (by omega), hget]
  dsimp only
  rw [if_pos (by omega)]

/-! ## All strings -/

/-- Strings that are all there are read, whatever follows them. -/
theorem splitFrom_packed (hstrs : ∀ s ∈ strs, s.length ≤ 255)
    (h : data.drop i = packed strs ++ rest) (before : List (List Byte)) :
    ∃ j, splitFrom data i before = splitFrom data j (before ++ strs) ∧ data.drop j = rest := by
  induction strs generalizing i before with
  | nil => exact ⟨i, by rw [List.append_nil], h⟩
  | cons s strs ih =>
      rw [packed_cons, List.cons_append, List.append_assoc] at h
      obtain ⟨hstep, hdrop⟩ := splitFrom_string (hstrs s List.mem_cons_self) h before
      obtain ⟨j, hrun, hj⟩ :=
        ih (fun t ht => hstrs t (List.mem_cons_of_mem s ht)) hdrop (before ++ [s])
      refine ⟨j, ?_, hj⟩
      rw [hstep, hrun, List.append_assoc]
      rfl

/-- Any bytes are strings that are all there, and then perhaps a length byte that overruns. -/
theorem exists_packed (bs : List Byte) :
    ∃ strs rest, (∀ s ∈ strs, s.length ≤ 255) ∧ bs = packed strs ++ rest ∧
      (rest = [] ∨ ∃ l tail, rest = l :: tail ∧ tail.length < l.toNat) := by
  induction h : bs.length using Nat.strong_induction_on generalizing bs with
  | h n ih =>
      cases bs with
      | nil => exact ⟨[], [], by simp, rfl, Or.inl rfl⟩
      | cons l tail =>
          by_cases hl : tail.length < l.toNat
          · exact ⟨[], l :: tail, by simp, rfl, Or.inr ⟨l, tail, rfl, hl⟩⟩
          · rw [List.length_cons] at h
            have hdrop : (tail.drop l.toNat).length < n := by
              rw [List.length_drop]
              omega
            have htake : (tail.take l.toNat).length = l.toNat := by
              rw [List.length_take]
              omega
            obtain ⟨strs, rest, hstrs, heq, hrest⟩ := ih _ hdrop (tail.drop l.toNat) rfl
            refine ⟨tail.take l.toNat :: strs, rest, ?_, ?_, hrest⟩
            · intro s hs
              rcases List.mem_cons.mp hs with rfl | hs
              · rw [htake]
                exact Nat.le_of_lt_succ l.toNat_lt
              · exact hstrs s hs
            · rw [packed_cons, htake, UInt8.ofNat_toNat, List.cons_append, List.append_assoc,
                ← heq, List.take_append_drop]

theorem splitStrings_packed (hstrs : ∀ s ∈ strs, s.length ≤ 255)
    (h : data.drop 2 = packed strs) : splitStrings data = .strs strs := by
  rw [← List.append_nil (packed strs)] at h
  obtain ⟨j, hrun, hj⟩ := splitFrom_packed hstrs h []
  rw [splitStrings, hrun, splitFrom_of_le (List.drop_eq_nil_iff.mp hj)]
  rfl

theorem splitStrings_overrun (hstrs : ∀ s ∈ strs, s.length ≤ 255) {l : Byte}
    (h : data.drop 2 = packed strs ++ l :: rest) (hl : rest.length < l.toNat) :
    splitStrings data = .truncated := by
  obtain ⟨j, hrun, hj⟩ := splitFrom_packed hstrs h []
  rw [splitStrings, hrun, splitFrom_overrun hj hl]

/-- The loop ends with the strings that the data holds, or with its error when a length byte
overruns, and reads nothing outside of the data. -/
theorem splitStrings_spec (data : List Byte) :
    splitStrings data ≠ .outside ∧
      (∀ strs, splitStrings data = .strs strs ↔
        (∀ s ∈ strs, s.length ≤ 255) ∧ data.drop 2 = packed strs) ∧
      (splitStrings data = .truncated ↔
        ∃ strs l rest, (∀ s ∈ strs, s.length ≤ 255) ∧ data.drop 2 = packed strs ++ l :: rest ∧
          rest.length < l.toNat) := by
  obtain ⟨strs, rest, hstrs, heq, hrest | ⟨l, tail, hrest, hl⟩⟩ := exists_packed (data.drop 2)
  · rw [hrest, List.append_nil] at heq
    have hrun := splitStrings_packed hstrs heq
    refine ⟨by simp [hrun], fun strs' => ⟨fun h => ?_, fun h => ?_⟩, fun h => ?_, ?_⟩
    · rw [hrun, SplitResult.strs.injEq] at h
      exact h ▸ ⟨hstrs, heq⟩
    · exact splitStrings_packed h.1 h.2
    · rw [hrun] at h
      cases h
    · rintro ⟨strs', l, tail, hstrs', heq', hl⟩
      exact splitStrings_overrun hstrs' heq' hl
  · rw [hrest] at heq
    have hrun := splitStrings_overrun hstrs heq hl
    refine ⟨by simp [hrun], fun strs' => ⟨fun h => ?_, fun h => ?_⟩, fun _ => ?_, fun _ => hrun⟩
    · rw [hrun] at h
      cases h
    · exact splitStrings_packed h.1 h.2
    · exact ⟨strs, l, tail, hstrs, heq, hl⟩

/-! ## From the board to the helper -/

/-- The strings of the board reach the helper, if they fit in a packet: the packet is built
exactly then, and wherever the line is cut, the scanner reports its data, from which the loop
takes the strings. -/
theorem netStart_strings :
    (∀ (strs : List (List Byte)) (cap : ℕ), (∀ s ∈ strs, 0 ∉ s) →
      (2 + packedSize strs ≤ Improv.MAX_DATA → 11 + (2 + packedSize strs) ≤ cap) →
      (Improv.buildRpcResult improvCmdNetStart (strs.map some) cap = none ↔
        2 + packedSize strs > 255) ∧
      ∀ pkt, Improv.buildRpcResult improvCmdNetStart (strs.map some) cap = some pkt →
        ∃ data, (∀ chunks, chunks.flatten = pkt →
            ImprovScanner.scanned chunks = [(Improv.TYPE_RPC_RESULT, data)]) ∧
          data.length ≥ 2 ∧ byteAt data 0 = improvCmdNetStart ∧ splitStrings data = .strs strs) ∧
    ∀ data, splitStrings data ≠ .outside ∧
      (∀ strs, splitStrings data = .strs strs ↔
        (∀ s ∈ strs, s.length ≤ 255) ∧ data.drop 2 = packed strs) ∧
      (splitStrings data = .truncated ↔
        ∃ strs l rest, (∀ s ∈ strs, s.length ≤ 255) ∧ data.drop 2 = packed strs ++ l :: rest ∧
          rest.length < l.toNat) := by
  refine ⟨fun strs cap hnul hcap => ?_, splitStrings_spec⟩
  by_cases hfits : 2 + packedSize strs ≤ Improv.MAX_DATA
  · obtain ⟨pkt, hbuild, hpkt, hlength⟩ :=
      Improv.buildRpcResult_of_fits improvCmdNetStart hnul hfits (hcap hfits)
    have hstrs : ∀ s ∈ strs, s.length ≤ 255 := by
      intro s hs
      have hle := Improv.length_le_packedSize hs
      rw [Improv.MAX_DATA] at hfits
      omega
    rw [hbuild]
    refine ⟨⟨fun h => absurd h (Option.some_ne_none _),
      fun h => absurd hfits (Nat.not_le.mpr h)⟩, fun pkt' h => ?_⟩
    rw [Option.some.injEq] at h
    rw [← h]
    refine ⟨resultData improvCmdNetStart strs, fun chunks hchunks => ?_, ?_, rfl, ?_⟩
    · rw [ImprovScanner.scanned_eq_packets, hchunks, hpkt]
      exact Improv.packets_encode (Nat.zero_lt_succ 5) _ hlength
    · exact Nat.le_add_left 2 _
    · exact splitStrings_packed hstrs rfl
  · have hnone := Improv.buildRpcResult_of_too_long improvCmdNetStart hnul cap (Nat.not_le.mp hfits)
    rw [hnone]
    exact ⟨⟨fun _ => Nat.not_le.mp hfits, fun _ => rfl⟩,
      fun pkt h => absurd h.symm (Option.some_ne_none _)⟩

/-- The answer of a board, and data with a length byte that overruns. -/
theorem netStart_strings_board :
    (∃ pkt data, Improv.buildRpcResult improvCmdNetStart
        ([ascii "10.86.3.7", ascii "A1", ascii "2"].map some) 266 = some pkt ∧
      ImprovScanner.scanned [pkt] = [(Improv.TYPE_RPC_RESULT, data)] ∧
      splitStrings data = .strs [ascii "10.86.3.7", ascii "A1", ascii "2"]) ∧
    splitStrings [0xF0, 4, 1, 0x41, 200, 0x42] = .truncated := by
  have hnul : ∀ s ∈ [ascii "10.86.3.7", ascii "A1", ascii "2"], 0 ∉ s := by
    simp only [List.forall_mem_cons, List.not_mem_nil, false_imp_iff, implies_true, and_true]
    exact ⟨by decide, by decide, by decide⟩
  obtain ⟨hsent, hsplit⟩ := netStart_strings
  obtain ⟨hnone, hsome⟩ := hsent _ 266 hnul fun _ => by decide
  constructor
  · cases hbuild : Improv.buildRpcResult improvCmdNetStart
        ([ascii "10.86.3.7", ascii "A1", ascii "2"].map some) 266 with
    | none => exact absurd (hnone.mp hbuild) (by decide)
    | some pkt =>
        obtain ⟨data, hscan, -, -, hstrs⟩ := hsome pkt hbuild
        exact ⟨pkt, data, rfl, hscan [pkt] (List.append_nil pkt), hstrs⟩
  · refine (hsplit _).2.2.mpr ⟨[[0x41]], 200, [0x42], ?_, by decide, by decide⟩
    intro s hs
    rw [List.mem_singleton.mp hs]
    decide

end NetCore

end Voyager
