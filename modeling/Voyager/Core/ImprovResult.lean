import Mathlib.Algebra.BigOperators.Group.List.Basic
import Mathlib.Algebra.Ring.Nat
import Mathlib.Data.List.TakeWhile
import Voyager.Core.Improv

/-!
# Results of Improv commands

The result of a command is a packet with some strings, each behind a byte with its length. A
string longer than 255 bytes is cut, and there is no packet when they do not fit.
-/

namespace Voyager

namespace Improv

def TYPE_RPC_RESULT : Byte := 0x04

/-- `strlen`, for a string with its zero byte left out. -/
def strlen (s : List Byte) : ℕ := (s.takeWhile (· ≠ 0)).length

/-- How much of a string is sent; it may be a null pointer. -/
def sentLength (str : Option (List Byte)) : ℕ :=
  let sl := str.elim 0 strlen
  if sl > 255 then 255 else sl

/-- The loop of `build_rpc_result`, with what is written behind the first two bytes of
`data`. -/
def resultStrings : List (Option (List Byte)) → List Byte → Option (List Byte)
  | [], body => some body
  | str :: strs, body =>
      let sl := sentLength str
      if 2 + body.length + 1 + sl > MAX_DATA then none
      else resultStrings strs (body ++ UInt8.ofNat sl :: (str.getD []).take sl)

/-- `improv::build_rpc_result`: one packet, or `none` when it does not fit. -/
def buildRpcResult (cmd : Byte) (strs : List (Option (List Byte))) (cap : ℕ) :
    Option (List Byte) :=
  (resultStrings strs []).bind fun body =>
    build TYPE_RPC_RESULT (cmd :: UInt8.ofNat body.length :: body) cap

/-! ## What is built -/

/-- Some strings, each behind its length. -/
def packed (strs : List (List Byte)) : List Byte :=
  strs.flatMap fun s => UInt8.ofNat s.length :: s

/-- The bytes that some strings take, the longer ones cut. -/
def packedSize (strs : List (List Byte)) : ℕ := (strs.map fun s => 1 + min s.length 255).sum

variable {s : List Byte} {strs : List (List Byte)}

@[simp] theorem packed_nil : packed [] = [] := rfl

@[simp] theorem packed_cons (s : List Byte) (strs : List (List Byte)) :
    packed (s :: strs) = UInt8.ofNat s.length :: (s ++ packed strs) := rfl

@[simp] theorem packedSize_nil : packedSize [] = 0 := rfl

@[simp] theorem packedSize_cons (s : List Byte) (strs : List (List Byte)) :
    packedSize (s :: strs) = 1 + min s.length 255 + packedSize strs := by
  simp [packedSize]

theorem strlen_eq (h : 0 ∉ s) : strlen s = s.length := by
  have hall : s.takeWhile (· ≠ 0) = s := by
    rw [List.takeWhile_eq_self_iff]
    intro c hc
    exact decide_eq_true fun heq => h (heq ▸ hc)
  rw [strlen, hall]

theorem sentLength_some (h : 0 ∉ s) : sentLength (some s) = min s.length 255 := by
  rw [sentLength, Option.elim_some, strlen_eq h]
  split <;> omega

/-- A string that is cut does not fit in any case. -/
theorem resultStrings_eq (hnul : ∀ s ∈ strs, 0 ∉ s) {body : List Byte}
    (hbody : 2 + body.length ≤ MAX_DATA) :
    resultStrings (strs.map some) body =
      if 2 + body.length + packedSize strs > MAX_DATA then none
      else some (body ++ packed strs) := by
  induction strs generalizing body with
  | nil =>
      have hfits : ¬ 2 + body.length + packedSize [] > MAX_DATA := Nat.not_lt.mpr hbody
      rw [if_neg hfits, packed_nil, List.append_nil]
      rfl
  | cons s strs ih =>
      rw [List.map_cons, resultStrings, sentLength_some (hnul s List.mem_cons_self),
        packedSize_cons, Option.getD_some]
      rw [MAX_DATA] at hbody ih ⊢
      by_cases hfits : 2 + body.length + 1 + min s.length 255 > 255
      · rw [if_pos hfits, if_pos (by omega)]
      · have hmin : min s.length 255 = s.length := by omega
        have hbody' : (body ++ UInt8.ofNat s.length :: s).length = body.length + 1 + s.length := by
          rw [List.length_append, List.length_cons]
          omega
        have hsum : 2 + (body.length + 1 + s.length) + packedSize strs =
            2 + body.length + (1 + s.length + packedSize strs) := by omega
        rw [if_neg hfits, hmin, List.take_length,
          ih (fun t ht => hnul t (List.mem_cons_of_mem s ht)) (by omega), hbody', hsum,
          List.append_assoc, packed_cons, List.cons_append]

theorem length_packed (h : packedSize strs < 256) : (packed strs).length = packedSize strs := by
  induction strs with
  | nil => rfl
  | cons s strs ih =>
      rw [packedSize_cons] at h
      rw [packed_cons, packedSize_cons, List.length_cons, List.length_append, ih (by omega)]
      omega

/-- Strings that fit are not cut. -/
theorem length_le_packedSize (h : s ∈ strs) : min s.length 255 ≤ packedSize strs := by
  induction strs with
  | nil => cases h
  | cons t strs ih =>
      rw [packedSize_cons]
      rcases List.mem_cons.mp h with rfl | h
      · omega
      · have hle := ih h
        omega

/-- The data of a result. -/
def resultData (cmd : Byte) (strs : List (List Byte)) : List Byte :=
  cmd :: UInt8.ofNat (packed strs).length :: packed strs

theorem buildRpcResult_of_too_long (cmd : Byte) (hnul : ∀ s ∈ strs, 0 ∉ s) (cap : ℕ)
    (h : 2 + packedSize strs > MAX_DATA) : buildRpcResult cmd (strs.map some) cap = none := by
  rw [buildRpcResult, resultStrings_eq hnul (by decide)]
  rw [List.length_nil, Nat.add_zero, if_pos h]
  rfl

theorem buildRpcResult_of_fits (cmd : Byte) (hnul : ∀ s ∈ strs, 0 ∉ s) {cap : ℕ}
    (h : 2 + packedSize strs ≤ MAX_DATA) (hcap : 11 + (2 + packedSize strs) ≤ cap) :
    ∃ pkt, buildRpcResult cmd (strs.map some) cap = some pkt ∧
      pkt = encode TYPE_RPC_RESULT (resultData cmd strs) ∧
      (resultData cmd strs).length ≤ MAX_DATA := by
  have hlength : (resultData cmd strs).length = 2 + packedSize strs := by
    rw [MAX_DATA] at h
    rw [resultData, List.length_cons, List.length_cons, length_packed (by omega)]
    omega
  have hroom : ¬ ((resultData cmd strs).length > MAX_DATA ∨
      cap < 6 + 3 + (resultData cmd strs).length + 2) := by
    rw [hlength]
    omega
  have hbuild : buildRpcResult cmd (strs.map some) cap =
      build TYPE_RPC_RESULT (resultData cmd strs) cap := by
    rw [buildRpcResult, resultStrings_eq hnul (by decide), List.length_nil, Nat.add_zero,
      if_neg (Nat.not_lt.mpr h)]
    rfl
  have hsome : ∃ pkt, build TYPE_RPC_RESULT (resultData cmd strs) cap = some pkt := by
    rw [build, if_neg hroom]
    exact ⟨_, rfl⟩
  obtain ⟨pkt, hpkt⟩ := hsome
  exact ⟨pkt, hbuild.trans hpkt, (build_eq_some hpkt).2, hlength.trans_le h⟩

end Improv

end Voyager
