import Mathlib.Data.Nat.Digits.Lemmas
import Voyager.Library.FlatJson

/-!
# Flat JSON objects of numbers

The compact text of an object whose members are natural numbers in decimal, and a reader for
such texts. What is read back is what was written, and the text ends with its last brace.
-/

namespace JsonNumbers

open FlatJson (Bytes expect expect_cons writeString readString readString_writeString
  writeString_ne_zero length_writeString_le)

/-- A member of an object: its name and its value. -/
abbrev Member := Bytes × ℕ

/-! ## Writing -/

def writeNat (n : ℕ) : Bytes :=
  if n = 0 then [48] else (Nat.digits 10 n).reverse.map fun d => UInt8.ofNat (d + 48)

def writeMember (m : Member) : Bytes := writeString m.1 ++ 0x3A :: writeNat m.2

/-- The members after the first one, and the closing brace. -/
def writeRest : List Member → Bytes
  | [] => [0x7D]
  | m :: ms => 0x2C :: (writeMember m ++ writeRest ms)

def writeObject : List Member → Bytes
  | [] => [0x7B, 0x7D]
  | m :: ms => 0x7B :: (writeMember m ++ writeRest ms)

/-! ## Reading -/

def isDigit (c : UInt8) : Bool := 48 ≤ c && c ≤ 57

/-- The number of a run of digits. -/
def value (ds : Bytes) : ℕ := ds.foldl (fun n c => n * 10 + (c.toNat - 48)) 0

/-- A number, and what follows its last digit. -/
def readNat (t : Bytes) : Option (ℕ × Bytes) :=
  if t.takeWhile isDigit = [] then none
  else some (value (t.takeWhile isDigit), t.dropWhile isDigit)

def readMember (t : Bytes) : Option (Member × Bytes) :=
  (readString t).bind fun name =>
    (expect 0x3A name.2).bind fun t => (readNat t).map fun n => ((name.1, n.1), n.2)

/-- At most `n` more members and the closing brace. -/
def readRest : ℕ → Bytes → Option (List Member)
  | 0, _ => none
  | n + 1, t =>
      match expect 0x2C t with
      | some t => (readMember t).bind fun m => (readRest n m.2).map fun ms => m.1 :: ms
      | none => if t = [0x7D] then some [] else none

def readObject (t : Bytes) : Option (List Member) :=
  if t = [0x7B, 0x7D] then some []
  else (expect 0x7B t).bind fun t =>
    (readMember t).bind fun m => (readRest t.length m.2).map fun ms => m.1 :: ms

/-! ## Numbers -/

theorem isDigit_writeNat (n : ℕ) : ∀ c ∈ writeNat n, isDigit c = true := by
  intro c hc
  rw [writeNat] at hc
  split at hc
  · rw [List.mem_singleton.mp hc]
    rfl
  · obtain ⟨d, hd, rfl⟩ := List.mem_map.mp hc
    have hlt := Nat.digits_lt_base (by decide : 1 < 10) (List.mem_reverse.mp hd)
    have hall : ∀ d < 10, isDigit (UInt8.ofNat (d + 48)) = true := by decide
    exact hall d hlt

theorem writeNat_ne_nil (n : ℕ) : writeNat n ≠ [] := by
  rw [writeNat]
  split
  · exact List.cons_ne_nil _ _
  · next h =>
      rw [ne_eq, List.map_eq_nil_iff, List.reverse_eq_nil_iff, Nat.digits_eq_nil_iff_eq_zero]
      exact h

theorem length_writeNat_le {n k : ℕ} (hk : k ≠ 0) (hn : n < 10 ^ k) : (writeNat n).length ≤ k := by
  rw [writeNat]
  split
  · exact Nat.one_le_iff_ne_zero.mpr hk
  · rw [List.length_map, List.length_reverse, Nat.digits_length_le_iff (by decide)]
    exact hn

theorem value_digits {l : List ℕ} (hl : ∀ d ∈ l, d < 10) :
    value (l.reverse.map fun d => UInt8.ofNat (d + 48)) = Nat.ofDigits 10 l := by
  rw [value]
  induction l with
  | nil => rfl
  | cons d l ih =>
      have hd := hl d List.mem_cons_self
      have hval : (UInt8.ofNat (d + 48)).toNat - 48 = d := by
        rw [UInt8.toNat_ofNat', Nat.mod_eq_of_lt (by omega), Nat.add_sub_cancel]
      rw [List.reverse_cons, List.map_append, List.foldl_append,
        ih fun x hx => hl x (List.mem_cons_of_mem _ hx), Nat.ofDigits_cons, List.map_singleton,
        List.foldl_cons, List.foldl_nil, hval]
      omega

theorem value_writeNat (n : ℕ) : value (writeNat n) = n := by
  rw [writeNat]
  split
  · next h =>
      rw [h]
      rfl
  · rw [value_digits fun d hd => Nat.digits_lt_base (by decide) hd, Nat.ofDigits_digits]

/-- A number is read up to the first byte that is no digit. -/
theorem readNat_writeNat (n : ℕ) {c : UInt8} (hc : isDigit c = false) (t : Bytes) :
    readNat (writeNat n ++ c :: t) = some (n, c :: t) := by
  have hnot : ¬ isDigit c = true := by rw [hc]; exact Bool.false_ne_true
  have htake : (writeNat n ++ c :: t).takeWhile isDigit = writeNat n := by
    rw [List.takeWhile_append_of_pos (isDigit_writeNat n), List.takeWhile_cons_of_neg hnot,
      List.append_nil]
  have hdrop : (writeNat n ++ c :: t).dropWhile isDigit = c :: t := by
    rw [List.dropWhile_append_of_pos (isDigit_writeNat n), List.dropWhile_cons_of_neg hnot]
  rw [readNat, htake, hdrop, if_neg (writeNat_ne_nil n), value_writeNat]

/-! ## Objects -/

/-- The name has no zero byte. -/
def Member.Plain (m : Member) : Prop := ∀ c ∈ m.1, c ≠ 0

theorem readMember_writeMember (m : Member) {c : UInt8} (hc : isDigit c = false) (t : Bytes)
    (hm : m.Plain) : readMember (writeMember m ++ c :: t) = some (m, c :: t) := by
  rw [readMember, writeMember, List.append_assoc, readString_writeString _ _ hm,
    Option.bind_some, List.cons_append, expect_cons, Option.bind_some, readNat_writeNat m.2 hc,
    Option.map_some]

/-- The length of a member whose value has at most `k` digits. -/
theorem length_writeMember_le {m : Member} {k : ℕ} (hm : m.Plain) (hk : k ≠ 0)
    (hvalue : m.2 < 10 ^ k) : (writeMember m).length ≤ 2 * m.1.length + 3 + k := by
  have hname := length_writeString_le hm
  have hdigits := length_writeNat_le hk hvalue
  rw [writeMember, List.length_append, List.length_cons]
  omega

theorem exists_writeRest (ms : List Member) :
    ∃ c t, writeRest ms = c :: t ∧ isDigit c = false := by
  cases ms with
  | nil => exact ⟨0x7D, [], rfl, rfl⟩
  | cons m ms => exact ⟨0x2C, _, rfl, rfl⟩

theorem readRest_writeRest {ms : List Member} {n : ℕ} (hn : ms.length < n)
    (hms : ∀ m ∈ ms, m.Plain) : readRest n (writeRest ms) = some ms := by
  induction ms generalizing n with
  | nil =>
      cases n with
      | zero => exact absurd hn (Nat.not_lt_zero _)
      | succ n => rfl
  | cons m ms ih =>
      cases n with
      | zero => exact absurd hn (Nat.not_lt_zero _)
      | succ n =>
          have hrest := ih (Nat.lt_of_succ_lt_succ hn) fun d hd => hms d (List.mem_cons_of_mem m hd)
          obtain ⟨c, t, htext, hc⟩ := exists_writeRest ms
          rw [readRest, writeRest, expect_cons]
          dsimp only
          rw [htext] at hrest ⊢
          rw [readMember_writeMember m hc t (hms m List.mem_cons_self), Option.bind_some, hrest,
            Option.map_some]

theorem length_writeRest (ms : List Member) : ms.length < (writeRest ms).length := by
  induction ms with
  | nil => exact Nat.one_pos
  | cons m ms ih =>
      rw [writeRest, List.length_cons, List.length_cons, List.length_append]
      omega

/-- An object is read back. -/
theorem readObject_writeObject {ms : List Member} (hms : ∀ m ∈ ms, m.Plain) :
    readObject (writeObject ms) = some ms := by
  cases ms with
  | nil => rfl
  | cons m ms =>
      have hopen : writeObject (m :: ms) ≠ [0x7B, 0x7D] := by
        intro h
        exact absurd (List.head_eq_of_cons_eq (List.tail_eq_of_cons_eq h)) (by decide)
      have hlen : ms.length < (writeMember m ++ writeRest ms).length := by
        rw [List.length_append]
        exact Nat.lt_add_left _ (length_writeRest ms)
      have hrest := readRest_writeRest hlen fun d hd => hms d (List.mem_cons_of_mem m hd)
      obtain ⟨c, t, htext, hc⟩ := exists_writeRest ms
      rw [readObject, if_neg hopen, writeObject, expect_cons, Option.bind_some]
      rw [htext] at hrest ⊢
      rw [readMember_writeMember m hc t (hms m List.mem_cons_self), Option.bind_some, hrest,
        Option.map_some]

/-! ## Zero bytes -/

theorem writeMember_ne_zero (m : Member) : ∀ c ∈ writeMember m, c ≠ 0 := by
  intro c hc
  rw [writeMember] at hc
  rcases List.mem_append.mp hc with hc | hc
  · exact writeString_ne_zero m.1 c hc
  · rcases List.mem_cons.mp hc with rfl | hc
    · decide
    · rintro rfl
      exact absurd (isDigit_writeNat m.2 0 hc) (by decide)

theorem writeRest_ne_zero (ms : List Member) : ∀ c ∈ writeRest ms, c ≠ 0 := by
  induction ms with
  | nil => decide +kernel
  | cons m ms ih =>
      intro c hc
      rw [writeRest] at hc
      rcases List.mem_cons.mp hc with rfl | hc
      · decide
      · rcases List.mem_append.mp hc with hc | hc
        · exact writeMember_ne_zero m c hc
        · exact ih c hc

/-- The text is a string that ends at its end. -/
theorem writeObject_ne_zero (ms : List Member) : ∀ c ∈ writeObject ms, c ≠ 0 := by
  cases ms with
  | nil => decide +kernel
  | cons m ms =>
      intro c hc
      rw [writeObject] at hc
      rcases List.mem_cons.mp hc with rfl | hc
      · decide
      · rcases List.mem_append.mp hc with hc | hc
        · exact writeMember_ne_zero m c hc
        · exact writeRest_ne_zero ms c hc

end JsonNumbers
