import Mathlib.Data.Nat.Notation

/-!
# Flat JSON objects

The compact text of an object whose members are strings, and a reader for such texts. Names
and values are byte strings; what is read back is what was written as long as they have no
zero byte.
-/

namespace FlatJson

abbrev Bytes := List UInt8

/-- A member of an object: its name and its value. -/
abbrev Member := Bytes × Bytes

/-- `escapes` pairs what is written behind a backslash with what it stands for. -/
def escapes : List (UInt8 × UInt8) :=
  [(0x22, 0x22), (0x5C, 0x5C), (0x62, 0x08), (0x66, 0x0C), (0x6E, 0x0A), (0x72, 0x0D),
    (0x74, 0x09)]

/-! ## Writing -/

def writeChar (c : UInt8) : Bytes :=
  match escapes.find? fun p => p.2 = c with
  | some p => [0x5C, p.1]
  | none => if c = 0 then [0x5C, 0x75, 0x30, 0x30, 0x30, 0x30] else [c]

def writeChars (s : Bytes) : Bytes := s.flatMap writeChar

def writeString (s : Bytes) : Bytes := 0x22 :: (writeChars s ++ [0x22])

def writeMember (m : Member) : Bytes := writeString m.1 ++ 0x3A :: writeString m.2

/-- The members after the first one, and the closing brace. -/
def writeRest : List Member → Bytes
  | [] => [0x7D]
  | m :: ms => 0x2C :: (writeMember m ++ writeRest ms)

def writeObject : List Member → Bytes
  | [] => [0x7B, 0x7D]
  | m :: ms => 0x7B :: (writeMember m ++ writeRest ms)

/-! ## Reading -/

def unescape (e : UInt8) : Option UInt8 := (escapes.find? fun p => p.1 = e).map Prod.snd

/-- A string up to its closing quote, and what follows. -/
def readChars : Bytes → Option (Bytes × Bytes)
  | [] => none
  | [c] => if c = 0x22 then some ([], []) else none
  | c :: e :: rest =>
      if c = 0x22 then some ([], e :: rest)
      else if c = 0x5C then
        (unescape e).bind fun d => (readChars rest).map fun r => (d :: r.1, r.2)
      else (readChars (e :: rest)).map fun r => (c :: r.1, r.2)

/-- What follows the byte `c`. -/
def expect (c : UInt8) : Bytes → Option Bytes
  | [] => none
  | d :: rest => if d = c then some rest else none

def readString (t : Bytes) : Option (Bytes × Bytes) := (expect 0x22 t).bind readChars

def readMember (t : Bytes) : Option (Member × Bytes) :=
  (readString t).bind fun name =>
    (expect 0x3A name.2).bind fun t => (readString t).map fun value => ((name.1, value.1), value.2)

/-- At most `n` more members and the closing brace. -/
def readRest : ℕ → Bytes → Option (List Member)
  | 0, _ => none
  | n + 1, t =>
      match expect 0x2C t with
      | some t => (readMember t).bind fun m => (readRest n m.2).map fun ms => m.1 :: ms
      | none => if t = [0x7D] then some [] else none

def readObject (t : Bytes) : Option (List Member) :=
  if t = [0x7B, 0x7D] then some []
  else (expect 0x7B t).bind fun t =>
    (readMember t).bind fun m => (readRest t.length m.2).map fun ms => m.1 :: ms

/-! ## The round trip -/

theorem expect_cons (c : UInt8) (t : Bytes) : expect c (c :: t) = some t := if_pos rfl

theorem readChars_quote (t : Bytes) : readChars (0x22 :: t) = some ([], t) := by
  cases t with
  | nil => rfl
  | cons e t => rfl

theorem unescape_of_mem {p : UInt8 × UInt8} (hp : p ∈ escapes) : unescape p.1 = some p.2 := by
  have hall : escapes.all (fun p => unescape p.1 == some p.2) = true := by decide
  exact eq_of_beq (List.all_eq_true.mp hall p hp)

/-- An escaped byte is read back. -/
theorem readChars_escape {e d : UInt8} (h : unescape e = some d) (t : Bytes) :
    readChars (0x5C :: e :: t) = (readChars t).map fun r => (d :: r.1, r.2) := by
  rw [readChars, if_neg (by decide), if_pos rfl, h, Option.bind_some]

theorem readChars_cons {c : UInt8} (hquote : c ≠ 0x22) (hslash : c ≠ 0x5C) (t : Bytes) :
    readChars (c :: t) = (readChars t).map fun r => (c :: r.1, r.2) := by
  cases t with
  | nil => exact if_neg hquote
  | cons e t => rw [readChars, if_neg hquote, if_neg hslash]

/-- What is written for a byte is read as that byte. -/
theorem readChars_writeChar {c : UInt8} (hc : c ≠ 0) (t : Bytes) :
    readChars (writeChar c ++ t) = (readChars t).map fun r => (c :: r.1, r.2) := by
  rw [writeChar]
  cases hfind : escapes.find? fun p => p.2 = c with
  | some p =>
      have hmem := List.mem_of_find?_eq_some hfind
      have hp : p.2 = c := by simpa using List.find?_some hfind
      rw [← hp]
      exact readChars_escape (unescape_of_mem hmem) t
  | none =>
      have hnone : ∀ p ∈ escapes, p.2 ≠ c := by simpa using List.find?_eq_none.mp hfind
      dsimp only
      rw [if_neg hc]
      exact readChars_cons (hnone (0x22, 0x22) (by decide)).symm
        (hnone (0x5C, 0x5C) (by decide)).symm t

theorem readChars_writeChars (s t : Bytes) (hs : ∀ c ∈ s, c ≠ 0) :
    readChars (writeChars s ++ 0x22 :: t) = some (s, t) := by
  induction s with
  | nil => exact readChars_quote t
  | cons c s ih =>
      rw [writeChars, List.flatMap_cons, List.append_assoc,
        readChars_writeChar (hs c List.mem_cons_self)]
      have htail := ih fun d hd => hs d (List.mem_cons_of_mem c hd)
      rw [writeChars] at htail
      rw [htail, Option.map_some]

theorem readString_writeString (s t : Bytes) (hs : ∀ c ∈ s, c ≠ 0) :
    readString (writeString s ++ t) = some (s, t) := by
  rw [readString, writeString, List.cons_append, expect_cons, Option.bind_some,
    List.append_assoc, List.singleton_append, readChars_writeChars s t hs]

/-- Neither the name nor the value has a zero byte. -/
def Member.Plain (m : Member) : Prop := (∀ c ∈ m.1, c ≠ 0) ∧ ∀ c ∈ m.2, c ≠ 0

theorem readMember_writeMember (m : Member) (t : Bytes) (hm : m.Plain) :
    readMember (writeMember m ++ t) = some (m, t) := by
  rw [readMember, writeMember, List.append_assoc, readString_writeString _ _ hm.1,
    Option.bind_some, List.cons_append, expect_cons, Option.bind_some,
    readString_writeString _ _ hm.2, Option.map_some]

theorem readRest_writeRest {ms : List Member} {n : ℕ} (hn : ms.length < n)
    (hms : ∀ m ∈ ms, m.Plain) : readRest n (writeRest ms) = some ms := by
  induction ms generalizing n with
  | nil =>
      cases n with
      | zero => exact absurd hn (Nat.not_lt_zero _)
      | succ n => rfl
  | cons m ms ih =>
      cases n with
      | zero => exact absurd hn (Nat.not_lt_zero _)
      | succ n =>
          rw [readRest, writeRest, expect_cons]
          dsimp only
          rw [readMember_writeMember m _ (hms m List.mem_cons_self), Option.bind_some,
            ih (Nat.lt_of_succ_lt_succ hn) fun d hd => hms d (List.mem_cons_of_mem m hd),
            Option.map_some]

theorem length_writeRest (ms : List Member) : ms.length < (writeRest ms).length := by
  induction ms with
  | nil => exact Nat.one_pos
  | cons m ms ih =>
      rw [writeRest, List.length_cons, List.length_cons, List.length_append]
      omega

/-- An object is read back. -/
theorem readObject_writeObject {ms : List Member} (hms : ∀ m ∈ ms, m.Plain) :
    readObject (writeObject ms) = some ms := by
  cases ms with
  | nil => rfl
  | cons m ms =>
      have hopen : writeObject (m :: ms) ≠ [0x7B, 0x7D] := by
        intro h
        exact absurd (List.head_eq_of_cons_eq (List.tail_eq_of_cons_eq h)) (by decide)
      have hlen : ms.length < (writeMember m ++ writeRest ms).length := by
        rw [List.length_append]
        exact Nat.lt_add_left _ (length_writeRest ms)
      rw [readObject, if_neg hopen, writeObject, expect_cons, Option.bind_some,
        readMember_writeMember m _ (hms m List.mem_cons_self), Option.bind_some,
        readRest_writeRest hlen fun d hd => hms d (List.mem_cons_of_mem m hd), Option.map_some]

/-! ## Zero bytes -/

theorem writeChar_ne_zero (c : UInt8) : ∀ d ∈ writeChar c, d ≠ 0 := by
  intro d hd
  rw [writeChar] at hd
  split at hd
  · next p hp =>
      have hall : ∀ p ∈ escapes, p.1 ≠ 0 := by simp [escapes]
      rcases List.mem_cons.mp hd with rfl | hd
      · decide
      · rw [List.mem_singleton.mp hd]
        exact hall p (List.mem_of_find?_eq_some hp)
  · split at hd
    · have hall : ∀ d ∈ [(0x5C : UInt8), 0x75, 0x30, 0x30, 0x30, 0x30], d ≠ 0 := by decide +kernel
      exact hall d hd
    · next hc =>
        rw [List.mem_singleton.mp hd]
        exact hc

theorem writeString_ne_zero (s : Bytes) : ∀ d ∈ writeString s, d ≠ 0 := by
  intro d hd
  rw [writeString] at hd
  rcases List.mem_cons.mp hd with rfl | hd
  · decide
  · rcases List.mem_append.mp hd with hd | hd
    · obtain ⟨c, -, hd⟩ := List.mem_flatMap.mp hd
      exact writeChar_ne_zero c d hd
    · rw [List.mem_singleton.mp hd]
      decide

/-! ## Bytes without an escape -/

/-- The byte is written as it is. -/
def Unescaped (c : UInt8) : Prop := c ≠ 0 ∧ ∀ p ∈ escapes, p.2 ≠ c

instance (c : UInt8) : Decidable (Unescaped c) :=
  have : Decidable (∀ p ∈ escapes, p.2 ≠ c) := List.decidableBAll _ escapes
  inferInstanceAs (Decidable (_ ∧ _))

theorem writeChar_of_unescaped {c : UInt8} (hc : Unescaped c) : writeChar c = [c] := by
  have hfind : (escapes.find? fun p => p.2 = c) = none := by
    rw [List.find?_eq_none]
    exact fun p hp h => hc.2 p hp (of_decide_eq_true h)
  rw [writeChar, hfind]
  exact if_neg hc.1

theorem writeChars_of_unescaped {s : Bytes} (hs : ∀ c ∈ s, Unescaped c) : writeChars s = s := by
  induction s with
  | nil => rfl
  | cons c s ih =>
      have htail := ih fun d hd => hs d (List.mem_cons_of_mem c hd)
      rw [writeChars] at htail
      rw [writeChars, List.flatMap_cons, writeChar_of_unescaped (hs c List.mem_cons_self), htail]
      rfl

theorem length_writeString_of_unescaped {s : Bytes} (hs : ∀ c ∈ s, Unescaped c) :
    (writeString s).length = s.length + 2 := by
  rw [writeString, writeChars_of_unescaped hs, List.length_cons, List.length_append,
    List.length_singleton]

/-! ## Lengths -/

theorem le_length_writeString (s : Bytes) : s.length ≤ (writeString s).length := by
  have hchars : s.length ≤ (writeChars s).length := by
    induction s with
    | nil => exact Nat.le_refl 0
    | cons c s ih =>
        have hchar : 1 ≤ (writeChar c).length := by
          rw [writeChar]
          split
          · exact Nat.le_succ 1
          · split
            · exact Nat.le_add_left 1 5
            · exact Nat.le_refl 1
        rw [writeChars] at ih
        rw [writeChars, List.flatMap_cons, List.length_append, List.length_cons]
        omega
  rw [writeString, List.length_cons, List.length_append]
  omega

theorem length_writeChar_le {c : UInt8} (hc : c ≠ 0) : (writeChar c).length ≤ 2 := by
  rw [writeChar]
  split
  · exact Nat.le_refl 2
  · rw [if_neg hc]
    exact Nat.le_succ 1

theorem length_writeString_le {s : Bytes} (hs : ∀ c ∈ s, c ≠ 0) :
    (writeString s).length ≤ 2 * s.length + 2 := by
  have hchars : (writeChars s).length ≤ 2 * s.length := by
    induction s with
    | nil => exact Nat.le_refl 0
    | cons c s ih =>
        have hc := length_writeChar_le (hs c List.mem_cons_self)
        have htail := ih fun d hd => hs d (List.mem_cons_of_mem c hd)
        rw [writeChars] at htail
        rw [writeChars, List.flatMap_cons, List.length_append, List.length_cons]
        omega
  rw [writeString, List.length_cons, List.length_append, List.length_singleton]
  omega

end FlatJson
