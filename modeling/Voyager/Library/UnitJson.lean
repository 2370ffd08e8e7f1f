import Mathlib.Algebra.Ring.Nat
import Mathlib.Data.Nat.Notation

/-!
# Flat JSON objects in UTF-16

A reader for the compact text of an object whose members are strings, as a list of UTF-16
units with every escape that JSON has. An object is read back whatever the writer of its
strings is, as long as the reader of strings undoes it.
-/

namespace UnitJson

abbrev Units := List UInt16

/-- A member of an object: its name and its value. -/
abbrev Member := Units × Units

/-- What the escapes with one letter stand for. -/
def escapes : List (UInt16 × UInt16) :=
  [(0x22, 0x22), (0x5C, 0x5C), (0x2F, 0x2F), (0x62, 0x08), (0x66, 0x0C), (0x6E, 0x0A),
    (0x72, 0x0D), (0x74, 0x09)]

def unescape (e : UInt16) : Option UInt16 := (escapes.find? fun p => p.1 = e).map Prod.snd

def hexValue (c : UInt16) : Option ℕ :=
  if 0x30 ≤ c ∧ c ≤ 0x39 then some (c.toNat - 0x30)
  else if 0x41 ≤ c ∧ c ≤ 0x46 then some (c.toNat - 0x37)
  else if 0x61 ≤ c ∧ c ≤ 0x66 then some (c.toNat - 0x57)
  else none

/-- The unit with these four digits. -/
def hexUnit (a b c d : UInt16) : Option UInt16 :=
  (hexValue a).bind fun a => (hexValue b).bind fun b => (hexValue c).bind fun c =>
    (hexValue d).map fun d => UInt16.ofNat (a * 4096 + b * 256 + c * 16 + d)

/-- A string up to its closing quote, and what follows. -/
def readUnits : Units → Option (Units × Units)
  | [] => none
  | c :: t =>
      if c = 0x22 then some ([], t)
      else if c = 0x5C then
        match t with
        | [] => none
        | e :: t =>
            if e = 0x75 then
              match t with
              | h :: i :: j :: k :: t =>
                  (hexUnit h i j k).bind fun u => (readUnits t).map fun r => (u :: r.1, r.2)
              | _ => none
            else (unescape e).bind fun u => (readUnits t).map fun r => (u :: r.1, r.2)
      else if c < 0x20 then none
      else (readUnits t).map fun r => (c :: r.1, r.2)

/-- What follows the unit `c`. -/
def expect (c : UInt16) : Units → Option Units
  | [] => none
  | d :: t => if d = c then some t else none

def readString (t : Units) : Option (Units × Units) := (expect 0x22 t).bind readUnits

def readMember (t : Units) : Option (Member × Units) :=
  (readString t).bind fun name =>
    (expect 0x3A name.2).bind fun t => (readString t).map fun value => ((name.1, value.1), value.2)

/-- At most `n` more members and the closing brace. -/
def readRest : ℕ → Units → Option (List Member)
  | 0, _ => none
  | n + 1, t =>
      match expect 0x2C t with
      | some t => (readMember t).bind fun m => (readRest n m.2).map fun ms => m.1 :: ms
      | none => if t = [0x7D] then some [] else none

def readObject (t : Units) : Option (List Member) :=
  if t = [0x7B, 0x7D] then some []
  else (expect 0x7B t).bind fun t =>
    (readMember t).bind fun m => (readRest t.length m.2).map fun ms => m.1 :: ms

/-! ## Reading a string -/

@[simp] theorem expect_cons (c : UInt16) (t : Units) : expect c (c :: t) = some t := if_pos rfl

theorem readUnits_quote (t : Units) : readUnits (0x22 :: t) = some ([], t) := by
  rw [readUnits.eq_def]
  exact if_pos rfl

theorem readUnits_plain {c : UInt16} (hquote : c ≠ 0x22) (hslash : c ≠ 0x5C) (hlo : ¬ c < 0x20)
    (t : Units) : readUnits (c :: t) = (readUnits t).map fun r => (c :: r.1, r.2) := by
  rw [readUnits.eq_def]
  dsimp only
  rw [if_neg hquote, if_neg hslash, if_neg hlo]

theorem readUnits_escape {e u : UInt16} (h : unescape e = some u) (t : Units) :
    readUnits (0x5C :: e :: t) = (readUnits t).map fun r => (u :: r.1, r.2) := by
  have hu : unescape 0x75 = none := by decide
  have hne : e ≠ 0x75 := by
    rintro rfl
    exact Option.some_ne_none u (h.symm.trans hu)
  rw [readUnits.eq_def]
  dsimp only
  rw [if_neg (by decide), if_pos rfl, if_neg hne, h, Option.bind_some]

theorem readUnits_unicode {a b c d u : UInt16} (h : hexUnit a b c d = some u) (t : Units) :
    readUnits (0x5C :: 0x75 :: a :: b :: c :: d :: t) =
      (readUnits t).map fun r => (u :: r.1, r.2) := by
  rw [readUnits.eq_def]
  dsimp only
  rw [if_neg (by decide), if_pos rfl, if_pos rfl, h, Option.bind_some]

/-! ## Reading an object -/

/-- The text of an object, with a writer of its strings. -/
def objectText (quote : Units → Units) (ms : List Member) : Units :=
  0x7B :: ([0x2C].intercalate (ms.map fun m => quote m.1 ++ 0x3A :: quote m.2) ++ [0x7D])

/-- The members after the first one, and the closing brace. -/
def restText (quote : Units → Units) : List Member → Units
  | [] => [0x7D]
  | m :: ms => 0x2C :: (quote m.1 ++ 0x3A :: (quote m.2 ++ restText quote ms))

theorem objectText_cons (quote : Units → Units) (m : Member) (ms : List Member) :
    objectText quote (m :: ms) =
      0x7B :: (quote m.1 ++ 0x3A :: (quote m.2 ++ restText quote ms)) := by
  have hrest : ∀ (t : Units) (ms : List Member),
      [0x2C].intercalate (t :: ms.map fun m => quote m.1 ++ 0x3A :: quote m.2) ++ [0x7D] =
        t ++ restText quote ms := by
    intro t ms
    induction ms generalizing t with
    | nil => simp [restText]
    | cons m ms ih =>
        rw [List.map_cons, List.intercalate_cons_cons, List.append_assoc, List.append_assoc, ih,
          restText]
        simp
  rw [objectText, List.map_cons, hrest]
  simp

theorem length_restText (quote : Units → Units) (ms : List Member) :
    ms.length < (restText quote ms).length := by
  induction ms with
  | nil => exact Nat.one_pos
  | cons m ms ih =>
      simp only [restText, List.length_cons, List.length_append]
      omega

section Writer

variable {quote : Units → Units} (hquote : ∀ s t, readString (quote s ++ t) = some (s, t))
include hquote

theorem readMember_text (m : Member) (t : Units) :
    readMember (quote m.1 ++ 0x3A :: (quote m.2 ++ t)) = some (m, t) := by
  rw [readMember, hquote, Option.bind_some, expect_cons, Option.bind_some, hquote,
    Option.map_some]

theorem readRest_text {ms : List Member} {n : ℕ} (hn : ms.length < n) :
    readRest n (restText quote ms) = some ms := by
  induction ms generalizing n with
  | nil =>
      cases n with
      | zero => exact absurd hn (Nat.not_lt_zero _)
      | succ n => rfl
  | cons m ms ih =>
      cases n with
      | zero => exact absurd hn (Nat.not_lt_zero _)
      | succ n =>
          rw [readRest, restText, expect_cons]
          dsimp only
          rw [readMember_text hquote, Option.bind_some, ih (Nat.lt_of_succ_lt_succ hn),
            Option.map_some]

/-- An object is read back. -/
theorem readObject_text (ms : List Member) : readObject (objectText quote ms) = some ms := by
  cases ms with
  | nil => rfl
  | cons m ms =>
      have hmember := readMember_text hquote m (restText quote ms)
      have hopen : objectText quote (m :: ms) ≠ [0x7B, 0x7D] := by
        intro h
        rw [objectText_cons, List.cons.injEq] at h
        rw [h.2] at hmember
        exact absurd hmember (by simp [readMember, readString, expect])
      have hlen := length_restText quote ms
      rw [readObject, if_neg hopen, objectText_cons, expect_cons, Option.bind_some, hmember,
        Option.bind_some, readRest_text hquote, Option.map_some]
      simp only [List.length_append, List.length_cons]
      omega

end Writer

end UnitJson
