import Mathlib.Data.List.TakeWhile
import Mathlib.Data.Nat.Digits.Lemmas
import Voyager.Kermit.Packet

/-!
# Strings and the send-init negotiation

The two sides exchange their parameters in the data of the `S` packet and of its
acknowledgement; `negotiate` reads those of the peer. The file's name and size travel as
text, so a string of the source is a list of code units here.
-/

namespace Voyager

namespace Kermit

/-! ## Strings -/

/-- A JavaScript string: UTF-16 code units. -/
abbrev JsString := List UInt16

/-- A string literal of the source; all of them are ASCII. -/
def lit (s : String) : JsString := s.toList.map fun c => UInt16.ofNat c.toNat

def strBytes (s : JsString) : List Byte := s.map UInt16.toUInt8
def bytesStr (a : List Byte) : JsString := a.map UInt8.toUInt16

/-- `String(n)` of a non-negative integer that is written without an exponent. -/
def decimal (n : ℕ) : JsString :=
  if n = 0 then [48] else (Nat.digits 10 n).reverse.map fun d => UInt16.ofNat (d + 48)

def isDigit (c : UInt16) : Bool := 48 ≤ c && c ≤ 57

/-- White space below 256; `parseInt` is called on strings of bytes. -/
def isSpace (c : UInt16) : Bool := (9 ≤ c && c ≤ 13) || c = 32 || c = 160

/-- The number read from leading digits; `none` is `NaN`. -/
def readDigits (s : JsString) : Option ℕ :=
  match s.takeWhile isDigit with
  | [] => none
  | ds => some (ds.foldl (fun n c => n * 10 + (c.toNat - 48)) 0)

/-- `parseInt(s, 10)`. -/
def parseInt (s : JsString) : Option ℤ :=
  match s.dropWhile isSpace with
  | 45 :: rest => (readDigits rest).map fun n : ℕ => -(n : ℤ)
  | 43 :: rest => (readDigits rest).map fun n : ℕ => (n : ℤ)
  | rest => (readDigits rest).map fun n : ℕ => (n : ℤ)

def isLineTerminator (c : UInt16) : Bool := c = 10 || c = 13 || c = 0x2028 || c = 0x2029

/-- What follows the last slash or backslash of the first line. -/
def afterSlash : JsString → Option JsString
  | [] => none
  | c :: cs =>
      if isLineTerminator c then none
      else (afterSlash cs).or (if c = 92 ∨ c = 47 then some cs else none)

/-- `String(name || "file").replace(/^.*[\\/]/, "") || "file"`. -/
def baseName (name : JsString) : JsString :=
  let full := if name = [] then lit "file" else name
  match (afterSlash full).getD full with
  | [] => lit "file"
  | base => base

/-! ## Parameters -/

def MAX_LONG : ℕ := 230
def CAPAS_LONG : Byte := 2
def CAPAS_ATTR : Byte := 8

def initParams (timeoutMs : ℕ) : List Byte :=
  let maxl := MAX_LONG
  [tochar MAX_BASIC,
    tochar (min 94 (max 1 ((timeoutMs + 999) / 1000))),
    tochar 0,
    ctl 0,
    tochar EOL.toNat,
    QCTL,
    0x59,
    0x33,
    REPT,
    tochar (CAPAS_LONG ||| CAPAS_ATTR).toNat,
    tochar 1,
    tochar (maxl / 95),
    tochar (maxl % 95)]

/-- What `negotiate` returns: what we may send and how both sides encode. -/
structure Neg where
  maxl : ℕ
  time : Byte
  eol : Byte
  qctl : Byte
  ckType : ℕ
  qbin : Byte
  rept : Byte
  long : Bool
  attr : Bool
  deriving DecidableEq, Repr

def Neg.quote (neg : Neg) : Quote := ⟨neg.qbin, neg.rept, neg.qctl⟩

/-- `neg || {qbin: 0, rept: 0}`. -/
def quoteOr (neg : Option Neg) : Quote :=
  match neg with
  | some neg => neg.quote
  | none => ⟨0, 0, 0⟩

/-- `x || y` on numbers. -/
def orElse (x y : Byte) : Byte := if x = 0 then y else x

/-- The index of `WINDO`: CAPAS goes on while its lowest bit is set. -/
def windoIndex (peer : List Byte) : ℕ :=
  9 + ((peer.drop 9).takeWhile fun c => unchar c &&& 1 ≠ 0).length + 1

/-- `MAXLX1` and `MAXLX2`, or the default of the protocol when they are not there. -/
def longMaxl (peer : List Byte) : ℕ :=
  let after := windoIndex peer
  if after + 2 < peer.length then
    (unchar (byteAt peer (after + 1))).toNat * 95 + (unchar (byteAt peer (after + 2))).toNat
  else 500

def negotiate (peer : List Byte) : Neg :=
  let at' := fun i => peer.getD i 32
  let qctl := if at' 5 = 32 then QCTL else at' 5
  let qb := at' 6
  let capas := if 9 < peer.length then unchar (at' 9) else 0
  { maxl := if capas &&& CAPAS_LONG ≠ 0 then longMaxl peer else (orElse (unchar (at' 0)) 80).toNat,
    time := orElse (unchar (at' 1)) 10,
    eol := orElse (unchar (at' 4)) EOL,
    qctl := if qctl < 33 ∨ 126 < qctl then QCTL else qctl,
    ckType := if at' 7 = 0x33 then 3 else 1,
    qbin := if (33 ≤ qb ∧ qb ≤ 62) ∨ (96 ≤ qb ∧ qb ≤ 126) then qb else 0,
    rept := if at' 8 = REPT then REPT else 0,
    long := capas &&& CAPAS_LONG ≠ 0,
    attr := capas &&& CAPAS_ATTR ≠ 0 }

/-- The most encoded data bytes in a packet we send; a small `maxl` can make it negative. -/
def dataRoom (neg : Neg) : ℤ :=
  let cl := ckLen neg.ckType
  if neg.long then max 10 ((min neg.maxl MAX_LONG : ℕ) - 5 - cl)
  else (min neg.maxl MAX_BASIC : ℕ) - 2 - cl

/-! ## Numbers in text -/

theorem isDigit_decimal {n : ℕ} : ∀ c ∈ decimal n, isDigit c = true := by
  intro c hc
  rw [decimal] at hc
  split at hc
  · rw [List.mem_singleton.mp hc]
    rfl
  · obtain ⟨d, hd, rfl⟩ := List.mem_map.mp hc
    have hlt := Nat.digits_lt_base (by decide : 1 < 10) (List.mem_reverse.mp hd)
    have hall : ∀ d < 10, isDigit (UInt16.ofNat (d + 48)) = true := by decide
    exact hall d hlt

theorem decimal_ne_nil (n : ℕ) : decimal n ≠ [] := by
  rw [decimal]
  split
  · exact List.cons_ne_nil _ _
  · next h =>
      rw [ne_eq, List.map_eq_nil_iff, List.reverse_eq_nil_iff, Nat.digits_eq_nil_iff_eq_zero]
      exact h

theorem decimal_length_le {n : ℕ} (h : n < 2 ^ 53) : (decimal n).length ≤ 16 := by
  rw [decimal]
  split
  · exact Nat.succ_le_succ (Nat.zero_le _)
  · rw [List.length_map, List.length_reverse, Nat.digits_length_le_iff (by decide)]
    omega

theorem foldl_digits (n : ℕ) :
    ((Nat.digits 10 n).reverse.map fun d => UInt16.ofNat (d + 48)).foldl
      (fun n c => n * 10 + (c.toNat - 48)) 0 = n := by
  have hdigits : ∀ l : List ℕ, (∀ d ∈ l, d < 10) →
      (l.reverse.map fun d => UInt16.ofNat (d + 48)).foldl
        (fun n c => n * 10 + (c.toNat - 48)) 0 = Nat.ofDigits 10 l := by
    intro l hl
    induction l with
    | nil => rfl
    | cons d l ih =>
        have hd := hl d List.mem_cons_self
        have hval : (UInt16.ofNat (d + 48)).toNat - 48 = d := by
          rw [UInt16.toNat_ofNat', Nat.mod_eq_of_lt (by omega), Nat.add_sub_cancel]
        rw [List.reverse_cons, List.map_append, List.foldl_append,
          ih fun x hx => hl x (List.mem_cons_of_mem _ hx), Nat.ofDigits_cons, List.map_singleton,
          List.foldl_cons, List.foldl_nil, hval]
        omega
  rw [hdigits _ fun d hd => Nat.digits_lt_base (by decide) hd, Nat.ofDigits_digits]

theorem readDigits_decimal (n : ℕ) : readDigits (decimal n) = some n := by
  have hall : (decimal n).takeWhile isDigit = decimal n :=
    List.takeWhile_eq_self_iff.mpr isDigit_decimal
  rw [readDigits, hall]
  obtain ⟨c, cs, hcs⟩ := List.exists_cons_of_ne_nil (decimal_ne_nil n)
  have hfold : (decimal n).foldl (fun n c => n * 10 + (c.toNat - 48)) 0 = n := by
    rw [decimal]
    split
    · next h => rw [h]; rfl
    · exact foldl_digits n
  rw [hcs] at hfold ⊢
  exact congrArg some hfold

/-- What `String` writes `parseInt` reads. -/
theorem parseInt_decimal (n : ℕ) : parseInt (decimal n) = some (n : ℤ) := by
  obtain ⟨c, cs, hcs⟩ := List.exists_cons_of_ne_nil (decimal_ne_nil n)
  have hdigit : isDigit c = true := isDigit_decimal c (hcs ▸ List.mem_cons_self)
  simp only [isDigit, Bool.and_eq_true, decide_eq_true_eq] at hdigit
  have hspace : isSpace c = false := by
    simp only [isSpace, Bool.or_eq_false_iff, Bool.and_eq_false_iff, decide_eq_false_iff_not]
    grind
  have hdrop : (decimal n).dropWhile isSpace = decimal n := by
    rw [hcs, List.dropWhile_cons_of_neg (by rw [hspace]; exact Bool.false_ne_true)]
  have hread := readDigits_decimal n
  rw [hcs] at hread hdrop
  rw [parseInt, hcs, hdrop]
  split
  · next h => grind
  · next h => grind
  · rw [hread, Option.map_some]

theorem toNat_toUInt8_of_isDigit {c : UInt16} (h : isDigit c = true) :
    c.toUInt8.toNat = c.toNat ∧ 48 ≤ c.toNat ∧ c.toNat ≤ 57 := by
  simp only [isDigit, Bool.and_eq_true, decide_eq_true_eq, UInt16.le_iff_toNat_le] at h
  have hlow : 48 ≤ c.toNat := h.1
  have hhigh : c.toNat ≤ 57 := h.2
  rw [UInt16.toNat_toUInt8]
  omega

theorem bytesStr_strBytes_decimal (n : ℕ) : bytesStr (strBytes (decimal n)) = decimal n := by
  have hsame : ∀ c ∈ decimal n, (UInt8.toUInt16 ∘ UInt16.toUInt8) c = id c := by
    intro c hc
    rw [Function.comp_apply, id_eq, ← UInt16.toNat_inj, UInt8.toNat_toUInt16,
      (toNat_toUInt8_of_isDigit (isDigit_decimal c hc)).1]
  rw [bytesStr, strBytes, List.map_map, List.map_congr_left hsame, List.map_id]

theorem strBytes_decimal_clean (n : ℕ) : ∀ b ∈ strBytes (decimal n), isControl b = false := by
  intro b hb
  obtain ⟨c, hc, rfl⟩ := List.mem_map.mp hb
  obtain ⟨heq, hlow, hhigh⟩ := toNat_toUInt8_of_isDigit (isDigit_decimal c hc)
  simp only [isControl, Bool.or_eq_false_iff, decide_eq_false_iff_not, UInt8.lt_iff_toNat_lt,
    ← UInt8.toNat_inj]
  exact ⟨show ¬ c.toUInt8.toNat < 32 by omega, show ¬ c.toUInt8.toNat = 127 by omega⟩

/-! ## The parameters of this module -/

theorem initParams_eq (timeoutMs : ℕ) :
    ∃ n ≤ 94, initParams timeoutMs =
      [126, tochar n, 32, 64, 45, QCTL, 0x59, 0x33, REPT, 42, 33, 34, 72] :=
  ⟨min 94 (max 1 ((timeoutMs + 999) / 1000)), by omega, rfl⟩

/-- Every side of this module asks for the same, its time aside. -/
theorem negotiate_initParams (timeoutMs : ℕ) :
    ∃ time, negotiate (initParams timeoutMs) =
      { maxl := 230, time := time, eol := EOL, qctl := QCTL, ckType := 3, qbin := 0,
        rept := REPT, long := true, attr := true } := by
  obtain ⟨n, -, hinit⟩ := initParams_eq timeoutMs
  have hafter : windoIndex [126, tochar n, 32, 64, 45, QCTL, 0x59, 0x33, REPT, 42, 33, 34, 72] =
      9 + (([42, 33, 34, 72] : List Byte).takeWhile fun c => unchar c &&& 1 ≠ 0).length + 1 := rfl
  have hindex : 9 + (([42, 33, 34, 72] : List Byte).takeWhile fun c => unchar c &&& 1 ≠ 0).length +
      1 = 10 := by decide
  have hmaxl : longMaxl [126, tochar n, 32, 64, 45, QCTL, 0x59, 0x33, REPT, 42, 33, 34, 72] =
      230 := by
    rw [longMaxl, hafter, hindex]
    exact show (unchar 34).toNat * 95 + (unchar 72).toNat = 230 by decide
  have heol : orElse (unchar 45) EOL = EOL := by decide
  refine ⟨orElse (unchar (tochar n)) 10, ?_⟩
  rw [hinit, negotiate]
  simp only [List.getD_cons_zero, List.getD_cons_succ, List.length_cons, List.length_nil,
    hmaxl, heol]
  congr 1

theorem dataRoom_of_long {neg : Neg} (hlong : neg.long = true) (hck : neg.ckType = 3)
    (hmaxl : neg.maxl = 230) : dataRoom neg = 222 := by
  rw [dataRoom, hlong, hck, hmaxl]
  rfl

theorem initParams_clean (timeoutMs : ℕ) : ∀ b ∈ initParams timeoutMs, isControl b = false := by
  obtain ⟨n, hn, hinit⟩ := initParams_eq timeoutMs
  have htime : ∀ n < 95, isControl (tochar n) = false := by
    unfold isControl tochar
    decide +kernel
  rw [hinit]
  simp only [List.mem_cons, List.not_mem_nil, or_false]
  rintro b (rfl | rfl | rfl | rfl | rfl | rfl | rfl | rfl | rfl | rfl | rfl | rfl | rfl)
  · rfl
  · exact htime n (by omega)
  all_goals rfl

end Kermit

end Voyager
