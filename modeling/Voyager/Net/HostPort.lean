import Mathlib.Data.List.TakeWhile
import Voyager.Lora.Net

/-!
# Addresses as text

How the Go library writes an IPv4 address and a port, and how it reads them back. Reading is
strict: four numbers up to 255 without leading zeros, and one port behind the last colon.
-/

namespace Voyager

namespace NetCore

def COLON : Byte := 0x3A
def DOT : Byte := 0x2E
def OPEN_BRACKET : Byte := 0x5B
def CLOSE_BRACKET : Byte := 0x5D

/-! ## IPv4 addresses -/

def digit (n : ℕ) : Byte := UInt8.ofNat (0x30 + n)

/-- `appendDecimal` of `net/netip`. -/
def appendDecimal (x : ℕ) : List Byte :=
  (if x ≥ 100 then [digit (x / 100)] else []) ++
    ((if x ≥ 10 then [digit (x / 10 % 10)] else []) ++ [digit (x % 10)])

/-- `Addr.String` of an IPv4 address. -/
def addrString (ip : IpAddr) : List Byte :=
  appendDecimal ip.a.toNat ++ DOT :: (appendDecimal ip.b.toNat ++ DOT ::
    (appendDecimal ip.c.toNat ++ DOT :: appendDecimal ip.d.toNat))

def isDigit (c : Byte) : Bool := 0x30 ≤ c && c ≤ 0x39

/-- The loop of `parseIPv4Fields`: the fields so far, the value of the field it is in and the
number of its digits. -/
def parseIPv4Fields : List Byte → List Byte → ℕ → ℕ → Option (List Byte)
  | [], fields, val, _ => if fields.length < 3 then none else some (fields ++ [UInt8.ofNat val])
  | c :: rest, fields, val, digLen =>
      if isDigit c then
        if digLen = 1 ∧ val = 0 then none
        else if val * 10 + (c.toNat - 0x30) > 255 then none
        else parseIPv4Fields rest fields (val * 10 + (c.toNat - 0x30)) (digLen + 1)
      else if c = DOT then
        -- no digit before it, or nothing after it
        if digLen = 0 ∨ rest = [] then none
        else if fields.length = 3 then none
        else parseIPv4Fields rest (fields ++ [UInt8.ofNat val]) 0 0
      else none

/-- `parseIPv4`. -/
def parseIPv4 (s : List Byte) : Option IpAddr :=
  match parseIPv4Fields s [] 0 0 with
  | some [a, b, c, d] => some ⟨a, b, c, d⟩
  | _ => none

theorem toNat_digit {n : ℕ} (h : n < 10) : (digit n).toNat = 0x30 + n :=
  toNat_ofNat_of_lt (by omega)

theorem isDigit_digit {n : ℕ} (h : n < 10) : isDigit (digit n) = true := by
  rw [isDigit, Bool.and_eq_true, decide_eq_true_eq, decide_eq_true_eq, UInt8.le_iff_toNat_le,
    UInt8.le_iff_toNat_le, toNat_digit h]
  exact ⟨Nat.le_add_right 0x30 n, Nat.add_le_add_left (Nat.le_of_lt_succ h) 0x30⟩

/-- One more digit of a field. -/
theorem parseIPv4Fields_digit {n : ℕ} (h : n < 10) (rest fields : List Byte) {val digLen : ℕ}
    (hzero : ¬ (digLen = 1 ∧ val = 0)) (hval : val * 10 + n ≤ 255) :
    parseIPv4Fields (digit n :: rest) fields val digLen =
      parseIPv4Fields rest fields (val * 10 + n) (digLen + 1) := by
  have hsub : (digit n).toNat - 0x30 = n := by rw [toNat_digit h, Nat.add_sub_cancel_left]
  rw [parseIPv4Fields, if_pos (isDigit_digit h), if_neg hzero, hsub, if_neg (Nat.not_lt.mpr hval)]

/-- A number that was written is read as one field. -/
theorem parseIPv4Fields_appendDecimal {x : ℕ} (hx : x < 256) (rest fields : List Byte) :
    ∃ k, k ≠ 0 ∧ parseIPv4Fields (appendDecimal x ++ rest) fields 0 0 =
      parseIPv4Fields rest fields x k := by
  have hnone : ∀ val : ℕ, ¬ (0 = 1 ∧ val = 0) := fun _ h => Nat.zero_ne_one h.1
  rw [appendDecimal]
  by_cases h100 : x ≥ 100
  · have h10 : x ≥ 10 := Nat.le_trans (by decide) h100
    refine ⟨3, by decide, ?_⟩
    rw [if_pos h100, if_pos h10]
    simp only [List.cons_append, List.nil_append]
    rw [parseIPv4Fields_digit (by omega) _ _ (hnone _) (by omega),
      parseIPv4Fields_digit (by omega) _ _ (by omega) (by omega),
      parseIPv4Fields_digit (by omega) _ _ (by omega) (by omega)]
    congr 1
    omega
  · rw [if_neg h100]
    by_cases h10 : x ≥ 10
    · refine ⟨2, by decide, ?_⟩
      rw [if_pos h10]
      simp only [List.cons_append, List.nil_append]
      rw [parseIPv4Fields_digit (by omega) _ _ (hnone _) (by omega),
        parseIPv4Fields_digit (by omega) _ _ (by omega) (by omega)]
      congr 1
      omega
    · refine ⟨1, by decide, ?_⟩
      rw [if_neg h10]
      simp only [List.cons_append, List.nil_append]
      rw [parseIPv4Fields_digit (by omega) _ _ (hnone _) (by omega)]
      congr 1
      omega

theorem appendDecimal_ne_nil (x : ℕ) (rest : List Byte) : appendDecimal x ++ rest ≠ [] := by
  rw [appendDecimal, ← List.append_assoc, List.append_assoc]
  exact List.append_ne_nil_of_right_ne_nil _ (List.cons_ne_nil _ _)

/-- A dot ends a field. -/
theorem parseIPv4Fields_dot {rest fields : List Byte} {val digLen : ℕ} (hdigit : digLen ≠ 0)
    (hrest : rest ≠ []) (hfields : fields.length ≠ 3) :
    parseIPv4Fields (DOT :: rest) fields val digLen =
      parseIPv4Fields rest (fields ++ [UInt8.ofNat val]) 0 0 := by
  rw [parseIPv4Fields, if_neg (by decide), if_pos rfl, if_neg (not_or.mpr ⟨hdigit, hrest⟩),
    if_neg hfields]

/-- An address that was written is read back. -/
theorem parseIPv4_addrString (ip : IpAddr) : parseIPv4 (addrString ip) = some ip := by
  obtain ⟨a, b, c, d⟩ := ip
  obtain ⟨k₁, hk₁, h₁⟩ := parseIPv4Fields_appendDecimal a.toNat_lt
    (DOT :: (appendDecimal b.toNat ++ DOT :: (appendDecimal c.toNat ++ DOT ::
      appendDecimal d.toNat))) []
  obtain ⟨k₂, hk₂, h₂⟩ := parseIPv4Fields_appendDecimal b.toNat_lt
    (DOT :: (appendDecimal c.toNat ++ DOT :: appendDecimal d.toNat)) [a]
  obtain ⟨k₃, hk₃, h₃⟩ := parseIPv4Fields_appendDecimal c.toNat_lt
    (DOT :: appendDecimal d.toNat) [a, b]
  obtain ⟨k₄, hk₄, h₄⟩ := parseIPv4Fields_appendDecimal d.toNat_lt [] [a, b, c]
  rw [List.append_nil] at h₄
  have hlast : appendDecimal d.toNat ≠ [] := by
    have h := appendDecimal_ne_nil d.toNat []
    rwa [List.append_nil] at h
  have hfields : parseIPv4Fields (addrString ⟨a, b, c, d⟩) [] 0 0 = some [a, b, c, d] := by
    rw [addrString, h₁, parseIPv4Fields_dot hk₁ (appendDecimal_ne_nil _ _) (by decide),
      UInt8.ofNat_toNat, List.nil_append, h₂,
      parseIPv4Fields_dot hk₂ (appendDecimal_ne_nil _ _) (by simp),
      UInt8.ofNat_toNat, List.singleton_append, h₃, parseIPv4Fields_dot hk₃ hlast (by simp),
      UInt8.ofNat_toNat, List.cons_append, List.singleton_append, h₄, parseIPv4Fields,
      if_neg (by simp), UInt8.ofNat_toNat]
    rfl
  rw [parseIPv4, hfields]

/-! ## Host and port -/

/-- `net.JoinHostPort`. -/
def joinHostPort (host port : List Byte) : List Byte :=
  if COLON ∈ host then OPEN_BRACKET :: (host ++ CLOSE_BRACKET :: COLON :: port)
  else host ++ COLON :: port

/-- What stands behind the last colon. -/
def afterColon (s : List Byte) : List Byte := (s.reverse.takeWhile fun c => c ≠ COLON).reverse

/-- `net.SplitHostPort`. -/
def splitHostPort (s : List Byte) : Option (List Byte × List Byte) :=
  let port := afterColon s
  let before := s.take (s.length - (port.length + 1))
  if COLON ∉ s then none
  else if s.head? = some OPEN_BRACKET then
    let host := s.tail.takeWhile fun c => c ≠ CLOSE_BRACKET
    -- the first closing bracket stands right before the last colon
    if before = OPEN_BRACKET :: (host ++ [CLOSE_BRACKET]) ∧ OPEN_BRACKET ∉ s.tail ∧
        CLOSE_BRACKET ∉ port then some (host, port)
    else none
  else if COLON ∈ before ∨ OPEN_BRACKET ∈ s ∨ CLOSE_BRACKET ∈ s then none
  else some (before, port)

/-- No colon and no bracket. -/
def Unbracketed (s : List Byte) : Prop := COLON ∉ s ∧ OPEN_BRACKET ∉ s ∧ CLOSE_BRACKET ∉ s

theorem not_mem_afterColon (s : List Byte) : COLON ∉ afterColon s := by
  rw [afterColon, List.mem_reverse]
  intro h
  have hne := List.mem_takeWhile_imp h
  simp at hne

theorem mem_of_mem_afterColon {s : List Byte} {c : Byte} (h : c ∈ afterColon s) : c ∈ s := by
  rw [afterColon, List.mem_reverse] at h
  exact List.mem_reverse.mp ((List.takeWhile_sublist _).mem h)

theorem afterColon_append {host port : List Byte} (h : COLON ∉ port) :
    afterColon (host ++ COLON :: port) = port := by
  have hport : ∀ c ∈ port.reverse, decide (c ≠ COLON) = true := by
    intro c hc
    rw [decide_eq_true_eq]
    rintro rfl
    exact h (List.mem_reverse.mp hc)
  rw [afterColon, List.reverse_append, List.reverse_cons, List.append_assoc,
    List.takeWhile_append_of_pos hport, List.singleton_append, List.takeWhile_cons_of_neg (by simp),
    List.append_nil, List.reverse_reverse]

theorem exists_last_colon {s : List Byte} (h : COLON ∈ s) :
    ∃ host port, s = host ++ COLON :: port ∧ COLON ∉ port := by
  induction s with
  | nil => exact absurd h List.not_mem_nil
  | cons c s ih =>
      by_cases hs : COLON ∈ s
      · obtain ⟨host, port, heq, hport⟩ := ih hs
        exact ⟨c :: host, port, congrArg (c :: ·) heq, hport⟩
      · have hc : c = COLON := ((List.mem_cons.mp h).resolve_right hs).symm
        exact ⟨[], s, congrArg (· :: s) hc, hs⟩

theorem afterColon_cons {s : List Byte} (c : Byte) (h : COLON ∈ s) :
    afterColon (c :: s) = afterColon s := by
  obtain ⟨host, port, rfl, hport⟩ := exists_last_colon h
  rw [afterColon_append hport, ← List.cons_append, afterColon_append hport]

/-- The port of an address that could be split. -/
theorem unbracketed_port {s host port : List Byte} (h : splitHostPort s = some (host, port)) :
    Unbracketed port := by
  rw [splitHostPort] at h
  dsimp only at h
  split at h
  · cases h
  · rename_i hcolon
    split at h
    · split at h
      · -- the bracket at the front is not behind the last colon
        rename_i hhead hok
        cases h
        refine ⟨not_mem_afterColon s, fun hopen => hok.2.1 ?_, hok.2.2⟩
        cases s with
        | nil => cases hhead
        | cons c s =>
            have hc : c = OPEN_BRACKET := Option.some.inj hhead
            have hs : COLON ∈ s := by
              refine (List.mem_cons.mp (not_not.mp hcolon)).resolve_left ?_
              rw [hc]
              decide
            rw [afterColon_cons c hs] at hopen
            exact mem_of_mem_afterColon hopen
      · cases h
    · split at h
      · cases h
      · rename_i hok
        cases h
        rw [not_or, not_or] at hok
        exact ⟨not_mem_afterColon s, fun hopen => hok.2.1 (mem_of_mem_afterColon hopen),
          fun hclose => hok.2.2 (mem_of_mem_afterColon hclose)⟩

/-- A host without colons and brackets is read back. -/
theorem splitHostPort_joinHostPort {host port : List Byte} (hhost : Unbracketed host)
    (hport : Unbracketed port) : splitHostPort (joinHostPort host port) = some (host, port) := by
  have hafter : afterColon (host ++ COLON :: port) = port := afterColon_append hport.1
  have hbefore : (host ++ COLON :: port).take
      ((host ++ COLON :: port).length - (port.length + 1)) = host := by
    rw [List.length_append, List.length_cons, Nat.add_sub_cancel, List.take_left']
    rfl
  have hcolon : ¬ COLON ∉ host ++ COLON :: port :=
    not_not_intro (List.mem_append_right _ List.mem_cons_self)
  have hopen : OPEN_BRACKET ∉ host ++ COLON :: port := by
    rw [List.mem_append, List.mem_cons, not_or, not_or]
    exact ⟨hhost.2.1, by decide, hport.2.1⟩
  have hclose : CLOSE_BRACKET ∉ host ++ COLON :: port := by
    rw [List.mem_append, List.mem_cons, not_or, not_or]
    exact ⟨hhost.2.2, by decide, hport.2.2⟩
  have hhead : (host ++ COLON :: port).head? ≠ some OPEN_BRACKET :=
    fun h => hopen (List.mem_of_mem_head? h)
  rw [joinHostPort, if_neg hhost.1, splitHostPort]
  dsimp only
  rw [hafter, hbefore, if_neg hcolon, if_neg hhead,
    if_neg (not_or.mpr ⟨hhost.1, not_or.mpr ⟨hopen, hclose⟩⟩)]

end NetCore

end Voyager
