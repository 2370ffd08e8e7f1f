import Mathlib.Data.List.Forall2
import Mathlib.Tactic.SplitIfs
import Voyager.Basic
import Voyager.Kermit.Negotiation
import Voyager.Library.FlatJson
import Voyager.Library.Utf16
import Voyager.Lora.Frame

/-!
# The size of a message

The page measures the JSON text that the device will build around a message, so that it can
refuse a message that is too long before it is sent. The page counts in UTF-16 and with the
escapes of JavaScript, the device in UTF-8 and with those of its JSON library.
-/

namespace Voyager

open Kermit (JsString lit)
open LoraProto (LORA_MAX_PAYLOAD)
open Utf16 (isHigh isLow isSurrogate encode utf8)

namespace Payload

/-! ## UTF-8 on the page -/

/-- The bytes that are pushed for the number `c`. -/
def pushBytes (c : ℕ) : List Byte :=
  if c < 0x80 then [UInt8.ofNat c]
  else if c < 0x800 then
    [UInt8.ofNat (0xC0 ||| c >>> 6), UInt8.ofNat (0x80 ||| c &&& 63)]
  else if c < 0x10000 then
    [UInt8.ofNat (0xE0 ||| c >>> 12), UInt8.ofNat (0x80 ||| c >>> 6 &&& 63),
      UInt8.ofNat (0x80 ||| c &&& 63)]
  else
    [UInt8.ofNat (0xF0 ||| c >>> 18), UInt8.ofNat (0x80 ||| c >>> 12 &&& 63),
      UInt8.ofNat (0x80 ||| c >>> 6 &&& 63), UInt8.ofNat (0x80 ||| c &&& 63)]

/-- The number of a unit that is no part of a pair; a lone surrogate is replaced. -/
def loneUnit (c : UInt16) : ℕ := if isSurrogate c then 0xFFFD else c.toNat

def utf8Encode : JsString → List Byte
  | [] => []
  | [c] => pushBytes (loneUnit c)
  | c :: d :: rest =>
      if isHigh c && isLow d then
        pushBytes (0x10000 + (c.toNat - 0xD800) <<< 10 + (d.toNat - 0xDC00)) ++ utf8Encode rest
      else pushBytes (loneUnit c) ++ utf8Encode (d :: rest)

def utf8ByteLength : JsString → ℕ
  | [] => 0
  | [c] => if c < 0x80 then 1 else if c < 0x800 then 2 else 3
  | c :: d :: rest =>
      if c < 0x80 then 1 + utf8ByteLength (d :: rest)
      else if c < 0x800 then 2 + utf8ByteLength (d :: rest)
      else if isHigh c then
        if isLow d then 4 + utf8ByteLength rest else 3 + utf8ByteLength (d :: rest)
      else 3 + utf8ByteLength (d :: rest)

/-! ## JSON on the page -/

/-- The escape with four digits. -/
def unicodeEscape (c : UInt16) : JsString :=
  [0x5C, 0x75, (hexDigit (c.toNat / 4096)).toUInt16, (hexDigit (c.toNat / 256 % 16)).toUInt16,
    (hexDigit (c.toNat / 16 % 16)).toUInt16, (hexDigit (c.toNat % 16)).toUInt16]

/-- What a unit that is no part of a pair becomes inside a string. -/
def quoteUnit (c : UInt16) : JsString :=
  if c = 0x22 ∨ c = 0x5C then [0x5C, c]
  else if c = 0x08 then [0x5C, 0x62]
  else if c = 0x0C then [0x5C, 0x66]
  else if c = 0x0A then [0x5C, 0x6E]
  else if c = 0x0D then [0x5C, 0x72]
  else if c = 0x09 then [0x5C, 0x74]
  else if c < 0x20 ∨ isSurrogate c then unicodeEscape c
  else [c]

def quoteUnits : JsString → JsString
  | [] => []
  | [c] => quoteUnit c
  | c :: d :: rest =>
      if isHigh c && isLow d then c :: d :: quoteUnits rest
      else quoteUnit c ++ quoteUnits (d :: rest)

def quote (s : JsString) : JsString := 0x22 :: (quoteUnits s ++ [0x22])

/-- `JSON.stringify` of an object whose values are strings. -/
def stringify (ms : List (JsString × JsString)) : JsString :=
  0x7B :: ((lit ",").intercalate (ms.map fun m => quote m.1 ++ 0x3A :: quote m.2) ++ [0x7D])

/-! ## The check of the page -/

def MAC_PLACEHOLDER : JsString := lit "XX:XX:XX:XX:XX:XX"

def wrapperName (username : JsString) : JsString :=
  if username = [] then MAC_PLACEHOLDER else username

/-- The size of the payload that the device will build around `innerJson`. -/
def wrappedPayloadSize (username innerJson : JsString) : ℕ :=
  utf8ByteLength (stringify [(lit "name", wrapperName username), (lit "mac", MAC_PLACEHOLDER),
    (lit "data", innerJson)])

structure PayloadCheck where
  ok : Bool
  size : ℕ
  max : ℕ
  deriving DecidableEq, Repr

def checkPayload (username innerJson : JsString) : PayloadCheck :=
  let size := wrappedPayloadSize username innerJson
  { ok := size ≤ LORA_MAX_PAYLOAD, size, max := LORA_MAX_PAYLOAD }

def buildTextMessage (text : JsString) : JsString :=
  stringify [(lit "pack_type", lit "msg"), (lit "data", text)]

/-! ## The check of the device -/

/-- `measureJson` of an object whose members are strings, and whether `deserializeJson` gets an
object from a text. -/
structure JsonLibrary where
  measureJson : List FlatJson.Member → ℕ
  isObject : List Byte → Bool

inductive TxCheck
  | ok
  | missing
  | badJson
  | tooLarge
  deriving DecidableEq, Repr

/-- `fill_lora_msg`, whose strings may be null pointers. -/
def fillLoraMsg (name mac data : Option (List Byte)) : List FlatJson.Member :=
  [(ascii "name", name.getD []), (ascii "mac", mac.getD []), (ascii "data", data.getD [])]

/-- `lora_msg_wrapped_len`. -/
def loraMsgWrappedLen (json : JsonLibrary) (name mac data : Option (List Byte)) : ℕ :=
  json.measureJson (fillLoraMsg name mac data)

/-- `check_lora_transmit`, with what it stores in `wrapped_out`. -/
def checkLoraTransmit (json : JsonLibrary) (data name mac : Option (List Byte))
    (maxPayload : ℕ) : TxCheck × Option ℕ :=
  match data with
  | none => (.missing, none)
  | some text =>
      if text = [] then (.missing, none)
      -- wrapping only adds bytes
      else if text.length > maxPayload then (.tooLarge, none)
      else
        let wrapped := loraMsgWrappedLen json name mac (some text)
        if wrapped > maxPayload then (.tooLarge, some wrapped)
        else if !json.isObject text then (.badJson, some wrapped)
        else (.ok, some wrapped)

/-- `get_username`. -/
def getUsername (username mac : List Byte) : List Byte :=
  if username.length = 0 then mac else username

/-! ## The two counts of UTF-8 -/

theorem length_pushBytes (c : ℕ) : (pushBytes c).length =
    if c < 0x80 then 1 else if c < 0x800 then 2 else if c < 0x10000 then 3 else 4 := by
  rw [pushBytes]
  split_ifs <;> rfl

theorem length_loneUnit (c : UInt16) : (pushBytes (loneUnit c)).length =
    if c < 0x80 then 1 else if c < 0x800 then 2 else 3 := by
  have hlt := c.toNat_lt
  rw [length_pushBytes, loneUnit]
  simp only [UInt16.lt_iff_toNat_lt, UInt16.reduceToNat]
  by_cases hsur : isSurrogate c = true
  · have hrange := Utf16.isSurrogate_iff.mp hsur
    rw [if_pos hsur]
    split_ifs <;> omega
  · rw [if_neg hsur]
    split_ifs <;> omega

/-- The page counts the bytes that it would write. -/
theorem utf8ByteLength_eq (s : JsString) : utf8ByteLength s = (utf8Encode s).length := by
  induction s using utf8Encode.induct with
  | case1 => rfl
  | case2 c => rw [utf8ByteLength, utf8Encode, length_loneUnit]
  | case3 c d rest hpair ih =>
      obtain ⟨hhi, hlo⟩ := Bool.and_eq_true_iff.mp hpair
      have hrange := Utf16.isHigh_iff.mp hhi
      rw [utf8ByteLength, utf8Encode, if_pos hpair, List.length_append, length_pushBytes, hhi, hlo,
        ih]
      simp only [UInt16.lt_iff_toNat_lt, UInt16.reduceToNat]
      split_ifs <;> omega
  | case4 c d rest hpair ih =>
      rw [utf8ByteLength, utf8Encode, if_neg hpair, List.length_append, length_loneUnit, ih]
      split_ifs with h1 h2 hhi hlo
      · rfl
      · rfl
      · exact absurd (Bool.and_eq_true_iff.mpr ⟨hhi, hlo⟩) hpair
      · rfl
      · rfl

/-! ## Texts -/

theorem isHigh_of_isSurrogate {c : UInt16} (h : isSurrogate c = false) : isHigh c = false := by
  rw [← Bool.not_eq_true, Utf16.isSurrogate_iff] at h
  rw [← Bool.not_eq_true, Utf16.isHigh_iff]
  omega

/-- The bytes that are pushed for a character are its encoding. -/
theorem pushBytes_char (c : Char) : pushBytes c.toNat = String.utf8EncodeChar c := by
  have hlt : c.toNat < 0x110000 := by
    have hvalid := Utf16.toNat_valid c
    omega
  have hlead : ∀ x < 0x20, UInt8.ofNat (0xC0 ||| x) = UInt8.ofNat (x % 0x20 + 0xC0) := by decide
  have hlead3 : ∀ x < 0x10, UInt8.ofNat (0xE0 ||| x) = UInt8.ofNat (x % 0x10 + 0xE0) := by decide
  have hlead4 : ∀ x < 0x08, UInt8.ofNat (0xF0 ||| x) = UInt8.ofNat (x % 0x08 + 0xF0) := by decide
  have htail : ∀ x < 0x40, UInt8.ofNat (0x80 ||| x) = UInt8.ofNat (x + 0x80) := by decide
  have hlow : ∀ n, UInt8.ofNat (0x80 ||| n &&& 63) = UInt8.ofNat (n % 0x40 + 0x80) := by
    intro n
    rw [Nat.and_two_pow_sub_one_eq_mod n 6]
    exact htail _ (Nat.mod_lt n (by decide))
  have hval : c.toNat = c.val.toNat := rfl
  rw [hval] at hlt
  rw [pushBytes, String.utf8EncodeChar, hval]
  generalize c.val.toNat = n at *
  simp only [hlow, Nat.shiftRight_eq_div_pow]
  split_ifs with h1 h2 h3 h4 h5 h6 <;> first | omega | skip
  · rfl
  · rw [hlead _ (by omega)]
  · rw [hlead3 _ (by omega)]
  · rw [hlead4 _ (by omega)]

theorem utf8Encode_cons {c : UInt16} (hc : isSurrogate c = false) (s : JsString) :
    utf8Encode (c :: s) = pushBytes c.toNat ++ utf8Encode s := by
  have hlone : loneUnit c = c.toNat := by rw [loneUnit, hc, if_neg Bool.false_ne_true]
  cases s with
  | nil => simp only [utf8Encode, hlone, List.append_nil]
  | cons d s =>
      rw [utf8Encode, isHigh_of_isSurrogate hc, Bool.false_and, if_neg Bool.false_ne_true, hlone]

theorem utf8Encode_pair {hi lo : UInt16} (hhi : isHigh hi = true) (hlo : isLow lo = true)
    (s : JsString) :
    utf8Encode (hi :: lo :: s) = pushBytes (Utf16.codePoint hi lo) ++ utf8Encode s := by
  have hshift : (hi.toNat - 0xD800) <<< 10 = (hi.toNat - 0xD800) * 0x400 := Nat.shiftLeft_eq _ 10
  have hcode : 0x10000 + (hi.toNat - 0xD800) <<< 10 + (lo.toNat - 0xDC00) =
      Utf16.codePoint hi lo :=
    congrArg (fun n => 0x10000 + n + (lo.toNat - 0xDC00)) hshift
  rw [utf8Encode, hhi, hlo, Bool.and_self, if_pos rfl]
  exact congrArg (fun n => pushBytes n ++ utf8Encode s) hcode

/-- A text without lone surrogates gets its encoding. -/
theorem utf8Encode_encode (cs : List Char) : utf8Encode (encode cs) = utf8 cs := by
  induction cs with
  | nil => rfl
  | cons c cs ih =>
      rw [Utf16.encode_cons, Utf16.utf8_cons, ← ih, ← pushBytes_char]
      rcases Utf16.encodeChar_cases c with ⟨u, hu, hval, hsur⟩ | ⟨hi, lo, hu, hhi, hlo, hval⟩
      · rw [hu, List.singleton_append, utf8Encode_cons hsur, hval]
      · rw [hu, List.cons_append, List.singleton_append, utf8Encode_pair hhi hlo, hval]

theorem quoteUnits_cons {c : UInt16} (hc : isHigh c = false) (s : JsString) :
    quoteUnits (c :: s) = quoteUnit c ++ quoteUnits s := by
  cases s with
  | nil => simp only [quoteUnits, List.append_nil]
  | cons d s => rw [quoteUnits, hc, Bool.false_and, if_neg Bool.false_ne_true]

theorem quoteUnits_pair {hi lo : UInt16} (hhi : isHigh hi = true) (hlo : isLow lo = true)
    (s : JsString) : quoteUnits (hi :: lo :: s) = hi :: lo :: quoteUnits s := by
  rw [quoteUnits, hhi, hlo, Bool.and_self, if_pos rfl]

/-! ## The two escapers -/

/-- A text without control characters. -/
def Clean (cs : List Char) : Prop := ∀ c ∈ cs, 0x20 ≤ c.toNat

theorem Clean.append {cs cs' : List Char} (h : Clean cs) (h' : Clean cs') : Clean (cs ++ cs') := by
  intro c hc
  rcases List.mem_append.mp hc with hc | hc
  · exact h c hc
  · exact h' c hc

def BACKSLASH : Char := Char.ofNat 0x5C

/-- A character inside a string. -/
def quoteChar (c : Char) : List Char :=
  if c.toNat = 0x22 ∨ c.toNat = 0x5C then [BACKSLASH, c] else [c]

theorem clean_quoteChar {c : Char} (hc : 0x20 ≤ c.toNat) : Clean (quoteChar c) := by
  intro d hd
  rw [quoteChar] at hd
  split at hd
  · rcases List.mem_cons.mp hd with rfl | hd
    · decide
    · rw [List.mem_singleton.mp hd]
      exact hc
  · rw [List.mem_singleton.mp hd]
    exact hc

theorem quoteUnit_eq {c : Char} {u : UInt16} (hu : Utf16.encodeChar c = [u])
    (hval : u.toNat = c.toNat) (hsur : isSurrogate u = false) (hc : 0x20 ≤ c.toNat) :
    quoteUnit u = encode (quoteChar c) := by
  have hquote : (u = 0x22 ∨ u = 0x5C) ↔ (c.toNat = 0x22 ∨ c.toNat = 0x5C) := by
    rw [← hval, ← UInt16.toNat_inj, ← UInt16.toNat_inj]
    rfl
  have hctl : ∀ d : UInt16, d.toNat < 0x20 → u ≠ d := by
    rintro d hd rfl
    omega
  have hlow : ¬ u < 0x20 := by
    rw [UInt16.lt_iff_toNat_lt, hval]
    exact Nat.not_lt.mpr hc
  rw [quoteUnit, quoteChar]
  by_cases h : u = 0x22 ∨ u = 0x5C
  · rw [if_pos h, if_pos (hquote.mp h), Utf16.encode_cons, Utf16.encode_singleton, hu]
    rfl
  · rw [if_neg h, if_neg (mt hquote.mpr h), if_neg (hctl _ (by decide)),
      if_neg (hctl _ (by decide)), if_neg (hctl _ (by decide)), if_neg (hctl _ (by decide)),
      if_neg (hctl _ (by decide)), hsur, if_neg (by simpa using hlow),
      Utf16.encode_singleton, hu]

/-- The page escapes quotes and backslashes. -/
theorem quoteUnits_encode {cs : List Char} (hcs : Clean cs) :
    quoteUnits (encode cs) = encode (cs.flatMap quoteChar) := by
  induction cs with
  | nil => rfl
  | cons c cs ih =>
      have hc := hcs c List.mem_cons_self
      have htail := ih fun d hd => hcs d (List.mem_cons_of_mem c hd)
      rw [List.flatMap_cons, Utf16.encode_append, ← htail, Utf16.encode_cons]
      rcases Utf16.encodeChar_cases c with ⟨u, hu, hval, hsur⟩ | ⟨hi, lo, hu, hhi, hlo, hval⟩
      · rw [hu, List.singleton_append, quoteUnits_cons (isHigh_of_isSurrogate hsur),
          quoteUnit_eq hu hval hsur hc]
      · have hlarge := Utf16.le_codePoint hi lo
        have hchar : quoteChar c = [c] := if_neg (by omega)
        rw [hu, List.cons_append, List.singleton_append, quoteUnits_pair hhi hlo, hchar,
          Utf16.encode_singleton, hu]
        rfl

/-- The library of the device escapes the same characters. -/
theorem writeChars_utf8 {cs : List Char} (hcs : Clean cs) :
    FlatJson.writeChars (utf8 cs) = utf8 (cs.flatMap quoteChar) := by
  induction cs with
  | nil => rfl
  | cons c cs ih =>
      have hc := hcs c List.mem_cons_self
      have htail := ih fun d hd => hcs d (List.mem_cons_of_mem c hd)
      have hhead : FlatJson.writeChars (String.utf8EncodeChar c) = utf8 (quoteChar c) := by
        by_cases hascii : c.toNat < 0x80
        · have hall : ∀ n < 0x80, 0x20 ≤ n → FlatJson.writeChar (UInt8.ofNat n) =
              if n = 0x22 ∨ n = 0x5C then [0x5C, UInt8.ofNat n] else [UInt8.ofNat n] := by
            decide
          rw [Utf16.utf8EncodeChar_ascii hascii, FlatJson.writeChars, List.flatMap_singleton,
            hall _ hascii hc, quoteChar]
          split
          · rw [Utf16.utf8_cons, Utf16.utf8_singleton, Utf16.utf8EncodeChar_ascii hascii]
            rfl
          · rw [Utf16.utf8_singleton, Utf16.utf8EncodeChar_ascii hascii]
        · have hlarge := Nat.le_of_not_lt hascii
          have hplain : ∀ b : UInt8, 0x80 ≤ b → FlatJson.Unescaped b := by
            intro b hb
            refine ⟨?_, fun p hp heq => ?_⟩
            · rintro rfl
              exact absurd hb (by decide)
            · have hsmall : ∀ p ∈ FlatJson.escapes, ¬ 0x80 ≤ p.2 := by simp [FlatJson.escapes]
              exact hsmall p hp (heq ▸ hb)
          have hchar : quoteChar c = [c] := if_neg (by omega)
          rw [hchar, Utf16.utf8_singleton]
          exact FlatJson.writeChars_of_unescaped fun b hb =>
            hplain b (Utf16.le_of_mem_utf8EncodeChar hlarge b hb)
      rw [List.flatMap_cons, Utf16.utf8_append, Utf16.utf8_cons, ← htail, ← hhead]
      exact List.flatMap_append

/-! ## The same text on both sides -/

/-- `s` and `b` are one text without control characters, in UTF-16 and in UTF-8. -/
def SameText (s : JsString) (b : List Byte) : Prop :=
  ∃ cs, Clean cs ∧ s = encode cs ∧ b = utf8 cs

theorem SameText.append {s s' : JsString} {b b' : List Byte} (h : SameText s b)
    (h' : SameText s' b') : SameText (s ++ s') (b ++ b') := by
  obtain ⟨cs, hcs, rfl, rfl⟩ := h
  obtain ⟨cs', hcs', rfl, rfl⟩ := h'
  exact ⟨cs ++ cs', hcs.append hcs', (Utf16.encode_append cs cs').symm,
    (Utf16.utf8_append cs cs').symm⟩

theorem sameText_nil : SameText [] [] := ⟨[], fun _ h => absurd h List.not_mem_nil, rfl, rfl⟩

/-- A character in ASCII. -/
theorem sameText_singleton {c : UInt16} (hlo : 0x20 ≤ c.toNat) (hhi : c.toNat < 0x80) :
    SameText [c] [c.toUInt8] := by
  have hsur : isSurrogate c = false := by
    rw [← Bool.not_eq_true, Utf16.isSurrogate_iff]
    omega
  obtain ⟨d, hd, hval⟩ := Utf16.exists_char hsur
  refine ⟨[d], ?_, ?_, ?_⟩
  · intro e he
    rw [List.mem_singleton.mp he, hval]
    exact hlo
  · rw [Utf16.encode_singleton, hd]
  · rw [Utf16.utf8_singleton, Utf16.utf8EncodeChar_ascii (by omega), hval]
    rfl

/-- A text in ASCII. -/
theorem sameText_of_ascii {s : JsString} (h : ∀ c ∈ s, 0x20 ≤ c.toNat ∧ c.toNat < 0x80) :
    SameText s (Kermit.strBytes s) := by
  induction s with
  | nil => exact sameText_nil
  | cons c s ih =>
      have hc := h c List.mem_cons_self
      exact (sameText_singleton hc.1 hc.2).append (ih fun d hd => h d (List.mem_cons_of_mem c hd))

/-- The same, for a text that is given. -/
theorem sameText_of_all {s : JsString}
    (h : s.all (fun c => 0x20 ≤ c.toNat ∧ c.toNat < 0x80) = true) :
    SameText s (Kermit.strBytes s) := sameText_of_ascii (by simpa using h)

theorem SameText.cons {s : JsString} {b : List Byte} {c : UInt16} (h : SameText s b)
    (hlo : 0x20 ≤ c.toNat) (hhi : c.toNat < 0x80) : SameText (c :: s) (c.toUInt8 :: b) :=
  (sameText_singleton hlo hhi).append h

theorem SameText.utf8Encode {s : JsString} {b : List Byte} (h : SameText s b) :
    utf8Encode s = b := by
  obtain ⟨cs, -, rfl, rfl⟩ := h
  exact utf8Encode_encode cs

/-- A character that is no control character, on both sides. -/
theorem sameText_char {c : Char} (hc : 0x20 ≤ c.toNat) :
    SameText (Utf16.encodeChar c) (String.utf8EncodeChar c) := by
  refine ⟨[c], ?_, (Utf16.encode_singleton c).symm, (Utf16.utf8_singleton c).symm⟩
  intro d hd
  rw [List.mem_singleton.mp hd]
  exact hc

theorem SameText.ne_zero {s : JsString} {b : List Byte} (h : SameText s b) : ∀ d ∈ b, d ≠ 0 := by
  obtain ⟨cs, hcs, rfl, rfl⟩ := h
  rintro d hd rfl
  obtain ⟨c, hc, hd⟩ := List.mem_flatMap.mp hd
  have hclean := hcs c hc
  by_cases hascii : c.toNat < 0x80
  · rw [Utf16.utf8EncodeChar_ascii hascii, List.mem_singleton] at hd
    have hval := congrArg UInt8.toNat hd
    rw [UInt8.toNat_ofNat', Nat.mod_eq_of_lt (by omega)] at hval
    exact absurd (hval ▸ hclean) (by decide)
  · exact absurd (Utf16.le_of_mem_utf8EncodeChar (Nat.le_of_not_lt hascii) 0 hd) (by decide)

theorem SameText.quote {s : JsString} {b : List Byte} (h : SameText s b) :
    SameText (quote s) (FlatJson.writeString b) := by
  obtain ⟨cs, hcs, rfl, rfl⟩ := h
  have hchars : SameText (quoteUnits (encode cs)) (FlatJson.writeChars (utf8 cs)) := by
    refine ⟨cs.flatMap quoteChar, ?_, quoteUnits_encode hcs, writeChars_utf8 hcs⟩
    intro d hd
    obtain ⟨c, hc, hd⟩ := List.mem_flatMap.mp hd
    exact clean_quoteChar (hcs c hc) d hd
  exact (hchars.append (sameText_singleton (c := 0x22) (by decide) (by decide))).cons
    (c := 0x22) (by decide) (by decide)

theorem SameText.member {m : JsString × JsString} {b : FlatJson.Member}
    (h : SameText m.1 b.1 ∧ SameText m.2 b.2) :
    SameText (Payload.quote m.1 ++ 0x3A :: Payload.quote m.2) (FlatJson.writeMember b) :=
  h.1.quote.append (h.2.quote.cons (c := 0x3A) (by decide) (by decide))

/-- Members with commas between them, and the brace behind them. -/
theorem SameText.rest {ts : List JsString} {bs : List FlatJson.Member}
    (h : List.Forall₂ (fun t b => SameText t (FlatJson.writeMember b)) ts bs) {t : JsString}
    {b : List Byte} (ht : SameText t b) :
    SameText ((lit ",").intercalate (t :: ts) ++ [0x7D]) (b ++ FlatJson.writeRest bs) := by
  induction h generalizing t b with
  | nil =>
      rw [List.intercalate_singleton]
      exact ht.append (sameText_singleton (c := 0x7D) (by decide) (by decide))
  | cons hhead _ ih =>
      rw [List.intercalate_cons_cons, List.append_assoc, List.append_assoc]
      exact ht.append ((ih hhead).cons (c := 0x2C) (by decide) (by decide))

/-- An object of strings is one text on both sides when its strings are. -/
theorem SameText.stringify {ms : List (JsString × JsString)} {bs : List FlatJson.Member}
    (h : List.Forall₂ (fun m b => SameText m.1 b.1 ∧ SameText m.2 b.2) ms bs) :
    SameText (stringify ms) (FlatJson.writeObject bs) := by
  cases h with
  | nil => exact sameText_of_all (s := lit "\x7b\x7d") (by decide)
  | cons hhead htail =>
      rw [Payload.stringify, List.map_cons, FlatJson.writeObject]
      have hrest := SameText.rest (List.forall₂_map_left_iff.mpr
        (htail.imp fun _ _ => SameText.member)) (SameText.member hhead)
      exact hrest.cons (c := 0x7B) (by decide) (by decide)

theorem unicodeEscape_ascii (c : UInt16) :
    ∀ d ∈ unicodeEscape c, 0x20 ≤ d.toNat ∧ d.toNat < 0x80 := by
  have hdigit : ∀ n < 16, 0x20 ≤ (hexDigit n).toUInt16.toNat ∧
      (hexDigit n).toUInt16.toNat < 0x80 := by decide
  have hlt := c.toNat_lt
  intro d hd
  simp only [unicodeEscape, List.mem_cons, List.not_mem_nil, or_false] at hd
  rcases hd with rfl | rfl | rfl | rfl | rfl | rfl
  · decide
  · decide
  all_goals exact hdigit _ (by omega)

theorem exists_sameText_quoteUnit {c : UInt16} : ∃ b, SameText (quoteUnit c) b := by
  rw [quoteUnit]
  split_ifs with hquote h8 hC hA hD h9 hescape
  · exact ⟨_, sameText_of_all (by rcases hquote with rfl | rfl <;> decide)⟩
  · exact ⟨_, sameText_of_all (by decide)⟩
  · exact ⟨_, sameText_of_all (by decide)⟩
  · exact ⟨_, sameText_of_all (by decide)⟩
  · exact ⟨_, sameText_of_all (by decide)⟩
  · exact ⟨_, sameText_of_all (by decide)⟩
  · exact ⟨_, sameText_of_ascii (unicodeEscape_ascii c)⟩
  · rw [not_or, Bool.not_eq_true, UInt16.lt_iff_toNat_lt] at hescape
    obtain ⟨d, hd, hval⟩ := Utf16.exists_char hescape.2
    rw [← hd]
    exact ⟨_, sameText_char (hval ▸ Nat.le_of_not_lt hescape.1)⟩

theorem exists_sameText_quoteUnits (s : JsString) : ∃ b, SameText (quoteUnits s) b := by
  induction s using quoteUnits.induct with
  | case1 => exact ⟨_, sameText_nil⟩
  | case2 c =>
      rw [quoteUnits]
      exact exists_sameText_quoteUnit
  | case3 c d rest hpair ih =>
      obtain ⟨hhi, hlo⟩ := Bool.and_eq_true_iff.mp hpair
      obtain ⟨e, he, hval⟩ := Utf16.exists_char_of_pair hhi hlo
      obtain ⟨b, hb⟩ := ih
      have hlarge := Utf16.le_codePoint c d
      have hchar : SameText [c, d] _ := he ▸ sameText_char (by omega)
      rw [quoteUnits, if_pos hpair]
      exact ⟨_, hchar.append hb⟩
  | case4 c d rest hpair ih =>
      obtain ⟨b, hb⟩ := ih
      obtain ⟨b', hb'⟩ := exists_sameText_quoteUnit (c := c)
      rw [quoteUnits, if_neg hpair]
      exact ⟨_, hb'.append hb⟩

theorem exists_sameText_quote (s : JsString) : ∃ b, SameText (quote s) b := by
  obtain ⟨b, hb⟩ := exists_sameText_quoteUnits s
  exact ⟨_, (hb.append (sameText_singleton (c := 0x22) (by decide) (by decide))).cons
    (c := 0x22) (by decide) (by decide)⟩

theorem exists_sameText_intercalate {ts : List JsString} (h : ∀ t ∈ ts, ∃ b, SameText t b) :
    ∃ b, SameText ((lit ",").intercalate ts) b := by
  induction ts with
  | nil => exact ⟨_, sameText_nil⟩
  | cons t ts ih =>
      obtain ⟨b, hb⟩ := h t List.mem_cons_self
      obtain ⟨b', hb'⟩ := ih fun u hu => h u (List.mem_cons_of_mem t hu)
      cases ts with
      | nil =>
          rw [List.intercalate_singleton]
          exact ⟨b, hb⟩
      | cons u ts =>
          rw [List.intercalate_cons_cons, List.append_assoc]
          exact ⟨_, hb.append (hb'.cons (c := 0x2C) (by decide) (by decide))⟩

/-- Whatever the strings are, what `JSON.stringify` writes is a text without control
characters. -/
theorem exists_sameText_stringify (ms : List (JsString × JsString)) :
    ∃ b, SameText (Payload.stringify ms) b := by
  have hmember : ∀ t ∈ ms.map fun m => quote m.1 ++ 0x3A :: quote m.2, ∃ b, SameText t b := by
    intro t ht
    obtain ⟨m, -, rfl⟩ := List.mem_map.mp ht
    obtain ⟨b, hb⟩ := exists_sameText_quote m.1
    obtain ⟨b', hb'⟩ := exists_sameText_quote m.2
    exact ⟨_, hb.append (hb'.cons (c := 0x3A) (by decide) (by decide))⟩
  obtain ⟨b, hb⟩ := exists_sameText_intercalate hmember
  exact ⟨_, (hb.append (sameText_singleton (c := 0x7D) (by decide) (by decide))).cons
    (c := 0x7B) (by decide) (by decide)⟩

/-! ## The two sizes -/

section Sizes

variable {json : JsonLibrary} {username : List Char} {mac : List Byte}

/-- What the JSON library promises of strings without a zero byte: quotes, backslashes and the
five control characters with a short escape take two bytes, the others one. -/
structure JsonLibrary.Documented (json : JsonLibrary) : Prop where
  measures : ∀ ms, (∀ m ∈ ms, m.Plain) → json.measureJson ms = (FlatJson.writeObject ms).length

/-- A hexadecimal digit or a colon. -/
def isMacChar (c : Byte) : Bool :=
  (0x30 ≤ c && c ≤ 0x3A) || (0x41 ≤ c && c ≤ 0x46) || (0x61 ≤ c && c ≤ 0x66)

/-- A MAC address as text. -/
def IsMac (mac : List Byte) : Prop := mac.length = 17 ∧ ∀ c ∈ mac, isMacChar c = true

theorem unescaped_of_isMacChar : ∀ c : Byte, isMacChar c = true → FlatJson.Unescaped c :=
  forall_byte (by decide +kernel)

theorem IsMac.length_writeString (h : IsMac mac) : (FlatJson.writeString mac).length = 19 := by
  rw [FlatJson.length_writeString_of_unescaped fun c hc => unescaped_of_isMacChar c (h.2 c hc), h.1]

theorem IsMac.ne_zero (h : IsMac mac) : ∀ c ∈ mac, c ≠ 0 := by
  rintro c hc rfl
  exact absurd (h.2 0 hc) (by decide)

/-- The bytes of the name that the page takes for the message. -/
def wrapperBytes (username : List Char) : List Byte :=
  if username = [] then Kermit.strBytes MAC_PLACEHOLDER else utf8 username

theorem sameText_wrapperName (h : Clean username) :
    SameText (wrapperName (encode username)) (wrapperBytes username) := by
  cases username with
  | nil => exact sameText_of_all (s := MAC_PLACEHOLDER) (by decide)
  | cons c cs =>
      have hne : encode (c :: cs) ≠ [] := by
        rw [Utf16.encode_cons]
        rcases Utf16.encodeChar_cases c with ⟨u, hu, -⟩ | ⟨hi, lo, hu, -⟩ <;> simp [hu]
      rw [wrapperName, if_neg hne, wrapperBytes, if_neg (List.cons_ne_nil c cs)]
      exact ⟨c :: cs, h, rfl, rfl⟩

/-- The name has the same size on the device, which takes its own address for an empty one. -/
theorem length_getUsername (hmac : IsMac mac) :
    (FlatJson.writeString (getUsername (utf8 username) mac)).length =
      (FlatJson.writeString (wrapperBytes username)).length := by
  cases username with
  | nil =>
      have hnil : (utf8 []).length = 0 := rfl
      rw [getUsername, if_pos hnil, hmac.length_writeString]
      decide
  | cons c cs =>
      have hne : ¬ (utf8 (c :: cs)).length = 0 := by
        rw [Utf16.utf8_cons, List.length_append, String.length_utf8EncodeChar]
        have hpos := c.utf8Size_pos
        omega
      rw [getUsername, if_neg hne, wrapperBytes, if_neg (List.cons_ne_nil c cs)]

theorem getUsername_ne_zero (h : Clean username) (hmac : IsMac mac) :
    ∀ c ∈ getUsername (utf8 username) mac, c ≠ 0 := by
  have hname : SameText (encode username) (utf8 username) := ⟨username, h, rfl, rfl⟩
  rw [getUsername]
  split
  · exact hmac.ne_zero
  · exact hname.ne_zero

/-- What the page measures is what the device measures. -/
theorem wrappedPayloadSize_eq (hjson : json.Documented) (huser : Clean username)
    (hmac : IsMac mac) {inner : JsString} {data : List Byte} (hinner : SameText inner data) :
    wrappedPayloadSize (encode username) inner =
      loraMsgWrappedLen json (some (getUsername (utf8 username) mac)) (some mac) (some data) := by
  have hwrapped : SameText
      (stringify [(lit "name", wrapperName (encode username)), (lit "mac", MAC_PLACEHOLDER),
        (lit "data", inner)])
      (FlatJson.writeObject [(ascii "name", wrapperBytes username),
        (ascii "mac", Kermit.strBytes MAC_PLACEHOLDER), (ascii "data", data)]) := by
    have hname : SameText (lit "name") (ascii "name") :=
      sameText_of_all (s := lit "name") (by decide)
    have hmac : SameText (lit "mac") (ascii "mac") := sameText_of_all (s := lit "mac") (by decide)
    have hplaceholder : SameText MAC_PLACEHOLDER (Kermit.strBytes MAC_PLACEHOLDER) :=
      sameText_of_all (by decide)
    have hdata : SameText (lit "data") (ascii "data") :=
      sameText_of_all (s := lit "data") (by decide)
    exact SameText.stringify (.cons ⟨hname, sameText_wrapperName huser⟩
      (.cons ⟨hmac, hplaceholder⟩ (.cons ⟨hdata, hinner⟩ .nil)))
  have hplaceholder : (FlatJson.writeString (Kermit.strBytes MAC_PLACEHOLDER)).length = 19 := by
    decide
  have hname : ∀ c ∈ ascii "name" ++ ascii "mac" ++ ascii "data", c ≠ 0 := by decide +kernel
  rw [wrappedPayloadSize, utf8ByteLength_eq, hwrapped.utf8Encode, loraMsgWrappedLen, fillLoraMsg,
    hjson.measures]
  · simp only [FlatJson.writeObject, FlatJson.writeRest, FlatJson.writeMember, List.length_cons,
      List.length_append, List.length_nil, Option.getD_some, length_getUsername hmac,
      hmac.length_writeString, hplaceholder]
  · simp only [List.forall_mem_cons, List.not_mem_nil, false_implies, implies_true, and_true,
      Option.getD_some]
    exact ⟨⟨fun c hc => hname c (by simp [hc]), getUsername_ne_zero huser hmac⟩,
      ⟨fun c hc => hname c (by simp [hc]), hmac.ne_zero⟩,
      ⟨fun c hc => hname c (by simp [hc]), hinner.ne_zero⟩⟩

/-- The text of the message is shorter than what is built around it. -/
theorem JsonLibrary.Documented.length_le (hjson : json.Documented) {name data : List Byte}
    (hname : ∀ c ∈ name, c ≠ 0) (hmac : ∀ c ∈ mac, c ≠ 0) (hdata : ∀ c ∈ data, c ≠ 0) :
    data.length ≤ loraMsgWrappedLen json (some name) (some mac) (some data) := by
  have hkeys : ∀ c ∈ ascii "name" ++ ascii "mac" ++ ascii "data", c ≠ 0 := by decide +kernel
  have hlen := FlatJson.le_length_writeString data
  rw [loraMsgWrappedLen, fillLoraMsg, hjson.measures]
  · simp only [FlatJson.writeObject, FlatJson.writeRest, FlatJson.writeMember, List.length_cons,
      List.length_append, Option.getD_some]
    omega
  · simp only [List.forall_mem_cons, List.not_mem_nil, false_implies, implies_true, and_true,
      Option.getD_some]
    exact ⟨⟨fun c hc => hkeys c (by simp [hc]), hname⟩, ⟨fun c hc => hkeys c (by simp [hc]), hmac⟩,
      ⟨fun c hc => hkeys c (by simp [hc]), hdata⟩⟩

theorem checkLoraTransmit_ne_tooLarge {name data : List Byte} {max : ℕ}
    (hlen : data.length ≤ loraMsgWrappedLen json (some name) (some mac) (some data))
    (hmax : loraMsgWrappedLen json (some name) (some mac) (some data) ≤ max) :
    (checkLoraTransmit json (some data) (some name) (some mac) max).1 ≠ .tooLarge := by
  simp only [checkLoraTransmit]
  split
  · exact TxCheck.noConfusion
  · rw [if_neg (by omega), if_neg (by omega)]
    split
    · exact TxCheck.noConfusion
    · exact TxCheck.noConfusion

/-- The page measures a message as the device does, so that the device finds no message too
large that the page lets through. -/
theorem page_measures_as_device (hjson : json.Documented) (huser : Clean username)
    (hmac : IsMac mac) (text : JsString) :
    (∀ s, utf8ByteLength s = (utf8Encode s).length) ∧
      wrappedPayloadSize (encode username) (buildTextMessage text) =
        loraMsgWrappedLen json (some (getUsername (utf8 username) mac)) (some mac)
          (some (utf8Encode (buildTextMessage text))) ∧
      ((checkPayload (encode username) (buildTextMessage text)).ok = true →
        (checkLoraTransmit json (some (utf8Encode (buildTextMessage text)))
          (some (getUsername (utf8 username) mac)) (some mac) LoraProto.MAX_PAYLOAD).1 ≠
            .tooLarge) := by
  obtain ⟨data, hinner⟩ : ∃ data, SameText (buildTextMessage text) data :=
    exists_sameText_stringify _
  have hsize := wrappedPayloadSize_eq hjson huser hmac hinner
  rw [hinner.utf8Encode]
  refine ⟨utf8ByteLength_eq, hsize, fun hok => ?_⟩
  simp only [checkPayload, decide_eq_true_eq] at hok
  rw [hsize] at hok
  exact checkLoraTransmit_ne_tooLarge
    (hjson.length_le (getUsername_ne_zero huser hmac) hmac.ne_zero hinner.ne_zero) hok

end Sizes

/-- A library that measures what `FlatJson` writes. -/
def flatJson : JsonLibrary where
  measureJson ms := (FlatJson.writeObject ms).length
  isObject _ := true

/-- An address, and the name of a user. -/
def someMac : List Byte := ascii "24:6F:28:AA:BB:CC"
def someName : List Char := ['b', 'o', 'b']

theorem page_measures_as_device_hi :
    wrappedPayloadSize (encode someName) (buildTextMessage (lit "hi")) =
      loraMsgWrappedLen flatJson (some (getUsername (utf8 someName) someMac)) (some someMac)
        (some (utf8Encode (buildTextMessage (lit "hi")))) :=
  have hjson : flatJson.Documented := ⟨fun _ _ => rfl⟩
  have huser : Clean someName := by
    simp [Clean, someName]
  have hmac : IsMac someMac := ⟨by decide, by decide +kernel⟩
  (page_measures_as_device hjson huser hmac (lit "hi")).2.1

end Payload

end Voyager
