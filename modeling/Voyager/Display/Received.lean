import Voyager.Core.Dispatch
import Voyager.Display.Screen
import Voyager.Web.TextMessage

/-!
# A received message on the display

The board takes a message that it has received apart a second time, for its own display. The
name of the sender and the text are C strings there, cut to the arrays of the display and folded
to the font, so of a text the display shows one glyph for each of its first characters.
-/

namespace Voyager

open AsciiFold (folded folded_utf8EncodeChar folded_continuation charGlyph questionMark)
open Dispatch (charPtr)
open Kermit (JsString lit bytesStr)
open LoraProto
open MessageRing (MSG_FROM_LEN MSG_TEXT_LEN MSG_RING_SIZE)
open Payload
open Screen (OledMsg UiState)
open TextMessage
open Utf16 (encode utf8)
open WrapText (Text)

namespace Received

/-! ## The code -/

inductive MsgKind where
  | invalid
  | text
  | sos
  | otherAction
  deriving DecidableEq, Repr

structure LoraMsgInfo where
  kind : MsgKind := .invalid
  sender : List Byte := []
  text : List Byte := []
  deriving DecidableEq, Repr

/-- `v | ""`. -/
def textOr (v : JsonVariant) : List Byte := (charPtr v).getD []

variable (deserializeJson : List Byte → Option JsonVariant)

/-- What is found in the text of the message itself. -/
def parseInner (info : LoraMsgInfo) (inner : JsonVariant) : LoraMsgInfo :=
  let pt := textOr (inner.get (ascii "pack_type"))
  if pt = ascii "msg" then
    match charPtr (inner.get (ascii "data")) with
    | none => info
    | some t => { info with text := t, kind := .text }
  else if pt = ascii "action" then
    if textOr (inner.get (ascii "data")) = ascii "sos" then { info with kind := .sos }
    else { info with kind := .otherAction }
  else info

def parseLoraMsg (payload : Option (List Byte)) : LoraMsgInfo :=
  match payload.bind deserializeJson with
  | none => {}
  | some outer =>
      let name := textOr (outer.get (ascii "name"))
      let mac := textOr (outer.get (ascii "mac"))
      let info : LoraMsgInfo := { sender := if name ≠ [] then name else mac }
      match (charPtr (outer.get (ascii "data"))).bind deserializeJson with
      | none => info
      | some inner => parseInner info inner

/-- The C string at the beginning of a buffer. -/
def cText (s : List Byte) : Text where
  bytes := cString s
  nonzero h := by simpa using List.mem_takeWhile_imp h

/-- `safe_copy` into an array of `n` bytes. -/
def cutText (n : ℕ) (s : Text) : Text where
  bytes := Screen.cut n s
  nonzero := AsciiFold.zero_not_mem_copied (some s)

/-- The message that `oled_message` posts. -/
def oledMessage (sender text : Text) : OledMsg :=
  .message (cutText MSG_FROM_LEN sender) (cutText MSG_TEXT_LEN text)

/-- The message that `oled_alert` posts. -/
def oledAlert (title text : Text) (ms : UInt32) : OledMsg :=
  .alert (cutText MSG_FROM_LEN title) (cutText MSG_TEXT_LEN text) ms

def sosText : Text := ⟨ascii "SOS", by decide +kernel⟩

def handleLoraMsgForOled (payload : List Byte) : Option OledMsg :=
  let m := parseLoraMsg deserializeJson (some (cString payload))
  match m.kind with
  | .text => some (oledMessage (cText m.sender) (cText m.text))
  | .sos => some (oledAlert sosText (cText m.sender) 5000)
  | _ => none

/-- `manage_recv_queue`, for the display. -/
def forOled (p : QueueParam) : Option OledMsg :=
  if p.type = T_LORA_MSG then handleLoraMsgForOled deserializeJson p.message else none

/-! ## Glyphs -/

/-- The characters that begin in the first `n` bytes. -/
def begun : ℕ → List Char → List Char
  | 0, _ => []
  | _ + 1, [] => []
  | n + 1, c :: cs => c :: begun (n + 1 - c.utf8Size) cs

/-- What is shown of a text in `n` bytes. -/
def glyphs (n : ℕ) (cs : List Char) : List Byte := (begun n cs).map charGlyph

theorem folded_take_utf8 (inSeq : Bool) (n : ℕ) (cs : List Char) :
    folded inSeq ((utf8 cs).take n) = glyphs n cs := by
  induction cs generalizing inSeq n with
  | nil =>
      cases n with
      | zero => rfl
      | succ n => rfl
  | cons c cs ih =>
      cases n with
      | zero => rfl
      | succ n =>
          rw [Utf16.utf8_cons, List.take_append, String.length_utf8EncodeChar, glyphs, begun,
            List.map_cons]
          by_cases hwhole : c.utf8Size ≤ n + 1
          · rw [List.take_of_length_le (by rwa [String.length_utf8EncodeChar])]
            obtain ⟨inSeq', hfold⟩ :=
              folded_utf8EncodeChar inSeq c ((utf8 cs).take (n + 1 - c.utf8Size))
            rw [hfold, ih, glyphs]
          · -- the character is cut: its first byte is shown, the others are not
            have hzero : n + 1 - c.utf8Size = 0 := by omega
            have hlarge : 0x80 ≤ c.toNat := by
              by_contra hsmall
              have hone := congrArg List.length
                (Utf16.utf8EncodeChar_ascii (Nat.lt_of_not_le hsmall))
              rw [String.length_utf8EncodeChar, List.length_singleton] at hone
              omega
            obtain ⟨lead, rest, hc, hlead, hrest⟩ := Utf16.exists_lead hlarge
            have hcut := folded_continuation
              (fun b hb => hrest b (List.mem_of_mem_take hb) : ∀ b ∈ rest.take n, _) []
            rw [List.append_nil] at hcut
            have hglyph : charGlyph c = questionMark := if_neg (by omega)
            rw [hzero, List.take_zero, List.append_nil, hc, List.take_succ_cons, folded,
              if_pos hlead, hcut, hglyph, begun]
            rfl

theorem shown_cutText {n : ℕ} {s : Text} {cs : List Char} (h : s.bytes = utf8 cs) :
    Screen.shown n (cutText n s) = glyphs (n - 1) cs := by
  have hcut : (cutText n s).bytes = (utf8 cs).take (n - 1) := by
    rw [← h]
    rfl
  change folded false ((cutText n s).bytes.take (n - 1)) = _
  rw [hcut, List.take_take, Nat.min_self, folded_take_utf8]

/-- The characters before the first zero character. -/
def cChars (cs : List Char) : List Char := cs.takeWhile (· ≠ '\x00')

theorem cString_utf8 (cs : List Char) : cString (utf8 cs) = utf8 (cChars cs) := by
  induction cs with
  | nil => rfl
  | cons c cs ih =>
      rw [Utf16.utf8_cons, cChars]
      by_cases hzero : c = '\x00'
      · subst hzero
        rfl
      · have hne : ∀ b ∈ String.utf8EncodeChar c, (b ≠ 0 : Bool) := by
          intro b hb
          rw [decide_eq_true_iff]
          rintro rfl
          by_cases hsmall : c.toNat < 0x80
          · rw [Utf16.utf8EncodeChar_ascii hsmall, List.mem_singleton] at hb
            have hval := congrArg UInt8.toNat hb
            rw [toNat_ofNat_of_lt (by omega)] at hval
            exact hzero (Char.ext (UInt32.toNat_inj.mp hval.symm))
          · exact absurd (Utf16.le_of_mem_utf8EncodeChar (Nat.not_lt.mp hsmall) 0 hb) (by decide)
        rw [cString, List.takeWhile_append_of_pos hne, List.takeWhile_cons_of_pos (by simpa),
          Utf16.utf8_cons]
        exact congrArg _ ih

/-! ## What the board reads -/

/-- `deserializeJson` reads what `JSON.stringify` writes of an object of strings. -/
def Reads : Prop :=
  ∀ (ms : List (List Char × List Char)) (b : List Byte), (ms.map Prod.fst).Nodup →
    SameText (stringify (ms.map fun m => (encode m.1, encode m.2))) b →
    deserializeJson b = some (.object (ms.map fun m => (utf8 m.1, .string (utf8 m.2))))

section Reading

variable {deserializeJson} {json : DeviceJson} {user : List Char} {mac : List Byte}

/-- A MAC address as characters. -/
def macChars (mac : List Byte) : List Char := mac.map fun c => Char.ofNat c.toNat

/-- The name under which the board of `user` sends. -/
def nameChars (user : List Char) (mac : List Byte) : List Char :=
  if user = [] then macChars mac else user

theorem toNat_ofNat_of_isMacChar : ∀ c : Byte, isMacChar c = true →
    c.toNat < 0x80 ∧ (Char.ofNat c.toNat).toNat = c.toNat ∧
      Utf16.encodeChar (Char.ofNat c.toNat) = [c.toUInt16] :=
  forall_byte (by decide +kernel)

theorem utf8_macChars (hmac : IsMac mac) :
    utf8 (macChars mac) = mac ∧ encode (macChars mac) = bytesStr mac := by
  have hchars := hmac.2
  clear hmac
  induction mac with
  | nil => exact ⟨rfl, rfl⟩
  | cons c mac ih =>
      obtain ⟨hc, hrest⟩ := List.forall_mem_cons.mp hchars
      obtain ⟨hlt, hval, hunit⟩ := toNat_ofNat_of_isMacChar c hc
      obtain ⟨hbytes, hunits⟩ := ih hrest
      rw [macChars, List.map_cons]
      constructor
      · rw [Utf16.utf8_cons, Utf16.utf8EncodeChar_ascii (hval.symm ▸ hlt), hval,
          UInt8.ofNat_toNat]
        exact congrArg (c :: ·) hbytes
      · rw [Utf16.encode_cons, hunit]
        exact congrArg (c.toUInt16 :: ·) hunits

theorem utf8_nameChars (hmac : IsMac mac) :
    utf8 (nameChars user mac) = getUsername (utf8 user) mac ∧
      encode (nameChars user mac) = senderName user mac := by
  rw [nameChars, senderName, getUsername]
  cases user with
  | nil =>
      have hnil : (utf8 []).length = 0 := rfl
      rw [if_pos rfl, if_pos rfl, if_pos hnil]
      exact utf8_macChars hmac
  | cons c cs =>
      have hne : ¬ (utf8 (c :: cs)).length = 0 := by
        rw [Utf16.utf8_cons, List.length_append, String.length_utf8EncodeChar]
        have hpos := c.utf8Size_pos
        omega
      rw [if_neg (List.cons_ne_nil c cs), if_neg (List.cons_ne_nil c cs), if_neg hne]
      exact ⟨rfl, rfl⟩

theorem getUsername_ne_nil (hmac : IsMac mac) : getUsername (utf8 user) mac ≠ [] := by
  rw [getUsername]
  split
  · rintro rfl
    exact absurd hmac.1 (by decide)
  · next h => exact fun hnil => h (by rw [hnil]; rfl)

theorem charPtr_string {s : List Byte} (h : ∀ c ∈ s, c ≠ 0) : charPtr (.string s) = some s := by
  have hall : cString s = s := List.takeWhile_eq_self_iff.mpr fun c hc => by simpa using h c hc
  exact congrArg some hall

/-- What the board finds in a payload. -/
theorem parseLoraMsg_payload (hread : Reads deserializeJson) (huser : Clean user)
    (hmac : IsMac mac) (inner : List (List Char × List Char))
    (hnodup : (inner.map Prod.fst).Nodup) {payload : List Byte}
    (h : SameText (payloadText user mac (stringify (inner.map fun m => (encode m.1, encode m.2))))
      payload) :
    parseLoraMsg deserializeJson (some (cString payload)) =
      parseInner { sender := getUsername (utf8 user) mac }
        (.object (inner.map fun m => (utf8 m.1, .string (utf8 m.2)))) := by
  obtain ⟨data, hdata⟩ :=
    exists_sameText_stringify (inner.map fun m => (encode m.1, encode m.2))
  obtain ⟨cs, hcs, henc, rfl⟩ := hdata
  obtain ⟨hname, hname'⟩ : utf8 (nameChars user mac) = getUsername (utf8 user) mac ∧
      encode (nameChars user mac) = senderName user mac := utf8_nameChars hmac
  obtain ⟨hmac₁, hmac₂⟩ := utf8_macChars hmac
  have houter := hread [("name".toList, nameChars user mac), ("mac".toList, macChars mac),
    ("data".toList, cs)] payload (by simp only [List.map_cons, List.map_nil]; decide) (by
      simp only [List.map_cons, List.map_nil, hname', hmac₂, ← henc]
      exact h)
  have hinner := hread inner (utf8 cs) hnodup ⟨cs, hcs, henc, rfl⟩
  have hzero : ∀ c ∈ utf8 cs, c ≠ 0 := 
    SameText.ne_zero (s := encode cs) ⟨cs, hcs, rfl, rfl⟩
  have hall : cString payload = payload :=
    List.takeWhile_eq_self_iff.mpr fun c hc => by simpa using h.ne_zero c hc
  have hkeys : utf8 "name".toList = ascii "name" ∧ utf8 "mac".toList = ascii "mac" ∧
      utf8 "data".toList = ascii "data" := by decide +kernel
  simp only [List.map_cons, List.map_nil, hname, hmac₁, hkeys.1, hkeys.2.1, hkeys.2.2] at houter
  have hgetName : ∀ a b c : JsonVariant, (JsonVariant.object [(ascii "name", a), (ascii "mac", b),
      (ascii "data", c)]).get (ascii "name") = a := fun _ _ _ => rfl
  have hgetData : ∀ a b c : JsonVariant, (JsonVariant.object [(ascii "name", a), (ascii "mac", b),
      (ascii "data", c)]).get (ascii "data") = c := fun _ _ _ => rfl
  have hsender : textOr (.string (getUsername (utf8 user) mac)) = getUsername (utf8 user) mac := by
    rw [textOr, charPtr_string (getUsername_ne_zero huser hmac), Option.getD_some]
  rw [parseLoraMsg, hall, Option.bind_some, houter]
  simp only [hgetName, hgetData, hsender, charPtr_string hzero, Option.bind_some, hinner, ne_eq,
    getUsername_ne_nil hmac, not_false_eq_true, if_true]

end Reading

/-! ## The message on the display -/

/-- In whatever state a board gets the payload in a frame, it leaves its received messages as
they are or adds one for which it posts `m` to its display. -/
def Posts (payload : List Byte) (m : Option OledMsg) : Prop :=
  ∀ seq, ∃ frame, framePacket T_LORA_MSG seq payload MAX_FRAME = some frame ∧
    ∀ (jsonMac : List Byte → Option (List Byte)) (env : Env) (b : Board),
      let after := (b.handleRxFrame jsonMac env frame).1
      after.recvPackets.items = b.recvPackets.items ∨
        ∃ p, after.recvPackets.items = b.recvPackets.items ++ [p] ∧ forOled deserializeJson p = m

theorem posts {payload : List Byte} (hzero : ∀ c ∈ payload, c ≠ 0)
    (hlen : payload.length ≤ MAX_PAYLOAD) :
    Posts deserializeJson payload (handleLoraMsgForOled deserializeJson payload) := by
  intro seq
  obtain ⟨frame, hframe⟩ : ∃ frame, framePacket T_LORA_MSG seq payload MAX_FRAME = some frame :=
    ⟨_, framePacket_eq_some_iff.mpr
      ⟨by decide, hlen, by simp only [MAX_FRAME]; omega, rfl⟩⟩
  refine ⟨frame, hframe, fun jsonMac env b => ?_⟩
  rcases handleRxFrame_message hzero hframe jsonMac env b with hsame | hadded
  · exact .inl hsame
  · exact .inr ⟨_, hadded, if_pos rfl⟩

section Display

variable {deserializeJson} {json : DeviceJson} {user : List Char} {mac : List Byte}

end Display

/-- A library that reads flat objects of strings. -/
def readFlat (b : List Byte) : Option JsonVariant :=
  (decodeText b).bind fun t => (UnitJson.readObject t).map fun ms =>
    .object (ms.map fun m => (utf8Encode m.1, .string (utf8Encode m.2)))

theorem reads_readFlat : Reads readFlat := by
  intro ms b _ h
  have hobject := UnitJson.readObject_text readString_quote
    (ms.map fun m => (encode m.1, encode m.2))
  change UnitJson.readObject (stringify _) = _ at hobject
  rw [readFlat, decodeText_of_sameText h, Option.bind_some, hobject, Option.map_some,
    List.map_map]
  congr 2
  refine List.map_congr_left fun m _ => ?_
  simp only [Function.comp_apply, utf8Encode_encode]

/-- A text with a zero character in it. -/
def zeroText : List Char := ['é', '\x00', 'x']

example : glyphs 96 (cChars zeroText) = ascii "?" := by decide +kernel

end Received

end Voyager
