import Voyager.Library.UnitJson
import Voyager.Lora.Receive
import Voyager.Web.Payload

/-!
# A message from page to page

A page writes a message as a JSON text, the board wraps it into another one with its name and
its address and sends that over the radio. The board that receives it wraps it once more for
its pages, and a page takes the three apart again. Text is UTF-16 on a page and UTF-8 between
the boards, and the escapes of the page and of the boards are not the same.
-/

namespace Voyager

open LoraProto
open Kermit (JsString lit bytesStr)
open Payload
open Utf16 (isHigh isLow isSurrogate encode utf8)

namespace TextMessage

/-! ## What the page reads -/

/-- A value that `JSON.parse` gives; a number is known by its text. -/
inductive Js where
  | null
  | bool (b : Bool)
  | number (finite : Bool) (text : JsString)
  | string (s : JsString)
  | array (vs : List Js)
  | object (ms : List (JsString × Js))

namespace Js

/-- `JSON.stringify` of a value. -/
def text : Js → JsString
  | null => lit "null"
  | bool b => lit (if b then "true" else "false")
  | number finite t => if finite then t else lit "null"
  | string s => quote s
  | array vs => 0x5B :: ((lit ",").intercalate (vs.attach.map fun v => v.1.text) ++ [0x5D])
  | object ms =>
      0x7B :: ((lit ",").intercalate (ms.attach.map fun m => quote m.1.1 ++ 0x3A :: m.1.2.text) ++
        [0x7D])
termination_by v => sizeOf v
decreasing_by
  · have hlt := List.sizeOf_lt_of_mem v.2
    simp only [array.sizeOf_spec]
    omega
  · have hlt := List.sizeOf_lt_of_mem m.2
    have hpair : sizeOf m.1.2 < sizeOf m.1 := by
      rw [Prod.mk.sizeOf_spec m.1.1 m.1.2]
      omega
    simp only [object.sizeOf_spec]
    omega

/-- A property, `none` where JavaScript has `undefined`. -/
def get (v : Js) (key : JsString) : Option Js :=
  match v with
  | object ms => (ms.reverse.find? fun m => m.1 = key).map Prod.snd
  | _ => none

end Js

/-- `toText`; `none` is `undefined`. -/
def toText : Option Js → JsString
  | none => []
  | some .null => []
  | some (.string s) => s
  | some (.bool b) => lit (if b then "true" else "false")
  | some (.number _ t) => t
  | some v => v.text

/-- `JSON.parse`: an object of strings without white space is read here, every other text by
`other`. -/
def jsonParse (other : JsString → Option Js) (t : JsString) : Option Js :=
  match UnitJson.readObject t with
  | some ms => some (.object (ms.map fun m => (m.1, .string m.2)))
  | none => other t

variable (other : JsString → Option Js)

def safeJsonParse (t : JsString) : Js := (jsonParse other t).getD .null

structure LoraRx where
  name : JsString
  mac : JsString
  packType : JsString
  text : JsString
  action : JsString
  size : JsString
  fileName : JsString
  txId : JsString
  nonce : JsString
  sender : JsString
  deriving DecidableEq, Repr

/-- A text is parsed, any other value is taken as it is. -/
def parsed : Option Js → Option Js
  | some (.string t) => some (safeJsonParse other t)
  | v => v

def parseLoraRx (raw : Option Js) : Option LoraRx :=
  match parsed other raw with
  | some (.object outer) =>
      let outer := Js.object outer
      match parsed other (outer.get (lit "data")) with
      | some (.object inner) =>
          let inner := Js.object inner
          let name := toText (outer.get (lit "name"))
          let mac := toText (outer.get (lit "mac"))
          let packType := toText (inner.get (lit "pack_type"))
          let r : LoraRx :=
            { name, mac, packType, text := [], action := [], size := [], fileName := [],
              txId := [], nonce := []
              sender := if name ≠ [] then name else if mac ≠ [] then mac else lit "unknown" }
          if packType = lit "msg" then some { r with text := toText (inner.get (lit "data")) }
          else if packType = lit "action" then
            some { r with
              action := toText (inner.get (lit "data"))
              size := toText (inner.get (lit "size"))
              fileName := toText (inner.get (lit "name"))
              txId := toText (inner.get (lit "tx_id"))
              nonce := toText (inner.get (lit "nonce")) }
          else none
      | _ => none
  | _ => none

/-- What a message does on the page. -/
inductive Shown where
  | message (sender text : JsString)
  | sos (sender : JsString)
  /-- `serialTransfer.handleLoraAction`. -/
  | handshake (m : LoraRx)
  | nothing
  deriving DecidableEq, Repr

/-- `handle_lora_rx`. -/
def handleLoraRx : Option LoraRx → Shown
  | none => .nothing
  | some m =>
      if m.packType = lit "msg" then .message m.sender m.text
      else if m.action = lit "sos" then .sos m.sender
      else if (lit "file_tx_").isPrefixOf m.action then .handshake m
      else .nothing

/-- The text of a WebSocket message; one that is not UTF-8 ends the connection. -/
def decodeText (bytes : List Byte) : Option JsString :=
  bytes.toByteArray.utf8Decode?.map fun cs => encode cs.toList

/-- `onmessage` and `handle_ws_message`, for `lora_rx`. -/
def onMessage (bytes : List Byte) : Shown :=
  match decodeText bytes with
  | none => .nothing
  | some t =>
      let data := safeJsonParse other t
      match data.get (lit "response_type") with
      | some (.string type) =>
          if type = lit "lora_rx" then handleLoraRx (parseLoraRx other (data.get (lit "lora_msg")))
          else .nothing
      | _ => .nothing

/-! ## What the page sends -/

/-- `buildAction`, with the properties of `extra`. -/
def buildAction (action : JsString) (extra : List (JsString × JsString)) : JsString :=
  stringify ((lit "pack_type", lit "action") :: (lit "data", action) :: extra)

def FILE_TX_NAME_MAX : ℕ := 64

def buildFileTxInvite (txId name size : JsString) : JsString :=
  buildAction (lit "file_tx_invite")
    [(lit "tx_id", txId), (lit "name", name.take FILE_TX_NAME_MAX), (lit "size", size)]

def buildFileTxJoin (txId nonce : JsString) : JsString :=
  buildAction (lit "file_tx_join") [(lit "tx_id", txId), (lit "nonce", nonce)]

def buildFileTxGo (txId nonce : JsString) : JsString :=
  buildAction (lit "file_tx_go") [(lit "tx_id", txId), (lit "nonce", nonce)]

/-! ## What the boards do -/

/-- The JSON library with `serializeJson` of an object whose members are strings. -/
structure DeviceJson extends Payload.JsonLibrary where
  serializeJson : List FlatJson.Member → List Byte

structure DeviceJson.Documented (json : DeviceJson) : Prop where
  measures : json.toJsonLibrary.Documented
  serializes (ms : List FlatJson.Member) :
    (∀ m ∈ ms, m.Plain) → json.serializeJson ms = FlatJson.writeObject ms

variable (json : DeviceJson)

/-- The payload that `handle_lora_transmit` queues for the `data` of a request. -/
def queuedPayload (name mac data : List Byte) : Option (List Byte) :=
  if (checkLoraTransmit json.toJsonLibrary (some data) (some name) (some mac)
      LORA_MAX_PAYLOAD).1 = .ok then
    some (json.serializeJson (fillLoraMsg (some name) (some mac) (some data)))
  else none

/-- `send_msg_to_ws`. -/
def sendMsgToWs (data : List Byte) : List Byte :=
  json.serializeJson [(ascii "response_type", ascii "lora_rx"), (ascii "lora_msg", data)]

/-- `manage_recv_queue`, for the pages. -/
def manageRecvQueue (p : QueueParam) : Option (List Byte) :=
  if p.type = T_LORA_MSG then some (sendMsgToWs json p.message) else none

/-! ## A text of the page is read back -/

theorem hexValue_hexDigit : ∀ n < 16, UnitJson.hexValue (hexDigit n).toUInt16 = some n := by
  decide

theorem hexUnit_digits (c : UInt16) :
    UnitJson.hexUnit (hexDigit (c.toNat / 4096)).toUInt16 (hexDigit (c.toNat / 256 % 16)).toUInt16
      (hexDigit (c.toNat / 16 % 16)).toUInt16 (hexDigit (c.toNat % 16)).toUInt16 = some c := by
  have hlt := c.toNat_lt
  rw [UnitJson.hexUnit, hexValue_hexDigit _ (by omega), hexValue_hexDigit _ (by omega),
    hexValue_hexDigit _ (by omega), hexValue_hexDigit _ (by omega)]
  simp only [Option.bind_some, Option.map_some, Option.some.injEq]
  have hsum : c.toNat / 4096 * 4096 + c.toNat / 256 % 16 * 256 + c.toNat / 16 % 16 * 16 +
      c.toNat % 16 = c.toNat := by omega
  rw [hsum, UInt16.ofNat_toNat]

theorem readUnits_quoteUnit (c : UInt16) (t : JsString) :
    UnitJson.readUnits (quoteUnit c ++ t) =
      (UnitJson.readUnits t).map fun r => (c :: r.1, r.2) := by
  rw [quoteUnit]
  split_ifs with hquote h8 hC hA hD h9 hescape
  · rcases hquote with rfl | rfl <;> exact UnitJson.readUnits_escape (by decide) t
  · exact h8 ▸ UnitJson.readUnits_escape (by decide) t
  · exact hC ▸ UnitJson.readUnits_escape (by decide) t
  · exact hA ▸ UnitJson.readUnits_escape (by decide) t
  · exact hD ▸ UnitJson.readUnits_escape (by decide) t
  · exact h9 ▸ UnitJson.readUnits_escape (by decide) t
  · exact UnitJson.readUnits_unicode (hexUnit_digits c) t
  · rw [not_or] at hquote hescape
    exact UnitJson.readUnits_plain hquote.1 hquote.2 hescape.1 t

/-- A part of a pair stands for itself. -/
theorem readUnits_surrogate {c : UInt16} (h : isSurrogate c = true) (t : JsString) :
    UnitJson.readUnits (c :: t) = (UnitJson.readUnits t).map fun r => (c :: r.1, r.2) := by
  have hlo := (Utf16.isSurrogate_iff.mp h).1
  refine UnitJson.readUnits_plain ?_ ?_ ?_ t
  · rintro rfl
    exact absurd hlo (by decide)
  · rintro rfl
    exact absurd hlo (by decide)
  · rw [UInt16.lt_iff_toNat_lt, not_lt]
    exact le_trans (by decide) hlo

theorem readUnits_quoteUnits (s t : JsString) :
    UnitJson.readUnits (quoteUnits s ++ 0x22 :: t) = some (s, t) := by
  induction s using quoteUnits.induct with
  | case1 => exact UnitJson.readUnits_quote t
  | case2 c => rw [quoteUnits, readUnits_quoteUnit, UnitJson.readUnits_quote, Option.map_some]
  | case3 c d rest hpair ih =>
      obtain ⟨hhi, hlo⟩ := Bool.and_eq_true_iff.mp hpair
      have hc : isSurrogate c = true := by
        rw [Utf16.isSurrogate_iff]
        have hc := Utf16.isHigh_iff.mp hhi
        omega
      have hd : isSurrogate d = true := by
        rw [Utf16.isSurrogate_iff]
        have hd := Utf16.isLow_iff.mp hlo
        omega
      rw [quoteUnits, if_pos hpair, List.cons_append, readUnits_surrogate hc, List.cons_append,
        readUnits_surrogate hd, ih, Option.map_some, Option.map_some]
  | case4 c d rest hpair ih =>
      rw [quoteUnits, if_neg hpair, List.append_assoc, readUnits_quoteUnit, ih, Option.map_some]

theorem readString_quote (s t : JsString) : UnitJson.readString (quote s ++ t) = some (s, t) := by
  rw [UnitJson.readString, quote, List.cons_append, UnitJson.expect_cons, Option.bind_some,
    List.append_assoc, List.singleton_append, readUnits_quoteUnits]

/-- What `JSON.stringify` writes `JSON.parse` reads. -/
theorem jsonParse_stringify (ms : List (JsString × JsString)) :
    jsonParse other (stringify ms) = some (.object (ms.map fun m => (m.1, .string m.2))) := by
  have htext : stringify ms = UnitJson.objectText quote ms := rfl
  rw [jsonParse, htext, UnitJson.readObject_text readString_quote]

theorem decodeText_utf8 (cs : List Char) : decodeText (utf8 cs) = some (encode cs) := by
  have hbytes : (utf8 cs).toByteArray = cs.utf8Encode := rfl
  rw [decodeText, hbytes, List.utf8Decode?_utf8Encode]
  rfl

theorem decodeText_of_sameText {s : JsString} {b : List Byte} (h : SameText s b) :
    decodeText b = some s := by
  obtain ⟨cs, -, rfl, rfl⟩ := h
  exact decodeText_utf8 cs

/-- An object of strings. -/
def strings (ms : List (JsString × JsString)) : Js := .object (ms.map fun m => (m.1, .string m.2))

theorem safeJsonParse_stringify (ms : List (JsString × JsString)) :
    safeJsonParse other (stringify ms) = strings ms := by
  rw [safeJsonParse, jsonParse_stringify, Option.getD_some, strings]

/-! ## On the way -/

section Way

variable {json} {user : List Char} {mac : List Byte} {ms : List (JsString × JsString)}

/-- The name under which the board of `user` sends. -/
def senderName (user : List Char) (mac : List Byte) : JsString :=
  if user = [] then bytesStr mac else encode user

theorem sameText_mac (hmac : IsMac mac) : SameText (bytesStr mac) mac := by
  have hchar : ∀ c : Byte, isMacChar c = true → 0x20 ≤ c.toUInt16.toNat ∧ c.toUInt16.toNat < 0x80 :=
    forall_byte (by decide +kernel)
  have hback : Kermit.strBytes (bytesStr mac) = mac := by
    rw [Kermit.strBytes, bytesStr, List.map_map]
    exact List.map_id'' (fun c => c.toUInt8_toUInt16) mac
  have htext := sameText_of_ascii (s := bytesStr mac) fun c hc => by
    obtain ⟨d, hd, rfl⟩ := List.mem_map.mp hc
    exact hchar d (hmac.2 d hd)
  rwa [hback] at htext

theorem sameText_senderName (huser : Clean user) (hmac : IsMac mac) :
    SameText (senderName user mac) (getUsername (utf8 user) mac) := by
  rw [senderName, getUsername]
  cases user with
  | nil => exact sameText_mac hmac
  | cons c cs =>
      have hne : ¬ (utf8 (c :: cs)).length = 0 := by
        rw [Utf16.utf8_cons, List.length_append, String.length_utf8EncodeChar]
        have hpos := c.utf8Size_pos
        omega
      rw [if_neg (List.cons_ne_nil c cs), if_neg hne]
      exact ⟨c :: cs, huser, rfl, rfl⟩

theorem plain_of_sameText {s s' : JsString} {m : FlatJson.Member} (h : SameText s m.1)
    (h' : SameText s' m.2) : m.Plain := ⟨h.ne_zero, h'.ne_zero⟩

theorem plain_of_forall₂ {ms : List (JsString × JsString)} {bs : List FlatJson.Member}
    (h : List.Forall₂ (fun m b => SameText m.1 b.1 ∧ SameText m.2 b.2) ms bs) :
    ∀ m ∈ bs, m.Plain := by
  induction h with
  | nil => exact fun _ hm => absurd hm List.not_mem_nil
  | cons hhead _ ih => exact List.forall_mem_cons.mpr ⟨plain_of_sameText hhead.1 hhead.2, ih⟩

/-- The library writes the text that the page would write. -/
theorem sameText_serializeJson (hjson : json.Documented) {bs : List FlatJson.Member}
    (h : List.Forall₂ (fun m b => SameText m.1 b.1 ∧ SameText m.2 b.2) ms bs) :
    SameText (stringify ms) (json.serializeJson bs) := by
  rw [hjson.serializes bs (plain_of_forall₂ h)]
  exact SameText.stringify h

/-- The payload of a message in UTF-16. -/
def payloadText (user : List Char) (mac : List Byte) (inner : JsString) : JsString :=
  stringify [(lit "name", senderName user mac), (lit "mac", bytesStr mac), (lit "data", inner)]

/-- What a board wraps around a message. -/
theorem sameText_payload (hjson : json.Documented) (huser : Clean user) (hmac : IsMac mac)
    {inner : JsString} {data : List Byte} (hdata : SameText inner data) :
    SameText (payloadText user mac inner) (json.serializeJson
      (fillLoraMsg (some (getUsername (utf8 user) mac)) (some mac) (some data))) := by
  have hkeys : SameText (lit "name") (ascii "name") ∧ SameText (lit "mac") (ascii "mac") ∧
      SameText (lit "data") (ascii "data") :=
    ⟨sameText_of_all (s := lit "name") (by decide), sameText_of_all (s := lit "mac") (by decide),
      sameText_of_all (s := lit "data") (by decide)⟩
  exact sameText_serializeJson hjson (.cons ⟨hkeys.1, sameText_senderName huser hmac⟩
    (.cons ⟨hkeys.2.1, sameText_mac hmac⟩ (.cons ⟨hkeys.2.2, hdata⟩ .nil)))

/-- What a board queues is the text that wraps the message, and fits a frame. -/
theorem sameText_queuedPayload (hjson : json.Documented) (huser : Clean user) (hmac : IsMac mac)
    {payload : List Byte}
    (h : queuedPayload json (getUsername (utf8 user) mac) mac (utf8Encode (stringify ms)) =
      some payload) :
    SameText (payloadText user mac (stringify ms)) payload ∧ payload.length ≤ MAX_PAYLOAD := by
  obtain ⟨data, hdata⟩ := exists_sameText_stringify ms
  have hplain : ∀ m ∈ fillLoraMsg (some (getUsername (utf8 user) mac)) (some mac) (some data),
      m.Plain := by
    have hkey : ∀ c ∈ ascii "name" ++ ascii "mac" ++ ascii "data", c ≠ 0 := by decide +kernel
    simp only [fillLoraMsg, Option.getD_some, List.forall_mem_cons, List.not_mem_nil,
      false_implies, implies_true, and_true]
    exact ⟨⟨fun c hc => hkey c (by simp [hc]), getUsername_ne_zero huser hmac⟩,
      ⟨fun c hc => hkey c (by simp [hc]), hmac.ne_zero⟩,
      ⟨fun c hc => hkey c (by simp [hc]), hdata.ne_zero⟩⟩
  rw [hdata.utf8Encode, queuedPayload] at h
  split_ifs at h with hcheck
  cases h
  refine ⟨sameText_payload hjson huser hmac hdata, ?_⟩
  rw [hjson.serializes _ hplain, ← hjson.measures.measures _ hplain]
  simp only [checkLoraTransmit] at hcheck
  split_ifs at hcheck with hnil hlong hwrapped hobject
  exact not_lt.mp hwrapped

/-- A frame with a text message changes what the board has received by that message or not at
all. -/
theorem handleRxFrame_message {payload frame : List Byte} {seq : Byte} {outCap : ℕ}
    (hzero : ∀ c ∈ payload, c ≠ 0) (hframe : framePacket T_LORA_MSG seq payload outCap = some frame)
    (jsonMac : List Byte → Option (List Byte)) (env : Env) (b : Board) :
    (b.handleRxFrame jsonMac env frame).1.recvPackets.items = b.recvPackets.items ∨
      (b.handleRxFrame jsonMac env frame).1.recvPackets.items =
        b.recvPackets.items ++ [{ type := T_LORA_MSG, message := payload, id := 0 }] := by
  obtain ⟨-, hlen, -, -⟩ := framePacket_eq_some_iff.mp hframe
  have htext : cString payload = payload :=
    List.takeWhile_eq_self_iff.mpr fun c hc => by simpa using hzero c hc
  have hbyte : (UInt8.ofNat payload.length).toNat = payload.length :=
    toNat_ofNat_of_lt (by simp only [MAX_PAYLOAD] at hlen; omega)
  have hack : ¬ T_LORA_MSG = T_REC_AKNG := by decide
  have hserial : ¬ T_LORA_MSG = T_LORA_SERIAL := by decide
  have hnet : ¬ T_LORA_MSG = T_NET := by decide
  have hraw : ¬ T_LORA_MSG = T_RAW_DATA := by decide
  rw [Board.handleRxFrame, parsePacket_framePacket hframe]
  simp only [not_true_eq_false, hack, hserial, hnet, hraw, if_false, Board.handleMsg,
    Board.queueMsg, htext, hbyte, ne_eq, or_false]
  split_ifs with hdup hheap
  · exact .inl rfl
  · cases hsend : b.recvPackets.send { type := T_LORA_MSG, message := payload, id := 0 } with
    | none => exact .inl rfl
    | some q => exact .inr (BoundedQueue.send_eq_some_iff.mp hsend).2
  · exact .inl rfl

/-- What the pages of a board make of a payload. -/
def shownOf (other : JsString → Option Js) (json : DeviceJson) (payload : List Byte) : Shown :=
  onMessage other (sendMsgToWs json payload)

/-- What a page finds in the text of a payload. -/
theorem shownOf_payload (hjson : json.Documented) {inner : JsString} {payload : List Byte}
    (h : SameText (payloadText user mac inner) payload) :
    shownOf other json payload =
      handleLoraRx (parseLoraRx other (some (.string (payloadText user mac inner)))) := by
  have hkeys : SameText (lit "response_type") (ascii "response_type") ∧
      SameText (lit "lora_rx") (ascii "lora_rx") ∧ SameText (lit "lora_msg") (ascii "lora_msg") :=
    ⟨sameText_of_all (s := lit "response_type") (by decide),
      sameText_of_all (s := lit "lora_rx") (by decide),
      sameText_of_all (s := lit "lora_msg") (by decide)⟩
  have hmembers : List.Forall₂ (fun (m : JsString × JsString) (b : FlatJson.Member) =>
      SameText m.1 b.1 ∧ SameText m.2 b.2)
      [(lit "response_type", lit "lora_rx"), (lit "lora_msg", payloadText user mac inner)]
      [(ascii "response_type", ascii "lora_rx"), (ascii "lora_msg", payload)] :=
    .cons ⟨hkeys.1, hkeys.2.1⟩ (.cons ⟨hkeys.2.2, h⟩ .nil)
  have htext := decodeText_of_sameText (sameText_serializeJson hjson hmembers)
  rw [shownOf, sendMsgToWs, onMessage, htext]
  simp only [safeJsonParse_stringify]
  rfl

theorem senderName_ne_nil (hmac : IsMac mac) : senderName user mac ≠ [] := by
  rw [senderName]
  cases user with
  | nil =>
      rw [if_pos rfl, bytesStr, ne_eq, List.map_eq_nil_iff, ← List.length_eq_zero_iff, hmac.1]
      decide
  | cons c cs =>
      rw [if_neg (List.cons_ne_nil c cs), Utf16.encode_cons]
      rcases Utf16.encodeChar_cases c with ⟨u, hu, -⟩ | ⟨hi, lo, hu, -⟩ <;> simp [hu]

/-- What is read of a payload apart from the message in it. -/
def received (user : List Char) (mac : List Byte) (packType : JsString) : LoraRx :=
  { name := senderName user mac, mac := bytesStr mac, packType, text := [], action := [],
    size := [], fileName := [], txId := [], nonce := [], sender := senderName user mac }

/-- What `parseLoraRx` finds in a payload with an object of strings in it. -/
theorem parseLoraRx_payload (hmac : IsMac mac) (inner : List (JsString × JsString)) :
    parseLoraRx other (some (.string (payloadText user mac (stringify inner)))) =
      let field := fun key => toText ((strings inner).get key)
      if field (lit "pack_type") = lit "msg" then
        some { received user mac (field (lit "pack_type")) with text := field (lit "data") }
      else if field (lit "pack_type") = lit "action" then
        some { received user mac (field (lit "pack_type")) with
          action := field (lit "data")
          size := field (lit "size")
          fileName := field (lit "name")
          txId := field (lit "tx_id")
          nonce := field (lit "nonce") }
      else none := by
  have houter : ∀ v : JsString, (strings [(lit "name", senderName user mac),
      (lit "mac", bytesStr mac), (lit "data", v)]).get (lit "data") = some (.string v) :=
    fun _ => rfl
  have hname : ∀ v : JsString, (strings [(lit "name", senderName user mac),
      (lit "mac", bytesStr mac), (lit "data", v)]).get (lit "name") =
        some (.string (senderName user mac)) := fun _ => rfl
  have hmac' : ∀ v : JsString, (strings [(lit "name", senderName user mac),
      (lit "mac", bytesStr mac), (lit "data", v)]).get (lit "mac") =
        some (.string (bytesStr mac)) := fun _ => rfl
  have htext : ∀ s : JsString, toText (some (.string s)) = s := fun _ => rfl
  simp only [strings] at houter hname hmac'
  simp only [parseLoraRx, parsed, payloadText, safeJsonParse_stringify, strings, houter, hname,
    hmac', htext, received, ne_eq, senderName_ne_nil hmac, not_false_eq_true, if_true]
  rfl

/-! ## The message arrives -/

/-- In whatever state a board gets the payload in a frame, it leaves its received messages as
they are or adds one that its pages show as `shown`. -/
def Arrives (other : JsString → Option Js) (json : DeviceJson) (payload : List Byte)
    (shown : Shown) : Prop :=
  ∀ seq, ∃ frame, framePacket T_LORA_MSG seq payload MAX_FRAME = some frame ∧
    ∀ (jsonMac : List Byte → Option (List Byte)) (env : Env) (b : Board),
      let after := (b.handleRxFrame jsonMac env frame).1
      after.recvPackets.items = b.recvPackets.items ∨
        ∃ p, after.recvPackets.items = b.recvPackets.items ++ [p] ∧
          (manageRecvQueue json p).map (onMessage other) = some shown

theorem arrives_of_sameText (hjson : json.Documented) {inner : JsString} {payload : List Byte}
    (htext : SameText (payloadText user mac inner) payload)
    (hlen : payload.length ≤ MAX_PAYLOAD) :
    Arrives other json payload (handleLoraRx
      (parseLoraRx other (some (.string (payloadText user mac inner))))) := by
  intro seq
  obtain ⟨frame, hframe⟩ : ∃ frame, framePacket T_LORA_MSG seq payload MAX_FRAME = some frame :=
    ⟨_, framePacket_eq_some_iff.mpr
      ⟨by decide, hlen, by simp only [MAX_FRAME]; omega, rfl⟩⟩
  refine ⟨frame, hframe, fun jsonMac env b => ?_⟩
  rcases handleRxFrame_message htext.ne_zero hframe jsonMac env b with hsame | hadded
  · exact .inl hsame
  · refine .inr ⟨_, hadded, ?_⟩
    rw [manageRecvQueue, if_pos rfl, Option.map_some, ← shownOf_payload other hjson htext]
    rfl

theorem arrives (hjson : json.Documented) (huser : Clean user) (hmac : IsMac mac)
    {payload : List Byte}
    (h : queuedPayload json (getUsername (utf8 user) mac) mac (utf8Encode (stringify ms)) =
      some payload) :
    Arrives other json payload (handleLoraRx
      (parseLoraRx other (some (.string (payloadText user mac (stringify ms)))))) := by
  obtain ⟨htext, hlen⟩ := sameText_queuedPayload hjson huser hmac h
  exact arrives_of_sameText other hjson htext hlen

/-- A text that the board accepts from a page is shown unchanged, under the name of the board,
by the pages of every board that takes the frame. -/
theorem text_arrives (hjson : json.Documented) (huser : Clean user) (hmac : IsMac mac)
    (text : JsString) {payload : List Byte}
    (h : queuedPayload json (getUsername (utf8 user) mac) mac
      (utf8Encode (buildTextMessage text)) = some payload) :
    Arrives other json payload (.message (senderName user mac) text) := by
  have harrives := arrives other hjson huser hmac h
  rw [parseLoraRx_payload other hmac] at harrives
  exact harrives

/-- So are the three messages of the handshake before a file transfer; of the file's name its
first 64 units. -/
theorem handshake_arrives (hjson : json.Documented) (huser : Clean user) (hmac : IsMac mac)
    (txId nonce name size : JsString) (payload : List Byte) :
    (queuedPayload json (getUsername (utf8 user) mac) mac
        (utf8Encode (buildFileTxInvite txId name size)) = some payload →
      Arrives other json payload (.handshake
        { received user mac (lit "action") with
          action := lit "file_tx_invite", txId, fileName := name.take FILE_TX_NAME_MAX, size })) ∧
    (queuedPayload json (getUsername (utf8 user) mac) mac
        (utf8Encode (buildFileTxJoin txId nonce)) = some payload →
      Arrives other json payload (.handshake
        { received user mac (lit "action") with action := lit "file_tx_join", txId, nonce })) ∧
    (queuedPayload json (getUsername (utf8 user) mac) mac
        (utf8Encode (buildFileTxGo txId nonce)) = some payload →
      Arrives other json payload (.handshake
        { received user mac (lit "action") with action := lit "file_tx_go", txId, nonce })) := by
  refine ⟨fun h => ?_, fun h => ?_, fun h => ?_⟩
  all_goals
    have harrives := arrives other hjson huser hmac h
    rw [parseLoraRx_payload other hmac] at harrives
    exact harrives

end Way

/-- A library that writes what `FlatJson` writes. -/
def flatDevice : DeviceJson := { flatJson with serializeJson := FlatJson.writeObject }

theorem flatDevice_documented : flatDevice.Documented where
  measures := ⟨fun _ _ => rfl⟩
  serializes _ _ := rfl

theorem clean_someName : Clean someName := by
  simp [Clean, someName]

theorem isMac_someMac : IsMac someMac := ⟨by decide, by decide +kernel⟩

/-- A text that is no proper UTF-16. -/
def loneSurrogate : JsString := [0xD800, 0x0A]

theorem text_arrives_loneSurrogate :
    ∃ payload, queuedPayload flatDevice (getUsername (utf8 someName) someMac) someMac
        (utf8Encode (buildTextMessage loneSurrogate)) = some payload ∧
      Arrives (fun _ => none) flatDevice payload
        (.message (senderName someName someMac) loneSurrogate) := by
  have h : queuedPayload flatDevice (getUsername (utf8 someName) someMac) someMac
      (utf8Encode (buildTextMessage loneSurrogate)) =
        some (flatDevice.serializeJson (fillLoraMsg (some (getUsername (utf8 someName) someMac))
          (some someMac) (some (utf8Encode (buildTextMessage loneSurrogate))))) :=
    if_pos (by decide +kernel)
  exact ⟨_, h, text_arrives _ flatDevice_documented clean_someName isMac_someMac loneSurrogate h⟩

theorem handshake_arrives_join :
    ∃ payload, queuedPayload flatDevice (getUsername (utf8 someName) someMac) someMac
        (utf8Encode (buildFileTxJoin (lit "17") (lit "4"))) = some payload ∧
      Arrives (fun _ => none) flatDevice payload (.handshake
        { received someName someMac (lit "action") with
          action := lit "file_tx_join", txId := lit "17", nonce := lit "4" }) := by
  have h : queuedPayload flatDevice (getUsername (utf8 someName) someMac) someMac
      (utf8Encode (buildFileTxJoin (lit "17") (lit "4"))) =
        some (flatDevice.serializeJson (fillLoraMsg (some (getUsername (utf8 someName) someMac))
          (some someMac) (some (utf8Encode (buildFileTxJoin (lit "17") (lit "4")))))) :=
    if_pos (by decide +kernel)
  exact ⟨_, h, (handshake_arrives _ flatDevice_documented clean_someName isMac_someMac
    (lit "17") (lit "4") [] [] _).2.1 h⟩

end TextMessage

end Voyager
