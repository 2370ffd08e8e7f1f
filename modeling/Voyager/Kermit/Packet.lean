import Voyager.Kermit.Encoding
import Voyager.Library.Mealy

/-!
# Kermit packets

`buildPacket` writes one packet: `MARK`, a length, a sequence number, a type, the
encoded data, a block check and `EOL`. The short form holds up to 94 bytes after the
length character; longer data gets a header with two base-95 digits and a check of its
own.

`createParser` is fed raw bytes and emits the frames in them. `parseStep` is one turn
of the loop of `parse`: the buffer holds too little (`wait`), a part of it is dropped
(`skip`), or a frame is complete (`emit`). What is left when the loop returns is a
buffer on which it would return again at once, and the parser carries this with it.
The block check is not looked at until `data` is called.
-/

namespace Voyager

namespace Kermit

def MARK : Byte := 0x01
def EOL : Byte := 0x0d
def MAX_BASIC : ℕ := 94

/-! ## Block checks -/

/-- The bytes `from <= i < to` of a buffer. -/
def slice (bytes : List Byte) (start stop : ℕ) : List Byte :=
  (bytes.take stop).drop start

def check1 (bytes : List Byte) (start stop : ℕ) : List Byte :=
  let s := ((slice bytes start stop).map UInt8.toNat).sum
  [tochar ((s + ((s &&& 192) >>> 6)) &&& 63)]

def crcShift (crc : ℕ) : ℕ :=
  if crc &&& 1 = 1 then (crc >>> 1) ^^^ 0x8408 else crc >>> 1

/-- CRC-16/KERMIT: poly 0x1021 reflected, init 0, no final xor. -/
def crc16 (bytes : List Byte) (start stop : ℕ) : ℕ :=
  (slice bytes start stop).foldl
    (fun crc b => Nat.repeat crcShift 8 (crc ^^^ b.toNat)) 0 &&& 0xffff

def check3 (bytes : List Byte) (start stop : ℕ) : List Byte :=
  let c := crc16 bytes start stop
  [tochar ((c >>> 12) &&& 0x0f), tochar ((c >>> 6) &&& 0x3f), tochar (c &&& 0x3f)]

def blockCheck (type : ℕ) (bytes : List Byte) (start stop : ℕ) : List Byte :=
  if type = 3 then check3 bytes start stop else check1 bytes start stop

def ckLen (type : ℕ) : ℕ := if type = 3 then 3 else 1

/-! ## Packet build -/

/-- `MARK` and the header, up to the first byte of the data. -/
def packetHeader (seq : ℕ) (type : Byte) (dataLen ckType : ℕ) : List Byte :=
  let cl := ckLen ckType
  let bodyLen := 2 + dataLen + cl
  if bodyLen ≤ MAX_BASIC then [MARK, tochar bodyLen, tochar (seq &&& 63), type]
  else
    let lenx := dataLen + cl
    let p := [MARK, tochar 0, tochar (seq &&& 63), type, tochar (lenx / 95), tochar (lenx % 95)]
    p ++ [byteAt (check1 p 1 6) 0]

def buildPacket (seq : ℕ) (type : Byte) (data : List Byte) (ckType : ℕ) : List Byte :=
  let p := packetHeader seq type data.length ckType ++ data
  p ++ blockCheck ckType p 1 p.length ++ [EOL]

/-! ## Packet parse -/

/-- What `onPacket` is given: the bytes of one frame and the length of its header. -/
structure Packet where
  raw : List Byte
  hdr : ℕ
  deriving DecidableEq, Repr

def Packet.seq (pkt : Packet) : Byte := unchar (byteAt pkt.raw 2)

def Packet.type (pkt : Packet) : Byte := byteAt pkt.raw 3

/-- The data bytes if the block check is right; `none` is the source's `null`. -/
def Packet.data (pkt : Packet) (ckType : ℕ) : Option (List Byte) :=
  let cl := ckLen ckType
  if pkt.raw.length < cl + pkt.hdr then none
  else
    let stop := pkt.raw.length - cl
    if pkt.raw.drop stop = blockCheck ckType pkt.raw 1 stop then some (slice pkt.raw pkt.hdr stop)
    else none

/-- The bytes no frame has inside it. -/
def isControl (b : Byte) : Bool := b < 32 || b = 127

/-- The index of the first control byte among `from <= i < to`. -/
def badRange (buf : List Byte) (start stop : ℕ) : Option ℕ :=
  ((slice buf start stop).findIdx? isControl).map (start + ·)

inductive Scan
  | wait (buf : List Byte)
  | skip (buf : List Byte)
  | emit (pkt : Packet) (buf : List Byte)
  deriving DecidableEq, Repr

/-- Drop up to a control byte in the range, else go on with `next`. -/
def scanRange (buf : List Byte) (stop : ℕ) (next : Scan) : Scan :=
  match badRange buf 1 stop with
  | some i => .skip (buf.drop i)
  | none => next

/-- The end of the loop body, once the length of the frame is known. -/
def scanFrame (buf : List Byte) (hdr total : ℕ) : Scan :=
  if buf.length < total then scanRange buf buf.length (.wait buf)
  else scanRange buf total (.emit ⟨buf.take total, hdr⟩ (buf.drop total))

/-- The loop body, on a buffer that begins with `MARK`. -/
def scanMark (buf : List Byte) : Scan :=
  if buf.length < 2 then .wait buf
  else
    let len := (unchar (byteAt buf 1)).toNat
    if len = 0 then
      if buf.length < 7 then scanRange buf buf.length (.wait buf)
      else scanRange buf 7
        (if byteAt (check1 buf 1 6) 0 ≠ byteAt buf 6 then .skip (buf.drop 1)
        else scanFrame buf 7
          (7 + (unchar (byteAt buf 4)).toNat * 95 + (unchar (byteAt buf 5)).toNat))
    else if len < 3 ∨ MAX_BASIC < len then .skip (buf.drop 1)
    else scanFrame buf 4 (2 + len)

/-- One turn of the loop of `parse`. -/
def parseStep (buf : List Byte) : Scan :=
  match buf.dropWhile (· ≠ MARK) with
  | [] => .wait []
  | c :: rest => scanMark (c :: rest)

end Kermit

end Voyager
