import Mathlib.Data.List.Basic
import Mathlib.Algebra.Order.Ring.Nat
import Voyager.Basic

/-!
# Kermit data encoding

File bytes travel as printable characters. A control character is sent as `#` and
the character with bit six flipped, a prefix character as `#` and itself, a byte with
the eighth bit set as the 8th-bit prefix and the rest (when that prefix was
negotiated), and a run of three or more equal bytes as the repeat prefix, the count
and one encoded byte. These nest in this order in one unit, and `encodeChunk` fills a
packet with whole units only. `decode` takes the prefixes off again, one unit at a
time.
-/

namespace Voyager

namespace Kermit

def QCTL : Byte := 0x23
def REPT : Byte := 0x7e

def tochar (x : ℕ) : Byte := UInt8.ofNat (x + 32)
def unchar (c : Byte) : Byte := c - 32
def ctl (c : Byte) : Byte := c ^^^ 64

/-- The prefix characters in use; `0` is the source's `0` (not negotiated), and for
`qctl` an absent property. -/
structure Quote where
  qbin : Byte
  rept : Byte
  qctl : Byte
  deriving DecidableEq, Repr

/-- `q.qctl || QCTL`. -/
def Quote.ctlChar (q : Quote) : Byte := if q.qctl = 0 then QCTL else q.qctl

/-- The unit of one byte, without a repeat count. -/
def encodeByte (b : Byte) (q : Quote) : List Byte :=
  let eighth := q.qbin ≠ 0 ∧ b &&& 0x80 ≠ 0
  let out := if eighth then [q.qbin] else []
  let b := if eighth then b &&& 0x7f else b
  let a7 := b &&& 0x7f
  if a7 < 32 ∨ a7 = 127 then out ++ [QCTL, ctl b]
  else if a7 = QCTL ∨ (q.qbin ≠ 0 ∧ a7 = q.qbin) ∨ (q.rept ≠ 0 ∧ a7 = q.rept) then
    out ++ [QCTL, b]
  else out ++ [b]

/-- `while (i + run < src.length && src[i + run] === b && run < 94) run++`, over the
bytes after `src[i]`. -/
def countRun (b : Byte) : ℕ → List Byte → ℕ
  | run, [] => run
  | run, c :: cs => if c = b ∧ run < 94 then countRun b (run + 1) cs else run

/-- The next unit and the number of source bytes it stands for; `rest` is what follows
the byte `b`. -/
def encodePiece (b : Byte) (rest : List Byte) (q : Quote) : List Byte × ℕ :=
  let run := if q.rept ≠ 0 then countRun b 1 rest else 1
  if q.rept ≠ 0 ∧ run ≥ 3 then (q.rept :: tochar run :: encodeByte b q, run)
  else (encodeByte b q, 1)

/-- `{bytes, next}` of `encodeChunk`. -/
structure Chunk where
  bytes : List Byte
  next : ℕ
  deriving DecidableEq, Repr

/-- The loop of `encodeChunk` at position `i`, where `src.drop i` is the last argument. -/
def encodeLoop (maxData : ℕ) (q : Quote) (out : List Byte) (i : ℕ) : List Byte → Chunk
  | [] => { bytes := out, next := i }
  | b :: rest =>
      let piece := encodePiece b rest q
      if out.length + piece.1.length > maxData then { bytes := out, next := i }
      else encodeLoop maxData q (out ++ piece.1) (i + piece.2) (rest.drop (piece.2 - 1))
termination_by rest => rest.length
decreasing_by
  simp only [List.length_drop, List.length_cons]
  omega

/-- Encodes from `src[pos]` until `maxData` bytes would be exceeded. -/
def encodeChunk (src : List Byte) (pos maxData : ℕ) (q : Quote) : Chunk :=
  encodeLoop maxData q [] pos (src.drop pos)

/-- Calls `encodeChunk` at `pos` and again at every position it returns, until the end of
the source: the chunks and the position reached, or `none` after `fuel` calls. -/
def encodeAll (src : List Byte) (maxData : ℕ) (q : Quote) :
    ℕ → ℕ → Option (List (List Byte) × ℕ)
  | 0, pos => if pos ≥ src.length then some ([], pos) else none
  | fuel + 1, pos =>
      if pos ≥ src.length then some ([], pos)
      else
        let chunk := encodeChunk src pos maxData q
        (encodeAll src maxData q fuel chunk.next).map fun r => (chunk.bytes :: r.1, r.2)

/-- The character after the control prefix. -/
def unquoteCtl (c : Byte) : Byte :=
  let a7 := c &&& 0x7f
  if (64 ≤ a7 ∧ a7 ≤ 95) ∨ a7 = 63 then ctl c else c

/-- The repeat count, the character after it (`none` where the source reads past the
end) and the rest of the data. -/
def takeRept (q : Quote) (c : Byte) (rest : List Byte) : ℕ × Option Byte × List Byte :=
  match rest with
  | [] => (1, some c, [])
  | n :: rest' =>
      if q.rept ≠ 0 ∧ c = q.rept then ((unchar n).toNat, rest'.head?, rest'.tail)
      else (1, some c, rest)

/-- The eighth bit, the character that carries it and the rest of the data. -/
def takeQbin (q : Quote) (c : Option Byte) (rest : List Byte) : Byte × Option Byte × List Byte :=
  match rest with
  | [] => (0, c, [])
  | d :: rest' =>
      if q.qbin ≠ 0 ∧ c = some q.qbin then (0x80, some d, rest') else (0, c, rest)

/-- The character without its control prefix and the rest of the data. -/
def takeQctl (q : Quote) (c : Option Byte) (rest : List Byte) : Option Byte × List Byte :=
  match rest with
  | [] => (c, [])
  | d :: rest' => if c = some q.ctlChar then (some (unquoteCtl d), rest') else (c, rest)

theorem takeRept_length (q : Quote) (c : Byte) (rest : List Byte) :
    (takeRept q c rest).2.2.length ≤ rest.length := by
  unfold takeRept
  cases rest with
  | nil => simp
  | cons n rest' =>
      dsimp only
      split <;> simp
      omega

theorem takeQbin_length (q : Quote) (c : Option Byte) (rest : List Byte) :
    (takeQbin q c rest).2.2.length ≤ rest.length := by
  unfold takeQbin
  cases rest with
  | nil => simp
  | cons n rest' =>
      dsimp only
      split <;> simp

theorem takeQctl_length (q : Quote) (c : Option Byte) (rest : List Byte) :
    (takeQctl q c rest).2.length ≤ rest.length := by
  unfold takeQctl
  cases rest with
  | nil => simp
  | cons n rest' =>
      dsimp only
      split <;> simp

/-- The file bytes of encoded data. -/
def decode (q : Quote) : List Byte → List Byte
  | [] => []
  | c :: rest =>
      let r := takeRept q c rest
      let b := takeQbin q r.2.1 r.2.2
      let k := takeQctl q b.2.1 b.2.2
      List.replicate r.1 (k.1.getD 0 ||| b.1) ++ decode q k.2
termination_by data => data.length
decreasing_by
  have hr := takeRept_length q c rest
  have hb := takeQbin_length q (takeRept q c rest).2.1 (takeRept q c rest).2.2
  have hk := takeQctl_length q (takeQbin q (takeRept q c rest).2.1 (takeRept q c rest).2.2).2.1
    (takeQbin q (takeRept q c rest).2.1 (takeRept q c rest).2.2).2.2
  simp only [List.length_cons]
  omega

end Kermit

end Voyager
