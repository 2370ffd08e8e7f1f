import Voyager.Kermit.Transfer

/-!
# The packets of a transfer

Between two sides of this module a transfer has one order of packets: `S`, `F`, `A`, the
data, `Z` and `B`. A `Cursor` is a place in it, `cursorAt k` the place of packet number
`k`. `Collected` says what the receiver has of the file when it waits for the packet at a
cursor.
-/

namespace Voyager

namespace Kermit

/-- The prefixes both sides of this module negotiate. -/
def ourQuote : Quote := ⟨0, REPT, QCTL⟩

/-- What matters of the parameters both sides end up with. -/
structure Neg.Ours (neg : Neg) : Prop where
  quote : neg.quote = ourQuote
  ckType : neg.ckType = 3
  attr : neg.attr = true
  room : (dataRoom neg).toNat = 222

theorem ours_negotiate (timeoutMs : ℕ) : (negotiate (initParams timeoutMs)).Ours := by
  obtain ⟨time, hneg⟩ := negotiate_initParams timeoutMs
  rw [hneg]
  exact ⟨rfl, rfl, rfl, by rw [dataRoom_of_long rfl rfl rfl]; rfl⟩

theorem ourQuote_valid : ourQuote.Valid where
  rept := .inr rfl
  qbin := .inl rfl
  qbin_ne_qctl := by decide
  qbin_ne_rept := fun h => absurd rfl h
  ctlChar := by decide

/-- A place in the order of packets; `fin` is after the last. -/
inductive Cursor
  | init
  | file
  | attr
  | data (pos : ℕ)
  | eof
  | brk
  | fin
  deriving DecidableEq, Repr

section

variable (o : SenderOptions)

def chunkAt (pos : ℕ) : Chunk := encodeChunk o.data.bytes pos 222 ourQuote

namespace Cursor

def dataFrom (pos : ℕ) : Cursor := if pos ≥ o.data.bytes.length then .eof else .data pos

def next : Cursor → Cursor
  | .init => .file
  | .file => .attr
  | .attr => dataFrom o 0
  | .data pos => dataFrom o (chunkAt o pos).next
  | .eof => .brk
  | .brk => .fin
  | .fin => .fin

def type : Cursor → Byte
  | .init => PacketType.S
  | .file => PacketType.F
  | .attr => PacketType.A
  | .data _ => PacketType.D
  | .eof => PacketType.Z
  | .brk => PacketType.B
  | .fin => PacketType.B

def payload : Cursor → List Byte
  | .init => initParams (sessionTimeout o.timeout)
  | .file => (encodeChunk (strBytes (baseName o.name)) 0 222 ourQuote).bytes
  | .attr => Sender.attrs o
  | .data pos => (chunkAt o pos).bytes
  | _ => []

def ckType : Cursor → ℕ
  | .init => 1
  | _ => 3

def stage : Cursor → Stage
  | .init => .init
  | .file => .file
  | .attr => .attr
  | .data pos => .data (chunkAt o pos).next
  | .eof => .eof
  | .brk => .brk
  | .fin => .brk

end Cursor

def cursorAt : ℕ → Cursor
  | 0 => .init
  | k + 1 => (cursorAt k).next o

def packetAt (k : ℕ) : List Byte :=
  buildPacket (k % 64) (cursorAt o k).type ((cursorAt o k).payload o) (cursorAt o k).ckType

theorem Cursor.dataFrom_cases (pos : ℕ) :
    pos < o.data.bytes.length ∧ dataFrom o pos = .data pos ∨
      o.data.bytes.length ≤ pos ∧ dataFrom o pos = .eof := by
  rw [dataFrom]
  split
  · next h => exact .inr ⟨h, rfl⟩
  · next h => exact .inl ⟨Nat.lt_of_not_ge h, rfl⟩

theorem Cursor.dataFrom_ne_fin (pos : ℕ) : dataFrom o pos ≠ .fin := by
  rcases dataFrom_cases o pos with ⟨-, h⟩ | ⟨-, h⟩ <;> rw [h] <;> exact nofun

theorem Cursor.next_ne_init (c : Cursor) : c.next o ≠ .init := by
  cases c with
  | attr => rcases dataFrom_cases o 0 with ⟨-, h⟩ | ⟨-, h⟩ <;> rw [next, h] <;> exact nofun
  | data pos =>
      rcases dataFrom_cases o (chunkAt o pos).next with ⟨-, h⟩ | ⟨-, h⟩ <;>
        rw [next, h] <;> exact nofun
  | _ => exact nofun

theorem cursorAt_eq_init_iff {k : ℕ} : cursorAt o k = .init ↔ k = 0 := by
  cases k with
  | zero => exact ⟨fun _ => rfl, fun _ => rfl⟩
  | succ k => exact ⟨fun h => absurd h (Cursor.next_ne_init o _), nofun⟩

theorem cursorAt_fin {k m : ℕ} (h : cursorAt o k = .fin) (hle : k ≤ m) :
    cursorAt o m = .fin := by
  induction m, hle using Nat.le_induction with
  | base => exact h
  | succ m _ ih => rw [cursorAt, ih, Cursor.next]

/-! ## What the packets hold -/

theorem isControl_of_printable {c : Byte} (h : Printable c) : isControl c = false := by
  revert h
  refine forall_byte ?_ c
  unfold Printable isControl
  decide +kernel

theorem encodeChunk_clean (src : List Byte) (pos maxData : ℕ) :
    (encodeChunk src pos maxData ourQuote).bytes.length ≤ maxData ∧
      ∀ c ∈ (encodeChunk src pos maxData ourQuote).bytes, isControl c = false := by
  obtain ⟨enc, taken, rest, -, hstands, hloop, hlen, -⟩ :=
    encodeLoop_spec ourQuote_valid [] pos (src.drop pos) (Nat.zero_le maxData)
  have hchunk : encodeChunk src pos maxData ourQuote =
      { bytes := enc, next := pos + taken.length } := hloop
  rw [hchunk]
  exact ⟨hlen, fun c hc => isControl_of_printable (hstands.allows c hc).1⟩

theorem attrs_clean : (Sender.attrs o).length ≤ 18 ∧
    ∀ c ∈ Sender.attrs o, isControl c = false := by
  have hlen := decimal_length_le o.data.length_lt
  rw [Sender.attrs]
  constructor
  · simp only [List.length_append, List.length_cons, List.length_nil, strBytes, List.length_map]
    omega
  · intro c hc
    rcases List.mem_append.mp hc with hc | hc
    · simp only [List.mem_cons, List.not_mem_nil, or_false] at hc
      rcases hc with rfl | rfl
      · rfl
      · exact (isControl_tochar (by omega)).1
    · exact strBytes_decimal_clean _ c hc

theorem Cursor.sendable (c : Cursor) : Sendable c.type (c.payload o) c.ckType where
  type_clean := by cases c <;> rfl
  data_clean := by
    cases c with
    | init => exact initParams_clean _
    | file => exact (encodeChunk_clean _ 0 222).2
    | attr => exact (attrs_clean o).2
    | data pos => exact (encodeChunk_clean _ pos 222).2
    | eof => exact fun _ h => absurd h List.not_mem_nil
    | brk => exact fun _ h => absurd h List.not_mem_nil
    | fin => exact fun _ h => absurd h List.not_mem_nil
  fits := by
    have hck : ckLen c.ckType ≤ 3 := by
      rw [ckLen]
      split <;> omega
    have hlen : (c.payload o).length ≤ 222 := by
      cases c with
      | init => exact show 13 ≤ 222 by decide
      | file => exact (encodeChunk_clean _ 0 222).1
      | attr => exact (attrs_clean o).1.trans (by decide)
      | data pos => exact (encodeChunk_clean _ pos 222).1
      | eof => exact Nat.zero_le _
      | brk => exact Nat.zero_le _
      | fin => exact Nat.zero_le _
    omega

/-! ## What the receiver has of the file -/

/-- What the receiver holds when it waits for the packet at the cursor `c`. -/
def Collected (c : Cursor) (gotEof : Bool) (exactSize : ℤ) (chunks : List (List Byte)) : Prop :=
  match c with
  | .init => chunks.flatten = []
  | .file => chunks.flatten = []
  | .attr => chunks.flatten = []
  | .data pos => exactSize = o.data.bytes.length ∧ pos < o.data.bytes.length ∧
      chunks.flatten = o.data.bytes.take pos
  | .eof => exactSize = o.data.bytes.length ∧ chunks.flatten = o.data.bytes
  | .brk => gotEof = true ∧ exactSize = o.data.bytes.length ∧ chunks.flatten = o.data.bytes
  | .fin => True

theorem collected_dataFrom {pos : ℕ} {gotEof : Bool} {exactSize : ℤ} {chunks : List (List Byte)}
    (hsize : exactSize = o.data.bytes.length) (hchunks : chunks.flatten = o.data.bytes.take pos) :
    Collected o (Cursor.dataFrom o pos) gotEof exactSize chunks := by
  rcases Cursor.dataFrom_cases o pos with ⟨hlt, hfrom⟩ | ⟨hle, hfrom⟩
  · rw [hfrom]
    exact ⟨hsize, hlt, hchunks⟩
  · rw [hfrom]
    exact ⟨hsize, by rw [hchunks, List.take_of_length_le hle]⟩

/-- The size of the file is what the receiver reads from the attributes. -/
theorem attrLoop_attrs (fileSize exactSize : Option ℤ) :
    attrLoop fileSize exactSize (Sender.attrs o) =
      (some (o.data.bytes.length : ℤ), some (o.data.bytes.length : ℤ)) := by
  have hlen := decimal_length_le o.data.length_lt
  have hun : (unchar (tochar (decimal o.data.bytes.length).length)).toNat =
      (strBytes (decimal o.data.bytes.length)).length := by
    rw [(isControl_tochar (by omega)).2, strBytes, List.length_map]
  rw [Sender.attrs]
  simp only [List.cons_append, List.nil_append]
  rw [attrLoop, if_pos rfl, hun, List.take_length, List.drop_length, bytesStr_strBytes_decimal,
    parseInt_decimal, attrLoop]
  exact nofun

/-- Decoding a data packet gives the bytes between its position and the next. -/
theorem take_append_decode {pos : ℕ} (h : pos < o.data.bytes.length) :
    o.data.bytes.take pos ++ decode ourQuote (chunkAt o pos).bytes =
      o.data.bytes.take (chunkAt o pos).next := by
  obtain ⟨hle, hmax, -, hstands, -⟩ :=
    encodeChunk_spec ourQuote_valid o.data.bytes pos 222 h.le
  rw [chunkAt, hstands.decode_eq]
  conv_rhs => rw [← Nat.add_sub_cancel' hle]
  exact List.take_add.symm

end

end Kermit

end Voyager
