import Mathlib.Data.List.GetD
import Mathlib.Data.List.Induction
import Voyager.Basic
import Voyager.Library.FirstOccurrence
import Voyager.Library.Mealy

/-!
# Improv Serial framing

A packet on the serial line is the text `IMPROV`, a version, a type, a length, that many bytes
of data and a checksum. Logs of the board stand around it. The firmware's parser takes the
line byte by byte; `packets` says what a line holds, without saying how it is read.
-/

namespace Voyager

namespace Improv

def VERSION : Byte := 1
def MAX_DATA : ℕ := 255

/-- The characters of `IMPROV`. -/
def HDR : List Byte := [0x49, 0x4D, 0x50, 0x52, 0x4F, 0x56]

/-- The sum of some bytes, in a byte. -/
def byteSum (bs : List Byte) : Byte := bs.foldl (· + ·) 0

/-- The sum of some bytes, in 32 bits. -/
def wordSum (bs : List Byte) : UInt32 := bs.foldl (fun s b => s + b.toUInt32) 0

/-! ## The firmware's parser -/

structure Packet where
  type : Byte
  len : Byte
  data : List Byte
  deriving DecidableEq, Repr

/-- The parser, with its names. -/
structure Parser where
  pos : ℕ
  got : ℕ
  version : Byte
  sum : UInt32
  pkt : Packet
  deriving DecidableEq, Repr

/-- A parser after its construction. -/
def Parser.init : Parser :=
  { pos := 0, got := 0, version := 0, sum := 0,
    pkt := { type := 0, len := 0, data := List.replicate MAX_DATA 0 } }

/-- What `feed` returns: `1` with a packet, `-1`, or `0`. -/
inductive FeedResult where
  | packet (out : Packet)
  | bad
  | more
  deriving DecidableEq, Repr

/-- `Parser::feed`. -/
def Parser.feed (p : Parser) (b : Byte) : Parser × FeedResult :=
  if p.pos < 6 then
    let pos := if b = byteAt HDR p.pos then p.pos + 1 else if b = 0x49 then 1 else 0
    ({ p with pos := pos, sum := wordSum (HDR.take pos) }, .more)
  else if p.pos = 6 then
    ({ p with version := b, sum := p.sum + b.toUInt32, pos := p.pos + 1 }, .more)
  else if p.pos = 7 then
    ({ p with pkt := { p.pkt with type := b }, sum := p.sum + b.toUInt32, pos := p.pos + 1 },
      .more)
  else if p.pos = 8 then
    ({ p with pkt := { p.pkt with len := b }, sum := p.sum + b.toUInt32, pos := p.pos + 1,
              got := 0 }, .more)
  else if p.got < p.pkt.len.toNat then
    ({ p with pkt := { p.pkt with data := p.pkt.data.set p.got b }, got := p.got + 1,
              sum := p.sum + b.toUInt32 }, .more)
  else if b ≠ (p.sum &&& 0xFF).toUInt8 ∨ p.version ≠ VERSION then ({ p with pos := 0 }, .bad)
  else ({ p with pos := 0 }, .packet p.pkt)

/-- The type and the data of a packet that `feed` returns. -/
def FeedResult.accepted : FeedResult → List (Byte × List Byte)
  | .packet out => [(out.type, out.data.take out.len.toNat)]
  | .bad => []
  | .more => []

/-- One byte, and the packet it completes. -/
def Parser.step (p : Parser) (b : Byte) : Parser × List (Byte × List Byte) :=
  ((p.feed b).1, (p.feed b).2.accepted)

/-- The packets for which `feed` returns `1` over a stream. -/
def parsed (bs : List Byte) : List (Byte × List Byte) := (Mealy.run Parser.step .init bs).2

/-- The parser after a stream. -/
def Parser.after (bs : List Byte) : Parser := (Mealy.run Parser.step .init bs).1

/-- `improv::build`: one packet, or `none` when it does not fit. -/
def build (type : Byte) (data : List Byte) (cap : ℕ) : Option (List Byte) :=
  if data.length > MAX_DATA ∨ cap < 6 + 3 + data.length + 2 then none
  else
    let out := HDR ++ [VERSION, type, UInt8.ofNat data.length] ++ data
    some (out ++ [(wordSum out &&& 0xFF).toUInt8, 0x0A])

/-! ## What a stream holds -/

/-- The first bytes after a header: the packet they are, if it is complete, and what follows.
A packet of another version or with a wrong checksum is complete too. -/
def frame : List Byte → Option (Option (Byte × List Byte) × List Byte)
  | v :: t :: l :: rest =>
      if rest.length < l.toNat + 1 then none
      else
        some
          (if v = VERSION ∧ byteAt rest l.toNat = byteSum (HDR ++ v :: t :: l :: rest.take l.toNat)
            then some (t, rest.take l.toNat) else none,
          rest.drop (l.toNat + 1))
  | _ => none

theorem frame_length {body rest : List Byte} {r : Option (Byte × List Byte)}
    (h : frame body = some (r, rest)) : rest.length < body.length := by
  match body, h with
  | v :: t :: l :: tail, h =>
      rw [frame] at h
      split at h
      · cases h
      · cases h
        rw [List.length_drop, List.length_cons, List.length_cons, List.length_cons]
        omega

/-- What the first header of a stream is followed by. -/
def nextFrame (bs : List Byte) : Option (Option (Byte × List Byte) × List Byte) :=
  (FirstOccurrence.after HDR bs).bind frame

theorem nextFrame_length {bs rest : List Byte} {r : Option (Byte × List Byte)}
    (h : nextFrame bs = some (r, rest)) : rest.length < bs.length := by
  obtain ⟨body, hafter, hframe⟩ := Option.bind_eq_some_iff.mp h
  have hbody := FirstOccurrence.length_after_le hafter
  have hrest := frame_length hframe
  omega

/-- The packets of a stream: the packet behind the first header, and then the packets of what
follows it. -/
def packets (bs : List Byte) : List (Byte × List Byte) :=
  match _h : nextFrame bs with
  | none => []
  | some (r, rest) => r.toList ++ packets rest
termination_by bs.length
decreasing_by exact nextFrame_length _h

theorem packets_of_none {bs : List Byte} (h : nextFrame bs = none) : packets bs = [] := by
  rw [packets, h]

theorem packets_of_some {bs rest : List Byte} {r : Option (Byte × List Byte)}
    (h : nextFrame bs = some (r, rest)) : packets bs = r.toList ++ packets rest := by
  rw [packets, h]

/-- Only what the search for a header finds counts. -/
theorem packets_congr {bs bs' : List Byte}
    (h : FirstOccurrence.after HDR bs = FirstOccurrence.after HDR bs') :
    packets bs = packets bs' := by
  have hnext : nextFrame bs = nextFrame bs' := by rw [nextFrame, nextFrame, h]
  rw [packets, packets, hnext]

theorem nextFrame_header (body : List Byte) : nextFrame (HDR ++ body) = frame body := by
  rw [nextFrame, FirstOccurrence.after_append_self, Option.bind_some]

/-- A complete frame is the same whatever comes behind it. -/
theorem frame_append {body rest : List Byte} {r : Option (Byte × List Byte)}
    (h : frame body = some (r, rest)) (more : List Byte) :
    frame (body ++ more) = some (r, rest ++ more) := by
  match body, h with
  | v :: t :: l :: tail, h =>
      rw [frame] at h
      split at h
      · cases h
      · rename_i hlen
        cases h
        have hget : byteAt (tail ++ more) l.toNat = byteAt tail l.toNat := by
          rw [byteAt, byteAt, List.getD_append _ _ _ _ (by omega)]
        rw [List.cons_append, List.cons_append, List.cons_append, frame,
          if_neg (by rw [List.length_append]; omega), hget,
          List.take_append_of_le_length (by omega), List.drop_append_of_le_length (by omega)]

theorem frame_data_le {body rest : List Byte} {out : Byte × List Byte}
    (h : frame body = some (some out, rest)) : out.2.length ≤ MAX_DATA := by
  match body, h with
  | v :: t :: l :: tail, h =>
      have hl := l.toNat_lt
      rw [frame] at h
      split at h
      · cases h
      · rw [Option.some.injEq, Prod.mk.injEq] at h
        obtain ⟨hout, -⟩ := h
        split at hout
        · cases hout
          rw [List.length_take, MAX_DATA]
          omega
        · cases hout

/-- No packet of a stream has more data than a length byte can say. -/
theorem length_data_le {bs : List Byte} {out : Byte × List Byte} (h : out ∈ packets bs) :
    out.2.length ≤ MAX_DATA := by
  induction bs using packets.induct with
  | case1 bs hnext =>
      rw [packets_of_none hnext] at h
      cases h
  | case2 bs r rest hnext ih =>
      rw [packets_of_some hnext, List.mem_append] at h
      rcases h with hfirst | hrest
      · obtain ⟨body, -, hframe⟩ := Option.bind_eq_some_iff.mp hnext
        rw [Option.mem_toList] at hfirst
        cases hfirst
        exact frame_data_le hframe
      · exact ih hrest

/-! ## The header -/

/-- A header starts with an `I`. -/
theorem after_append_of_forall_ne {w : List Byte} (hw : ∀ c ∈ w, c ≠ 0x49) (s : List Byte) :
    FirstOccurrence.after HDR (w ++ s) = FirstOccurrence.after HDR s := by
  induction w with
  | nil => rfl
  | cons c w ih =>
      have hnot : ¬ HDR <+: c :: (w ++ s) := by
        rw [HDR, List.cons_prefix_cons]
        exact fun h => hw c List.mem_cons_self h.1.symm
      rw [List.cons_append, FirstOccurrence.after_cons_of_not hnot]
      exact ih fun c hc => hw c (List.mem_cons_of_mem _ hc)

/-- A header that breaks off holds no header that starts inside it: its only `I` is its
first character. -/
theorem after_mismatch {k : ℕ} (hk : k < 6) {b : Byte} (hb : b ≠ byteAt HDR k) (bs : List Byte) :
    FirstOccurrence.after HDR (HDR.take k ++ b :: bs) = FirstOccurrence.after HDR (b :: bs) := by
  cases k with
  | zero => rfl
  | succ k =>
      have hnot : ¬ HDR <+: HDR.take (k + 1) ++ b :: bs := by
        intro h
        have hlen : (HDR.take (k + 1)).length = k + 1 := List.length_take_of_le (Nat.le_of_lt hk)
        have hget := List.prefix_iff_getElem?.mp h (k + 1) hk
        rw [List.getElem?_append_right (Nat.le_of_eq hlen), hlen, Nat.sub_self,
          List.getElem?_cons_zero, Option.some.injEq] at hget
        apply hb
        rw [hget, byteAt, List.getD_eq_getElem _ _ hk]
      have hsplit : HDR.take (k + 1) = 0x49 :: HDR.tail.take k := rfl
      rw [hsplit, List.cons_append] at hnot ⊢
      rw [FirstOccurrence.after_cons_of_not hnot]
      apply after_append_of_forall_ne
      intro c hc
      have htail : ∀ c ∈ HDR.tail, c ≠ 0x49 := by simp [HDR]
      exact htail c (List.mem_of_mem_take hc)

theorem length_take_header {k : ℕ} (h : k ≤ 6) : (HDR.take k).length = k :=
  List.length_take_of_le h

theorem take_header_append {k : ℕ} (h : k < 6) {b : Byte} (hb : b = byteAt HDR k) :
    HDR.take k ++ [b] = HDR.take (k + 1) := by
  have hlt : k < HDR.length := h
  rw [List.take_succ_eq_append_getElem hlt, hb, byteAt, List.getD_eq_getElem _ _ hlt]

/-! ## The parser finds what the stream holds -/

/-- The bytes of a header or a packet that the parser has taken and not answered yet. -/
def Parser.pending (p : Parser) : List Byte :=
  if p.pos ≤ 6 then HDR.take p.pos
  else if p.pos = 7 then HDR ++ [p.version]
  else if p.pos = 8 then HDR ++ [p.version, p.pkt.type]
  else HDR ++ p.version :: p.pkt.type :: p.pkt.len :: p.pkt.data.take p.got

/-- What holds of the parser at all times. -/
structure Parser.Valid (p : Parser) : Prop where
  pos_le : p.pos ≤ 9
  sum : 6 ≤ p.pos → p.sum.toUInt8 = byteSum p.pending
  data : p.pkt.data.length = MAX_DATA
  got : p.pos = 9 → p.got ≤ p.pkt.len.toNat

theorem valid_init : Parser.init.Valid where
  pos_le := Nat.zero_le _
  sum := nofun
  data := List.length_replicate
  got := nofun

theorem byteSum_append_singleton (bs : List Byte) (b : Byte) :
    byteSum (bs ++ [b]) = byteSum bs + b := by
  rw [byteSum, List.foldl_append]
  rfl

theorem toUInt8_wordSum (bs : List Byte) : (wordSum bs).toUInt8 = byteSum bs := by
  induction bs using List.reverseRecOn with
  | nil => rfl
  | append_singleton bs b ih =>
      rw [byteSum_append_singleton, ← ih, wordSum, List.foldl_append, List.foldl_cons,
        List.foldl_nil, UInt32.toUInt8_add, UInt8.toUInt8_toUInt32]
      rfl

theorem toUInt8_and_mask (s : UInt32) : (s &&& 0xFF).toUInt8 = s.toUInt8 := by
  rw [UInt32.toUInt8_and]
  exact UInt8.and_neg_one

theorem pending_of_le {p : Parser} (h : p.pos ≤ 6) : p.pending = HDR.take p.pos := if_pos h

/-- Before the header is complete. -/
theorem step_header {p : Parser} (h : p.Valid) (hpos : p.pos < 6) (b : Byte) :
    (p.step b).1.Valid ∧ ∀ bs, packets (p.pending ++ b :: bs) =
      (p.step b).2 ++ packets ((p.step b).1.pending ++ bs) := by
  let k := if b = byteAt HDR p.pos then p.pos + 1 else if b = 0x49 then 1 else 0
  have hk : k ≤ 6 := by
    simp only [k]
    split_ifs <;> omega
  have hstep : p.step b = ({ p with pos := k, sum := wordSum (HDR.take k) }, []) := by
    rw [Parser.step, Parser.feed, if_pos hpos]
    rfl
  have hpending : (p.step b).1.pending = HDR.take k := by
    rw [hstep]
    exact pending_of_le hk
  constructor
  · rw [hstep]
    constructor
    · exact Nat.le_trans hk (by decide)
    · intro _
      rw [pending_of_le hk]
      exact toUInt8_wordSum _
    · exact h.data
    · intro h9
      have hk9 : k = 9 := h9
      omega
  · intro bs
    rw [hpending, hstep, List.nil_append, pending_of_le (Nat.le_of_lt hpos)]
    by_cases hb : b = byteAt HDR p.pos
    · have hk : k = p.pos + 1 := if_pos hb
      rw [hk, ← take_header_append hpos hb, List.append_assoc]
      rfl
    · -- the header breaks off, and may start again with this byte
      apply packets_congr
      rw [after_mismatch hpos hb]
      by_cases hI : b = 0x49
      · have hk : k = 1 := (if_neg hb).trans (if_pos hI)
        rw [hk, hI]
        rfl
      · have hk : k = 0 := (if_neg hb).trans (if_neg hI)
        have hw : ∀ c ∈ [b], c ≠ 0x49 := by simpa using hI
        rw [hk]
        exact after_append_of_forall_ne hw bs

/-- A byte of a packet that does not complete it. -/
theorem step_of_pending {p p' : Parser} {b : Byte} (h : p.Valid) (hstep : p.step b = (p', []))
    (hpos : 6 ≤ p.pos) (hsum : p'.sum = p.sum + b.toUInt32)
    (hpending : p'.pending = p.pending ++ [b]) (hle : p'.pos ≤ 9)
    (hdata : p'.pkt.data.length = MAX_DATA) (hgot : p'.pos = 9 → p'.got ≤ p'.pkt.len.toNat) :
    (p.step b).1.Valid ∧ ∀ bs, packets (p.pending ++ b :: bs) =
      (p.step b).2 ++ packets ((p.step b).1.pending ++ bs) := by
  rw [hstep]
  refine ⟨⟨hle, fun _ => ?_, hdata, hgot⟩, fun bs => ?_⟩
  · rw [hsum, hpending, byteSum_append_singleton, UInt32.toUInt8_add, UInt8.toUInt8_toUInt32,
      h.sum hpos]
  · rw [hpending, List.append_assoc]
    rfl

/-- A complete frame, taken apart. -/
theorem frame_of_length {v t l : Byte} {d : List Byte} (hd : d.length = l.toNat) (b : Byte)
    (bs : List Byte) :
    frame (v :: t :: l :: (d ++ b :: bs)) =
      some (if v = VERSION ∧ b = byteSum (HDR ++ v :: t :: l :: d) then some (t, d) else none,
        bs) := by
  have hget : byteAt (d ++ b :: bs) l.toNat = b := by
    rw [byteAt, List.getD_append_right _ _ _ _ (Nat.le_of_eq hd), hd, Nat.sub_self]
    rfl
  have htake : (d ++ b :: bs).take l.toNat = d := by rw [← hd, List.take_left]
  have hdrop : (d ++ b :: bs).drop (l.toNat + 1) = bs := by
    rw [← hd, ← List.drop_drop, List.drop_left, List.drop_one, List.tail_cons]
  rw [frame, if_neg (by rw [List.length_append, List.length_cons]; omega), hget, htake, hdrop]

/-- The byte that completes a packet. -/
theorem step_checksum {p : Parser} (h : p.Valid) (hpos : p.pos = 9)
    (hgot : ¬ p.got < p.pkt.len.toNat) (b : Byte) :
    (p.step b).1.Valid ∧ ∀ bs, packets (p.pending ++ b :: bs) =
      (p.step b).2 ++ packets ((p.step b).1.pending ++ bs) := by
  have hlen : p.got = p.pkt.len.toNat := Nat.le_antisymm (h.got hpos) (Nat.not_lt.mp hgot)
  have hfits : p.pkt.len.toNat ≤ p.pkt.data.length := by
    have hlt := p.pkt.len.toNat_lt
    rw [h.data, MAX_DATA]
    omega
  have hd : (p.pkt.data.take p.got).length = p.pkt.len.toNat := by
    rw [hlen]
    exact List.length_take_of_le hfits
  have hpending : p.pending =
      HDR ++ p.version :: p.pkt.type :: p.pkt.len :: p.pkt.data.take p.got := by
    rw [Parser.pending, hpos]
    rfl
  have hsum : (p.sum &&& 0xFF).toUInt8 = byteSum p.pending := by
    rw [toUInt8_and_mask, h.sum (by omega)]
  have hstep : p.step b = ({ p with pos := 0 },
      (if p.version = VERSION ∧ b = byteSum p.pending then
        some (p.pkt.type, p.pkt.data.take p.got) else none).toList) := by
    rw [Parser.step, Parser.feed, if_neg (by omega), if_neg (by omega), if_neg (by omega),
      if_neg (by omega), if_neg hgot, hsum, hlen]
    by_cases hok : p.version = VERSION ∧ b = byteSum p.pending
    · rw [if_pos hok, if_neg (by rw [not_or, not_not, not_not]; exact hok.symm)]
      rfl
    · rw [if_neg hok, if_pos (by rw [← not_and_or]; exact fun hand => hok hand.symm)]
      rfl
  constructor
  · rw [hstep]
    exact ⟨Nat.zero_le _, nofun, h.data, nofun⟩
  · intro bs
    have hnext : nextFrame (p.pending ++ b :: bs) =
        some (if p.version = VERSION ∧ b = byteSum p.pending then
          some (p.pkt.type, p.pkt.data.take p.got) else none, bs) := by
      rw [hpending, List.append_assoc, nextFrame_header]
      exact frame_of_length hd b bs
    rw [packets_of_some hnext, hstep]
    rfl

/-- What one byte does: the stream that the bytes pending begin holds the packet that is
answered, and then what the stream from there on holds. -/
theorem step_spec {p : Parser} (h : p.Valid) (b : Byte) :
    (p.step b).1.Valid ∧ ∀ bs, packets (p.pending ++ b :: bs) =
      (p.step b).2 ++ packets ((p.step b).1.pending ++ bs) := by
  have hle := h.pos_le
  by_cases hheader : p.pos < 6
  · exact step_header h hheader b
  by_cases h6 : p.pos = 6
  · have hstep : p.step b =
        ({ p with version := b, sum := p.sum + b.toUInt32, pos := p.pos + 1 }, []) := by
      rw [Parser.step, Parser.feed, if_neg hheader, if_pos h6]
      rfl
    apply step_of_pending h hstep (by omega) rfl ?_ (by simp only [h6]; omega) h.data
      (by simp only [h6]; omega)
    simp only [Parser.pending, h6]
    rfl
  by_cases h7 : p.pos = 7
  · have hstep : p.step b = ({ p with pkt := { p.pkt with type := b },
                                      sum := p.sum + b.toUInt32, pos := p.pos + 1 }, []) := by
      rw [Parser.step, Parser.feed, if_neg hheader, if_neg h6, if_pos h7]
      rfl
    apply step_of_pending h hstep (by omega) rfl ?_ (by simp only [h7]; omega) h.data
      (by simp only [h7]; omega)
    simp only [Parser.pending, h7]
    rfl
  by_cases h8 : p.pos = 8
  · have hstep : p.step b = ({ p with pkt := { p.pkt with len := b },
                                      sum := p.sum + b.toUInt32, pos := p.pos + 1,
                                      got := 0 }, []) := by
      rw [Parser.step, Parser.feed, if_neg hheader, if_neg h6, if_neg h7, if_pos h8]
      rfl
    apply step_of_pending h hstep (by omega) rfl ?_ (by simp only [h8]; omega) h.data
      (fun _ => Nat.zero_le _)
    simp only [Parser.pending, h8]
    rfl
  have h9 : p.pos = 9 := by omega
  by_cases hgot : p.got < p.pkt.len.toNat
  · have hstep : p.step b = ({ p with pkt := { p.pkt with data := p.pkt.data.set p.got b },
                                      got := p.got + 1, sum := p.sum + b.toUInt32 }, []) := by
      rw [Parser.step, Parser.feed, if_neg hheader, if_neg h6, if_neg h7, if_neg h8,
        if_pos hgot]
      rfl
    have hlt : p.got < p.pkt.data.length := by
      have hlen := p.pkt.len.toNat_lt
      rw [h.data, MAX_DATA]
      omega
    have htake : (p.pkt.data.set p.got b).take (p.got + 1) = p.pkt.data.take p.got ++ [b] := by
      rw [List.take_succ_eq_append_getElem (by rwa [List.length_set]), List.getElem_set_self,
        List.take_set_of_le (Nat.le_refl _)]
    apply step_of_pending h hstep (by omega) rfl ?_ (by simp only; omega)
      (by rw [← h.data]; exact List.length_set) (fun _ => hgot)
    simp only [Parser.pending, h9, htake]
    rfl
  · exact step_checksum h h9 hgot b

theorem valid_after (bs : List Byte) : (Parser.after bs).Valid :=
  Mealy.run_invariant Parser.Valid (fun _ b h => (step_spec h b).1) valid_init bs

/-- Bytes that complete no packet hold none. -/
theorem packets_pending {p : Parser} (h : p.Valid) : packets p.pending = [] := by
  apply packets_of_none
  have hle := h.pos_le
  by_cases hheader : p.pos < 6
  · have hlen : (HDR.take p.pos).length < HDR.length := by
      rw [length_take_header (Nat.le_of_lt hheader)]
      exact hheader
    rw [pending_of_le (Nat.le_of_lt hheader), nextFrame,
      FirstOccurrence.after_eq_none_of_length_lt hlen]
    rfl
  by_cases h6 : p.pos = 6
  · have hpending : p.pending = HDR ++ [] := by
      rw [Parser.pending, h6]
      rfl
    rw [hpending, nextFrame_header]
    rfl
  by_cases h7 : p.pos = 7
  · have hpending : p.pending = HDR ++ [p.version] := by
      rw [Parser.pending, h7]
      rfl
    rw [hpending, nextFrame_header]
    rfl
  by_cases h8 : p.pos = 8
  · have hpending : p.pending = HDR ++ [p.version, p.pkt.type] := by
      rw [Parser.pending, h8]
      rfl
    rw [hpending, nextFrame_header]
    rfl
  · have h9 : p.pos = 9 := by omega
    have hpending : p.pending =
        HDR ++ p.version :: p.pkt.type :: p.pkt.len :: p.pkt.data.take p.got := by
      rw [Parser.pending, h9]
      rfl
    have hgot := h.got h9
    rw [hpending, nextFrame_header, frame, if_pos]
    rw [List.length_take]
    omega

/-- From any state on, the parser answers what the stream holds together with the bytes it
has pending. -/
theorem run_eq_packets {p : Parser} (h : p.Valid) (bs : List Byte) :
    (Mealy.run Parser.step p bs).2 = packets (p.pending ++ bs) := by
  induction bs generalizing p with
  | nil => rw [List.append_nil, packets_pending h, Mealy.run_nil]
  | cons b bs ih =>
      obtain ⟨hvalid, hspec⟩ := step_spec h b
      rw [Mealy.run_cons, hspec, ih hvalid]

/-- The firmware accepts the packets that the stream holds. -/
theorem parsed_eq_packets (bs : List Byte) : parsed bs = packets bs :=
  run_eq_packets valid_init bs

/-! ## Packets on the line -/

/-- A packet as it is sent, with the newline behind it. -/
def encode (type : Byte) (data : List Byte) : List Byte :=
  HDR ++ VERSION :: type :: UInt8.ofNat data.length ::
    (data ++ [byteSum (HDR ++ VERSION :: type :: UInt8.ofNat data.length :: data), 0x0A])

/-- What `build` builds is a packet, and its data fits the length byte. -/
theorem build_eq_some {type : Byte} {data pkt : List Byte} {cap : ℕ}
    (h : build type data cap = some pkt) : data.length ≤ MAX_DATA ∧ pkt = encode type data := by
  rw [build] at h
  split at h
  · cases h
  · rename_i hfits
    cases h
    refine ⟨by omega, ?_⟩
    rw [toUInt8_and_mask, toUInt8_wordSum, encode]
    simp only [List.append_assoc, List.cons_append, List.nil_append]

/-- A packet behind a header that has just begun, or behind nothing, is found. -/
theorem packets_encode {k : ℕ} (hk : k < 6) (type : Byte) {data : List Byte}
    (h : data.length ≤ MAX_DATA) : packets (HDR.take k ++ encode type data) = [(type, data)] := by
  have hafter : FirstOccurrence.after HDR (HDR.take k ++ encode type data) =
      FirstOccurrence.after HDR (encode type data) := by
    by_cases hI : 0x49 = byteAt HDR k
    · have hzero : k = 0 := by
        have hall : ∀ k < 6, 0x49 = byteAt HDR k → k = 0 := by decide
        exact hall k hk hI
      rw [hzero]
      rfl
    · exact after_mismatch hk hI _
  have hlen : data.length = (UInt8.ofNat data.length).toNat := by
    rw [toNat_ofNat_of_lt]
    rw [MAX_DATA] at h
    omega
  have hnext : nextFrame (encode type data) = some (some (type, data), [0x0A]) := by
    rw [encode, nextFrame_header, frame_of_length hlen, if_pos ⟨rfl, rfl⟩]
  have hrest : packets [0x0A] = [] := by
    apply packets_of_none
    rw [nextFrame, FirstOccurrence.after_eq_none_of_length_lt (by decide)]
    rfl
  rw [packets_congr hafter, packets_of_some hnext, hrest]
  rfl

/-- The parser is between packets, or in a header. -/
def Parser.Outside (p : Parser) : Prop := p.pos < 6

/-- A packet that follows is accepted, and nothing else. -/
theorem parsed_append_encode {pre : List Byte} (h : (Parser.after pre).Outside) (type : Byte)
    {data : List Byte} (hdata : data.length ≤ MAX_DATA) :
    parsed (pre ++ encode type data) = parsed pre ++ [(type, data)] := by
  have hrun : (Mealy.run Parser.step (Parser.after pre) (encode type data)).2 =
      [(type, data)] := by
    rw [run_eq_packets (valid_after pre), pending_of_le (Nat.le_of_lt h), packets_encode h type hdata]
  rw [parsed, Mealy.run_append]
  exact congrArg (parsed pre ++ ·) hrun

end Improv

end Voyager
