import Voyager.Core.Improv

/-!
# Improv packets in the PC helper

The helper looks for Improv packets in what the board prints: it collects the chunks it reads
in a buffer, searches the buffer for a header, and keeps what it cannot judge yet.
-/

namespace Voyager

namespace NetCore

/-- `improvPacket`: a packet, as the helper builds it. -/
def improvPacket (typ : Byte) (data : List Byte) : List Byte :=
  let p := Improv.HDR ++ [1, typ, UInt8.ofNat data.length] ++ data
  p ++ [Improv.byteSum p, 0x0A]

/-- `indexOf`: the first place of `sub` in `b`, and `none` for `-1`. -/
def indexOf (b sub : List Byte) : Option ℕ :=
  (List.range (b.length + 1 - sub.length)).find? fun i => (b.drop i).take sub.length = sub

/-- One turn of the loop of `improvScanner.feed`, with the buffer cut off at a header: `none`
when the packet is not all there, else the packet, if it is a good one, and the buffer
behind it. -/
def takePacket (buf : List Byte) : Option (Option (Byte × List Byte) × List Byte) :=
  if buf.length < 9 then none
  else
    let n := (byteAt buf 8).toNat
    if buf.length < 9 + n + 1 then none
    else
      let sum := Improv.byteSum (buf.take (9 + n))
      let pkt := buf.take (9 + n + 1)
      let buf := buf.drop (9 + n + 1)
      if byteAt pkt 6 ≠ 1 ∨ sum ≠ byteAt pkt (9 + n) then some (none, buf)
      else some (some (byteAt pkt 7, (pkt.take (9 + n)).drop 9), buf)

theorem takePacket_length {buf rest : List Byte} {r : Option (Byte × List Byte)}
    (h : takePacket buf = some (r, rest)) : rest.length < buf.length := by
  simp only [takePacket] at h
  split_ifs at h
  all_goals
    cases h
    rw [List.length_drop]
    omega

/-- The loop over the buffer: the buffer it leaves and the packet it returns. -/
def scan (buf : List Byte) : List Byte × Option (Byte × List Byte) :=
  match indexOf buf Improv.HDR with
  | none => (if buf.length > 5 then buf.drop (buf.length - 5) else buf, none)
  | some i =>
      match _h : takePacket (buf.drop i) with
      | none => (buf.drop i, none)
      | some (none, rest) => scan rest
      | some (some out, rest) => (rest, some out)
termination_by buf.length
decreasing_by
  have hlt := takePacket_length _h
  rw [List.length_drop] at hlt
  omega

/-! ## The search -/

theorem indexOf_cons {sub : List Byte} (hsub : sub ≠ []) (c : Byte) (b : List Byte) :
    indexOf (c :: b) sub =
      if (c :: b).take sub.length = sub then some 0 else (indexOf b sub).map (· + 1) := by
  have hpos := List.length_pos_iff.mpr hsub
  by_cases hlen : sub.length ≤ b.length + 1
  · have hrange : (c :: b).length + 1 - sub.length = (b.length + 1 - sub.length) + 1 := by
      rw [List.length_cons]
      omega
    rw [indexOf, hrange, List.range_succ_eq_map, List.find?_cons, List.find?_map]
    by_cases hhere : (c :: b).take sub.length = sub
    · simp [hhere]
    · simp only [List.drop_zero, hhere, decide_false, if_false]
      rfl
  · have hnone : (c :: b).length + 1 - sub.length = 0 := by
      rw [List.length_cons]
      omega
    have hnone' : b.length + 1 - sub.length = 0 := by omega
    have hshort : (c :: b).take sub.length ≠ sub := by
      intro h
      have htake := congrArg List.length h
      rw [List.length_take, List.length_cons] at htake
      omega
    rw [indexOf, indexOf, hnone, hnone', if_neg hshort]
    rfl

/-- The search finds the first occurrence. -/
theorem after_eq_indexOf {sub : List Byte} (hsub : sub ≠ []) (b : List Byte) :
    FirstOccurrence.after sub b = (indexOf b sub).map fun i => b.drop (i + sub.length) := by
  induction b with
  | nil =>
      have hnone : indexOf [] sub = none := by
        have hpos := List.length_pos_iff.mpr hsub
        have hrange : ([] : List Byte).length + 1 - sub.length = 0 := by
          rw [List.length_nil]
          omega
        rw [indexOf, hrange]
        rfl
      rw [FirstOccurrence.after, if_neg hsub, hnone]
      rfl
  | cons c b ih =>
      rw [indexOf_cons hsub]
      by_cases hhere : (c :: b).take sub.length = sub
      · have hstart : sub <+: c :: b := List.prefix_iff_eq_take.mpr hhere.symm
        rw [if_pos hhere, FirstOccurrence.after_of_starts hstart, Option.map_some, Nat.zero_add]
      · have hstart : ¬ sub <+: c :: b := fun h => hhere (List.prefix_iff_eq_take.mp h).symm
        rw [if_neg hhere, FirstOccurrence.after_cons_of_not hstart, ih, Option.map_map]
        congr 1
        funext i
        simp only [Function.comp_apply]
        rw [Nat.add_right_comm, List.drop_succ_cons]

theorem drop_indexOf {b sub : List Byte} {i : ℕ} (h : indexOf b sub = some i) :
    b.drop i = sub ++ b.drop (i + sub.length) := by
  have hfound := List.find?_some h
  have htake : (b.drop i).take sub.length = sub := of_decide_eq_true hfound
  rw [← List.drop_drop]
  exact (List.take_append_drop sub.length (b.drop i)).symm.trans (by rw [htake])

/-! ## The scan finds the first packet -/

theorem scan_of_none {buf : List Byte} (h : indexOf buf Improv.HDR = none) :
    scan buf = (if buf.length > 5 then buf.drop (buf.length - 5) else buf, none) := by
  rw [scan, h]

/-- A turn of the loop takes the frame behind the header. -/
theorem takePacket_header (body : List Byte) :
    takePacket (Improv.HDR ++ body) = Improv.frame body := by
  match body with
  | [] => rfl
  | [v] => rfl
  | [v, t] => rfl
  | v :: t :: l :: tail =>
      have hlen : (Improv.HDR ++ v :: t :: l :: tail).length = 9 + tail.length := by
        simp only [Improv.HDR, List.length_append, List.length_cons, List.length_nil]
        omega
      have hlast : byteAt (tail.take (l.toNat + 1)) l.toNat = byteAt tail l.toNat := by
        rw [byteAt, byteAt, List.getD_eq_getElem?_getD, List.getD_eq_getElem?_getD,
          List.getElem?_take_of_lt (Nat.lt_succ_self _)]
      have hdata : (Improv.HDR ++ v :: t :: l :: tail).take (9 + l.toNat) =
          Improv.HDR ++ v :: t :: l :: tail.take l.toNat := by
        rw [Nat.add_comm]
        rfl
      have hpkt : (Improv.HDR ++ v :: t :: l :: tail).take (9 + l.toNat + 1) =
          Improv.HDR ++ v :: t :: l :: tail.take (l.toNat + 1) := by
        rw [Nat.add_assoc, Nat.add_comm]
        rfl
      have hrest : (Improv.HDR ++ v :: t :: l :: tail).drop (9 + l.toNat + 1) =
          tail.drop (l.toNat + 1) := by
        rw [Nat.add_assoc, Nat.add_comm]
        rfl
      have hsum : byteAt (Improv.HDR ++ v :: t :: l :: tail.take (l.toNat + 1)) (9 + l.toNat) =
          byteAt tail l.toNat := by
        rw [Nat.add_comm 9, ← hlast]
        rfl
      have hout : ((Improv.HDR ++ v :: t :: l :: tail.take (l.toNat + 1)).take
          (9 + l.toNat)).drop 9 = tail.take l.toNat := by
        rw [Nat.add_comm 9]
        change (tail.take (l.toNat + 1)).take l.toNat = tail.take l.toNat
        rw [List.take_take, Nat.min_eq_left (Nat.le_succ _)]
      have hl : byteAt (Improv.HDR ++ v :: t :: l :: tail) 8 = l := rfl
      have hv : byteAt (Improv.HDR ++ v :: t :: l :: tail.take (l.toNat + 1)) 6 = v := rfl
      have ht : byteAt (Improv.HDR ++ v :: t :: l :: tail.take (l.toNat + 1)) 7 = t := rfl
      simp only [takePacket, Improv.frame, hl, hlen, hdata, hpkt, hrest, hsum, hout, hv, ht]
      rw [if_neg (by omega)]
      by_cases hshort : tail.length < l.toNat + 1
      · rw [if_pos (by omega), if_pos hshort]
      rw [if_neg (by omega), if_neg hshort]
      by_cases hok : v = Improv.VERSION ∧
          byteAt tail l.toNat = Improv.byteSum (Improv.HDR ++ v :: t :: l :: tail.take l.toNat)
      · rw [if_pos hok, if_neg (by rw [not_or, not_not, not_not]; exact ⟨hok.1, hok.2.symm⟩)]
      · rw [if_neg hok, if_pos (by rw [← not_and_or]; exact fun h => hok ⟨h.1, h.2.symm⟩)]

section Scan

variable {buf : List Byte} {i : ℕ}

theorem takePacket_drop (h : indexOf buf Improv.HDR = some i) :
    takePacket (buf.drop i) = Improv.frame (buf.drop (i + 6)) := by
  rw [drop_indexOf h, takePacket_header]
  rfl

theorem scan_of_incomplete (h : indexOf buf Improv.HDR = some i)
    (hf : Improv.frame (buf.drop (i + 6)) = none) : scan buf = (buf.drop i, none) := by
  rw [← takePacket_drop h] at hf
  rw [scan, h]
  simp only
  split <;> simp_all

theorem scan_of_bad (h : indexOf buf Improv.HDR = some i) {rest : List Byte}
    (hf : Improv.frame (buf.drop (i + 6)) = some (none, rest)) : scan buf = scan rest := by
  rw [← takePacket_drop h] at hf
  rw [scan, h]
  simp only
  split <;> simp_all

theorem scan_of_good (h : indexOf buf Improv.HDR = some i) {rest : List Byte}
    {out : Byte × List Byte} (hf : Improv.frame (buf.drop (i + 6)) = some (some out, rest)) :
    scan buf = (rest, some out) := by
  rw [← takePacket_drop h] at hf
  rw [scan, h]
  simp only
  split <;> simp_all

/-- The end of a buffer that holds no header. -/
def trimmed (buf : List Byte) : List Byte :=
  if buf.length > 5 then buf.drop (buf.length - 5) else buf

theorem after_trimmed (h : FirstOccurrence.after Improv.HDR buf = none) (more : List Byte) :
    FirstOccurrence.after Improv.HDR (buf ++ more) =
      FirstOccurrence.after Improv.HDR (trimmed buf ++ more) := by
  rw [trimmed]
  by_cases hlen : buf.length > 5
  · have hsplit := List.take_append_drop (buf.length - 5) buf
    have hkeep : Improv.HDR.length ≤ (buf.drop (buf.length - 5)).length + 1 := by
      rw [List.length_drop, Improv.HDR]
      simp only [List.length_cons, List.length_nil]
      omega
    have htrim := FirstOccurrence.after_append_of_eq_none hkeep (by rwa [hsplit]) more
    rw [hsplit] at htrim
    rwa [if_pos hlen]
  · rw [if_neg hlen]

theorem packets_trimmed (buf : List Byte) : Improv.packets (trimmed buf) = [] := by
  have hlen : (trimmed buf).length < Improv.HDR.length := by
    rw [trimmed, Improv.HDR]
    simp only [List.length_cons, List.length_nil]
    split
    · rw [List.length_drop]
      omega
    · omega
  apply Improv.packets_of_none
  rw [Improv.nextFrame, FirstOccurrence.after_eq_none_of_length_lt hlen]
  rfl

/-- What a scan does to the packets of the stream: it returns the first of them, if it returns
one, and the buffer it leaves stands for the rest, whatever comes in behind it. -/
theorem scan_spec (buf : List Byte) :
    (∀ more, Improv.packets (buf ++ more) =
        (scan buf).2.toList ++ Improv.packets ((scan buf).1 ++ more)) ∧
      ((scan buf).2 = none → Improv.packets (scan buf).1 = []) ∧
      (∀ out, (scan buf).2 = some out → (scan buf).1.length < buf.length) := by
  induction hn : buf.length using Nat.strong_induction_on generalizing buf with
  | _ n ih =>
      have hhdr : Improv.HDR ≠ [] := by decide
      have hsearch := after_eq_indexOf hhdr buf
      cases hi : indexOf buf Improv.HDR with
      | none =>
          rw [hi, Option.map_none] at hsearch
          rw [scan_of_none hi]
          refine ⟨fun more => Improv.packets_congr (after_trimmed hsearch more),
            fun _ => packets_trimmed buf, fun out hout => ?_⟩
          cases hout
      | some i =>
          replace hsearch : FirstOccurrence.after Improv.HDR buf = some (buf.drop (i + 6)) := by
            rw [hsearch, hi]
            rfl
          cases hf : Improv.frame (buf.drop (i + 6)) with
          | none =>
              have hnext : Improv.nextFrame (buf.drop i) = none := by
                rw [drop_indexOf hi, Improv.nextFrame_header]
                exact hf
              have hkeep : ∀ more, FirstOccurrence.after Improv.HDR (buf ++ more) =
                  FirstOccurrence.after Improv.HDR (buf.drop i ++ more) := by
                intro more
                rw [FirstOccurrence.after_append hsearch, drop_indexOf hi, List.append_assoc,
                  FirstOccurrence.after_append_self]
                rfl
              rw [scan_of_incomplete hi hf]
              refine ⟨fun more => Improv.packets_congr (hkeep more),
                fun _ => Improv.packets_of_none hnext, fun out hout => ?_⟩
              cases hout
          | some fr =>
              obtain ⟨r, rest⟩ := fr
              have hbody := FirstOccurrence.length_after_le hsearch
              have hrest := Improv.frame_length hf
              have hlt : rest.length < n := by omega
              have hmore : ∀ more, Improv.packets (buf ++ more) =
                  r.toList ++ Improv.packets (rest ++ more) := by
                intro more
                apply Improv.packets_of_some
                rw [Improv.nextFrame, FirstOccurrence.after_append hsearch, Option.bind_some]
                exact Improv.frame_append hf more
              cases r with
              | none =>
                  obtain ⟨hstream, hdone, hless⟩ := ih rest.length hlt rest rfl
                  rw [scan_of_bad hi hf]
                  refine ⟨fun more => ?_, hdone, fun out hout => ?_⟩
                  · rw [hmore more, ← hstream more]
                    rfl
                  · exact Nat.lt_trans (hless out hout) hlt
              | some out =>
                  rw [scan_of_good hi hf]
                  refine ⟨hmore, fun hnone => ?_, fun _ _ => hlt⟩
                  cases hnone

end Scan

/-! ## The scanner over a stream -/

structure ImprovScanner where
  buf : List Byte
  deriving DecidableEq, Repr

namespace ImprovScanner

/-- `improvScanner.feed`. -/
def feed (s : ImprovScanner) (chunk : List Byte) :
    ImprovScanner × Option (Byte × List Byte) :=
  ({ buf := (scan (s.buf ++ chunk)).1 }, (scan (s.buf ++ chunk)).2)

/-- `feed` with a chunk, and then with nothing until it reports no packet. -/
def feedAll (s : ImprovScanner) (chunk : List Byte) : ImprovScanner × List (Byte × List Byte) :=
  match _h : (s.feed chunk).2 with
  | none => ((s.feed chunk).1, [])
  | some out =>
      (((s.feed chunk).1.feedAll []).1, out :: ((s.feed chunk).1.feedAll []).2)
termination_by s.buf.length + chunk.length
decreasing_by
  all_goals
    have hlt := (scan_spec (s.buf ++ chunk)).2.2 _ _h
    rw [List.length_append] at hlt
    rw [List.length_nil]
    exact hlt

/-- The packets reported over the chunks of a stream. -/
def scanned (chunks : List (List Byte)) : List (Byte × List Byte) :=
  (Mealy.run feedAll { buf := [] } chunks).2

/-- Feeding to the end reports the packets of the stream in order, and leaves none behind. -/
theorem feedAll_spec (s : ImprovScanner) (chunk : List Byte) :
    (∀ more, Improv.packets (s.buf ++ (chunk ++ more)) =
        (s.feedAll chunk).2 ++ Improv.packets ((s.feedAll chunk).1.buf ++ more)) ∧
      Improv.packets (s.feedAll chunk).1.buf = [] := by
  induction s, chunk using feedAll.induct with
  | case1 s chunk hfeed =>
      obtain ⟨hstream, hdone, -⟩ := scan_spec (s.buf ++ chunk)
      have hnone : (scan (s.buf ++ chunk)).2 = none := hfeed
      rw [feedAll, hfeed]
      refine ⟨fun more => ?_, hdone hfeed⟩
      rw [← List.append_assoc, hstream more, hnone]
      rfl
  | case2 s chunk out hfeed ih =>
      obtain ⟨hstream, -, -⟩ := scan_spec (s.buf ++ chunk)
      obtain ⟨ihstream, ihdone⟩ := ih
      have hsome : (scan (s.buf ++ chunk)).2 = some out := hfeed
      rw [feedAll, hfeed]
      refine ⟨fun more => ?_, ihdone⟩
      rw [← List.append_assoc, hstream more, hsome, Option.toList_some, List.cons_append,
        List.nil_append, List.cons_append]
      exact congrArg (out :: ·) (ihstream more)

/-- The scanner reports the packets that the stream holds, however it is cut. -/
theorem scanned_eq_packets (chunks : List (List Byte)) :
    scanned chunks = Improv.packets chunks.flatten := by
  have hrun : ∀ (s : ImprovScanner), Improv.packets s.buf = [] →
      (Mealy.run feedAll s chunks).2 = Improv.packets (s.buf ++ chunks.flatten) := by
    induction chunks with
    | nil =>
        intro s hs
        rw [Mealy.run_nil, List.flatten_nil, List.append_nil, hs]
    | cons chunk chunks ih =>
        intro s hs
        obtain ⟨hstream, hdone⟩ := feedAll_spec s chunk
        rw [Mealy.run_cons, List.flatten_cons, hstream, ih _ hdone]
  exact hrun { buf := [] } (packets_trimmed [])

/-- The helper's packets have the form of the firmware's. -/
theorem improvPacket_eq (typ : Byte) (data : List Byte) :
    improvPacket typ data = Improv.encode typ data := by
  rw [improvPacket, Improv.encode]
  simp only [List.append_assoc, List.cons_append, List.nil_append]
  rfl

/-- A packet sent behind `pre` is recovered: the parser accepts it and nothing else new, and so
does the scanner, wherever the stream is cut. -/
def Recovered (pre pkt : List Byte) (out : Byte × List Byte) : Prop :=
  Improv.parsed (pre ++ pkt) = Improv.parsed pre ++ [out] ∧
    ∀ chunks, chunks.flatten = pre ++ pkt → scanned chunks = Improv.parsed pre ++ [out]

theorem recovered_encode {pre : List Byte} (h : (Improv.Parser.after pre).Outside) (typ : Byte)
    {data : List Byte} (hdata : data.length ≤ Improv.MAX_DATA) :
    Recovered pre (Improv.encode typ data) (typ, data) := by
  have hparsed := Improv.parsed_append_encode h typ hdata
  refine ⟨hparsed, fun chunks hchunks => ?_⟩
  rw [scanned_eq_packets, hchunks, ← Improv.parsed_eq_packets, hparsed]

/-- What is recovered has a length that fits the length byte. -/
theorem length_le_of_recovered {pre pkt : List Byte} {out : Byte × List Byte}
    (h : Recovered pre pkt out) : out.2.length ≤ Improv.MAX_DATA := by
  have hmem : out ∈ Improv.parsed (pre ++ pkt) := by
    rw [h.1]
    exact List.mem_append_right _ List.mem_cons_self
  rw [Improv.parsed_eq_packets] at hmem
  exact Improv.length_data_le hmem

/-- The parser of the firmware and the scanner of the helper find the same packets in every
stream, however it is cut, and both recover what either side sends: every packet `build`
builds, and every packet of the helper whose data fits the length byte, and no other. -/
theorem scanner_agrees :
    (∀ chunks, scanned chunks = Improv.parsed chunks.flatten) ∧
      ∀ pre, (Improv.Parser.after pre).Outside →
        (∀ type data cap pkt, Improv.build type data cap = some pkt →
          Recovered pre pkt (type, data)) ∧
        ∀ typ data, Recovered pre (improvPacket typ data) (typ, data) ↔
          data.length ≤ Improv.MAX_DATA := by
  refine ⟨fun chunks => ?_, fun pre hpre => ⟨fun type data cap pkt hbuild => ?_,
    fun typ data => ⟨fun h => ?_, fun h => ?_⟩⟩⟩
  · rw [scanned_eq_packets, Improv.parsed_eq_packets]
  · obtain ⟨hdata, hpkt⟩ := Improv.build_eq_some hbuild
    rw [hpkt]
    exact recovered_encode hpre type hdata
  · exact length_le_of_recovered h
  · rw [improvPacket_eq]
    exact recovered_encode hpre typ h

/-- The helper puts no limit on the data it is given, and 256 bytes do not come back. -/
theorem not_recovered_improvPacket :
    ¬ ∀ pre, (Improv.Parser.after pre).Outside →
      ∀ typ data, Recovered pre (improvPacket typ data) (typ, data) := by
  intro h
  have houtside : (Improv.Parser.after []).Outside := Nat.zero_lt_succ 5
  have hlen := length_le_of_recovered (h [] houtside 0x03 (List.replicate 256 0))
  rw [List.length_replicate] at hlen
  exact absurd hlen (by decide)

end ImprovScanner

end NetCore

end Voyager
