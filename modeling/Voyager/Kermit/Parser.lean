import Voyager.Kermit.Packet

/-!
# The stream parser resynchronises

The loop of `parse` looks only at bytes it has, so more bytes behind the buffer never
change what it did so far (`parse_append`): feeding in chunks is feeding in one piece.
A buffer the loop gave up on is empty or one unfinished frame, and a `MARK` behind it
throws it away (`parse_append_mark`). Hence a packet is read whole whatever came before
it.
-/

namespace Voyager

namespace Kermit

/-! ## Control bytes in a range -/

theorem badRange_eq_some_iff {buf : List Byte} {start stop i : ℕ} :
    badRange buf start stop = some i ↔
      ∃ j, (slice buf start stop).findIdx? isControl = some j ∧ start + j = i := by
  simp only [badRange, Option.map_eq_some_iff]

theorem badRange_bounds {buf : List Byte} {start stop i : ℕ}
    (h : badRange buf start stop = some i) : start ≤ i ∧ i < buf.length := by
  obtain ⟨j, hj, rfl⟩ := badRange_eq_some_iff.mp h
  have hlt : j < (slice buf start stop).length := (List.findIdx?_eq_some_iff_getElem.mp hj).1
  simp only [slice, List.length_drop, List.length_take] at hlt
  omega

theorem badRange_append_of_le {buf : List Byte} {stop : ℕ} (h : stop ≤ buf.length)
    (start : ℕ) (x : List Byte) : badRange (buf ++ x) start stop = badRange buf start stop := by
  rw [badRange, badRange, slice, slice, List.take_append_of_le_length h]

/-- A range that reaches past the buffer: the buffer's own bytes come first. -/
theorem badRange_append_of_ge {buf : List Byte} {start stop : ℕ} (hstart : start ≤ buf.length)
    (hstop : buf.length ≤ stop) (x : List Byte) :
    badRange (buf ++ x) start stop =
      (badRange buf start buf.length).or
        (((x.take (stop - buf.length)).findIdx? isControl).map (buf.length + ·)) := by
  have hslice : slice (buf ++ x) start stop =
      slice buf start buf.length ++ x.take (stop - buf.length) := by
    rw [slice, slice, List.take_append, List.take_of_length_le hstop, List.take_length,
      List.drop_append_of_le_length hstart]
  have hlen : (slice buf start buf.length).length = buf.length - start := by
    rw [slice, List.take_length, List.length_drop]
  rw [badRange, badRange, hslice, List.findIdx?_append, Option.map_or, hlen, Option.map_map]
  congr 2
  funext j
  simp only [Function.comp_apply]
  omega

theorem badRange_append_mark {buf : List Byte} {stop : ℕ} (hpos : 1 ≤ buf.length)
    (hclean : badRange buf 1 buf.length = none) (hstop : buf.length < stop) (y : List Byte) :
    badRange (buf ++ MARK :: y) 1 stop = some buf.length := by
  obtain ⟨k, hk⟩ : ∃ k, stop - buf.length = k + 1 := ⟨stop - buf.length - 1, by omega⟩
  have hmark : isControl MARK = true := rfl
  rw [badRange_append_of_ge hpos hstop.le, hclean, hk, List.take_succ_cons,
    List.findIdx?_cons, hmark]
  rfl

theorem badRange_eq_none {buf : List Byte} {start stop : ℕ}
    (h : ∀ b ∈ slice buf start stop, isControl b = false) : badRange buf start stop = none := by
  rw [badRange, Option.map_eq_none_iff, List.findIdx?_eq_none_iff]
  exact h

/-! ## One turn of the loop -/

/-- `t` does with `x` behind the buffer what `s` does without, if `s` does anything. -/
def Scan.Extends (x : List Byte) (s t : Scan) : Prop :=
  match s with
  | .wait _ => True
  | .skip r => t = .skip (r ++ x)
  | .emit pkt r => t = .emit pkt (r ++ x)

theorem scanRange_of_none {buf : List Byte} {stop : ℕ} {next : Scan}
    (h : badRange buf 1 stop = none) : scanRange buf stop next = next := by
  rw [scanRange, h]

theorem scanRange_of_some {buf : List Byte} {stop i : ℕ} {next : Scan}
    (h : badRange buf 1 stop = some i) : scanRange buf stop next = .skip (buf.drop i) := by
  rw [scanRange, h]

theorem scanRange_extends {buf x : List Byte} {stop : ℕ} {next next' : Scan}
    (hstop : stop ≤ buf.length) (hnext : Scan.Extends x next next') :
    Scan.Extends x (scanRange buf stop next) (scanRange (buf ++ x) stop next') := by
  cases h : badRange buf 1 stop with
  | none =>
      rw [scanRange_of_none h, scanRange_of_none (by rwa [badRange_append_of_le hstop])]
      exact hnext
  | some i =>
      have hi := badRange_bounds h
      rw [scanRange_of_some h, scanRange_of_some (by rwa [badRange_append_of_le hstop]),
        List.drop_append_of_le_length hi.2.le]
      rfl

theorem scanRange_wait_extends {buf x r : List Byte} {stop : ℕ} (next : Scan)
    (hpos : 1 ≤ buf.length) (hstop : buf.length ≤ stop) :
    Scan.Extends x (scanRange buf buf.length (.wait r)) (scanRange (buf ++ x) stop next) := by
  cases h : badRange buf 1 buf.length with
  | none =>
      rw [scanRange_of_none h]
      trivial
  | some i =>
      have hx : badRange (buf ++ x) 1 stop = some i := by
        rw [badRange_append_of_ge hpos hstop, h, Option.some_or]
      have hi := badRange_bounds h
      rw [scanRange_of_some h, scanRange_of_some hx, List.drop_append_of_le_length hi.2.le]
      rfl

theorem scanFrame_extends {buf : List Byte} {hdr total : ℕ} (hpos : 1 ≤ buf.length)
    (x : List Byte) :
    Scan.Extends x (scanFrame buf hdr total) (scanFrame (buf ++ x) hdr total) := by
  have hlen : (buf ++ x).length = buf.length + x.length := List.length_append
  by_cases h : buf.length < total
  · rw [scanFrame, if_pos h]
    by_cases hx : (buf ++ x).length < total
    · rw [scanFrame, if_pos hx]
      exact scanRange_wait_extends _ hpos (by omega)
    · rw [scanFrame, if_neg hx]
      exact scanRange_wait_extends _ hpos (by omega)
  · rw [scanFrame, if_neg h, scanFrame, if_neg (by omega)]
    refine scanRange_extends (by omega) ?_
    rw [List.take_append_of_le_length (by omega), List.drop_append_of_le_length (by omega)]
    rfl

theorem byteAt_append {buf : List Byte} {i : ℕ} (h : i < buf.length) (x : List Byte) :
    byteAt (buf ++ x) i = byteAt buf i := by
  rw [byteAt, byteAt, List.getD_eq_getElem?_getD, List.getD_eq_getElem?_getD,
    List.getElem?_append_left h]

theorem check1_append {buf : List Byte} {stop : ℕ} (h : stop ≤ buf.length) (start : ℕ)
    (x : List Byte) : check1 (buf ++ x) start stop = check1 buf start stop := by
  rw [check1, check1, slice, slice, List.take_append_of_le_length h]

theorem scanMark_extends (buf x : List Byte) :
    Scan.Extends x (scanMark buf) (scanMark (buf ++ x)) := by
  have hlen : (buf ++ x).length = buf.length + x.length := List.length_append
  by_cases h2 : buf.length < 2
  · rw [scanMark, if_pos h2]
    trivial
  have hx2 : ¬ (buf ++ x).length < 2 := by omega
  simp only [scanMark, if_neg h2, if_neg hx2, byteAt_append (show 1 < buf.length by omega)]
  by_cases h0 : (unchar (byteAt buf 1)).toNat = 0
  · rw [if_pos h0, if_pos h0]
    by_cases h7 : buf.length < 7
    · rw [if_pos h7]
      split
      · exact scanRange_wait_extends _ (by omega) (by omega)
      · exact scanRange_wait_extends _ (by omega) (by omega)
    · have hx7 : ¬ (buf ++ x).length < 7 := by omega
      rw [if_neg h7, if_neg hx7, check1_append (show 6 ≤ buf.length by omega),
        byteAt_append (show 6 < buf.length by omega), byteAt_append (show 4 < buf.length by omega),
        byteAt_append (show 5 < buf.length by omega)]
      refine scanRange_extends (by omega) ?_
      split
      · rw [List.drop_append_of_le_length (by omega)]
        rfl
      · exact scanFrame_extends (by omega) x
  · rw [if_neg h0, if_neg h0]
    split
    · rw [List.drop_append_of_le_length (by omega)]
      rfl
    · exact scanFrame_extends (by omega) x

/-- The loop body leaves the buffer as it is when it waits, and shortens it otherwise. -/
def Scan.Shrinks (buf : List Byte) : Scan → Prop
  | .wait r => r = buf
  | .skip r => r.length < buf.length
  | .emit _ r => r.length < buf.length

theorem scanRange_shrinks {buf : List Byte} {stop : ℕ} {next : Scan}
    (h : next.Shrinks buf) : (scanRange buf stop next).Shrinks buf := by
  cases hbad : badRange buf 1 stop with
  | none => rwa [scanRange_of_none hbad]
  | some i =>
      have hi := badRange_bounds hbad
      rw [scanRange_of_some hbad, Scan.Shrinks, List.length_drop]
      omega

theorem scanFrame_shrinks {buf : List Byte} {hdr total : ℕ} (h : 0 < total) :
    (scanFrame buf hdr total).Shrinks buf := by
  rw [scanFrame]
  split
  · exact scanRange_shrinks rfl
  · refine scanRange_shrinks ?_
    rw [Scan.Shrinks, List.length_drop]
    omega

theorem scanMark_shrinks (buf : List Byte) : (scanMark buf).Shrinks buf := by
  rw [scanMark]
  split
  · rfl
  · have hdrop : (Scan.skip (buf.drop 1)).Shrinks buf := by
      rw [Scan.Shrinks, List.length_drop]
      omega
    dsimp only
    split
    · split
      · exact scanRange_shrinks rfl
      · refine scanRange_shrinks ?_
        split
        · exact hdrop
        · exact scanFrame_shrinks (by omega)
    · split
      · exact hdrop
      · exact scanFrame_shrinks (by omega)

theorem scanMark_wait {buf r : List Byte} (h : scanMark buf = .wait r) : r = buf := by
  have hshrinks := scanMark_shrinks buf
  rwa [h] at hshrinks

theorem parseStep_of_nil {buf : List Byte} (h : buf.dropWhile (· ≠ MARK) = []) :
    parseStep buf = .wait [] := by
  rw [parseStep, h]

theorem parseStep_of_cons {buf rest : List Byte} {c : Byte}
    (h : buf.dropWhile (· ≠ MARK) = c :: rest) : parseStep buf = scanMark (c :: rest) := by
  rw [parseStep, h]

theorem parseStep_mark (rest : List Byte) : parseStep (MARK :: rest) = scanMark (MARK :: rest) :=
  parseStep_of_cons (List.dropWhile_cons_of_neg (by simp))

theorem dropWhile_mark {buf rest : List Byte} {c : Byte}
    (h : buf.dropWhile (· ≠ MARK) = c :: rest) : c = MARK := by
  have hne : buf.dropWhile (· ≠ MARK) ≠ [] := by rw [h]; exact List.cons_ne_nil c rest
  have hhead := List.head_dropWhile_not (· ≠ MARK) hne
  simp only [h, List.head_cons] at hhead
  simpa using hhead

theorem parseStep_length {buf r : List Byte} :
    (parseStep buf = .skip r → r.length < buf.length) ∧
      ∀ pkt, parseStep buf = .emit pkt r → r.length < buf.length := by
  have hle : (buf.dropWhile (· ≠ MARK)).length ≤ buf.length :=
    (List.dropWhile_suffix _).length_le
  cases hdrop : buf.dropWhile (· ≠ MARK) with
  | nil =>
      rw [parseStep_of_nil hdrop]
      exact ⟨fun h => Scan.noConfusion h, fun _ h => Scan.noConfusion h⟩
  | cons c rest =>
      have hshrinks := scanMark_shrinks (c :: rest)
      rw [hdrop] at hle
      rw [parseStep_of_cons hdrop]
      constructor
      · intro h
        rw [h] at hshrinks
        exact hshrinks.trans_le hle
      · intro pkt h
        rw [h] at hshrinks
        exact hshrinks.trans_le hle

/-- More bytes behind the buffer: a turn that did something does the same, and a turn
that waited is made again with them. -/
theorem parseStep_append (buf x : List Byte) :
    parseStep (buf ++ x) =
      match parseStep buf with
      | .wait r => parseStep (r ++ x)
      | .skip r => .skip (r ++ x)
      | .emit pkt r => .emit pkt (r ++ x) := by
  cases hdrop : buf.dropWhile (· ≠ MARK) with
  | nil =>
      have hx : (buf ++ x).dropWhile (· ≠ MARK) = x.dropWhile (· ≠ MARK) := by
        rw [List.dropWhile_append, hdrop]
        rfl
      rw [parseStep_of_nil hdrop]
      dsimp only
      rw [List.nil_append, parseStep, hx, parseStep]
  | cons c rest =>
      have hmark := dropWhile_mark hdrop
      subst hmark
      have hx : (buf ++ x).dropWhile (· ≠ MARK) = MARK :: (rest ++ x) := by
        rw [List.dropWhile_append, hdrop]
        rfl
      have hext := scanMark_extends (MARK :: rest) x
      rw [parseStep_of_cons hdrop, parseStep_of_cons hx]
      cases hscan : scanMark (MARK :: rest) with
      | wait r =>
          obtain rfl := scanMark_wait hscan
          exact (parseStep_mark (rest ++ x)).symm
      | skip r => rwa [hscan] at hext
      | emit pkt r => rwa [hscan] at hext

/-! ## The loop -/

/-- The frames emitted until the loop returns, and the buffer it leaves. -/
def parse (buf : List Byte) : List Packet × List Byte :=
  match h : parseStep buf with
  | .wait r => ([], r)
  | .skip r => parse r
  | .emit pkt r => (pkt :: (parse r).1, (parse r).2)
termination_by buf.length
decreasing_by
  · exact parseStep_length.1 h
  · exact parseStep_length.2 _ h

theorem parse_of_wait {buf r : List Byte} (h : parseStep buf = .wait r) :
    parse buf = ([], r) := by
  rw [parse]
  split <;> simp_all

theorem parse_of_skip {buf r : List Byte} (h : parseStep buf = .skip r) :
    parse buf = parse r := by
  rw [parse]
  split <;> simp_all

theorem parse_of_emit {buf r : List Byte} {pkt : Packet} (h : parseStep buf = .emit pkt r) :
    parse buf = (pkt :: (parse r).1, (parse r).2) := by
  rw [parse]
  split <;> simp_all

theorem parse_append (buf x : List Byte) :
    parse (buf ++ x) =
      ((parse buf).1 ++ (parse ((parse buf).2 ++ x)).1, (parse ((parse buf).2 ++ x)).2) := by
  have hstep := parseStep_append buf x
  fun_induction parse buf with
  | case1 buf r h =>
      rw [h] at hstep
      dsimp only at hstep
      cases hr : parseStep (r ++ x) with
      | wait r' => rw [parse_of_wait (hstep.trans hr), parse_of_wait hr]; rfl
      | skip r' => rw [parse_of_skip (hstep.trans hr), parse_of_skip hr]; rfl
      | emit pkt r' => rw [parse_of_emit (hstep.trans hr), parse_of_emit hr]; rfl
  | case2 buf r h ih =>
      rw [h] at hstep
      rw [parse_of_skip hstep, ih (parseStep_append r x)]
  | case3 buf pkt r h ih =>
      rw [h] at hstep
      rw [parse_of_emit hstep, ih (parseStep_append r x)]
      rfl

theorem parseStep_wait {buf r : List Byte} (h : parseStep buf = .wait r) :
    parseStep r = .wait r := by
  cases hdrop : buf.dropWhile (· ≠ MARK) with
  | nil =>
      rw [parseStep_of_nil hdrop] at h
      cases h
      rfl
  | cons c rest =>
      obtain rfl := dropWhile_mark hdrop
      rw [parseStep_of_cons hdrop] at h
      obtain rfl := scanMark_wait h
      rwa [parseStep_mark]

/-- The loop returns at once on the buffer it left. -/
theorem parse_settled (buf : List Byte) : parseStep (parse buf).2 = .wait (parse buf).2 := by
  fun_induction parse buf with
  | case1 buf r h => exact parseStep_wait h
  | case2 buf r h ih => exact ih
  | case3 buf pkt r h ih => exact ih

/-! ## The parser -/

/-- The state of `createParser`: a buffer that `parse` has nothing more to do on. -/
structure Parser where
  buf : List Byte
  settled : parseStep buf = .wait buf

def createParser : Parser where
  buf := []
  settled := parseStep_of_nil rfl

def Parser.feed (p : Parser) (bytes : List Byte) : Parser × List Packet :=
  let r := parse (p.buf ++ bytes)
  ({ buf := r.2, settled := parse_settled _ }, r.1)

@[ext] theorem Parser.ext {p p' : Parser} (h : p.buf = p'.buf) : p = p' := by
  cases p
  cases p'
  cases h
  rfl

theorem Parser.feed_nil (p : Parser) : p.feed [] = (p, []) := by
  have hnil : parse (p.buf ++ []) = ([], p.buf) := by
    rw [List.append_nil, parse_of_wait p.settled]
  exact Prod.ext (Parser.ext (congrArg Prod.snd hnil)) (congrArg Prod.fst hnil)

theorem Parser.feed_append (p : Parser) (as bs : List Byte) :
    p.feed (as ++ bs) =
      (((p.feed as).1.feed bs).1, (p.feed as).2 ++ ((p.feed as).1.feed bs).2) := by
  have happend : parse (p.buf ++ (as ++ bs)) = _ :=
    (congrArg parse (List.append_assoc _ _ _).symm).trans (parse_append (p.buf ++ as) bs)
  have hbuf := congrArg Prod.snd happend
  have hpkts := congrArg Prod.fst happend
  exact Prod.ext (Parser.ext hbuf) hpkts

/-- Feeding in chunks is feeding in one piece. -/
theorem Parser.run_feed (p : Parser) (chunks : List (List Byte)) :
    Mealy.run Parser.feed p chunks = p.feed chunks.flatten :=
  Mealy.run_flatten Parser.feed_nil Parser.feed_append p chunks

/-! ## Resynchronisation -/

theorem scanRange_append_mark {buf r : List Byte} {stop : ℕ} (next : Scan) (hpos : 1 ≤ buf.length)
    (hwait : scanRange buf buf.length (.wait buf) = .wait r) (hstop : buf.length < stop)
    (y : List Byte) : scanRange (buf ++ MARK :: y) stop next = .skip (MARK :: y) := by
  cases h : badRange buf 1 buf.length with
  | none =>
      rw [scanRange_of_some (badRange_append_mark hpos h hstop y), List.drop_left]
  | some i =>
      rw [scanRange_of_some h] at hwait
      exact Scan.noConfusion hwait

theorem scanRange_eq_wait {buf r : List Byte} {stop : ℕ} {next : Scan}
    (h : scanRange buf stop next = .wait r) : badRange buf 1 stop = none ∧ next = .wait r := by
  cases hbad : badRange buf 1 stop with
  | none => exact ⟨rfl, by rwa [scanRange_of_none hbad] at h⟩
  | some i =>
      rw [scanRange_of_some hbad] at h
      exact Scan.noConfusion h

theorem scanFrame_append_mark {buf r : List Byte} {hdr total : ℕ} (hpos : 1 ≤ buf.length)
    (hwait : scanFrame buf hdr total = .wait r) (y : List Byte) :
    scanFrame (buf ++ MARK :: y) hdr total = .skip (MARK :: y) := by
  have hlen : (buf ++ MARK :: y).length = buf.length + (y.length + 1) := List.length_append
  by_cases h : buf.length < total
  · rw [scanFrame, if_pos h] at hwait
    rw [scanFrame]
    split
    · exact scanRange_append_mark _ hpos hwait (by omega) y
    · exact scanRange_append_mark _ hpos hwait h y
  · rw [scanFrame, if_neg h] at hwait
    exact Scan.noConfusion (scanRange_eq_wait hwait).2

/-- A frame the parser waits for is dropped when `MARK` comes. -/
theorem scanMark_append_mark {rest r : List Byte} (hwait : scanMark (MARK :: rest) = .wait r)
    (y : List Byte) : scanMark ((MARK :: rest) ++ MARK :: y) = .skip (MARK :: y) := by
  have hlen : ((MARK :: rest) ++ MARK :: y).length = (MARK :: rest).length + (y.length + 1) :=
    List.length_append
  cases rest with
  | nil => rfl
  | cons c rest =>
      have hpos : 1 < (MARK :: c :: rest).length := by simp
      generalize hbuf : MARK :: c :: rest = buf at *
      have h2 : ¬ buf.length < 2 := by omega
      have hx2 : ¬ (buf ++ MARK :: y).length < 2 := by omega
      simp only [scanMark, if_neg h2, if_neg hx2, byteAt_append hpos] at hwait ⊢
      by_cases h0 : (unchar (byteAt buf 1)).toNat = 0
      · rw [if_pos h0] at hwait
        rw [if_pos h0]
        by_cases h7 : buf.length < 7
        · rw [if_pos h7] at hwait
          split
          · exact scanRange_append_mark _ hpos.le hwait (by omega) y
          · exact scanRange_append_mark _ hpos.le hwait h7 y
        · have hx7 : ¬ (buf ++ MARK :: y).length < 7 := by omega
          rw [if_neg h7] at hwait
          obtain ⟨hclean, hnext⟩ := scanRange_eq_wait hwait
          rw [if_neg hx7, check1_append (show 6 ≤ buf.length by omega),
            byteAt_append (show 6 < buf.length by omega),
            byteAt_append (show 4 < buf.length by omega),
            byteAt_append (show 5 < buf.length by omega),
            scanRange_of_none (by rwa [badRange_append_of_le (by omega)])]
          split at hnext
          · exact Scan.noConfusion hnext
          · next hck =>
              rw [if_neg hck]
              exact scanFrame_append_mark hpos.le hnext y
      · rw [if_neg h0] at hwait
        rw [if_neg h0]
        split at hwait
        · exact Scan.noConfusion hwait
        · next hlen' =>
            rw [if_neg hlen']
            exact scanFrame_append_mark hpos.le hwait y

/-- A settled buffer is thrown away when `MARK` comes. -/
theorem parse_append_mark {buf : List Byte} (h : parseStep buf = .wait buf) (y : List Byte) :
    parse (buf ++ MARK :: y) = parse (MARK :: y) := by
  cases hdrop : buf.dropWhile (· ≠ MARK) with
  | nil =>
      rw [parseStep_of_nil hdrop] at h
      rw [← Scan.wait.inj h, List.nil_append]
  | cons c rest =>
      obtain rfl := dropWhile_mark hdrop
      rw [parseStep_of_cons hdrop] at h
      obtain rfl := scanMark_wait h
      refine parse_of_skip ?_
      rw [List.cons_append, parseStep_mark]
      exact scanMark_append_mark h y

/-! ## A packet is read whole -/

theorem isControl_tochar {n : ℕ} (h : n ≤ 94) :
    isControl (tochar n) = false ∧ (unchar (tochar n)).toNat = n := by
  have hall : ∀ n < 95, isControl (tochar n) = false ∧ (unchar (tochar n)).toNat = n := by
    unfold isControl tochar unchar
    decide +kernel
  exact hall n (by omega)

theorem blockCheck_length (type : ℕ) (bytes : List Byte) (start stop : ℕ) :
    (blockCheck type bytes start stop).length = ckLen type := by
  rw [blockCheck, ckLen]
  split <;> rfl

theorem isControl_tochar_and {x m : ℕ} (h : m ≤ 94) : isControl (tochar (x &&& m)) = false :=
  (isControl_tochar (Nat.and_le_right.trans h)).1

theorem isControl_check1 {bytes : List Byte} {start stop : ℕ} :
    isControl (byteAt (check1 bytes start stop) 0) = false :=
  isControl_tochar_and (by decide)

theorem isControl_blockCheck {type : ℕ} {bytes : List Byte} {start stop : ℕ} {b : Byte}
    (h : b ∈ blockCheck type bytes start stop) : isControl b = false := by
  rw [blockCheck] at h
  split at h
  · simp only [check3, List.mem_cons, List.not_mem_nil, or_false] at h
    rcases h with rfl | rfl | rfl <;> exact isControl_tochar_and (by decide)
  · obtain rfl := List.mem_singleton.mp h
    exact isControl_tochar_and (by decide)

/-- The frame in a packet: all of it but the `EOL`. -/
def packetFrame (seq : ℕ) (type : Byte) (data : List Byte) (ckType : ℕ) : Packet where
  raw := packetHeader seq type data.length ckType ++ data ++
    blockCheck ckType (packetHeader seq type data.length ckType ++ data) 1
      (packetHeader seq type data.length ckType ++ data).length
  hdr := (packetHeader seq type data.length ckType).length

theorem buildPacket_eq (seq : ℕ) (type : Byte) (data : List Byte) (ckType : ℕ) :
    buildPacket seq type data ckType = (packetFrame seq type data ckType).raw ++ [EOL] := rfl

theorem slice_append_length (p t : List Byte) (start : ℕ) :
    slice (p ++ t) start p.length = p.drop start := by
  rw [slice, List.take_left]

theorem blockCheck_append (type : ℕ) (p t : List Byte) (start : ℕ) :
    blockCheck type (p ++ t) start p.length = blockCheck type p start p.length := by
  have hslice : slice (p ++ t) start p.length = slice p start p.length := by
    rw [slice_append_length, slice, List.take_length]
  simp only [blockCheck, check3, crc16, check1, hslice]

/-- The check of the bytes before it is right, and `data` is what lies between it and the
header. -/
theorem Packet.data_append (hdr data : List Byte) (ckType : ℕ) :
    Packet.data
      { raw := hdr ++ data ++ blockCheck ckType (hdr ++ data) 1 (hdr ++ data).length,
        hdr := hdr.length } ckType = some data := by
  have hck := blockCheck_length ckType (hdr ++ data) 1 (hdr ++ data).length
  have hlen : (hdr ++ data).length = hdr.length + data.length := List.length_append
  have hfits : ¬ (hdr ++ data ++ blockCheck ckType (hdr ++ data) 1 (hdr ++ data).length).length <
      ckLen ckType + hdr.length := by
    rw [List.length_append, hck]
    omega
  simp only [Packet.data, if_neg hfits]
  rw [List.length_append, hck, Nat.add_sub_cancel, List.drop_left, blockCheck_append,
    if_pos rfl, slice_append_length, List.drop_left]

theorem Packet.data_packetFrame (seq : ℕ) (type : Byte) (data : List Byte) (ckType : ℕ) :
    (packetFrame seq type data ckType).data ckType = some data :=
  Packet.data_append _ data ckType

theorem scanFrame_append {raw : List Byte} (hdr : ℕ)
    (hclean : ∀ b ∈ raw.drop 1, isControl b = false) (y : List Byte) :
    scanFrame (raw ++ y) hdr raw.length = .emit ⟨raw, hdr⟩ y := by
  have hlen : (raw ++ y).length = raw.length + y.length := List.length_append
  have hbad : badRange (raw ++ y) 1 raw.length = none := by
    refine badRange_eq_none fun b hb => hclean b ?_
    rwa [slice, List.take_left] at hb
  rw [scanFrame, if_neg (by omega), scanRange_of_none hbad, List.take_left, List.drop_left]

/-- What a packet must hold for its frame to be read: no control byte, and data that the
long header can count. -/
structure Sendable (type : Byte) (data : List Byte) (ckType : ℕ) : Prop where
  type_clean : isControl type = false
  data_clean : ∀ b ∈ data, isControl b = false
  fits : data.length + ckLen ckType < 95 * 95

theorem isControl_packetFrame (seq : ℕ) {type : Byte} {data : List Byte} {ckType : ℕ}
    (h : Sendable type data ckType) :
    ∀ b ∈ (packetFrame seq type data ckType).raw.drop 1, isControl b = false := by
  have hheader : ∀ b ∈ (packetHeader seq type data.length ckType).drop 1, isControl b = false := by
    intro b hb
    have hfits := h.fits
    rw [packetHeader] at hb
    split at hb
    · next hbasic =>
        simp only [List.drop_succ_cons, List.drop_zero, List.mem_cons, List.not_mem_nil,
          or_false] at hb
        rcases hb with rfl | rfl | rfl
        · exact (isControl_tochar hbasic).1
        · exact isControl_tochar_and (by decide)
        · exact h.type_clean
    · simp only [List.cons_append, List.nil_append, List.drop_succ_cons, List.drop_zero,
        List.mem_cons, List.not_mem_nil, or_false] at hb
      rcases hb with rfl | rfl | rfl | rfl | rfl | rfl
      · exact (isControl_tochar (Nat.zero_le _)).1
      · exact isControl_tochar_and (by decide)
      · exact h.type_clean
      · exact (isControl_tochar (by omega)).1
      · exact (isControl_tochar (by omega)).1
      · exact isControl_check1
  have hpos : 1 ≤ (packetHeader seq type data.length ckType).length := by
    rw [packetHeader]
    split <;> simp
  intro b hb
  rw [packetFrame, List.append_assoc, List.drop_append_of_le_length hpos, List.mem_append,
    List.mem_append] at hb
  rcases hb with hb | hb | hb
  · exact hheader b hb
  · exact h.data_clean b hb
  · exact isControl_blockCheck hb

theorem packetFrame_length (seq : ℕ) (type : Byte) (data : List Byte) (ckType : ℕ) :
    (packetFrame seq type data ckType).raw.length =
      (packetFrame seq type data ckType).hdr + data.length + ckLen ckType := by
  rw [packetFrame, List.length_append, List.length_append, blockCheck_length]

theorem ckLen_pos (ckType : ℕ) : 1 ≤ ckLen ckType := by
  rw [ckLen]
  split <;> omega

section

variable {seq : ℕ} {type : Byte} {data : List Byte} {ckType : ℕ}

theorem scanMark_packetFrame_basic (h : Sendable type data ckType)
    (hbasic : 2 + data.length + ckLen ckType ≤ MAX_BASIC) (y : List Byte) :
    scanMark ((packetFrame seq type data ckType).raw ++ y) =
      .emit (packetFrame seq type data ckType) y := by
  have hheader : packetHeader seq type data.length ckType =
      [MARK, tochar (2 + data.length + ckLen ckType), tochar (seq &&& 63), type] := by
    rw [packetHeader, if_pos hbasic]
  have hhdr : (packetFrame seq type data ckType).hdr = 4 := by
    rw [packetFrame, hheader]
    rfl
  have hone : byteAt ((packetFrame seq type data ckType).raw ++ y) 1 =
      tochar (2 + data.length + ckLen ckType) := by
    rw [packetFrame, hheader]
    rfl
  have htotal := packetFrame_length seq type data ckType
  have hlong : ((packetFrame seq type data ckType).raw ++ y).length = _ := List.length_append
  have hcl := ckLen_pos ckType
  have hframe := scanFrame_append (packetFrame seq type data ckType).hdr
    (isControl_packetFrame seq h) y
  have hlen : 2 + (2 + data.length + ckLen ckType) =
      (packetFrame seq type data ckType).raw.length := by
    omega
  rw [scanMark, if_neg (by omega)]
  simp only [hone, (isControl_tochar hbasic).2]
  rw [if_neg (by omega), if_neg (by omega), hlen, ← hhdr]
  exact hframe

theorem scanMark_packetFrame_long (h : Sendable type data ckType)
    (hbasic : ¬ 2 + data.length + ckLen ckType ≤ MAX_BASIC) (y : List Byte) :
    scanMark ((packetFrame seq type data ckType).raw ++ y) =
      .emit (packetFrame seq type data ckType) y := by
  have hfits := h.fits
  obtain ⟨p, hp, hheader⟩ : ∃ p : List Byte,
      p = [MARK, tochar 0, tochar (seq &&& 63), type, tochar ((data.length + ckLen ckType) / 95),
        tochar ((data.length + ckLen ckType) % 95)] ∧
      packetHeader seq type data.length ckType = p ++ [byteAt (check1 p 1 6) 0] :=
    ⟨_, rfl, by rw [packetHeader, if_neg hbasic]⟩
  have hplen : p.length = 6 := by rw [hp]; rfl
  have hhdr : (packetFrame seq type data ckType).hdr = 7 := by
    rw [packetFrame, hheader, hp]
    rfl
  obtain ⟨t, ht⟩ : ∃ t, (packetFrame seq type data ckType).raw ++ y =
      p ++ (byteAt (check1 p 1 6) 0 :: t) := by
    rw [packetFrame, hheader]
    exact ⟨_, by simp only [List.append_assoc, List.cons_append, List.nil_append]; rfl⟩
  have hdigits : (unchar (tochar ((data.length + ckLen ckType) / 95))).toNat =
        (data.length + ckLen ckType) / 95 ∧
      (unchar (tochar ((data.length + ckLen ckType) % 95))).toNat =
        (data.length + ckLen ckType) % 95 :=
    ⟨(isControl_tochar (by omega)).2, (isControl_tochar (by omega)).2⟩
  have htotal := packetFrame_length seq type data ckType
  have hlong : ((packetFrame seq type data ckType).raw ++ y).length = _ := List.length_append
  have hclean := isControl_packetFrame seq h
  have hframe := scanFrame_append (packetFrame seq type data ckType).hdr hclean y
  have hrange : badRange ((packetFrame seq type data ckType).raw ++ y) 1 7 = none := by
    rw [badRange_append_of_le (by omega)]
    refine badRange_eq_none fun b hb => hclean b ?_
    rw [slice, List.drop_take] at hb
    exact List.mem_of_mem_take hb
  have hzero : (unchar (tochar 0)).toNat = 0 := rfl
  have hck : check1 ((packetFrame seq type data ckType).raw ++ y) 1 6 = check1 p 1 6 := by
    rw [ht, check1_append (by omega)]
  have hbytes : ∀ i < 6, byteAt ((packetFrame seq type data ckType).raw ++ y) i = byteAt p i := by
    intro i hi
    rw [ht, byteAt_append (by omega)]
  have hsix : byteAt ((packetFrame seq type data ckType).raw ++ y) 6 = byteAt (check1 p 1 6) 0 := by
    rw [ht, hp]
    rfl
  have hlen : 7 + (data.length + ckLen ckType) / 95 * 95 + (data.length + ckLen ckType) % 95 =
      (packetFrame seq type data ckType).raw.length := by
    omega
  have h1 : byteAt p 1 = tochar 0 := by rw [hp]; rfl
  have h4 : byteAt p 4 = tochar ((data.length + ckLen ckType) / 95) := by rw [hp]; rfl
  have h5 : byteAt p 5 = tochar ((data.length + ckLen ckType) % 95) := by rw [hp]; rfl
  rw [scanMark, if_neg (by omega), hbytes 1 (by decide), h1]
  dsimp only
  rw [hzero, if_pos rfl, if_neg (by omega), scanRange_of_none hrange, hck, hsix,
    if_neg (not_not_intro rfl), hbytes 4 (by decide), hbytes 5 (by decide), h4, h5, hdigits.1,
    hdigits.2, hlen, ← hhdr]
  exact hframe

/-- The frame of a packet is found, and nothing behind it is touched. -/
theorem scanMark_packetFrame (h : Sendable type data ckType) (y : List Byte) :
    scanMark ((packetFrame seq type data ckType).raw ++ y) =
      .emit (packetFrame seq type data ckType) y := by
  by_cases hbasic : 2 + data.length + ckLen ckType ≤ MAX_BASIC
  · exact scanMark_packetFrame_basic h hbasic y
  · exact scanMark_packetFrame_long h hbasic y

theorem packetFrame_cons (seq : ℕ) (type : Byte) (data : List Byte) (ckType : ℕ) :
    ∃ rest, (packetFrame seq type data ckType).raw = MARK :: rest := by
  rw [packetFrame, packetHeader]
  dsimp only
  split
  · exact ⟨_, rfl⟩
  · exact ⟨_, rfl⟩

/-- In any state of the parser a packet is read, and nothing is left of it. -/
theorem Parser.feed_buildPacket (p : Parser) (h : Sendable type data ckType) :
    p.feed (buildPacket seq type data ckType) =
      (createParser, [packetFrame seq type data ckType]) := by
  obtain ⟨rest, hrest⟩ := packetFrame_cons seq type data ckType
  have hscan : scanMark ((packetFrame seq type data ckType).raw ++ [EOL]) = _ :=
    scanMark_packetFrame h [EOL]
  rw [hrest, List.cons_append, ← parseStep_mark] at hscan
  have hend : parse [EOL] = ([], []) := parse_of_wait (parseStep_of_nil rfl)
  have hparse : parse (p.buf ++ buildPacket seq type data ckType) =
      ([packetFrame seq type data ckType], []) := by
    rw [buildPacket_eq, hrest, List.cons_append, parse_append_mark p.settled,
      parse_of_emit hscan, hend]
  have hbuf := congrArg Prod.snd hparse
  have hpkts := congrArg Prod.fst hparse
  exact Prod.ext (Parser.ext hbuf) hpkts

theorem Packet.seq_packetFrame :
    (packetFrame seq type data ckType).seq.toNat = seq % 64 ∧
      (packetFrame seq type data ckType).type = type := by
  have hmod : seq &&& 63 = seq % 64 := Nat.and_two_pow_sub_one_eq_mod seq 6
  have hseq : (unchar (tochar (seq &&& 63))).toNat = seq % 64 := by
    rw [(isControl_tochar (Nat.and_le_right.trans (by decide))).2, hmod]
  rw [packetFrame, packetHeader]
  dsimp only
  split
  · exact ⟨hseq, rfl⟩
  · exact ⟨hseq, rfl⟩

/-- Whatever bytes came before and however the stream is cut, a packet is read: the
frames are those of the bytes before it and then its own. -/
theorem parser_resynchronises (G : List Byte) (h : Sendable type data ckType)
    (chunks : List (List Byte)) (hchunks : chunks.flatten = G ++ buildPacket seq type data ckType) :
    ∃ pkt : Packet,
      (Mealy.run Parser.feed createParser chunks).2 = (createParser.feed G).2 ++ [pkt] ∧
      pkt.seq.toNat = seq % 64 ∧ pkt.type = type ∧ pkt.data ckType = some data := by
  refine ⟨packetFrame seq type data ckType, ?_, Packet.seq_packetFrame.1,
    Packet.seq_packetFrame.2, Packet.data_packetFrame seq type data ckType⟩
  rw [Parser.run_feed, hchunks, Parser.feed_append, Parser.feed_buildPacket _ h]

end

theorem parser_resynchronises_cutFrame :
    ∃ pkt : Packet,
      (Mealy.run Parser.feed createParser
        [[MARK, 0x30, 0x21], [0x44, MARK], [0x25, 0x25, 0x44, 0x68, 0x69, 0x40, EOL]]).2 =
        (createParser.feed [MARK, 0x30, 0x21, 0x44]).2 ++ [pkt] ∧
      pkt.seq.toNat = 5 % 64 ∧ pkt.type = 0x44 ∧ pkt.data 1 = some [0x68, 0x69] :=
  parser_resynchronises [MARK, 0x30, 0x21, 0x44]
    { type_clean := by decide, data_clean := by decide +kernel, fits := by decide } _ (by decide)

end Kermit

end Voyager
