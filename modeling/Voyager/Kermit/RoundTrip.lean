import Voyager.Kermit.Encoding

/-!
# The data encoding is inverted by `decode`

Each unit of the encoding decodes to the bytes it stands for whatever follows it
(`decode_encodePiece`), so a chunk of units decodes to the bytes between its position
and the position it returns, and the chunks of a file to the file. What makes a unit
readable is that its first character is a prefix exactly when the encoder put a prefix
there, which is what `Quote.Valid` asks of the negotiated characters.
-/

namespace Voyager

namespace Kermit

/-- The prefix characters a session may have negotiated. -/
structure Quote.Valid (q : Quote) : Prop where
  rept : q.rept = 0 ∨ q.rept = REPT
  qbin : q.qbin = 0 ∨ (33 ≤ q.qbin ∧ q.qbin ≤ 62) ∨ (96 ≤ q.qbin ∧ q.qbin ≤ 126)
  qbin_ne_qctl : q.qbin ≠ QCTL
  qbin_ne_rept : q.qbin ≠ 0 → q.qbin ≠ q.rept
  ctlChar : q.ctlChar = QCTL

/-- A character that is no control character, whatever its eighth bit. -/
def Printable (c : Byte) : Prop := 32 ≤ c &&& 0x7f ∧ c &&& 0x7f ≠ 127

instance (c : Byte) : Decidable (Printable c) := inferInstanceAs (Decidable (_ ∧ _))

/-- What may stand in encoded data under `q`. -/
def Quote.Allows (q : Quote) (c : Byte) : Prop := Printable c ∧ (q.qbin ≠ 0 → c < 128)

/-- The unit of a byte whose eighth bit is not quoted. -/
def encodePlain (b : Byte) (q : Quote) : List Byte :=
  let a7 := b &&& 0x7f
  if a7 < 32 ∨ a7 = 127 then [QCTL, ctl b]
  else if a7 = QCTL ∨ (q.qbin ≠ 0 ∧ a7 = q.qbin) ∨ (q.rept ≠ 0 ∧ a7 = q.rept) then [QCTL, b]
  else [b]

theorem encodeByte_of_eighth {b : Byte} {q : Quote} (h : q.qbin ≠ 0 ∧ b &&& 0x80 ≠ 0) :
    encodeByte b q = q.qbin :: encodePlain (b &&& 0x7f) q := by
  simp only [encodeByte, if_pos h, encodePlain]
  split
  · rfl
  · split <;> rfl

theorem encodeByte_of_not_eighth {b : Byte} {q : Quote} (h : ¬ (q.qbin ≠ 0 ∧ b &&& 0x80 ≠ 0)) :
    encodeByte b q = encodePlain b q := by
  simp only [encodeByte, if_neg h, encodePlain, List.nil_append]

theorem encodePlain_length_le (b : Byte) (q : Quote) : (encodePlain b q).length ≤ 2 := by
  unfold encodePlain
  dsimp only
  split
  · exact le_rfl
  · split
    · exact le_rfl
    · exact Nat.le_succ 1

theorem encodeByte_length_le (b : Byte) (q : Quote) : (encodeByte b q).length ≤ 3 := by
  by_cases h : q.qbin ≠ 0 ∧ b &&& 0x80 ≠ 0
  · rw [encodeByte_of_eighth h, List.length_cons]
    exact Nat.succ_le_succ (encodePlain_length_le (b &&& 0x7f) q)
  · rw [encodeByte_of_not_eighth h]
    exact (encodePlain_length_le b q).trans (Nat.le_succ 2)

/-! ## Single characters -/

theorem printable_iff_not_control (c : Byte) :
    Printable c ↔ ¬ (c &&& 0x7f < 32 ∨ c &&& 0x7f = 127) := by
  rw [Printable, not_or, UInt8.not_lt]

theorem printable_ctl (b : Byte) (h : ¬ Printable b) :
    Printable (ctl b) ∧ unquoteCtl (ctl b) = b ∧ (b &&& 0x80 = 0 → ctl b < 128) := by
  revert h
  refine forall_byte ?_ b
  unfold Printable unquoteCtl ctl
  decide +kernel

theorem and_127_and_128 (b : Byte) : (b &&& 0x7f) &&& 0x80 = 0 := by
  refine forall_byte ?_ b
  decide +kernel

theorem eq_of_and_128_eq_zero (b : Byte) (h : b &&& 0x80 = 0) : b &&& 0x7f = b ∧ b < 128 := by
  revert h
  refine forall_byte ?_ b
  decide +kernel

theorem and_127_or_128 (b : Byte) (h : b &&& 0x80 ≠ 0) : (b &&& 0x7f) ||| 0x80 = b := by
  revert h
  refine forall_byte ?_ b
  decide +kernel

/-- A prefix character is left alone by the control prefix before it. -/
theorem unquoteCtl_of_and {b p : Byte} (h : b &&& 0x7f = p)
    (hp : p < 63 ∨ 95 < p) : unquoteCtl b = b := by
  have hnot : ¬ ((64 ≤ b &&& 0x7f ∧ b &&& 0x7f ≤ 95) ∨ b &&& 0x7f = 63) := by
    rw [h]
    grind
  exact if_neg hnot

theorem and_127_self (p : Byte) (h : p < 128) : p &&& 0x7f = p := by
  revert h
  refine forall_byte ?_ p
  decide +kernel

theorem tochar_spec {n : ℕ} (h : n ≤ 94) :
    Printable (tochar n) ∧ tochar n < 128 ∧ (unchar (tochar n)).toNat = n := by
  have hall : ∀ n < 95, Printable (tochar n) ∧ tochar n < 128 ∧ (unchar (tochar n)).toNat = n := by
    unfold Printable tochar unchar
    decide +kernel
  exact hall n (by omega)

namespace Quote.Valid

variable {q : Quote}

theorem qbin_lt (hq : q.Valid) (h : q.qbin ≠ 0) : q.qbin < 63 ∨ 95 < q.qbin := by
  rcases hq.qbin with h0 | h1 | h1
  · exact absurd h0 h
  · exact .inl (by grind)
  · exact .inr (by grind)

theorem allows_qbin (hq : q.Valid) (h : q.qbin ≠ 0) : q.Allows q.qbin := by
  have hall : ∀ p : Byte, (33 ≤ p ∧ p ≤ 62) ∨ (96 ≤ p ∧ p ≤ 126) → Printable p ∧ p < 128 := by
    intro p
    refine forall_byte ?_ p
    unfold Printable
    decide +kernel
  obtain ⟨hp, hlt⟩ := hall q.qbin (hq.qbin.resolve_left h)
  exact ⟨hp, fun _ => hlt⟩

theorem allows_qctl (q : Quote) : q.Allows QCTL := ⟨by decide, fun _ => by decide⟩

theorem allows_rept (hq : q.Valid) (h : q.rept ≠ 0) : q.Allows q.rept := by
  rw [hq.rept.resolve_left h]
  exact ⟨by decide, fun _ => by decide⟩

theorem rept_lt (hq : q.Valid) (h : q.rept ≠ 0) : q.rept < 63 ∨ 95 < q.rept := by
  rw [hq.rept.resolve_left h]
  decide

end Quote.Valid

/-! ## One byte -/

/-- A byte that is sent under the control prefix: the characters that follow the prefix
and how they are read. -/
theorem encodePlain_cases {q : Quote} (hq : q.Valid) (b : Byte)
    (hb : q.qbin ≠ 0 → b &&& 0x80 = 0) :
    (∃ d, encodePlain b q = [QCTL, d] ∧ unquoteCtl d = b ∧ q.Allows d) ∨
      (encodePlain b q = [b] ∧ q.Allows b ∧ b ≠ QCTL ∧ (q.qbin ≠ 0 → b ≠ q.qbin) ∧
        (q.rept ≠ 0 → b ≠ q.rept)) := by
  by_cases hctl : b &&& 0x7f < 32 ∨ b &&& 0x7f = 127
  · have hnot : ¬ Printable b := by rwa [printable_iff_not_control, not_not]
    obtain ⟨hprint, hun, hlt⟩ := printable_ctl b hnot
    exact .inl ⟨ctl b, if_pos hctl, hun, hprint, fun h => hlt (hb h)⟩
  · have hprint : Printable b := (printable_iff_not_control b).mpr hctl
    have hallow : q.Allows b := ⟨hprint, fun h => (eq_of_and_128_eq_zero b (hb h)).2⟩
    by_cases hpre : b &&& 0x7f = QCTL ∨ (q.qbin ≠ 0 ∧ b &&& 0x7f = q.qbin) ∨
        (q.rept ≠ 0 ∧ b &&& 0x7f = q.rept)
    · refine .inl ⟨b, (if_neg hctl).trans (if_pos hpre), ?_, hallow⟩
      rcases hpre with h | ⟨h0, h⟩ | ⟨h0, h⟩
      · exact unquoteCtl_of_and h (by decide)
      · exact unquoteCtl_of_and h (hq.qbin_lt h0)
      · exact unquoteCtl_of_and h (hq.rept_lt h0)
    · rw [not_or, not_or] at hpre
      refine .inr ⟨(if_neg hctl).trans (if_neg (by simpa only [not_or] using hpre)), hallow,
        ?_, ?_, ?_⟩
      · rintro rfl
        exact hpre.1 (by decide)
      · rintro h0 rfl
        exact hpre.2.1 ⟨h0, (eq_of_and_128_eq_zero _ (hb h0)).1⟩
      · rintro h0 rfl
        refine hpre.2.2 ⟨h0, and_127_self _ ?_⟩
        rw [hq.rept.resolve_left h0]
        decide

/-- What `decode` reads as one encoded byte: the byte and the rest of the data. -/
def readByte (q : Quote) (c : Option Byte) (rest : List Byte) : Byte × List Byte :=
  let b := takeQbin q c rest
  let k := takeQctl q b.2.1 b.2.2
  (k.1.getD 0 ||| b.1, k.2)

theorem decode_nil (q : Quote) : decode q [] = [] := by rw [decode]

theorem decode_cons (q : Quote) (c : Byte) (rest : List Byte) :
    decode q (c :: rest) =
      List.replicate (takeRept q c rest).1
          (readByte q (takeRept q c rest).2.1 (takeRept q c rest).2.2).1 ++
        decode q (readByte q (takeRept q c rest).2.1 (takeRept q c rest).2.2).2 := by
  rw [decode]
  rfl

theorem takeQbin_of_ne {q : Quote} {c : Byte} (rest : List Byte) (h : q.qbin ≠ 0 → c ≠ q.qbin) :
    takeQbin q (some c) rest = (0, some c, rest) := by
  unfold takeQbin
  cases rest with
  | nil => rfl
  | cons d rest =>
      have hne : ¬ (q.qbin ≠ 0 ∧ some c = some q.qbin) := by
        rintro ⟨h0, hc⟩
        exact h h0 (Option.some.inj hc)
      exact if_neg hne

theorem takeRept_of_ne {q : Quote} {c : Byte} (rest : List Byte) (h : q.rept ≠ 0 → c ≠ q.rept) :
    takeRept q c rest = (1, some c, rest) := by
  unfold takeRept
  cases rest with
  | nil => rfl
  | cons d rest =>
      have hne : ¬ (q.rept ≠ 0 ∧ c = q.rept) := fun hc => h hc.1 hc.2
      exact if_neg hne

theorem takeQctl_of_ne {q : Quote} {c : Byte} (rest : List Byte) (h : c ≠ q.ctlChar) :
    takeQctl q (some c) rest = (some c, rest) := by
  unfold takeQctl
  cases rest with
  | nil => rfl
  | cons d rest =>
      have hne : ¬ some c = some q.ctlChar := fun hc => h (Option.some.inj hc)
      exact if_neg hne

/-- The unit of a byte: its first character, which is not the repeat prefix, and what
the rest of the unit reads as, whatever follows. -/
theorem exists_encodeByte {q : Quote} (hq : q.Valid) (b : Byte) :
    ∃ c cs, encodeByte b q = c :: cs ∧ (q.rept ≠ 0 → c ≠ q.rept) ∧
      (∀ d ∈ c :: cs, q.Allows d) ∧
      ∀ tail, readByte q (some c) (cs ++ tail) = (b, tail) := by
  have hqctl : q.rept ≠ 0 → QCTL ≠ q.rept := by
    intro h0
    rw [hq.rept.resolve_left h0]
    decide
  by_cases heighth : q.qbin ≠ 0 ∧ b &&& 0x80 ≠ 0
  · -- the 8th-bit prefix, then the unit of the low seven bits
    have hor := and_127_or_128 b heighth.2
    have hqbin : ∀ d rest, takeQbin q (some q.qbin) (d :: rest) = (0x80, some d, rest) := by
      intro d rest
      exact if_pos ⟨heighth.1, rfl⟩
    rw [encodeByte_of_eighth heighth]
    rcases encodePlain_cases hq (b &&& 0x7f) (fun _ => and_127_and_128 b) with
      ⟨d, hunit, hun, hallow⟩ | ⟨hunit, hallow, hne, -, -⟩
    · refine ⟨q.qbin, [QCTL, d], by rw [hunit], fun _ => hq.qbin_ne_rept heighth.1, ?_, ?_⟩
      · simp only [List.mem_cons, List.not_mem_nil, or_false, forall_eq_or_imp, forall_eq]
        exact ⟨hq.allows_qbin heighth.1, Quote.Valid.allows_qctl q, hallow⟩
      · intro tail
        have hk : takeQctl q (some QCTL) (d :: tail) = (some (unquoteCtl d), tail) :=
          if_pos (by rw [hq.ctlChar])
        simp only [readByte, List.cons_append, List.nil_append, hqbin, hk, hun,
          Option.getD_some, hor]
    · refine ⟨q.qbin, [b &&& 0x7f], by rw [hunit], fun _ => hq.qbin_ne_rept heighth.1, ?_, ?_⟩
      · simp only [List.mem_cons, List.not_mem_nil, or_false, forall_eq_or_imp, forall_eq]
        exact ⟨hq.allows_qbin heighth.1, hallow⟩
      · intro tail
        have hk : takeQctl q (some (b &&& 0x7f)) tail = (some (b &&& 0x7f), tail) :=
          takeQctl_of_ne tail (by rwa [hq.ctlChar])
        simp only [readByte, List.cons_append, List.nil_append, hqbin, hk, Option.getD_some, hor]
  · have hb : q.qbin ≠ 0 → b &&& 0x80 = 0 := fun h0 => by
      by_contra h
      exact heighth ⟨h0, h⟩
    rw [encodeByte_of_not_eighth heighth]
    rcases encodePlain_cases hq b hb with
      ⟨d, hunit, hun, hallow⟩ | ⟨hunit, hallow, hne, hnbin, hnrept⟩
    · refine ⟨QCTL, [d], by rw [hunit], hqctl, ?_, ?_⟩
      · simp only [List.mem_cons, List.not_mem_nil, or_false, forall_eq_or_imp, forall_eq]
        exact ⟨Quote.Valid.allows_qctl q, hallow⟩
      · intro tail
        have hk : takeQctl q (some QCTL) (d :: tail) = (some (unquoteCtl d), tail) :=
          if_pos (by rw [hq.ctlChar])
        simp only [readByte, List.cons_append, List.nil_append,
          takeQbin_of_ne _ (fun _ => hq.qbin_ne_qctl.symm), hk, hun, Option.getD_some,
          UInt8.or_zero]
    · refine ⟨b, [], hunit, hnrept, by simpa using hallow, ?_⟩
      intro tail
      have hk : takeQctl q (some b) tail = (some b, tail) :=
        takeQctl_of_ne tail (by rwa [hq.ctlChar])
      simp only [readByte, List.nil_append, takeQbin_of_ne _ hnbin, hk, Option.getD_some,
        UInt8.or_zero]

/-! ## Units and chunks -/

/-- The encoded characters `enc` stand for the bytes `taken`: they read as these bytes
whatever follows, and all of them may be sent. -/
structure Stands (q : Quote) (enc taken : List Byte) : Prop where
  decodes : ∀ tail, decode q (enc ++ tail) = taken ++ decode q tail
  allows : ∀ c ∈ enc, q.Allows c

theorem Stands.nil (q : Quote) : Stands q [] [] :=
  ⟨fun _ => rfl, by simp⟩

theorem Stands.append {q : Quote} {enc enc' taken taken' : List Byte}
    (h : Stands q enc taken) (h' : Stands q enc' taken') :
    Stands q (enc ++ enc') (taken ++ taken') := by
  refine ⟨?_, ?_⟩
  · intro tail
    rw [List.append_assoc, h.decodes, h'.decodes, List.append_assoc]
  · intro c hc
    rcases List.mem_append.mp hc with hc | hc
    · exact h.allows c hc
    · exact h'.allows c hc

/-- A chunk that stands for some bytes decodes to them. -/
theorem Stands.decode_eq {q : Quote} {enc taken : List Byte} (h : Stands q enc taken) :
    decode q enc = taken := by
  simpa [decode_nil] using h.decodes []

theorem countRun_spec (b : Byte) (run : ℕ) (cs : List Byte) (hrun : run ≤ 94) :
    run ≤ countRun b run cs ∧ countRun b run cs ≤ 94 ∧
      ∃ rest, cs = List.replicate (countRun b run cs - run) b ++ rest := by
  induction cs generalizing run with
  | nil => exact ⟨le_rfl, hrun, [], by simp [countRun]⟩
  | cons c cs ih =>
      rw [countRun]
      by_cases hc : c = b ∧ run < 94
      · rw [if_pos hc]
        obtain ⟨hle, hmax, rest, hrest⟩ := ih (run + 1) (by omega)
        refine ⟨by omega, hmax, rest, ?_⟩
        have hcount : countRun b (run + 1) cs - run = countRun b (run + 1) cs - (run + 1) + 1 := by
          omega
        rw [hcount, List.replicate_succ, List.cons_append, ← hrest, hc.1]
      · rw [if_neg hc]
        exact ⟨le_rfl, hrun, c :: cs, by simp⟩

theorem encodePiece_cases (b : Byte) (rest : List Byte) (q : Quote) :
    (q.rept ≠ 0 ∧ encodePiece b rest q =
        (q.rept :: tochar (countRun b 1 rest) :: encodeByte b q, countRun b 1 rest)) ∨
      encodePiece b rest q = (encodeByte b q, 1) := by
  unfold encodePiece
  by_cases h0 : q.rept ≠ 0
  · by_cases hrun : countRun b 1 rest ≥ 3
    · exact .inl ⟨h0, by simp [h0, hrun]⟩
    · exact .inr (by simp [h0, hrun])
  · exact .inr (by simp [h0])

/-- The longest encoding of one byte takes five. -/
theorem encodePiece_length_le (b : Byte) (rest : List Byte) (q : Quote) :
    (encodePiece b rest q).1.length ≤ 5 := by
  have hbyte := encodeByte_length_le b q
  rcases encodePiece_cases b rest q with ⟨-, hpiece⟩ | hpiece
  · rw [hpiece, List.length_cons, List.length_cons]
    exact Nat.add_le_add_right hbyte 2
  · rw [hpiece]
    exact hbyte.trans (Nat.le_add_right 3 2)

theorem encodePiece_pos (b : Byte) (rest : List Byte) (q : Quote) :
    0 < (encodePiece b rest q).2 := by
  rcases encodePiece_cases b rest q with ⟨-, hpiece⟩ | hpiece
  · rw [hpiece]
    exact (countRun_spec b 1 rest (Nat.le_of_ble_eq_true rfl)).1
  · rw [hpiece]
    exact Nat.one_pos

/-- The next unit stands for the byte and the equal bytes after it that it counts. -/
theorem encodePiece_spec {q : Quote} (hq : q.Valid) (b : Byte) (rest : List Byte) :
    ∃ rest', rest = List.replicate ((encodePiece b rest q).2 - 1) b ++ rest' ∧
      Stands q (encodePiece b rest q).1 (List.replicate (encodePiece b rest q).2 b) := by
  obtain ⟨c, cs, hunit, hrept, hallow, hread⟩ := exists_encodeByte hq b
  rcases encodePiece_cases b rest q with ⟨h0, hpiece⟩ | hpiece
  · obtain ⟨-, hmax, rest', hrest⟩ := countRun_spec b 1 rest (by omega)
    obtain ⟨hprint, hlt, hun⟩ := tochar_spec hmax
    rw [hpiece, hunit]
    refine ⟨rest', hrest, ?_, ?_⟩
    · intro tail
      have htake : takeRept q q.rept (tochar (countRun b 1 rest) :: c :: (cs ++ tail)) =
          ((unchar (tochar (countRun b 1 rest))).toNat, some c, cs ++ tail) :=
        if_pos ⟨h0, rfl⟩
      rw [List.cons_append, List.cons_append, List.cons_append, decode_cons, htake, hread, hun]
    · intro d hd
      rw [List.mem_cons, List.mem_cons] at hd
      rcases hd with rfl | rfl | hd
      · exact hq.allows_rept h0
      · exact ⟨hprint, fun _ => hlt⟩
      · exact hallow d hd
  · rw [hpiece, hunit]
    refine ⟨rest, by simp, ?_, hallow⟩
    intro tail
    rw [List.cons_append, decode_cons, takeRept_of_ne _ hrept, hread]

/-- What `encodeLoop` adds to `out` stands for the bytes it moves over, and it moves when
five more characters fit. -/
theorem encodeLoop_spec {q : Quote} (hq : q.Valid) {maxData : ℕ} (out : List Byte) (i : ℕ)
    (src : List Byte) (hout : out.length ≤ maxData) :
    ∃ enc taken rest, src = taken ++ rest ∧ Stands q enc taken ∧
      encodeLoop maxData q out i src = { bytes := out ++ enc, next := i + taken.length } ∧
      (out ++ enc).length ≤ maxData ∧ (out.length + 5 ≤ maxData → src ≠ [] → taken ≠ []) := by
  fun_induction encodeLoop maxData q out i src with
  | case1 out i =>
      exact ⟨[], [], [], rfl, Stands.nil q, by simp, by simpa using hout, fun _ h => absurd rfl h⟩
  | case2 out i b rest piece hfull =>
      refine ⟨[], [], b :: rest, rfl, Stands.nil q, by simp, by simpa using hout, ?_⟩
      intro hroom
      have hlen := encodePiece_length_le b rest q
      simp only [piece] at hfull
      omega
  | case3 out i b rest piece hfit ih =>
      have hpos := encodePiece_pos b rest q
      obtain ⟨rest', hrest, hstands⟩ := encodePiece_spec hq b rest
      change 1 ≤ piece.2 at hpos
      have hdrop : rest.drop (piece.2 - 1) = rest' := by
        rw [hrest, List.drop_left' (List.length_replicate ..)]
      obtain ⟨enc, taken, rest'', hsrc, hstands', hloop, hlen, -⟩ :=
        ih (by rw [List.length_append]; omega)
      have hrun : b :: List.replicate (piece.2 - 1) b = List.replicate piece.2 b := by
        rw [← List.replicate_succ]
        congr 1
        omega
      refine ⟨piece.1 ++ enc, List.replicate piece.2 b ++ taken, rest'', ?_,
        hstands.append hstands', ?_, by rwa [← List.append_assoc], ?_⟩
      · rw [hrest, ← List.cons_append, hrun, ← hdrop, hsrc, List.append_assoc]
      · rw [hloop, List.append_assoc, List.length_append, List.length_replicate, Nat.add_assoc]
      · intro _ _ hnil
        have hzero : piece.2 = 0 := by simpa using (List.append_eq_nil_iff.mp hnil).1
        omega

/-- One chunk: it has at most `maxData` characters, stands for the bytes up to the
position it returns, and moves on when there is room for a unit. -/
theorem encodeChunk_spec {q : Quote} (hq : q.Valid) (src : List Byte) (pos maxData : ℕ)
    (hpos : pos ≤ src.length) :
    let chunk := encodeChunk src pos maxData q
    pos ≤ chunk.next ∧ chunk.next ≤ src.length ∧ chunk.bytes.length ≤ maxData ∧
      Stands q chunk.bytes ((src.drop pos).take (chunk.next - pos)) ∧
      (5 ≤ maxData → pos < src.length → pos < chunk.next) := by
  obtain ⟨enc, taken, rest, hsrc, hstands, hloop, hlen, hmove⟩ :=
    encodeLoop_spec hq [] pos (src.drop pos) (Nat.zero_le maxData)
  have hchunk : encodeChunk src pos maxData q = { bytes := enc, next := pos + taken.length } :=
    hloop
  have hlength : src.length - pos = taken.length + rest.length := by
    rw [← List.length_drop, hsrc, List.length_append]
  have htake : (src.drop pos).take (pos + taken.length - pos) = taken := by
    rw [Nat.add_sub_cancel_left, hsrc, List.take_left' rfl]
  simp only [hchunk, htake]
  refine ⟨by omega, by omega, hlen, hstands, ?_⟩
  intro hroom hlt
  have hne : src.drop pos ≠ [] := by
    intro hnil
    rw [List.drop_eq_nil_iff] at hnil
    omega
  have htaken := List.length_pos_iff.mpr (hmove (by simpa using hroom) hne)
  omega

/-- The chunks from `pos` on: enough calls reach the end of the source, and the chunks
stand for what is left of it. -/
theorem encodeAll_spec {q : Quote} (hq : q.Valid) (src : List Byte) {maxData : ℕ}
    (hroom : 5 ≤ maxData) (fuel pos : ℕ) (hpos : pos ≤ src.length)
    (hfuel : src.length ≤ pos + fuel) :
    ∃ chunks, encodeAll src maxData q fuel pos = some (chunks, src.length) ∧
      (∀ chunk ∈ chunks, chunk.length ≤ maxData ∧ ∀ c ∈ chunk, q.Allows c) ∧
      (chunks.map (decode q)).flatten = src.drop pos := by
  induction fuel generalizing pos with
  | zero =>
      have hend : pos = src.length := by omega
      exact ⟨[], by simp [encodeAll, hend], by simp, by simp [hend]⟩
  | succ fuel ih =>
      by_cases hend : pos ≥ src.length
      · have hpos' : pos = src.length := by omega
        exact ⟨[], by simp [encodeAll, hpos'], by simp, by simp [hpos']⟩
      · obtain ⟨hle, hmax, hlen, hstands, hmove⟩ := encodeChunk_spec hq src pos maxData hpos
        have hlt := hmove hroom (by omega)
        obtain ⟨chunks, hall, hchunks, hdec⟩ :=
          ih (encodeChunk src pos maxData q).next hmax (by omega)
        refine ⟨(encodeChunk src pos maxData q).bytes :: chunks, ?_, ?_, ?_⟩
        · simp only [encodeAll, if_neg hend, hall, Option.map_some]
        · intro chunk hchunk
          rcases List.mem_cons.mp hchunk with rfl | hchunk
          · exact ⟨hlen, hstands.allows⟩
          · exact hchunks chunk hchunk
        · rw [List.map_cons, List.flatten_cons, hdec, hstands.decode_eq]
          have hdrop : src.drop (encodeChunk src pos maxData q).next =
              (src.drop pos).drop ((encodeChunk src pos maxData q).next - pos) := by
            rw [List.drop_drop, Nat.add_sub_cancel' hle]
          rw [hdrop, List.take_append_drop]

/-- The data encoding is a round trip: the chunks of a file reach its end, each has at
most `maxData` characters, none of them a control character and none above `127` under an
8th-bit prefix, and decoding them one after the other gives the file back. -/
theorem encodeAll_round_trip (src : List Byte) (maxData : ℕ) (q : Quote) (hroom : 5 ≤ maxData)
    (hq : q.Valid) :
    ∃ chunks, encodeAll src maxData q src.length 0 = some (chunks, src.length) ∧
      (∀ chunk ∈ chunks, chunk.length ≤ maxData) ∧
      (∀ chunk ∈ chunks, ∀ c ∈ chunk,
        32 ≤ c &&& 0x7f ∧ c &&& 0x7f ≠ 127 ∧ (q.qbin ≠ 0 → c < 128)) ∧
      (chunks.map (decode q)).flatten = src := by
  obtain ⟨chunks, hall, hchunks, hdec⟩ :=
    encodeAll_spec hq src hroom src.length 0 (Nat.zero_le _) (by omega)
  refine ⟨chunks, hall, fun chunk hchunk => (hchunks chunk hchunk).1, ?_, by simpa using hdec⟩
  intro chunk hchunk c hc
  obtain ⟨⟨hlow, hdel⟩, heighth⟩ := (hchunks chunk hchunk).2 c hc
  exact ⟨hlow, hdel, heighth⟩

/-- A run, a prefix character and a control character, in chunks of five. -/
theorem encodeAll_round_trip_short :
    ∃ chunks, encodeAll [0, 0, 0, 0x7e, 0xff] 5 ⟨0x26, REPT, QCTL⟩ 5 0 = some (chunks, 5) ∧
      (chunks.map (decode ⟨0x26, REPT, QCTL⟩)).flatten = [0, 0, 0, 0x7e, 0xff] := by
  obtain ⟨chunks, hall, -, -, hdec⟩ :=
    encodeAll_round_trip [0, 0, 0, 0x7e, 0xff] 5 ⟨0x26, REPT, QCTL⟩ le_rfl
      ⟨by decide, by decide, by decide, by decide, by decide⟩
  exact ⟨chunks, hall, hdec⟩

end Kermit

end Voyager
