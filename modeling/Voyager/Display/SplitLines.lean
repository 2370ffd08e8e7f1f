import Voyager.Display.AsciiFold

/-!
# Values on the display

A network name or a password is split after so many characters, wherever that is, since every
character of it matters. When it does not fit, the last line ends in dots.
-/

namespace Voyager

namespace SplitLines

open MemBlock AsciiFold WrapText

/-! ## The code -/

/-- The string from the character `pos` on. -/
def Text.drop (text : Text) (pos : ℕ) : Text where
  bytes := text.bytes.drop pos
  nonzero h := text.nonzero (List.mem_of_mem_drop h)

def safeLen : Option Text → ℕ
  | none => 0
  | some src => src.bytes.length

/-- Whether the text is cut, and the block after the copy to `out`. -/
def truncateEllipsis (src : Option Text) (b : MemBlock Byte) (out outSize : ℕ) (maxChars : ℤ) :
    Option (Bool × MemBlock Byte) :=
  if outSize = 0 then some (false, b) else do
    let b ← b.memcpy out [0]
    if maxChars ≤ 0 then some (0 < safeLen src, b) else do
      let cap := outSize - 1
      let limit := if maxChars.toNat < cap then maxChars.toNat else cap
      let len := safeLen src
      if len ≤ limit then do
        let b ← safeCopy b out outSize src
        some (false, b)
      else do
        let dots := if limit < 3 then limit else 3
        let keep := limit - dots
        let b ← b.memcpy out ((src.elim [] Text.bytes).take keep)
        let b ← b.memcpy (out + keep) (List.replicate dots 46)
        let b ← b.memcpy (out + keep + dots) [0]
        some (true, b)

/-- The loop of `split_lines`, with the number of lines that are left. -/
def splitLoop (text : Text) (maxChars maxLines stride : ℕ) :
    ℕ → ℕ → ℕ → MemBlock Byte → Option (ℕ × MemBlock Byte)
  | 0, _, n, lines => some (n, lines)
  | left + 1, pos, n, lines =>
      if pos < text.bytes.length then
        let remain := text.bytes.length - pos
        if n + 1 = maxLines ∧ maxChars < remain then do
          let (_, lines) ← truncateEllipsis (some (Text.drop text pos)) lines (n * stride) stride
            maxChars
          splitLoop text maxChars maxLines stride left text.bytes.length (n + 1) lines
        else do
          let take := if remain < maxChars then remain else maxChars
          let lines ← lines.memcpy (n * stride) ((text.bytes.drop pos).take take)
          let lines ← lines.memcpy (n * stride + take) [0]
          splitLoop text maxChars maxLines stride left (pos + take) (n + 1) lines
      else some (n, lines)

/-- The number of lines written and the array after it. -/
def splitLines (text : Option Text) (maxChars maxLines : ℤ) (lines : Option (MemBlock Byte))
    (stride : ℕ) : Option (ℕ × Option (MemBlock Byte)) :=
  match lines with
  | none => some (0, none)
  | some lines =>
      if stride < 2 ∨ maxLines ≤ 0 ∨ maxChars ≤ 0 then some (0, some lines) else do
        let maxChars := if maxChars.toNat > stride - 1 then stride - 1 else maxChars.toNat
        let lines ← clear stride lines maxLines.toNat
        match text with
        | none => some (0, some lines)
        | some text => do
            let (n, lines) ← splitLoop text maxChars maxLines.toNat stride maxLines.toNat 0 0 lines
            some (n, some lines)

/-! ## The lines without their array -/

/-- A text in at most `m` characters, with dots in place of what is cut. -/
def ellipsis (m : ℕ) (s : List Byte) : List Byte :=
  if s.length ≤ m then s else s.take (m - min 3 m) ++ List.replicate (min 3 m) 46

theorem length_ellipsis_le (m : ℕ) (s : List Byte) : (ellipsis m s).length ≤ m := by
  unfold ellipsis
  split
  · assumption
  · rw [List.length_append, List.length_take, List.length_replicate]
    omega

/-- The lines of the text `s` when `k` lines are left. -/
def pieces (m : ℕ) : ℕ → List Byte → List (List Byte)
  | 0, _ => []
  | k + 1, s =>
      if s = [] then []
      else if k = 0 then [ellipsis m s]
      else s.take m :: pieces m k (s.drop m)

/-- What `split_lines` is for: every line but the last is full, and the lines one after the other
are the text, or as much of it as there is room for before the dots. -/
structure Split (m k : ℕ) (s : List Byte) (ls : List (List Byte)) : Prop where
  count : ls.length ≤ k
  length : ∀ l ∈ ls, l.length ≤ m
  full : ∀ l ∈ ls.dropLast, l.length = m
  whole : s.length ≤ k * m → ls.flatten = s
  cut : k * m < s.length →
    ls.flatten = s.take (k * m - min 3 m) ++ List.replicate (min 3 m) 46

section Pieces

variable {m k : ℕ} {s : List Byte} {ls : List (List Byte)}

theorem split_nil : Split m k [] [] where
  count := Nat.zero_le k
  length _ h := absurd h List.not_mem_nil
  full _ h := absurd h List.not_mem_nil
  whole _ := rfl
  cut h := absurd h (Nat.not_lt_zero _)

/-- The only line that is left. -/
theorem split_one (m : ℕ) (s : List Byte) : Split m 1 s [ellipsis m s] where
  count := Nat.le_refl 1
  length := by
    intro l hl
    rw [List.mem_singleton.mp hl]
    exact length_ellipsis_le m s
  full _ h := absurd h List.not_mem_nil
  whole h := by
    rw [List.flatten_singleton]
    exact if_pos (by omega)
  cut h := by
    rw [List.flatten_singleton, Nat.one_mul]
    exact if_neg (by omega)

/-- The text ends in its first line. -/
theorem split_first (hk : 0 < k) (h : s.length ≤ m) : Split m k s [s] where
  count := hk
  length := by
    intro l hl
    rwa [List.mem_singleton.mp hl]
  full _ h := absurd h List.not_mem_nil
  whole _ := List.flatten_singleton
  cut hlt := absurd (Nat.le_mul_of_pos_left m hk) (by omega)

/-- A full line, and the others. -/
theorem Split.cons (h : Split m k (s.drop m) ls) (hk : 0 < k) (hm : m < s.length) :
    Split m (k + 1) s (s.take m :: ls) where
  count := Nat.succ_le_succ h.count
  length := by
    intro l hl
    rcases List.mem_cons.mp hl with rfl | hl
    · exact List.length_take_le m s
    · exact h.length l hl
  full := by
    intro l hl
    cases ls with
    | nil => exact absurd hl List.not_mem_nil
    | cons a ls =>
        rw [List.dropLast_cons_cons] at hl
        rcases List.mem_cons.mp hl with rfl | hl
        · exact List.length_take_of_le hm.le
        · exact h.full l hl
  whole hle := by
    rw [List.flatten_cons, h.whole (by rw [List.length_drop, Nat.succ_mul] at *; omega),
      List.take_append_drop]
  cut hlt := by
    have hroom := Nat.le_mul_of_pos_left m hk
    rw [Nat.succ_mul] at hlt
    rw [List.flatten_cons, h.cut (by rw [List.length_drop]; omega), ← List.append_assoc,
      Nat.succ_mul, show k * m + m - min 3 m = m + (k * m - min 3 m) by omega, List.take_add]

theorem split_pieces (hk : 0 < k) (s : List Byte) : Split m k s (pieces m k s) := by
  induction k generalizing s with
  | zero => exact absurd hk (Nat.lt_irrefl 0)
  | succ k ih =>
      rw [pieces]
      split
      · next hnil =>
          rw [hnil]
          exact split_nil
      · split
        · next hlast =>
            rw [hlast]
            exact split_one m s
        · next hpos =>
            by_cases hm : m < s.length
            · exact (ih (Nat.pos_of_ne_zero hpos) (s.drop m)).cons (Nat.pos_of_ne_zero hpos) hm
            · have hle := Nat.not_lt.mp hm
              have hnil : pieces m k (s.drop m) = [] := by
                rw [List.drop_of_length_le hle]
                cases k <;> rfl
              rw [hnil, List.take_of_length_le hle]
              exact split_first (Nat.succ_pos k) hle

end Pieces

/-! ## The array -/

section Array

variable {stride dst n m : ℕ} {b lines : MemBlock Byte} {ls : List (List Byte)} {s : List Byte}

/-- A write that stays behind `dst` keeps what stands before it. -/
theorem writes_of_within {b' : MemBlock Byte} {hi : ℕ} (h : Within b b' dst hi)
    (hs : b'.HoldsString 0 dst s) : Writes b b' dst s :=
  ⟨h.size, hs, fun _ _ hle => h.holds (.inl hle)⟩

/-- Two pieces and the end of a string, written one behind the other. -/
theorem exists_pieces (b : MemBlock Byte) (dst : ℕ) {s t : List Byte} (hs : 0 ∉ s) (ht : 0 ∉ t)
    (hin : dst + s.length + t.length < b.size) :
    ∃ b₁ b₂ b₃, b.memcpy dst s = some b₁ ∧ b₁.memcpy (dst + s.length) t = some b₂ ∧
      b₂.memcpy (dst + s.length + t.length) [0] = some b₃ ∧
      Within b b₃ dst (dst + s.length + t.length + 1) ∧ b₃.HoldsString 0 dst (s ++ t) := by
  obtain ⟨b₁, hcopy₁, hwithin₁, hholds₁⟩ := exists_write b dst s (by omega)
  obtain ⟨b₂, hcopy₂, hwithin₂, hholds₂⟩ :=
    exists_write b₁ (dst + s.length) t (by rw [hwithin₁.size]; omega)
  have hboth : b₂.Holds dst (s ++ t) :=
    holds_append.mpr ⟨hwithin₂.holds (.inl (Nat.le_refl _)) hholds₁, hholds₂⟩
  have hlength : dst + (s ++ t).length = dst + s.length + t.length := by
    rw [List.length_append, Nat.add_assoc]
  have hzero : 0 ∉ s ++ t := by
    rw [List.mem_append, not_or]
    exact ⟨hs, ht⟩
  obtain ⟨b₃, hcopy₃, hwithin₃, hstring⟩ := exists_terminated hboth hzero
    (by rw [hwithin₂.size, hwithin₁.size]; omega)
  rw [hlength] at hcopy₃ hwithin₃
  refine ⟨b₁, b₂, b₃, hcopy₁, hcopy₂, hcopy₃, ?_, hstring⟩
  have hfirst : Within b b₁ dst (dst + s.length + t.length + 1) :=
    hwithin₁.mono (Nat.le_refl _) (by omega)
  have hsecond := hfirst.trans hwithin₂ (by omega) (by omega)
  exact hsecond.trans hwithin₃ (by omega) (by omega)

theorem truncateEllipsis_spec (text : Text) (hin : dst + n ≤ b.size)
    {maxChars : ℕ} (hmax : 0 < maxChars) (hle : maxChars < n) :
    ∃ b', truncateEllipsis (some text) b dst n maxChars =
        some (decide (maxChars < text.bytes.length), b') ∧
      Within b b' dst (dst + n) ∧ b'.HoldsString 0 dst (ellipsis maxChars text.bytes) := by
  obtain ⟨b₁, hcopy₁, hwithin₁, -⟩ :=
    exists_write b dst [0] (by rw [List.length_singleton]; omega)
  rw [List.length_singleton] at hwithin₁
  have hin₁ : dst + n ≤ b₁.size := hwithin₁.size ▸ hin
  have hlimit : (if (maxChars : ℤ).toNat < n - 1 then (maxChars : ℤ).toNat else n - 1) =
      maxChars := by
    rw [Int.toNat_natCast]
    split <;> omega
  have hdots : (if maxChars < 3 then maxChars else 3) = min 3 maxChars := by
    split <;> omega
  unfold truncateEllipsis
  rw [if_neg (by omega), hcopy₁]
  dsimp only [Option.bind_eq_bind, Option.bind_some]
  rw [if_neg (by omega), hlimit, hdots]
  unfold ellipsis
  by_cases hfits : text.bytes.length ≤ maxChars
  · obtain ⟨b', hcopy, hwithin, hstring⟩ := safeCopy_spec (by omega) hin₁ (some text)
    rw [if_pos hfits, if_pos (show safeLen (some text) ≤ maxChars from hfits), hcopy]
    have hcopied : copied n (some text) = text.bytes := List.take_of_length_le (by omega)
    rw [hcopied] at hstring
    refine ⟨b', ?_, (hwithin₁.mono (Nat.le_refl _) (by omega)).trans hwithin (Nat.le_refl _)
      (Nat.le_refl _), hstring⟩
    rw [decide_eq_false (Nat.not_lt.mpr hfits)]
    rfl
  · have htake : (text.bytes.take (maxChars - min 3 maxChars)).length =
        maxChars - min 3 maxChars := List.length_take_of_le (by omega)
    have hreplicate : (List.replicate (min 3 maxChars) (46 : Byte)).length = min 3 maxChars :=
      List.length_replicate
    obtain ⟨b₂, b₃, b₄, hcopy₂, hcopy₃, hcopy₄, hwithin, hstring⟩ :=
      exists_pieces b₁ dst
        (show 0 ∉ text.bytes.take (maxChars - min 3 maxChars) from
          fun hmem => text.nonzero (List.mem_of_mem_take hmem))
        (show 0 ∉ List.replicate (min 3 maxChars) (46 : Byte) from
          fun hmem => absurd (List.eq_of_mem_replicate hmem) (by decide)) (by omega)
    rw [htake] at hcopy₃ hcopy₄ hwithin
    rw [hreplicate] at hcopy₄ hwithin
    rw [if_neg hfits, if_neg (show ¬ safeLen (some text) ≤ maxChars from hfits)]
    refine ⟨b₄, ?_, (hwithin₁.mono (Nat.le_refl _) (by omega)).trans hwithin (Nat.le_refl _)
      (by omega), hstring⟩
    change (b₁.memcpy dst (text.bytes.take (maxChars - min 3 maxChars))).bind _ = _
    rw [hcopy₂]
    change (b₂.memcpy (dst + (maxChars - min 3 maxChars)) _).bind _ = _
    rw [hcopy₃]
    change (b₃.memcpy (dst + (maxChars - min 3 maxChars) + min 3 maxChars) _).bind _ = _
    rw [hcopy₄, decide_eq_true (Nat.not_le.mp hfits)]
    rfl

/-- A line that is not the last one, or that has room for the rest of the text. -/
theorem exists_line (hs : 0 ∉ s) (hin : dst + s.length < lines.size) :
    ∃ lines₁ lines', lines.memcpy dst s = some lines₁ ∧
      lines₁.memcpy (dst + s.length) [0] = some lines' ∧ Writes lines lines' dst s := by
  obtain ⟨lines₁, hcopy, hsize, hholds, hkeep⟩ := exists_memcpy_frame lines dst s hin.le
  obtain ⟨lines', hnul, hw⟩ := exists_writes hsize hholds hs (hsize ▸ hin)
    fun off data hle => hkeep off data (.inl hle)
  exact ⟨lines₁, lines', hcopy, hnul, hw⟩

/-- The loop writes the pieces of the text into the rows. -/
theorem splitLoop_spec (text : Text) (pos : ℕ) (ls : List (List Byte)) {k maxLines : ℕ}
    (hm : m < stride) (hpos : 0 < m)
    (hlines : ls.length + k = maxLines) (hsize : maxLines * stride ≤ lines.size)
    (hrows : Rows stride lines ls) :
    ∃ lines', splitLoop text m maxLines stride k pos ls.length lines =
        some ((ls ++ pieces m k (text.bytes.drop pos)).length, lines') ∧
      lines'.size = lines.size ∧ Rows stride lines' (ls ++ pieces m k (text.bytes.drop pos)) := by
  induction k generalizing pos ls lines with
  | zero =>
      rw [splitLoop, pieces, List.append_nil]
      exact ⟨lines, rfl, rfl, hrows⟩
  | succ k ih =>
      have hrow : ls.length * stride + stride ≤ lines.size := by
        rw [← Nat.succ_mul]
        exact (Nat.mul_le_mul_right stride (by omega)).trans hsize
      -- the row that is written, and those of the other iterations
      have hnext (l : List Byte) (lines₁ : MemBlock Byte) (pos' : ℕ) (hl : l.length < stride)
          (hw : Writes lines lines₁ (ls.length * stride) l) :
          ∃ lines', splitLoop text m maxLines stride k pos' (ls.length + 1) lines₁ =
              some ((ls ++ l :: pieces m k (text.bytes.drop pos')).length, lines') ∧
            lines'.size = lines.size ∧
            Rows stride lines' (ls ++ l :: pieces m k (text.bytes.drop pos')) := by
        obtain ⟨lines', hloop, hsize', hrows'⟩ := ih pos' (ls ++ [l])
          (by rw [List.length_append, List.length_singleton]; omega) (hw.1 ▸ hsize)
          (hrows.concat hl hw)
        rw [List.length_append, List.length_singleton] at hloop
        rw [List.append_assoc, List.singleton_append] at hloop hrows'
        exact ⟨lines', hloop, hsize'.trans hw.1, hrows'⟩
      have hnil : text.bytes.drop pos = [] ↔ ¬ pos < text.bytes.length := by
        rw [List.drop_eq_nil_iff, Nat.not_lt]
      have hlength : (text.bytes.drop pos).length = text.bytes.length - pos := List.length_drop
      have hzero : 0 ∉ text.bytes.drop pos := fun hmem => text.nonzero (List.mem_of_mem_drop hmem)
      rw [splitLoop, pieces]
      by_cases hend : pos < text.bytes.length
      · rw [if_pos hend, if_neg (fun h => hnil.mp h hend)]
        by_cases hlast : k = 0 ∧ m < text.bytes.length - pos
        · -- the rest is cut to the last line
          obtain ⟨rfl, hcut⟩ := hlast
          obtain ⟨lines₁, htrunc, hwithin, hstring⟩ :=
            truncateEllipsis_spec (Text.drop text pos) hrow hpos hm
          obtain ⟨lines', hloop, hsize', hrows'⟩ :=
            hnext _ lines₁ text.bytes.length ((length_ellipsis_le m _).trans_lt hm)
              (writes_of_within hwithin hstring)
          rw [if_pos ⟨hlines, hcut⟩, if_pos rfl, htrunc]
          exact ⟨lines', hloop, hsize', hrows'⟩
        · have htake : (if text.bytes.length - pos < m then text.bytes.length - pos else m) =
              ((text.bytes.drop pos).take m).length := by
            rw [List.length_take, hlength]
            split <;> omega
          have hcode : (text.bytes.drop pos).take ((text.bytes.drop pos).take m).length =
              (text.bytes.drop pos).take m := by
            rw [List.length_take, ← List.take_take, List.take_length]
          have hrest : text.bytes.drop (pos + ((text.bytes.drop pos).take m).length) =
              (text.bytes.drop pos).drop m := by
            rw [← List.drop_drop, List.length_take]
            rcases Nat.le_total m (text.bytes.drop pos).length with hle | hle
            · rw [Nat.min_eq_left hle]
            · rw [Nat.min_eq_right hle, List.drop_of_length_le (Nat.le_refl _),
                List.drop_of_length_le hle]
          have hshort := (List.length_take_le m (text.bytes.drop pos)).trans_lt hm
          obtain ⟨lines₁, lines₂, hcopy, hnul, hw⟩ :=
            exists_line (s := (text.bytes.drop pos).take m)
              (fun hmem => hzero (List.mem_of_mem_take hmem))
              (show ls.length * stride + _ < lines.size by omega)
          obtain ⟨lines', hloop, hsize', hrows'⟩ := hnext _ lines₂ _ hshort hw
          have hnot : ¬ (ls.length + 1 = maxLines ∧ m < text.bytes.length - pos) := by omega
          rw [if_neg hnot, htake]
          dsimp only
          rw [hcode, hcopy]
          dsimp only [Option.bind_eq_bind, Option.bind_some]
          rw [hnul]
          have hpieces : (if k = 0 then [ellipsis m (text.bytes.drop pos)]
              else (text.bytes.drop pos).take m :: pieces m k ((text.bytes.drop pos).drop m)) =
              (text.bytes.drop pos).take m :: pieces m k ((text.bytes.drop pos).drop m) := by
            split
            · next hzero =>
                have hle : (text.bytes.drop pos).length ≤ m := by omega
                rw [hzero, pieces, ellipsis, if_pos hle, List.take_of_length_le hle]
            · rfl
          rw [hrest] at hloop hrows'
          rw [hpieces]
          exact ⟨lines', hloop, hsize', hrows'⟩
      · rw [if_neg hend, if_pos (hnil.mpr hend), List.append_nil]
        exact ⟨lines, rfl, rfl, hrows⟩

/-- For every text and every array that has the rows, the lines are written into the rows, nothing
leaves the array, and the lines one after the other are the text or a beginning of it and dots. -/
theorem splitLines_spec (text : Text) {maxChars maxLines : ℤ} (hstride : 2 ≤ stride)
    (hlines : 0 < maxLines) (hmax : 0 < maxChars) (hsize : maxLines.toNat * stride ≤ lines.size) :
    ∃ ls lines', splitLines (some text) maxChars maxLines (some lines) stride =
        some (ls.length, some lines') ∧
      Rows stride lines' ls ∧
      Split (min maxChars.toNat (stride - 1)) maxLines.toNat text.bytes ls := by
  obtain ⟨lines₁, hclear, hsize₁⟩ := clear_spec (by omega) hsize
  have hm : (if maxChars.toNat > stride - 1 then stride - 1 else maxChars.toNat) =
      min maxChars.toNat (stride - 1) := by
    split <;> omega
  obtain ⟨lines', hloop, -, hrows⟩ :=
    splitLoop_spec text 0 []
      (show min maxChars.toNat (stride - 1) < stride by omega) (by omega)
      (Nat.zero_add maxLines.toNat) (hsize₁ ▸ hsize) (rows_nil stride lines₁)
  rw [List.nil_append, List.drop_zero] at hloop hrows
  refine ⟨_, lines', ?_, hrows, split_pieces (by omega) text.bytes⟩
  unfold splitLines
  dsimp only
  rw [if_neg (by omega), hclear, hm]
  change (splitLoop text _ _ _ _ _ _ _).bind _ = _
  rw [List.length_nil] at hloop
  rw [hloop]
  rfl

theorem splitLines_spec_cut :
    ∃ ls lines', splitLines (some ⟨[65, 66, 67, 68, 69], by decide⟩) 2 2 (some (alloc 6)) 3 =
        some (ls.length, some lines') ∧
      Rows 3 lines' ls ∧ Split 2 2 [65, 66, 67, 68, 69] ls :=
  splitLines_spec ⟨[65, 66, 67, 68, 69], by decide⟩ (by decide) (by decide) (by decide) (by decide)

end Array

end SplitLines

end Voyager
