import Voyager.Display.WrapText
import Voyager.Library.Utf16

/-!
# Texts for the display

The font has one glyph for each byte. A text from a peer is copied into a buffer of fixed size,
and then folded in place: a UTF-8 sequence becomes one question mark, and a control character a
space. A text in UTF-8 has one glyph for each character after that.
-/

namespace Voyager

namespace AsciiFold

open MemBlock Utf16

open WrapText (Text newline)

/-! ## The code -/

/-- `for (; i + 1 < n && src[i]; i++) dst[i] = src[i]` -/
def copyLoop (dst n : ℕ) : MemBlock Byte → List Byte → ℕ → Option (MemBlock Byte × ℕ)
  | b, [], i => some (b, i)
  | b, c :: src, i =>
      if i + 1 < n then do
        let b ← b.memcpy (dst + i) [c]
        copyLoop dst n b src (i + 1)
      else some (b, i)

/-- Copy a string into the `n` bytes at `dst`. There is no result when a write leaves the block. -/
def safeCopy (b : MemBlock Byte) (dst n : ℕ) (src : Option Text) : Option (MemBlock Byte) :=
  if n = 0 then some b
  else
    match src with
    | none => b.memcpy dst [0]
    | some src => do
        let (b, i) ← copyLoop dst n b src.bytes 0
        b.memcpy (dst + i) [0]

/-- What is shown for a byte of ASCII. -/
def glyph (c : Byte) : Byte := if (c < 0x20 ∧ c ≠ newline) ∨ c = 0x7F then 32 else c

def questionMark : Byte := 63

/-- The loop of `ascii_fold`, which reads at `r` and writes at `w`. A read past the end of the
block has no result. -/
def foldLoop : ℕ → MemBlock Byte → Bool → ℕ → ℕ → Option (MemBlock Byte)
  | 0, _, _, _, _ => none
  | left + 1, b, inSeq, r, w => do
      let c ← b.cells r
      if c = 0 then b.memcpy w [0]
      else if 0xC0 ≤ c then do
        let b ← b.memcpy w [questionMark]
        foldLoop left b true (r + 1) (w + 1)
      else if 0x80 ≤ c then
        if inSeq then foldLoop left b inSeq (r + 1) w
        else do
          let b ← b.memcpy w [questionMark]
          foldLoop left b inSeq (r + 1) (w + 1)
      else do
        let b ← b.memcpy w [glyph c]
        foldLoop left b false (r + 1) (w + 1)

def asciiFold (b : MemBlock Byte) (s : ℕ) : Option (MemBlock Byte) :=
  foldLoop (b.size - s) b false s s

/-! ## Without the buffer -/

/-- What `safe_copy` leaves of a string in a buffer of `n` bytes. -/
def copied (n : ℕ) : Option Text → List Byte
  | none => []
  | some src => src.bytes.take (n - 1)

/-- What `ascii_fold` makes of a string. -/
def folded : Bool → List Byte → List Byte
  | _, [] => []
  | inSeq, c :: s =>
      if 0xC0 ≤ c then questionMark :: folded true s
      else if 0x80 ≤ c then
        if inSeq then folded inSeq s else questionMark :: folded inSeq s
      else glyph c :: folded false s

/-- What is shown for a character. -/
def charGlyph (c : Char) : Byte :=
  if c.toNat < 0x80 then glyph (UInt8.ofNat c.toNat) else questionMark

@[simp] theorem folded_nil (inSeq : Bool) : folded inSeq [] = [] := rfl

/-- The bytes that the font shows as they are, and the newline. -/
def Shown (c : Byte) : Prop := 0x20 ≤ c ∧ c < 0x7F ∨ c = newline

theorem shown_glyph {c : Byte} (h : c < 0x80) : Shown (glyph c) := by
  unfold glyph
  split
  · exact .inl (by decide)
  · next hc =>
      simp only [not_or, not_and, not_not] at hc
      by_cases hnew : c = newline
      · exact .inr hnew
      · left
        have hlow := mt hc.1 hnew
        rw [UInt8.lt_iff_toNat_lt] at h hlow
        have hne : c.toNat ≠ 0x7F := fun heq => hc.2 (UInt8.toNat_inj.mp heq)
        rw [UInt8.le_iff_toNat_le, UInt8.lt_iff_toNat_lt]
        change ¬ c.toNat < 0x20 at hlow
        change c.toNat < 0x80 at h
        exact ⟨Nat.not_lt.mp hlow, by change c.toNat < 0x7F; omega⟩

theorem shown_questionMark : Shown questionMark := .inl (by decide)

theorem Shown.ne_zero {c : Byte} (h : Shown c) : c ≠ 0 := by
  rintro rfl
  exact absurd h (by unfold Shown; decide)

theorem Shown.lt {c : Byte} (h : Shown c) : c < 0x80 := by
  rcases h with ⟨-, h⟩ | rfl
  · exact UInt8.lt_trans h (by decide)
  · decide

theorem Shown.glyph {c : Byte} (h : Shown c) : glyph c = c := by
  apply if_neg
  rintro (⟨hlow, hne⟩ | rfl)
  · rcases h with ⟨hle, -⟩ | rfl
    · exact absurd hlow (UInt8.not_lt.mpr hle)
    · exact hne rfl
  · exact absurd h (by unfold Shown; decide)

/-- Only what the font shows is left. -/
theorem shown_of_mem_folded {inSeq : Bool} {s : List Byte} :
    ∀ c ∈ folded inSeq s, Shown c := by
  induction s generalizing inSeq with
  | nil => exact fun c hc => absurd hc List.not_mem_nil
  | cons c s ih =>
      rw [folded]
      split
      · exact List.forall_mem_cons.mpr ⟨shown_questionMark, ih⟩
      · split
        · split
          · exact ih
          · exact List.forall_mem_cons.mpr ⟨shown_questionMark, ih⟩
        · next h => exact List.forall_mem_cons.mpr ⟨shown_glyph (UInt8.not_le.mp h), ih⟩

/-- A text that the font shows is left as it is. -/
theorem folded_of_shown {inSeq : Bool} {s : List Byte} (h : ∀ c ∈ s, Shown c) :
    folded inSeq s = s := by
  induction s generalizing inSeq with
  | nil => rfl
  | cons c s ih =>
      obtain ⟨hc, hs⟩ := List.forall_mem_cons.mp h
      have hlt := hc.lt
      have hnot : ¬ 0xC0 ≤ c := fun hle =>
        absurd (UInt8.lt_of_le_of_lt (UInt8.le_trans (by decide) hle) hlt) (UInt8.lt_irrefl 0x80)
      rw [folded, if_neg hnot, if_neg (UInt8.not_le.mpr hlt), hc.glyph, ih hs]

theorem folded_folded (inSeq : Bool) (s : List Byte) :
    folded false (folded inSeq s) = folded inSeq s :=
  folded_of_shown shown_of_mem_folded

theorem length_folded_le (inSeq : Bool) (s : List Byte) : (folded inSeq s).length ≤ s.length := by
  induction s generalizing inSeq with
  | nil => exact Nat.le_refl 0
  | cons c s ih =>
      rw [folded, List.length_cons]
      split
      · exact Nat.succ_le_succ (ih true)
      · split
        · split
          · exact Nat.le_succ_of_le (ih _)
          · exact Nat.succ_le_succ (ih _)
        · exact Nat.succ_le_succ (ih false)

/-- A text that is cut short shows a beginning of what the whole text shows. -/
theorem folded_take_isPrefix (inSeq : Bool) (s : List Byte) (n : ℕ) :
    folded inSeq (s.take n) <+: folded inSeq s := by
  induction s generalizing inSeq n with
  | nil => simp
  | cons c s ih =>
      cases n with
      | zero => exact List.nil_prefix
      | succ n =>
          rw [List.take_succ_cons, folded, folded]
          split
          · exact (List.prefix_cons_inj _).mpr (ih true n)
          · split
            · split
              · exact ih _ n
              · exact (List.prefix_cons_inj _).mpr (ih _ n)
            · exact (List.prefix_cons_inj _).mpr (ih false n)

/-! ## UTF-8 -/

/-- The continuation bytes of a sequence show nothing more. -/
theorem folded_continuation {rest : List Byte} (h : ∀ b ∈ rest, 0x80 ≤ b ∧ b < 0xC0)
    (s : List Byte) : folded true (rest ++ s) = folded true s := by
  induction rest with
  | nil => rfl
  | cons b rest ih =>
      obtain ⟨⟨hle, hlt⟩, hrest⟩ := List.forall_mem_cons.mp h
      rw [List.cons_append, folded, if_neg (UInt8.not_le.mpr hlt), if_pos hle, if_pos rfl, ih hrest]

theorem folded_utf8EncodeChar (inSeq : Bool) (c : Char) (s : List Byte) :
    ∃ inSeq', folded inSeq (String.utf8EncodeChar c ++ s) = charGlyph c :: folded inSeq' s := by
  unfold charGlyph
  split
  · next h =>
      have hlt : UInt8.ofNat c.toNat < 0x80 := by
        rw [UInt8.lt_iff_toNat_lt, Voyager.toNat_ofNat_of_lt (h.trans (by decide))]
        exact h
      have hnot : ¬ 0xC0 ≤ UInt8.ofNat c.toNat := fun hle =>
        absurd (UInt8.lt_of_le_of_lt (UInt8.le_trans (by decide) hle) hlt) (UInt8.lt_irrefl 0x80)
      rw [utf8EncodeChar_ascii h, List.singleton_append, folded, if_neg hnot,
        if_neg (UInt8.not_le.mpr hlt)]
      exact ⟨false, rfl⟩
  · next h =>
      obtain ⟨lead, rest, hc, hlead, hrest⟩ := exists_lead (Nat.not_lt.mp h)
      rw [hc, List.cons_append, folded, if_pos hlead, folded_continuation hrest]
      exact ⟨true, rfl⟩

/-- One glyph for each character. -/
theorem folded_utf8 (inSeq : Bool) (cs : List Char) : folded inSeq (utf8 cs) = cs.map charGlyph := by
  induction cs generalizing inSeq with
  | nil => rfl
  | cons c cs ih =>
      obtain ⟨inSeq', h⟩ := folded_utf8EncodeChar inSeq c (utf8 cs)
      rw [utf8_cons, h, ih, List.map_cons]

/-! ## The buffer -/

section Buffer

variable {b : MemBlock Byte} {dst n : ℕ} {s : List Byte}

/-- The loop goes on behind the bytes `s` that are copied. -/
theorem copyLoop_spec (s src : List Byte) (hs : s.length < n) (hin : dst + n ≤ b.size)
    (hholds : b.Holds dst s) :
    ∃ b', copyLoop dst n b src s.length =
        some (b', (s ++ src.take (n - 1 - s.length)).length) ∧
      Within b b' dst (dst + n) ∧ b'.Holds dst (s ++ src.take (n - 1 - s.length)) := by
  induction src generalizing b s with
  | nil =>
      rw [copyLoop, List.take_nil, List.append_nil]
      exact ⟨b, rfl, within_refl b _ _, hholds⟩
  | cons c src ih =>
      rw [copyLoop]
      split
      · next hlt =>
          obtain ⟨b₁, hcopy, hwithin, hc⟩ :=
            exists_write b (dst + s.length) [c] (by rw [List.length_singleton]; omega)
          rw [List.length_singleton] at hwithin
          have hholds₁ : b₁.Holds dst (s ++ [c]) :=
            holds_append.mpr ⟨hwithin.holds (.inl (Nat.le_refl _)) hholds, hc⟩
          have hlength : (s ++ [c]).length = s.length + 1 := by simp
          obtain ⟨b', hloop, hwithin', hholds'⟩ :=
            ih (s ++ [c]) (by omega) (hwithin.size ▸ hin) hholds₁
          have htake : (c :: src).take (n - 1 - s.length) =
              c :: src.take (n - 1 - (s ++ [c]).length) := by
            rw [hlength, show n - 1 - s.length = n - 1 - (s.length + 1) + 1 by omega,
              List.take_succ_cons]
          rw [List.append_assoc, List.singleton_append, hlength] at hloop
          rw [List.append_assoc, List.singleton_append] at hholds'
          rw [hcopy, htake, hlength]
          rw [hlength] at hholds'
          refine ⟨b', hloop, ?_, hholds'⟩
          exact (hwithin.mono (by omega) (by omega)).trans hwithin' (Nat.le_refl _) (Nat.le_refl _)
      · next hge =>
          rw [show n - 1 - s.length = 0 by omega, List.take_zero, List.append_nil]
          exact ⟨b, rfl, within_refl b _ _, hholds⟩

theorem length_copied_lt (hpos : 0 < n) (src : Option Text) : (copied n src).length < n := by
  cases src with
  | none => exact hpos
  | some src =>
      rw [copied, List.length_take]
      omega

theorem zero_not_mem_copied (src : Option Text) : 0 ∉ copied n src := by
  cases src with
  | none => exact List.not_mem_nil
  | some src => exact fun h => src.nonzero (List.mem_of_mem_take h)

/-- A copy stays inside the buffer, and ends its string there. -/
theorem safeCopy_spec (hpos : 0 < n) (hin : dst + n ≤ b.size) (src : Option Text) :
    ∃ b', safeCopy b dst n src = some b' ∧ Within b b' dst (dst + n) ∧
      b'.HoldsString 0 dst (copied n src) := by
  unfold safeCopy
  rw [if_neg (Nat.pos_iff_ne_zero.mp hpos)]
  cases src with
  | none =>
      obtain ⟨b', hcopy, hwithin, hstring⟩ :=
        exists_terminated (holds_nil b dst) List.not_mem_nil (by rw [List.length_nil]; omega)
      exact ⟨b', hcopy, hwithin.mono (Nat.le_refl _) (by rw [List.length_nil]; omega), hstring⟩
  | some src =>
      obtain ⟨b₁, hloop, hwithin, hholds⟩ :=
        copyLoop_spec [] src.bytes hpos hin (holds_nil b dst)
      rw [List.nil_append, List.length_nil, Nat.sub_zero] at hloop hholds
      have hlt := length_copied_lt hpos (some src)
      obtain ⟨b', hcopy, hwithin', hstring⟩ :=
        exists_terminated hholds (zero_not_mem_copied (some src))
          (by rw [hwithin.size]; change _ + (copied n (some src)).length < _; omega)
      refine ⟨b', ?_, hwithin.trans hwithin' (Nat.le_add_right _ _) ?_, hstring⟩
      · change (copyLoop dst n b src.bytes 0).bind _ = some b'
        rw [hloop]
        exact hcopy
      · change _ + (copied n (some src)).length + 1 ≤ _
        omega

/-- The loop reads ahead of what it writes. -/
theorem foldLoop_spec (inSeq : Bool) {r w left : ℕ} (hw : w ≤ r) (hstring : b.HoldsString 0 r s)
    (hleft : left = b.size - r) :
    ∃ b', foldLoop left b inSeq r w = some b' ∧ Within b b' w (r + s.length + 1) ∧
      b'.HoldsString 0 w (folded inSeq s) := by
  have hinside := hstring.inside
  induction s generalizing b inSeq r w left with
  | nil =>
      have hcell : b.cells r = some 0 := hstring.holds 0 Nat.one_pos
      obtain ⟨b', hcopy, hwithin, hstring'⟩ :=
        exists_terminated (holds_nil b w) List.not_mem_nil
          (by rw [List.length_nil] at hinside ⊢; omega)
      refine ⟨b', ?_, hwithin.mono (Nat.le_refl _) (by rw [List.length_nil]; omega), hstring'⟩
      rw [hleft, show b.size - r = b.size - r - 1 + 1 by rw [List.length_nil] at hinside; omega,
        foldLoop, hcell]
      exact hcopy
  | cons c s ih =>
      rw [List.length_cons] at hinside
      have hcell : b.cells r = some c := hstring.holds 0 (Nat.succ_pos _)
      have hc : c ≠ 0 := fun h => hstring.not_mem (h ▸ List.mem_cons_self)
      have htail : b.HoldsString 0 (r + 1) s := by
        refine ⟨fun i hi => ?_, fun h => hstring.not_mem (List.mem_cons_of_mem c h), by omega⟩
        have := hstring.holds (i + 1) (by simpa using hi)
        rwa [Nat.add_assoc, Nat.add_comm 1 i]
      rw [hleft, show b.size - r = b.size - (r + 1) + 1 by omega, foldLoop, hcell]
      -- a glyph is written behind what was read
      have hwrite (g : Byte) (inSeq' : Bool) (hg : g ≠ 0) :
          ∃ b', (b.memcpy w [g]).bind
              (fun b₁ => foldLoop (b.size - (r + 1)) b₁ inSeq' (r + 1) (w + 1)) = some b' ∧
            Within b b' w (r + (c :: s).length + 1) ∧
            b'.HoldsString 0 w (g :: folded inSeq' s) := by
        obtain ⟨b₁, hcopy, hwithin, hholds⟩ :=
          exists_write b w [g] (by rw [List.length_singleton]; omega)
        rw [List.length_singleton] at hwithin
        have htail₁ := hwithin.holdsString (.inr (Nat.succ_le_succ hw)) htail
        obtain ⟨b', hloop, hwithin', hstring'⟩ :=
          ih inSeq' (Nat.succ_le_succ hw) htail₁ rfl htail₁.inside
        rw [hwithin.size] at hloop
        refine ⟨b', ?_, ?_, ?_, ?_, ?_⟩
        · rw [hcopy]
          exact hloop
        · refine (hwithin.mono (Nat.le_refl w) ?_).trans hwithin' (Nat.le_succ w) ?_ <;>
            rw [List.length_cons] <;> omega
        · have hkept : b'.Holds w [g] := hwithin'.holds (.inl (Nat.le_refl _)) hholds
          change b'.Holds w ([g] ++ (folded inSeq' s ++ [0]))
          exact holds_append.mpr ⟨hkept, hstring'.holds⟩
        · exact List.not_mem_cons_of_ne_of_not_mem hg.symm hstring'.not_mem
        · have := hstring'.inside
          rw [List.length_cons]
          omega
      rw [folded]
      change ∃ b', (if c = 0 then _ else _) = some b' ∧ _
      rw [if_neg hc]
      split
      · exact hwrite questionMark true (by decide)
      · split
        · split
          · obtain ⟨b', hloop, hwithin, hstring'⟩ :=
              ih inSeq (Nat.le_succ_of_le hw) htail rfl htail.inside
            refine ⟨b', hloop, hwithin.mono (Nat.le_refl w) ?_, hstring'⟩
            rw [List.length_cons]
            omega
          · exact hwrite questionMark inSeq (by decide)
        · next hlow => exact hwrite (glyph c) false (shown_glyph (UInt8.not_le.mp hlow)).ne_zero

/-- A string is folded where it stands. -/
theorem asciiFold_spec {off : ℕ} (hstring : b.HoldsString 0 off s) :
    ∃ b', asciiFold b off = some b' ∧ Within b b' off (off + s.length + 1) ∧
      b'.HoldsString 0 off (folded false s) :=
  foldLoop_spec false (Nat.le_refl off) hstring rfl

/-- A text in UTF-8 that is copied into `n` bytes and folded there shows its first characters, one
glyph for each of them, and all of them when its bytes fit. Nothing outside the buffer changes. -/
theorem safeCopy_asciiFold_utf8 (hpos : 0 < n) (hin : dst + n ≤ b.size) {src : Text}
    {cs : List Char} (hsrc : src.bytes = utf8 cs) :
    ∃ b₁ b₂ shown, safeCopy b dst n (some src) = some b₁ ∧ asciiFold b₁ dst = some b₂ ∧
      Within b b₂ dst (dst + n) ∧ b₂.HoldsString 0 dst shown ∧ (∀ c ∈ shown, Shown c) ∧
      shown <+: cs.map charGlyph ∧ ((utf8 cs).length < n → shown = cs.map charGlyph) := by
  obtain ⟨b₁, hcopy, hwithin, hstring⟩ := safeCopy_spec hpos hin (some src)
  obtain ⟨b₂, hfold, hwithin', hstring'⟩ := asciiFold_spec hstring
  have hlt := length_copied_lt hpos (some src)
  have hshown : folded false (utf8 cs) = cs.map charGlyph := folded_utf8 false cs
  refine ⟨b₁, b₂, _, hcopy, hfold, ?_, hstring', shown_of_mem_folded, ?_, ?_⟩
  · exact hwithin.trans hwithin' (Nat.le_refl _) (by omega)
  · rw [← hshown, ← hsrc]
    exact folded_take_isPrefix false src.bytes (n - 1)
  · intro hfits
    rw [← hshown, copied, hsrc, List.take_of_length_le (Nat.le_sub_one_of_lt hfits)]

theorem safeCopy_asciiFold_utf8_cut :
    ∃ b₁ b₂ shown, safeCopy (alloc 4) 0 3 (some ⟨utf8 ['é', 'é'], by decide⟩) = some b₁ ∧
      asciiFold b₁ 0 = some b₂ ∧ Within (alloc 4) b₂ 0 (0 + 3) ∧
      b₂.HoldsString 0 0 shown ∧ (∀ c ∈ shown, Shown c) ∧
      shown <+: ['é', 'é'].map charGlyph ∧
      ((utf8 ['é', 'é']).length < 3 → shown = ['é', 'é'].map charGlyph) :=
  safeCopy_asciiFold_utf8 (by decide) (by decide) rfl

end Buffer

end AsciiFold

end Voyager
