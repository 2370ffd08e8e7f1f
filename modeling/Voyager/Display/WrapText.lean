import Mathlib.Data.List.DropRight
import Voyager.Basic
import Voyager.Library.MemBlock
import Voyager.Library.Words

/-!
# Text on the display

`wrap_text` breaks a text into lines of at most so many characters, and writes them into the rows
of an array. It breaks at spaces where it can. What the lines show is what the text shows, and
when not all of it fits the last line ends in dots.
-/

namespace Voyager

namespace WrapText

open MemBlock Words

/-! ## The code -/

def newline : Byte := 10

/-- A space, a tab or a carriage return. -/
def isSpace (c : Byte) : Bool := c = 32 || c = 9 || c = 13

def isWhite (c : Byte) : Bool := isSpace c || c = newline

/-- A C string: the `NUL` after it is not part of it. -/
structure Text where
  bytes : List Byte
  nonzero : 0 ∉ bytes

/-- Find how much fits on this line: the characters consumed and the last space among them. The
list is what follows the first `len` characters. -/
def scan (maxChars : ℕ) : List Byte → ℕ → Option ℕ → ℕ × Option ℕ
  | [], len, lastBreak => (len, lastBreak)
  | c :: p, len, lastBreak =>
      if c ≠ newline ∧ len < maxChars then
        scan maxChars p (len + 1) (if isSpace c then some len else lastBreak)
      else (len, lastBreak)

/-- How many of the characters of `p` the line takes: `next` is the rest of them. -/
def take (maxChars : ℕ) (p : List Byte) : ℕ :=
  let (len, lastBreak) := scan maxChars p 0 none
  -- the line is full in the middle of a word
  if p[len]?.any (fun c => !isWhite c) ∧ 0 < lastBreak.getD 0 then lastBreak.getD 0 else len

/-- `if (*p == '\n') p++` -/
def skipNewline : List Byte → List Byte
  | [] => []
  | c :: p => if c = newline then p else c :: p

/-- Tabs and carriage returns are copied as spaces. -/
def normalise (c : Byte) : Byte := if c = 9 ∨ c = 13 then 32 else c

/-- `while (w > 0 && dst[w - 1] == ' ') w--` -/
def trim (lines : MemBlock Byte) (dst : ℕ) : ℕ → ℕ
  | 0 => 0
  | w + 1 => if lines.cells (dst + w) = some 32 then trim lines dst w else w + 1

/-- Copy a line and end it after its last character that is not a space. -/
def copyLine (lines : MemBlock Byte) (dst : ℕ) (chars : List Byte) : Option (MemBlock Byte) := do
  let lines ← lines.memcpy dst (chars.map normalise)
  lines.memcpy (dst + trim lines dst chars.length) [0]

/-- The loop over the lines, with the number of lines that are left: what is left of the text, the
number of lines written, and the array. -/
def wrapLoop (maxChars stride : ℕ) :
    ℕ → List Byte → ℕ → MemBlock Byte → Option (List Byte × ℕ × MemBlock Byte)
  | 0, p, n, lines => some (p, n, lines)
  | left + 1, p, n, lines =>
      match p.dropWhile isSpace with
      | [] => some ([], n, lines)
      | c :: p =>
          if c = newline then do
            let lines ← lines.memcpy (n * stride) [0]
            wrapLoop maxChars stride left p (n + 1) lines
          else do
            let lines ← copyLine lines (n * stride) ((c :: p).take (take maxChars (c :: p)))
            wrapLoop maxChars stride left
              (skipNewline ((c :: p).drop (take maxChars (c :: p)))) (n + 1) lines

/-- Every line is empty at first. -/
def clear (stride : ℕ) (lines : MemBlock Byte) : ℕ → Option (MemBlock Byte)
  | 0 => some lines
  | i + 1 => do
      let lines ← clear stride lines i
      lines.memcpy (i * stride) [0]

/-- The end of `wrap_text`: if anything is left, mark the last line as cut. -/
def markCut (maxChars stride : ℕ) (rest : List Byte) (n : ℕ) (lines : MemBlock Byte) :
    Option (MemBlock Byte) :=
  if rest.dropWhile isWhite ≠ [] ∧ 0 < n then do
    let last := (n - 1) * stride
    let l ← lines.strlen 0 last
    let dots := if maxChars < 3 then maxChars else 3
    let l := if l + dots > maxChars then maxChars - dots else l
    let lines ← lines.memcpy (last + l) (List.replicate dots 46)
    lines.memcpy (last + l + dots) [0]
  else some lines

/-- The number of lines written and the array after it. There is no result when a write or a read
leaves the array. -/
def wrapText (text : Option Text) (maxChars maxLines : ℤ) (lines : Option (MemBlock Byte))
    (stride : ℕ) : Option (ℕ × Option (MemBlock Byte)) :=
  match lines with
  | none => some (0, none)
  | some lines =>
      if stride < 2 ∨ maxLines ≤ 0 ∨ maxChars ≤ 0 then some (0, some lines) else do
        let maxChars := if maxChars.toNat > stride - 1 then stride - 1 else maxChars.toNat
        let lines ← clear stride lines maxLines.toNat
        match text with
        | none => some (0, some lines)
        | some text => do
            let (p, n, lines) ← wrapLoop maxChars stride maxLines.toNat text.bytes 0 lines
            let lines ← markCut maxChars stride p n lines
            some (n, some lines)

/-! ## One line -/

section Line

variable {m : ℕ} {p seen : List Byte} {lastBreak : Option ℕ}

theorem isSpace_of_eq {c : Byte} (h : c = 32) : isSpace c = true := by simp [isSpace, h]

theorem isWhite_of_isSpace {c : Byte} (h : isSpace c = true) : isWhite c = true := by
  simp [isWhite, h]

theorem isWhite_newline : isWhite newline = true := by decide

theorem isWhite_eq_false {c : Byte} (hspace : isSpace c = false) (hne : c ≠ newline) :
    isWhite c = false := by simp [isWhite, hspace, hne]

theorem isWhite_normalise (c : Byte) : isWhite (normalise c) = isWhite c := by
  unfold normalise
  split
  · next h => rcases h with rfl | rfl <;> decide
  · rfl

theorem normalise_of_not_isWhite {c : Byte} (h : isWhite c = false) : normalise c = c := by
  apply if_neg
  rintro (rfl | rfl) <;> exact absurd h (by decide)

theorem normalise_ne_zero {c : Byte} (h : c ≠ 0) : normalise c ≠ 0 := by
  unfold normalise
  split
  · decide
  · exact h

/-- What is known of `last_break` after the characters `seen`. -/
def LastBreak (seen : List Byte) : Option ℕ → Prop
  | none => ∀ c ∈ seen, isSpace c = false
  | some b => ∃ c ∈ seen[b]?, isSpace c = true

theorem lastBreak_nil : LastBreak [] none := fun _ h => absurd h List.not_mem_nil

theorem LastBreak.concat (h : LastBreak seen lastBreak) (c : Byte) :
    LastBreak (seen ++ [c]) (if isSpace c then some seen.length else lastBreak) := by
  split
  · next hc => exact ⟨c, by simp, hc⟩
  · next hc =>
      cases lastBreak with
      | none =>
          intro d hd
          rcases List.mem_append.mp hd with hd | hd
          · exact h d hd
          · rw [List.mem_singleton.mp hd]
            simpa using hc
      | some b =>
          obtain ⟨d, hd, hspace⟩ := h
          have hb : b < seen.length := (List.getElem?_eq_some_iff.mp hd).1
          exact ⟨d, by rwa [List.getElem?_append_left hb], hspace⟩

/-- The scan stops at a newline, at the end, or when the line is full. -/
theorem scan_spec (p : List Byte) (hbreak : LastBreak seen lastBreak) (hseen : newline ∉ seen)
    (hle : seen.length ≤ m) :
    ∃ l rest, p = l ++ rest ∧ (scan m p seen.length lastBreak).1 = (seen ++ l).length ∧
      LastBreak (seen ++ l) (scan m p seen.length lastBreak).2 ∧ newline ∉ seen ++ l ∧
      (seen ++ l).length ≤ m ∧
      (rest = [] ∨ rest.head? = some newline ∨ (seen ++ l).length = m) := by
  induction p generalizing seen lastBreak with
  | nil =>
      refine ⟨[], [], rfl, ?_⟩
      simp only [List.append_nil, true_or, and_true]
      exact ⟨rfl, hbreak, hseen, hle⟩
  | cons c p ih =>
      by_cases h : c ≠ newline ∧ seen.length < m
      · have hnotin : newline ∉ seen ++ [c] := by
          simp only [List.mem_append, List.mem_singleton, not_or]
          exact ⟨hseen, Ne.symm h.1⟩
        obtain ⟨l, rest, rfl, hscan⟩ :=
          ih (hbreak.concat c) hnotin (by rw [List.length_append]; exact h.2)
        refine ⟨c :: l, rest, rfl, ?_⟩
        rw [scan, if_pos h]
        simpa using hscan
      · refine ⟨[], c :: p, rfl, ?_⟩
        rw [scan, if_neg h, List.append_nil]
        refine ⟨rfl, hbreak, hseen, hle, ?_⟩
        by_cases hc : c = newline
        · exact .inr (.inl (congrArg some hc))
        · exact .inr (.inr (by have := not_and.mp h hc; omega))

/-- A character before a break that `scan` found is not in the middle of a word. -/
theorem LastBreak.head_drop {b : ℕ} (h : LastBreak seen (some b)) (rest : List Byte) :
    b < seen.length ∧ ∀ d ∈ ((seen ++ rest).drop b).head?, isWhite d = true := by
  obtain ⟨d, hd, hspace⟩ := h
  have hb : b < seen.length := (List.getElem?_eq_some_iff.mp hd).1
  refine ⟨hb, fun e he => ?_⟩
  rw [List.head?_drop, List.getElem?_append_left hb, hd] at he
  cases he
  exact isWhite_of_isSpace hspace

/-- Where there is no break, and no newline, there is a word. -/
theorem LastBreak.not_isWhite (h : LastBreak seen none) (hnotin : newline ∉ seen) :
    ∀ d ∈ seen, isWhite d = false := by
  intro d hd
  exact isWhite_eq_false (h d hd) fun heq => hnotin (heq ▸ hd)

/-- There is no break either when the one that was found is the first character, which is not
white space. -/
theorem LastBreak.not_isWhite_of_getD {c : Byte} {rest : List Byte} (h : LastBreak seen lastBreak)
    (hp : c :: p = seen ++ rest) (hc : isWhite c = false) (hzero : lastBreak.getD 0 = 0)
    (hnotin : newline ∉ seen) : ∀ d ∈ seen, isWhite d = false := by
  cases lastBreak with
  | none => exact h.not_isWhite hnotin
  | some b =>
      obtain ⟨-, hhead⟩ := h.head_drop rest
      have hb : b = 0 := hzero
      rw [← hp, hb] at hhead
      exact absurd (hhead c rfl) (by simp [hc])

/-- Where a line that does not begin with white space ends: before white space or the end of the
text, or in a word that fills it. -/
theorem take_spec {c : Byte} (hc : isWhite c = false) :
    take m (c :: p) ≤ m ∧
      ((∀ d ∈ ((c :: p).drop (take m (c :: p))).head?, isWhite d = true) ∨
        (∀ d ∈ (c :: p).take (take m (c :: p)), isWhite d = false) ∧
          m ≤ ((c :: p).take (take m (c :: p))).length) := by
  obtain ⟨l, rest, hp, hlen, hbreak, hnotin, hle, hend⟩ :=
    scan_spec (c :: p) lastBreak_nil List.not_mem_nil (Nat.zero_le m)
  rw [List.nil_append] at hlen hbreak hnotin hle hend
  unfold take
  rw [List.length_nil] at hlen hbreak
  generalize scan m (c :: p) 0 none = r at *
  obtain ⟨len, lastBreak⟩ := r
  dsimp only at hlen hbreak ⊢
  subst hlen
  rw [hp]
  split
  · next h =>
      cases lastBreak with
      | none => exact absurd h.2 (Nat.lt_irrefl 0)
      | some b =>
          obtain ⟨hb, hhead⟩ := hbreak.head_drop rest
          exact ⟨hb.le.trans hle, .inl hhead⟩
  · next h =>
      rw [List.drop_left, List.take_left]
      refine ⟨hle, ?_⟩
      by_cases hrest : ∀ d ∈ rest.head?, isWhite d = true
      · exact .inl hrest
      · right
        -- the line ends inside a word, so it is full and has no break
        obtain ⟨d, hd, hwhite⟩ := by simpa using hrest
        have hfull : l.length = m := by
          rcases hend with rfl | hnewline | hfull
          · cases hd
          · rw [hd] at hnewline
            cases hnewline
            exact absurd isWhite_newline (by simp [hwhite])
          · exact hfull
        have hmid : (l ++ rest)[l.length]?.any (fun c => !isWhite c) = true := by
          rw [List.getElem?_append_right le_rfl, Nat.sub_self, ← List.head?_eq_getElem?, hd]
          simp [hwhite]
        exact ⟨hbreak.not_isWhite_of_getD hp hc (Nat.eq_zero_of_not_pos (not_and.mp h hmid)) hnotin,
          hfull.ge⟩

/-! ## The lines without their array -/

/-- What the line that begins at `p` shows. -/
def line (m : ℕ) (p : List Byte) : List Byte :=
  ((p.take (take m p)).map normalise).rdropWhile (· = 32)

/-- At most `k` lines, and what is left of the text. -/
def wrapLines (m : ℕ) : ℕ → List Byte → List (List Byte) × List Byte
  | 0, p => ([], p)
  | k + 1, p =>
      match p.dropWhile isSpace with
      | [] => ([], [])
      | c :: p =>
          if c = newline then ([] :: (wrapLines m k p).1, (wrapLines m k p).2)
          else
            let next := skipNewline ((c :: p).drop (take m (c :: p)))
            (line m (c :: p) :: (wrapLines m k next).1, (wrapLines m k next).2)

theorem line_nonzero (h : 0 ∉ p.take (take m p)) : 0 ∉ line m p := by
  intro hmem
  obtain ⟨c, hc, hzero⟩ := List.mem_map.mp ((List.rdropWhile_prefix _ _).subset hmem)
  have hcne : c ≠ 0 := by
    rintro rfl
    exact h hc
  exact normalise_ne_zero hcne hzero

theorem line_length (p : List Byte) : (line m p).length ≤ (p.take (take m p)).length := by
  have h := List.rdropWhile_prefix (· = 32) ((p.take (take m p)).map normalise)
  rw [line]
  simpa using h.length_le

theorem visible_line (p : List Byte) :
    visible isWhite (line m p) = visible isWhite (p.take (take m p)) := by
  rw [line, visible_rdropWhile, visible_map isWhite_normalise fun c => normalise_of_not_isWhite]
  intro c hc
  exact isWhite_of_isSpace (isSpace_of_eq (by simpa using hc))

/-- The line `l` stands for the characters `chars` of the text, and `next` is what follows them. -/
structure Line (m : ℕ) (chars next l : List Byte) : Prop where
  length : l.length ≤ m
  nonzero : 0 ∉ chars → 0 ∉ l
  shown : visible isWhite chars = visible isWhite l
  clean : ∀ pre, CleanCut isWhite m (pre ++ chars) next

theorem visible_spaces {spaces : List Byte} (h : ∀ c ∈ spaces, isSpace c = true) :
    visible isWhite spaces = [] := visible_eq_nil.mpr fun c hc => isWhite_of_isSpace (h c hc)

theorem exists_skipNewline (rest : List Byte) :
    skipNewline rest = rest ∨ rest = newline :: skipNewline rest := by
  cases rest with
  | nil => exact .inl rfl
  | cons c rest =>
      rw [skipNewline]
      split
      · next h => exact .inr (by rw [h])
      · exact .inl rfl

/-- An empty line stands for spaces and a newline. -/
theorem line_of_newline {spaces : List Byte} (h : ∀ c ∈ spaces, isSpace c = true)
    (p : List Byte) : Line m (spaces ++ [newline]) p [] where
  length := Nat.zero_le m
  nonzero _ := List.not_mem_nil
  shown := by
    rw [visible_append, visible_spaces h]
    rfl
  clean pre := by
    rw [← List.append_assoc]
    exact cleanCut_concat isWhite_newline

/-- Any other line stands for spaces, the characters it takes, and the newline after them. -/
theorem line_of_char {spaces : List Byte} {c : Byte} (h : ∀ c ∈ spaces, isSpace c = true)
    (hc : isWhite c = false) (p : List Byte) :
    ∃ chars, spaces ++ c :: p = chars ++ skipNewline ((c :: p).drop (take m (c :: p))) ∧
      Line m chars (skipNewline ((c :: p).drop (take m (c :: p)))) (line m (c :: p)) := by
  obtain ⟨hle, hcut⟩ := take_spec (m := m) (p := p) hc
  have hlength : (line m (c :: p)).length ≤ m :=
    (line_length (c :: p)).trans ((List.length_take_le _ _).trans hle)
  have hsplit := List.take_append_drop (take m (c :: p)) (c :: p)
  have hshown := visible_line (m := m) (c :: p)
  have hnonzero := line_nonzero (m := m) (p := c :: p)
  generalize line m (c :: p) = l at *
  generalize (c :: p).take (take m (c :: p)) = taken at *
  generalize (c :: p).drop (take m (c :: p)) = rest at *
  rw [← hsplit]
  rcases exists_skipNewline rest with hskip | hskip
  · rw [hskip]
    refine ⟨spaces ++ taken, (List.append_assoc _ _ _).symm, hlength, ?_, ?_, fun pre => ?_⟩
    · exact fun hzero => hnonzero fun hmem => hzero (List.mem_append_right spaces hmem)
    · rw [visible_append, visible_spaces h, hshown, List.nil_append]
    · rcases hcut with hhead | ⟨hword, hfull⟩
      · exact cleanCut_of_head hhead
      · rw [← List.append_assoc]
        exact cleanCut_run hword hfull
  · generalize skipNewline rest = next at hskip ⊢
    subst hskip
    refine ⟨spaces ++ taken ++ [newline], by simp, hlength, ?_, ?_, fun pre => ?_⟩
    · intro hzero
      exact hnonzero fun hmem =>
        hzero (List.mem_append_left _ (List.mem_append_right spaces hmem))
    · rw [visible_append, visible_append, visible_spaces h, hshown]
      exact List.append_nil _
    · rw [← List.append_assoc]
      exact cleanCut_concat isWhite_newline

end Line

/-! ## All lines -/

section Lines

variable {m k : ℕ} {pre p chars next l rest : List Byte} {ls : List (List Byte)}

/-- What the lines `ls` of the text `p`, and what is left of it, have to do with the text, when
`pre` stands before it. -/
structure Layout (m k : ℕ) (pre p : List Byte) (ls : List (List Byte)) (rest : List Byte) :
    Prop where
  count : ls.length ≤ k
  full : rest ≠ [] → ls.length = k
  length : ∀ l ∈ ls, l.length ≤ m
  nonzero : 0 ∉ p → ∀ l ∈ ls, 0 ∉ l
  shown : visible isWhite p = visible isWhite ls.flatten ++ visible isWhite rest
  clean : ∀ j ≤ ls.length, ∃ before after, pre ++ p = before ++ after ∧
    visible isWhite before = visible isWhite pre ++ visible isWhite (ls.take j).flatten ∧
    CleanCut isWhite m before after

/-- No line is written. -/
theorem layout_nil (hclean : CleanCut isWhite m pre p)
    (hshown : visible isWhite p = visible isWhite rest) (hfull : rest ≠ [] → k = 0) :
    Layout m k pre p [] rest where
  count := Nat.zero_le k
  full hne := (hfull hne).symm
  length l hl := absurd hl List.not_mem_nil
  nonzero _ l hl := absurd hl List.not_mem_nil
  shown := hshown
  clean j _ := ⟨pre, p, rfl, by simp, hclean⟩

/-- One line, and those of the text after it. -/
theorem Layout.cons (hclean : CleanCut isWhite m pre (chars ++ next)) (hl : Line m chars next l)
    (h : Layout m k (pre ++ chars) next ls rest) :
    Layout m (k + 1) pre (chars ++ next) (l :: ls) rest where
  count := Nat.succ_le_succ h.count
  full hne := congrArg (· + 1) (h.full hne)
  length := by
    rintro l' (_ | ⟨_, hl'⟩)
    · exact hl.length
    · exact h.length l' hl'
  nonzero hzero := by
    rw [List.mem_append, not_or] at hzero
    rintro l' (_ | ⟨_, hl'⟩)
    · exact hl.nonzero hzero.1
    · exact h.nonzero hzero.2 l' hl'
  shown := by
    rw [visible_append, hl.shown, h.shown, List.flatten_cons, visible_append, List.append_assoc]
  clean j hj := by
    cases j with
    | zero => exact ⟨pre, chars ++ next, rfl, by simp, hclean⟩
    | succ j =>
        obtain ⟨before, after, heq, hbefore, hcut⟩ := h.clean j (Nat.le_of_succ_le_succ hj)
        refine ⟨before, after, ?_, ?_, hcut⟩
        · rw [← heq, List.append_assoc]
        · rw [hbefore, visible_append, hl.shown, List.take_succ_cons, List.flatten_cons,
            visible_append, List.append_assoc]

/-- The loop lays the text out. -/
theorem layout_wrapLines (hclean : CleanCut isWhite m pre p) :
    Layout m k pre p (wrapLines m k p).1 (wrapLines m k p).2 := by
  induction k generalizing pre p with
  | zero => exact layout_nil hclean rfl fun _ => rfl
  | succ k ih =>
      have hsplit := List.takeWhile_append_dropWhile (p := isSpace) (l := p)
      have hspaces : ∀ c ∈ p.takeWhile isSpace, isSpace c = true := fun c hc =>
        List.mem_takeWhile_imp hc
      have hhead := List.head?_dropWhile_not isSpace p
      rw [wrapLines]
      generalize p.takeWhile isSpace = spaces at *
      generalize p.dropWhile isSpace = q at *
      subst hsplit
      cases q with
      | nil =>
          refine layout_nil hclean ?_ fun h => absurd rfl h
          rw [List.append_nil, visible_spaces hspaces, visible_nil]
      | cons c q =>
          dsimp only
          split
          · next hc =>
              subst hc
              have hl := line_of_newline (m := m) hspaces q
              rw [← List.singleton_append, ← List.append_assoc] at hclean ⊢
              exact .cons hclean hl (ih (hl.clean pre))
          · next hc =>
              have hwhite := isWhite_eq_false (by simpa using hhead) hc
              obtain ⟨chars, heq, hl⟩ := line_of_char (m := m) hspaces hwhite q
              rw [heq] at hclean ⊢
              exact .cons hclean hl (ih (hl.clean pre))

/-- The lines at the end: when any text is left, the last one ends in dots. -/
def marked (m : ℕ) (ls : List (List Byte)) (rest : List Byte) : List (List Byte) :=
  if rest.dropWhile isWhite ≠ [] ∧ ls ≠ [] then
    ls.dropLast ++ [(ls.getLastD []).take (m - min 3 m) ++ List.replicate (min 3 m) 46]
  else ls

/-- What `wrap_text` is for: the lines show the whole text, or a beginning of it and dots, and no
word that a line can hold is on two lines. What the lines before a line show ends before the word
or goes on to its end. -/
structure Wrapped (m k : ℕ) (text rest : List Byte) (lines : List (List Byte)) : Prop where
  count : lines.length ≤ k
  length : ∀ l ∈ lines, l.length ≤ m
  whole : visible isWhite rest = [] →
    visible isWhite lines.flatten = visible isWhite text
  cut : visible isWhite rest ≠ [] → ∃ init last,
    lines = init ++ [last ++ List.replicate (min 3 m) 46] ∧
      visible isWhite (init.flatten ++ last) <+: visible isWhite text
  words : ∀ i j, IsWord isWhite text i j → j ≤ i + m → ∀ n < lines.length,
    (visible isWhite (lines.take n).flatten).length ≤ (visible isWhite (text.take i)).length ∨
      (visible isWhite (text.take j)).length ≤ (visible isWhite (lines.take n).flatten).length

theorem dropWhile_ne_nil : rest.dropWhile isWhite ≠ [] ↔ visible isWhite rest ≠ [] :=
  not_congr (List.dropWhile_eq_nil_iff.trans visible_eq_nil.symm)

theorem marked_of_visible (h : visible isWhite rest = []) : marked m ls rest = ls :=
  if_neg fun hmark => dropWhile_ne_nil.mp hmark.1 h

theorem marked_concat (h : visible isWhite rest ≠ []) (ls : List (List Byte)) (l : List Byte) :
    marked m (ls ++ [l]) rest =
      ls ++ [l.take (m - min 3 m) ++ List.replicate (min 3 m) 46] := by
  rw [marked, if_pos ⟨dropWhile_ne_nil.mpr h, by simp⟩]
  simp

theorem marked_length (m : ℕ) (ls : List (List Byte)) (rest : List Byte) :
    (marked m ls rest).length = ls.length := by
  unfold marked
  split
  · next h =>
      have hpos := List.length_pos_iff.mpr h.2
      rw [List.length_append, List.length_dropLast, List.length_singleton]
      omega
  · rfl

/-- There is a last line when text is left. -/
theorem Layout.exists_last (h : Layout m k pre p ls rest) (hk : 1 ≤ k)
    (hrest : visible isWhite rest ≠ []) : ∃ init last, ls = init ++ [last] := by
  have hne : rest ≠ [] := by
    rintro rfl
    exact hrest rfl
  have hlength := h.full hne
  have hls : ls ≠ [] := List.ne_nil_of_length_pos (by omega)
  exact ⟨_, _, (List.dropLast_append_getLast hls).symm⟩

theorem Layout.words (h : Layout m k [] p ls rest) {i j : ℕ} (hword : IsWord isWhite p i j)
    (hlen : j ≤ i + m) {n : ℕ} (hn : n ≤ ls.length) :
    (visible isWhite (ls.take n).flatten).length ≤ (visible isWhite (p.take i)).length ∨
      (visible isWhite (p.take j)).length ≤ (visible isWhite (ls.take n).flatten).length := by
  obtain ⟨before, after, heq, hbefore, hcut⟩ := h.clean n hn
  rw [List.nil_append] at heq
  rw [visible_nil, List.nil_append] at hbefore
  subst heq
  rw [← hbefore]
  exact hcut.visible hword hlen

theorem Layout.wrapped (h : Layout m k [] p ls rest) (hk : 1 ≤ k) :
    Wrapped m k p rest (marked m ls rest) := by
  by_cases hrest : visible isWhite rest = []
  · rw [marked_of_visible hrest]
    have hshown := h.shown
    rw [hrest, List.append_nil] at hshown
    exact ⟨h.count, h.length, fun _ => hshown.symm, fun hne => absurd hrest hne,
      fun i j hword hlen n hn => h.words hword hlen hn.le⟩
  · obtain ⟨init, last, rfl⟩ := h.exists_last hk hrest
    rw [marked_concat hrest]
    have hcount := h.count
    rw [List.length_append, List.length_singleton] at hcount
    constructor
    · simpa using hcount
    · intro l hl
      rcases List.mem_append.mp hl with hl | hl
      · exact h.length l (List.mem_append_left _ hl)
      · rw [List.mem_singleton.mp hl, List.length_append, List.length_take, List.length_replicate]
        omega
    · exact fun hnil => absurd hnil hrest
    · refine fun _ => ⟨init, _, rfl, ?_⟩
      rw [h.shown, List.flatten_append, List.flatten_singleton]
      have hprefix : init.flatten ++ last.take (m - min 3 m) <+: init.flatten ++ last :=
        (List.prefix_append_right_inj _).mpr (List.take_prefix _ _)
      exact (visible_mono hprefix).trans (List.prefix_append _ _)
    · intro i j hword hlen n hn
      rw [List.length_append, List.length_singleton] at hn
      have hn' : n ≤ init.length := Nat.le_of_lt_succ hn
      have hwords := h.words hword hlen (n := n) (by rw [List.length_append]; omega)
      rwa [List.take_append_of_le_length hn'] at hwords ⊢

end Lines

/-! ## The array -/

section Array

variable {m stride dst : ℕ} {lines : MemBlock Byte} {ls : List (List Byte)} {s : List Byte}

/-- The string `s` is written at `dst`, and what stands before it is kept. -/
def Writes (lines lines' : MemBlock Byte) (dst : ℕ) (s : List Byte) : Prop :=
  lines'.size = lines.size ∧ lines'.HoldsString 0 dst s ∧
    ∀ off data, off + data.length ≤ dst → lines.Holds off data → lines'.Holds off data

/-- The first rows of the array hold the lines `ls`. -/
def Rows (stride : ℕ) (lines : MemBlock Byte) (ls : List (List Byte)) : Prop :=
  ∀ i l, ls[i]? = some l → l.length < stride ∧ lines.HoldsString 0 (i * stride) l

theorem rows_nil (stride : ℕ) (lines : MemBlock Byte) : Rows stride lines [] :=
  fun _ _ h => by cases h

theorem Rows.init (h : Rows stride lines (ls ++ [s])) : Rows stride lines ls := fun i l hl =>
  h i l (by rw [List.getElem?_append_left (List.getElem?_eq_some_iff.mp hl).1, hl])

/-- One more row is written. -/
theorem Rows.concat (h : Rows stride lines ls) {lines' : MemBlock Byte} (hs : s.length < stride)
    (hw : Writes lines lines' (ls.length * stride) s) : Rows stride lines' (ls ++ [s]) := by
  intro i l hl
  obtain ⟨hsize, hholds, hframe⟩ := hw
  by_cases hi : i < ls.length
  · rw [List.getElem?_append_left hi] at hl
    obtain ⟨hlt, hrow⟩ := h i l hl
    have hend : i * stride + stride ≤ ls.length * stride := by
      rw [← Nat.succ_mul]
      exact Nat.mul_le_mul_right stride hi
    refine ⟨hlt, hframe _ _ ?_ hrow.holds, hrow.not_mem, hsize ▸ hrow.inside⟩
    rw [List.length_append, List.length_singleton]
    omega
  · have hlast : i = ls.length := by
      have := (List.getElem?_eq_some_iff.mp hl).1
      rw [List.length_append, List.length_singleton] at this
      omega
    subst hlast
    rw [List.getElem?_concat_length] at hl
    cases hl
    exact ⟨hs, hholds⟩

theorem trim_eq (s : List Byte) (h : lines.Holds dst s) :
    trim lines dst s.length = (s.rdropWhile (· = 32)).length := by
  induction s using List.reverseRecOn with
  | nil => rfl
  | append_singleton s c ih =>
      obtain ⟨hs, hc⟩ := holds_append.mp h
      have hcell : lines.cells (dst + s.length) = some c := hc 0 Nat.one_pos
      rw [List.length_append, List.length_singleton, trim, hcell]
      by_cases hspace : c = 32
      · rw [if_pos (by rw [hspace]), List.rdropWhile_concat_pos _ _ _ (by simpa using hspace)]
        exact ih hs
      · rw [if_neg (by simpa using hspace),
          List.rdropWhile_concat_neg _ _ _ (by simpa using hspace)]
        simp

/-- The end of a string, written where the string is. -/
theorem exists_writes {lines₀ : MemBlock Byte} (hsize : lines.size = lines₀.size)
    (hs : lines.Holds dst s) (hzero : 0 ∉ s) (hin : dst + s.length < lines.size)
    (hframe : ∀ off data, off + data.length ≤ dst →
      lines₀.Holds off data → lines.Holds off data) :
    ∃ lines', lines.memcpy (dst + s.length) [0] = some lines' ∧ Writes lines₀ lines' dst s := by
  obtain ⟨lines', hcopy, hsize', hnul, hkeep⟩ :=
    exists_memcpy_frame lines (dst + s.length) [0] hin
  refine ⟨lines', hcopy, hsize'.trans hsize, ⟨?_, hzero, hsize' ▸ hin⟩, ?_⟩
  · exact holds_append.mpr ⟨hkeep dst s (.inl (le_refl _)) hs, hnul⟩
  · exact fun off data hle h =>
      hkeep off data (.inl (by omega)) (hframe off data hle h)

/-- A line is written with its tabs and carriage returns as spaces, and without the spaces at its
end. -/
theorem copyLine_spec (lines : MemBlock Byte) (dst : ℕ) (s : List Byte)
    (hzero : 0 ∉ (s.map normalise).rdropWhile (· = 32))
    (hin : dst + s.length < lines.size) :
    ∃ lines', copyLine lines dst s = some lines' ∧
      Writes lines lines' dst ((s.map normalise).rdropWhile (· = 32)) := by
  obtain ⟨lines₁, hcopy, hsize, hholds, hkeep⟩ :=
    exists_memcpy_frame lines dst (s.map normalise) (by rw [List.length_map]; omega)
  have htrim := trim_eq (s.map normalise) hholds
  rw [List.length_map] at htrim
  obtain ⟨spaces, hspaces⟩ := List.rdropWhile_prefix (· = 32) (s.map normalise)
  have hlength := congrArg List.length hspaces
  rw [List.length_append, List.length_map] at hlength
  rw [copyLine, hcopy]
  change ∃ lines', lines₁.memcpy (dst + trim lines₁ dst s.length) [0] = some lines' ∧ _
  rw [htrim]
  refine exists_writes hsize ?_ hzero (by omega) fun off data hle => hkeep off data (.inl hle)
  rw [← hspaces] at hholds
  exact (holds_append.mp hholds).1

/-- The line that begins at `c` fits into a row. -/
theorem copyLine_line {c : Byte} {p : List Byte} (hc : isWhite c = false) (hzero : 0 ∉ c :: p)
    (hm : m < stride) (hrow : dst + stride ≤ lines.size) :
    ∃ lines', copyLine lines dst ((c :: p).take (take m (c :: p))) = some lines' ∧
      Writes lines lines' dst (line m (c :: p)) ∧ (line m (c :: p)).length < stride := by
  have hle := (take_spec (m := m) (p := p) hc).1
  have htaken := (List.length_take_le (take m (c :: p)) (c :: p)).trans hle
  have hline := (line_length (m := m) (c :: p)).trans htaken
  have hnonzero := line_nonzero (m := m) fun hmem => hzero (List.mem_of_mem_take hmem)
  obtain ⟨lines', hcopy, hw⟩ :=
    copyLine_spec lines dst ((c :: p).take (take m (c :: p))) hnonzero (by omega)
  exact ⟨lines', hcopy, hw, hline.trans_lt hm⟩

/-- The empty line. -/
theorem newline_spec (lines : MemBlock Byte) (dst : ℕ) (hin : dst < lines.size) :
    ∃ lines', lines.memcpy dst [0] = some lines' ∧ Writes lines lines' dst [] :=
  exists_writes rfl (holds_nil lines dst) List.not_mem_nil hin fun _ _ _ h => h

theorem clear_spec {k : ℕ} (hpos : 0 < stride) (hsize : k * stride ≤ lines.size) :
    ∃ lines', clear stride lines k = some lines' ∧ lines'.size = lines.size := by
  induction k with
  | zero => exact ⟨lines, rfl, rfl⟩
  | succ k ih =>
      rw [Nat.succ_mul] at hsize
      obtain ⟨lines₁, hclear, hsize₁⟩ := ih (by omega)
      obtain ⟨lines', hcopy, hwrites⟩ := newline_spec lines₁ (k * stride) (by omega)
      refine ⟨lines', ?_, hwrites.1.trans hsize₁⟩
      rw [clear, hclear]
      exact hcopy

theorem not_mem_skipNewline {c : Byte} {rest : List Byte} (h : c ∉ rest) :
    c ∉ skipNewline rest := by
  rcases exists_skipNewline rest with hskip | hskip
  · rwa [hskip]
  · rw [hskip] at h
    exact fun hmem => h (List.mem_cons_of_mem newline hmem)

/-- The loop writes the lines of `wrapLines` into the rows. -/
theorem wrapLoop_spec {k : ℕ} {p : List Byte} (hzero : 0 ∉ p) (hm : m < stride)
    (hsize : (ls.length + k) * stride ≤ lines.size) (hrows : Rows stride lines ls) :
    ∃ lines', wrapLoop m stride k p ls.length lines =
        some ((wrapLines m k p).2, (ls ++ (wrapLines m k p).1).length, lines') ∧
      lines'.size = lines.size ∧ Rows stride lines' (ls ++ (wrapLines m k p).1) := by
  induction k generalizing p ls lines with
  | zero =>
      rw [wrapLoop, wrapLines, List.append_nil]
      exact ⟨lines, rfl, rfl, hrows⟩
  | succ k ih =>
      have hrow : ls.length * stride + stride ≤ lines.size := by
        rw [← Nat.succ_mul]
        exact (Nat.mul_le_mul_right stride (by omega)).trans hsize
      -- the row that is written, and those of the other iterations
      have hnext (l q : List Byte) (lines₁ : MemBlock Byte) (hl : l.length < stride)
          (hw : Writes lines lines₁ (ls.length * stride) l) (hq : 0 ∉ q) :
          ∃ lines', wrapLoop m stride k q (ls.length + 1) lines₁ =
              some ((wrapLines m k q).2, (ls ++ l :: (wrapLines m k q).1).length, lines') ∧
            lines'.size = lines.size ∧ Rows stride lines' (ls ++ l :: (wrapLines m k q).1) := by
        have hsize₁ : ((ls ++ [l]).length + k) * stride ≤ lines₁.size := by
          rw [hw.1, List.length_append, List.length_singleton, Nat.add_right_comm]
          exact hsize
        obtain ⟨lines', hloop, hsize', hrows'⟩ := ih hq hsize₁ (hrows.concat hl hw)
        rw [List.length_append, List.length_singleton] at hloop
        rw [List.append_assoc, List.singleton_append] at hloop hrows'
        exact ⟨lines', hloop, hsize'.trans hw.1, hrows'⟩
      have hsuffix := List.dropWhile_suffix (p := isSpace) (l := p)
      have hhead := List.head?_dropWhile_not isSpace p
      rw [wrapLoop, wrapLines]
      generalize p.dropWhile isSpace = q at *
      cases q with
      | nil =>
          simp only [List.append_nil]
          exact ⟨lines, rfl, rfl, hrows⟩
      | cons c q =>
          have hzero : 0 ∉ c :: q := fun hmem => hzero (hsuffix.subset hmem)
          dsimp only
          split
          · next hc =>
              obtain ⟨lines₁, hcopy, hw⟩ := newline_spec lines (ls.length * stride) (by omega)
              rw [hcopy]
              exact hnext [] q lines₁ (by rw [List.length_nil]; omega) hw
                fun hmem => hzero (List.mem_cons_of_mem c hmem)
          · next hc =>
              have hwhite := isWhite_eq_false (by simpa using hhead) hc
              obtain ⟨lines₁, hcopy, hw, hlt⟩ := copyLine_line hwhite hzero hm hrow
              rw [hcopy]
              exact hnext _ _ lines₁ hlt hw
                (not_mem_skipNewline fun hmem => hzero (List.mem_of_mem_drop hmem))

/-- The dots are written over what the line has no room for. -/
theorem dots_spec {last : List Byte} (hlast : last.length ≤ m) (hin : dst + m < lines.size)
    (hstring : lines.HoldsString 0 dst last) :
    ∃ lines₁ lines',
      lines.memcpy (dst + (last.take (m - min 3 m)).length) (List.replicate (min 3 m) 46) =
        some lines₁ ∧
      lines₁.memcpy (dst + (last.take (m - min 3 m)).length + min 3 m) [0] = some lines' ∧
      Writes lines lines' dst (last.take (m - min 3 m) ++ List.replicate (min 3 m) 46) := by
  have hroom : (last.take (m - min 3 m)).length + min 3 m ≤ m := by
    rw [List.length_take]
    omega
  have hnot : 0 ∉ last.take (m - min 3 m) := fun hmem =>
    hstring.not_mem (List.mem_of_mem_take hmem)
  have hholds := (holds_append.mp hstring.holds).1
  rw [← List.take_append_drop (m - min 3 m) last] at hholds
  have hkept := (holds_append.mp hholds).1
  generalize last.take (m - min 3 m) = kept at *
  obtain ⟨lines₁, hcopy, hsize₁, hdotted, hkeep⟩ :=
    exists_memcpy_frame lines (dst + kept.length) (List.replicate (min 3 m) 46)
      (by rw [List.length_replicate]; omega)
  have hall := holds_append.mpr ⟨hkeep dst kept (.inl (le_refl _)) hkept, hdotted⟩
  obtain ⟨lines', hcopy', hw⟩ := exists_writes hsize₁ hall (by simpa using hnot)
    (by rw [List.length_append, List.length_replicate]; omega)
    fun off data hle => hkeep off data (.inl (by omega))
  rw [List.length_append, List.length_replicate, ← Nat.add_assoc] at hcopy'
  exact ⟨lines₁, lines', hcopy, hcopy', hw⟩

/-- The last line is marked when text is left. -/
theorem markCut_spec (rest : List Byte) (hm : m < stride) (hlength : ∀ l ∈ ls, l.length ≤ m)
    (hsize : ls.length * stride ≤ lines.size) (hrows : Rows stride lines ls) :
    ∃ lines', markCut m stride rest ls.length lines = some lines' ∧
      Rows stride lines' (marked m ls rest) := by
  unfold markCut
  split
  · next h =>
      obtain ⟨hrest, hpos⟩ := h
      obtain ⟨init, last, rfl⟩ : ∃ init last, ls = init ++ [last] :=
        ⟨_, _, (List.dropLast_append_getLast (List.ne_nil_of_length_pos hpos)).symm⟩
      rw [marked_concat (dropWhile_ne_nil.mp hrest)]
      obtain ⟨-, hstring⟩ := hrows init.length last (by simp)
      have hlast := hlength last (by simp)
      rw [List.length_append, List.length_singleton] at hsize ⊢
      rw [Nat.succ_mul] at hsize
      simp only [Nat.add_sub_cancel, hstring.strlen]
      have hdots : (if m < 3 then m else 3) = min 3 m := by
        split <;> omega
      have hkept : (if last.length + min 3 m > m then m - min 3 m else last.length) =
          (last.take (m - min 3 m)).length := by
        rw [List.length_take]
        split <;> omega
      dsimp only [Option.bind_eq_bind, Option.bind_some]
      rw [hdots, hkept]
      obtain ⟨lines₁, lines', hcopy, hcopy', hw⟩ := dots_spec hlast (by omega) hstring
      refine ⟨lines', ?_, hrows.init.concat ?_ hw⟩
      · rw [hcopy]
        exact hcopy'
      · rw [List.length_append, List.length_take, List.length_replicate]
        omega
  · next h =>
      rw [marked, if_neg]
      · exact ⟨lines, rfl, hrows⟩
      · rwa [List.length_pos_iff] at h

end Array

/-- Whatever the text is, the array holds lines that wrap it. -/
theorem wrapText_wraps (text : Text) {maxChars maxLines : ℤ} {stride : ℕ} {lines : MemBlock Byte}
    (hchars : 1 ≤ maxChars) (hlines : 1 ≤ maxLines) (hstride : 2 ≤ stride)
    (hsize : maxLines.toNat * stride ≤ lines.size) :
    ∃ ls lines', wrapText (some text) maxChars maxLines (some lines) stride =
        some (ls.length, some lines') ∧
      (∀ i l, ls[i]? = some l → lines'.HoldsString 0 (i * stride) l) ∧
      Wrapped (min maxChars.toNat (stride - 1)) maxLines.toNat text.bytes
        (wrapLines (min maxChars.toNat (stride - 1)) maxLines.toNat text.bytes).2 ls := by
  have hguard : ¬ (stride < 2 ∨ maxLines ≤ 0 ∨ maxChars ≤ 0) := by omega
  have hm : (if maxChars.toNat > stride - 1 then stride - 1 else maxChars.toNat) =
      min maxChars.toNat (stride - 1) := by
    split <;> omega
  rw [wrapText]
  dsimp only
  rw [if_neg hguard, hm]
  generalize hmin : min maxChars.toNat (stride - 1) = m
  have hlt : m < stride := by omega
  obtain ⟨lines₁, hclear, hsize₁⟩ := clear_spec (by omega) hsize
  rw [← hsize₁] at hsize
  have hroom : (([] : List (List Byte)).length + maxLines.toNat) * stride ≤ lines₁.size := by
    rwa [List.length_nil, Nat.zero_add]
  obtain ⟨lines₂, hloop, hsize₂, hrows⟩ :=
    wrapLoop_spec text.nonzero hlt hroom (rows_nil stride lines₁)
  have hlayout : Layout m maxLines.toNat [] text.bytes _ _ := layout_wrapLines cleanCut_nil
  rw [List.nil_append] at hloop hrows
  rw [List.length_nil] at hloop
  generalize wrapLines m maxLines.toNat text.bytes = r at *
  obtain ⟨ls, rest⟩ := r
  dsimp only at hloop hrows hlayout ⊢
  have hsize₃ : ls.length * stride ≤ lines₂.size := by
    rw [hsize₂]
    exact (Nat.mul_le_mul_right stride hlayout.count).trans hsize
  obtain ⟨lines₃, hmark, hmarked⟩ := markCut_spec rest hlt hlayout.length hsize₃ hrows
  refine ⟨marked m ls rest, lines₃, ?_, fun i l hl => (hmarked i l hl).2,
    hlayout.wrapped (by omega)⟩
  rw [hclear]
  dsimp only [Option.bind_eq_bind, Option.bind_some]
  rw [hloop]
  dsimp only [Option.bind_some]
  rw [hmark, marked_length]
  rfl

def numbers : Text := ⟨ascii "one two three\tfour five", by decide⟩

example : marked 9 (wrapLines 9 2 numbers.bytes).1 (wrapLines 9 2 numbers.bytes).2 =
    [ascii "one two", ascii "three..."] := by decide

theorem wrapText_wraps_numbers :
    ∃ ls lines', wrapText (some numbers) 9 2 (some (.alloc 44)) 22 = some (ls.length, some lines') ∧
      (∀ i l, ls[i]? = some l → lines'.HoldsString 0 (i * 22) l) ∧
      Wrapped (min (9 : ℤ).toNat (22 - 1)) (2 : ℤ).toNat numbers.bytes
        (wrapLines (min (9 : ℤ).toNat (22 - 1)) (2 : ℤ).toNat numbers.bytes).2 ls :=
  wrapText_wraps numbers (by decide) (by decide) (by decide) (by decide)

end WrapText

end Voyager
