import Mathlib.Data.List.Basic
import Mathlib.Data.List.Induction

/-!
# Blocks of memory

A block has a size, and copies into it are checked: one that does not stay inside
the block has no result. What was never written has no value.
-/

structure MemBlock (α : Type*) where
  size : ℕ
  cells : ℕ → Option α

namespace MemBlock

variable {α : Type*}

/-- A block as `malloc` returns it. -/
def alloc (size : ℕ) : MemBlock α := { size, cells := fun _ => none }

/-- Copy `data` to the offset `dst`. -/
def memcpy (b : MemBlock α) (dst : ℕ) (data : List α) : Option (MemBlock α) :=
  if dst + data.length ≤ b.size then
    some { b with
      cells := fun k =>
        if dst ≤ k ∧ k < dst + data.length then data[k - dst]? else b.cells k }
  else none

/-- Copy `n` cells from the offset `src` to the offset `dst`; the two may overlap. -/
def memmove (b : MemBlock α) (dst src n : ℕ) : Option (MemBlock α) :=
  if src + n ≤ b.size ∧ dst + n ≤ b.size then
    some { b with
      cells := fun k => if dst ≤ k ∧ k < dst + n then b.cells (src + (k - dst)) else b.cells k }
  else none

/-- The block holds `data` from the offset `off` on. -/
def Holds (b : MemBlock α) (off : ℕ) (data : List α) : Prop :=
  ∀ i < data.length, b.cells (off + i) = data[i]?

/-- How many cells from the offset `off` on stand before the first `nul`. -/
def strlen [DecidableEq α] (nul : α) (b : MemBlock α) (off : ℕ) : Option ℕ :=
  (List.range (b.size - off)).find? fun k => b.cells (off + k) = some nul

/-- The string at the offset `off`, when it ends inside the block. -/
def string [DecidableEq α] (nul : α) (b : MemBlock α) (off : ℕ) : Option (List α) :=
  (b.strlen nul off).bind fun n => (List.range n).mapM fun k => b.cells (off + k)

/-- The block holds the string `s`, which ends before the first `nul`, at the offset `off`. -/
structure HoldsString (nul : α) (b : MemBlock α) (off : ℕ) (s : List α) : Prop where
  holds : b.Holds off (s ++ [nul])
  not_mem : nul ∉ s
  inside : off + s.length < b.size

variable {b : MemBlock α} {off src : ℕ} {data data' : List α}

theorem holds_nil (b : MemBlock α) (off : ℕ) : b.Holds off [] :=
  fun i hi => absurd hi (Nat.not_lt_zero i)

theorem holds_append :
    b.Holds off (data ++ data') ↔ b.Holds off data ∧ b.Holds (off + data.length) data' := by
  constructor
  · intro h
    constructor
    · intro i hi
      rw [h i (by rw [List.length_append]; omega), List.getElem?_append_left hi]
    · intro i hi
      rw [Nat.add_assoc, h (data.length + i) (by rw [List.length_append]; omega),
        List.getElem?_append_right (Nat.le_add_right _ i), Nat.add_sub_cancel_left]
  · rintro ⟨h, h'⟩ i hi
    rw [List.length_append] at hi
    by_cases hbefore : i < data.length
    · rw [h i hbefore, List.getElem?_append_left hbefore]
    · obtain ⟨j, rfl⟩ := Nat.exists_eq_add_of_le (Nat.not_lt.mp hbefore)
      rw [← Nat.add_assoc, h' j (by omega), List.getElem?_append_right (Nat.le_add_right _ j),
        Nat.add_sub_cancel_left]

/-- A copy that stays inside the block leaves the data where it was copied to, and everything
else as it was. -/
theorem exists_memcpy_frame (b : MemBlock α) (off : ℕ) (data : List α)
    (hin : off + data.length ≤ b.size) :
    ∃ b', b.memcpy off data = some b' ∧ b'.size = b.size ∧ b'.Holds off data ∧
      ∀ off' data', off' + data'.length ≤ off ∨ off + data.length ≤ off' →
        b.Holds off' data' → b'.Holds off' data' := by
  refine ⟨_, if_pos hin, rfl, ?_, ?_⟩
  · intro i hi
    dsimp only
    rw [if_pos ⟨Nat.le_add_right off i, Nat.add_lt_add_left hi off⟩, Nat.add_sub_cancel_left]
  · intro off' data' hout h i hi
    rw [← h i hi]
    exact if_neg (by omega)

/-- A copy that stays inside the block appends to what the block holds before it. -/
theorem exists_memcpy (data' : List α) (hin : off + data.length + data'.length ≤ b.size)
    (h : b.Holds off data) :
    ∃ b', b.memcpy (off + data.length) data' = some b' ∧ b'.size = b.size ∧
      b'.Holds off (data ++ data') := by
  obtain ⟨b', hcopy, hsize, hholds, hframe⟩ := exists_memcpy_frame b (off + data.length) data' hin
  exact ⟨b', hcopy, hsize, holds_append.mpr ⟨hframe off data (.inl (Nat.le_refl _)) h, hholds⟩⟩

/-- A move that stays inside the block takes along what the block holds. -/
theorem exists_memmove (dst : ℕ) (hsrc : src + data.length ≤ b.size)
    (hdst : dst + data.length ≤ b.size) (h : b.Holds src data) :
    ∃ b', b.memmove dst src data.length = some b' ∧ b'.size = b.size ∧ b'.Holds dst data := by
  refine ⟨_, if_pos ⟨hsrc, hdst⟩, rfl, ?_⟩
  intro i hi
  rw [← h i hi]
  dsimp only
  rw [if_pos ⟨Nat.le_add_right dst i, Nat.add_lt_add_left hi dst⟩, Nat.add_sub_cancel_left]

/-- The length of a string that the block holds. -/
theorem HoldsString.strlen [DecidableEq α] {nul : α} {s : List α} (h : b.HoldsString nul off s) :
    b.strlen nul off = some s.length := by
  rw [MemBlock.strlen, List.find?_range_eq_some]
  have hinside := h.inside
  refine ⟨?_, List.mem_range.mpr (by omega), fun j hj => ?_⟩
  · rw [h.holds s.length (by simp)]
    simp
  · rw [h.holds j (by rw [List.length_append]; omega), List.getElem?_append_left hj,
      List.getElem?_eq_getElem hj]
    have hne : s[j] ≠ nul := fun heq => h.not_mem (heq ▸ List.getElem_mem hj)
    simpa using hne

theorem mapM_cells_of_holds (h : b.Holds off data) :
    (List.range data.length).mapM (fun k => b.cells (off + k)) = some data := by
  induction data using List.reverseRecOn with
  | nil => rfl
  | append_singleton data a ih =>
      obtain ⟨hdata, ha⟩ := holds_append.mp h
      have hcell : b.cells (off + data.length) = some a := ha 0 Nat.one_pos
      rw [List.length_append, List.length_singleton, List.range_succ, List.mapM_append, ih hdata]
      simp [hcell]

/-- A string that the block holds is read back. -/
theorem HoldsString.string [DecidableEq α] {nul : α} {s : List α} (h : b.HoldsString nul off s) :
    b.string nul off = some s := by
  rw [MemBlock.string, h.strlen]
  exact mapM_cells_of_holds (holds_append.mp h.holds).1

/-! ## Parts of a block -/

/-- Nothing but the cells from `lo` on and before `hi` is changed. -/
structure Within (b b' : MemBlock α) (lo hi : ℕ) : Prop where
  size : b'.size = b.size
  cells : ∀ k, k < lo ∨ hi ≤ k → b'.cells k = b.cells k

variable {b' : MemBlock α} {lo hi : ℕ} {nul : α} {s : List α}

theorem within_refl (b : MemBlock α) (lo hi : ℕ) : Within b b lo hi := ⟨rfl, fun _ _ => rfl⟩

theorem Within.trans {b'' : MemBlock α} {lo' hi' : ℕ} (h : Within b b' lo hi)
    (h' : Within b' b'' lo' hi') (hlo : lo ≤ lo') (hhi : hi' ≤ hi) : Within b b'' lo hi := by
  constructor
  · exact h'.size.trans h.size
  · intro k hk
    rw [h'.cells k (by omega), h.cells k hk]

/-- A change stays within a larger part of the block. -/
theorem Within.mono {lo' hi' : ℕ} (h : Within b b' lo' hi') (hlo : lo ≤ lo') (hhi : hi' ≤ hi) :
    Within b b' lo hi :=
  ⟨h.size, fun k hk => h.cells k (by omega)⟩

/-- What stands outside the part that is changed is kept. -/
theorem Within.holds (h : Within b b' lo hi) (hout : off + data.length ≤ lo ∨ hi ≤ off)
    (hs : b.Holds off data) : b'.Holds off data := by
  intro i hi
  rw [h.cells (off + i) (by omega), hs i hi]

theorem Within.holdsString (h : Within b b' lo hi) (hout : off + s.length < lo ∨ hi ≤ off)
    (hs : b.HoldsString nul off s) : b'.HoldsString nul off s where
  holds := h.holds (by rw [List.length_append, List.length_singleton]; omega) hs.holds
  not_mem := hs.not_mem
  inside := h.size ▸ hs.inside

theorem exists_write (b : MemBlock α) (dst : ℕ) (data : List α)
    (hin : dst + data.length ≤ b.size) :
    ∃ b', b.memcpy dst data = some b' ∧ Within b b' dst (dst + data.length) ∧
      b'.Holds dst data := by
  obtain ⟨b', hcopy, hsize, hholds, -⟩ := exists_memcpy_frame b dst data hin
  refine ⟨b', hcopy, ⟨hsize, fun k hk => ?_⟩, hholds⟩
  rw [MemBlock.memcpy, if_pos hin] at hcopy
  cases hcopy
  exact if_neg (by omega)

/-- The end of a string, written behind it. -/
theorem exists_terminated (hs : b.Holds off s) (hnul : nul ∉ s) (hin : off + s.length < b.size) :
    ∃ b', b.memcpy (off + s.length) [nul] = some b' ∧
      Within b b' (off + s.length) (off + s.length + 1) ∧ b'.HoldsString nul off s := by
  obtain ⟨b', hcopy, hwithin, hend⟩ := exists_write b (off + s.length) [nul] hin
  refine ⟨b', hcopy, hwithin, ⟨?_, hnul, hwithin.size ▸ hin⟩⟩
  exact holds_append.mpr ⟨hwithin.holds (.inl (Nat.le_refl _)) hs, hend⟩

/-- A copy and the end of a string behind it: the block holds both, even when the string that is
read back ends earlier. -/
theorem exists_copy_terminated (b : MemBlock α) (nul : α) (dst : ℕ) (data : List α)
    (hin : dst + data.length < b.size) :
    ∃ b₁ b₂, b.memcpy dst data = some b₁ ∧ b₁.memcpy (dst + data.length) [nul] = some b₂ ∧
      Within b b₂ dst (dst + data.length + 1) ∧ b₂.Holds dst (data ++ [nul]) := by
  obtain ⟨b₁, hcopy₁, hwithin₁, hholds⟩ := exists_write b dst data (Nat.le_of_lt hin)
  obtain ⟨b₂, hcopy₂, hwithin₂, hend⟩ :=
    exists_write b₁ (dst + data.length) [nul] (by rw [hwithin₁.size]; exact hin)
  refine ⟨b₁, b₂, hcopy₁, hcopy₂, ?_, holds_append.mpr ⟨?_, hend⟩⟩
  · exact (hwithin₁.mono (Nat.le_refl _) (Nat.le_succ _)).trans hwithin₂ (Nat.le_add_right _ _)
      (Nat.le_refl _)
  · exact hwithin₂.holds (.inl (Nat.le_refl _)) hholds

end MemBlock
