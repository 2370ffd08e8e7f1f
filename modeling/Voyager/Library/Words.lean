import Mathlib.Data.List.DropRight

/-!
# Words

Some elements of a list separate the others into words. A cut of the list is clean for the short
words when none of them has elements on both sides of it.
-/

namespace Words

variable {α : Type*} (sep : α → Bool)

/-- The elements that do not separate. -/
def visible (l : List α) : List α := l.filter fun c => !sep c

/-- The elements from `i` to `j` are a word: they do not separate, and those around them do. -/
structure IsWord (l : List α) (i j : ℕ) : Prop where
  lt : i < j
  le : j ≤ l.length
  inside : ∀ k, i ≤ k → k < j → ∀ c ∈ l[k]?, sep c = false
  before : ∀ k, k + 1 = i → ∀ c ∈ l[k]?, sep c = true
  after : ∀ c ∈ l[j]?, sep c = true

/-- No word of at most `m` elements has elements in `pre` and in `rest`. -/
def CleanCut (m : ℕ) (pre rest : List α) : Prop :=
  ∀ i j, IsWord sep (pre ++ rest) i j → j ≤ i + m → pre.length ≤ i ∨ j ≤ pre.length

variable {sep} {m : ℕ} {pre rest run : List α}

@[simp] theorem visible_nil : visible sep [] = [] := rfl

@[simp] theorem visible_append (l l' : List α) :
    visible sep (l ++ l') = visible sep l ++ visible sep l' := List.filter_append l l'

theorem visible_eq_nil {l : List α} : visible sep l = [] ↔ ∀ c ∈ l, sep c = true := by
  simp [visible]

/-- Separators at the end show nothing. -/
theorem visible_rdropWhile {p : α → Bool} (hp : ∀ c, p c = true → sep c = true) (l : List α) :
    visible sep (l.rdropWhile p) = visible sep l := by
  have hnil : visible sep (l.rtakeWhile p) = [] :=
    visible_eq_nil.mpr fun c hc => hp c (List.mem_rtakeWhile_imp hc)
  have hl := congrArg (visible sep) (List.rdropWhile_append_rtakeWhile (p := p) (l := l))
  rwa [visible_append, hnil, List.append_nil] at hl

/-- An element that is not a separator stays, whatever is done to the separators. -/
theorem visible_map {f : α → α} (hsep : ∀ c, sep (f c) = sep c)
    (hf : ∀ c, sep c = false → f c = c) (l : List α) : visible sep (l.map f) = visible sep l := by
  induction l with
  | nil => rfl
  | cons c l ih =>
      unfold visible at ih ⊢
      by_cases hc : sep c = true
      · simp [hsep, hc, ih]
      · replace hc : sep c = false := by simpa using hc
        simp [hf c hc, hc, ih]

theorem visible_mono {l l' : List α} (h : l <+: l') : visible sep l <+: visible sep l' :=
  h.filter _

theorem cleanCut_nil : CleanCut sep m [] rest := fun i _ _ _ => .inl (Nat.zero_le i)

/-- A cut just before a separator, or at the end, is clean. -/
theorem cleanCut_of_head (h : ∀ c ∈ rest.head?, sep c = true) : CleanCut sep m pre rest := by
  intro i j hword hlen
  by_contra hin
  rw [not_or, Nat.not_le, Nat.not_le] at hin
  have hlt : pre.length < (pre ++ rest).length := hin.2.trans_le hword.le
  rw [List.length_append] at hlt
  obtain ⟨c, rest, rfl⟩ := List.exists_cons_of_length_pos (Nat.pos_of_lt_add_right hlt)
  have hc := hword.inside pre.length hin.1.le hin.2 c (by simp)
  exact Bool.false_ne_true (hc.symm.trans (h c rfl))

/-- A cut just after a separator is clean. -/
theorem cleanCut_concat {c : α} (h : sep c = true) : CleanCut sep m (pre ++ [c]) rest := by
  intro i j hword hlen
  by_contra hin
  rw [not_or, Nat.not_le, Nat.not_le] at hin
  rw [List.length_append, List.length_singleton] at hin
  have hc := hword.inside pre.length (by omega) (by omega) c (by simp)
  exact Bool.false_ne_true (hc.symm.trans h)

/-- A cut after as many elements of one word is clean: the word is too long. -/
theorem cleanCut_run (h : ∀ c ∈ run, sep c = false) (hm : m ≤ run.length) :
    CleanCut sep m (pre ++ run) rest := by
  intro i j hword hlen
  by_contra hin
  rw [not_or, Nat.not_le, Nat.not_le] at hin
  rw [List.length_append] at hin
  -- the word cannot begin inside the run, for a separator stands before it
  have hi : i ≤ pre.length := by
    by_contra hi
    have hlt : i - 1 - pre.length < run.length := by omega
    have hget : (pre ++ run ++ rest)[i - 1]? = some run[i - 1 - pre.length] := by
      rw [List.append_assoc, List.getElem?_append_right (by omega),
        List.getElem?_append_left hlt, List.getElem?_eq_getElem hlt]
    have hsep := hword.before (i - 1) (by omega) _ hget
    exact Bool.false_ne_true ((h _ (List.getElem_mem hlt)).symm.trans hsep)
  omega

/-- In the number of elements that do not separate, a clean cut is not inside a short word. -/
theorem CleanCut.visible (h : CleanCut sep m pre rest) {i j : ℕ}
    (hword : IsWord sep (pre ++ rest) i j) (hlen : j ≤ i + m) :
    (visible sep pre).length ≤ (visible sep ((pre ++ rest).take i)).length ∨
      (visible sep ((pre ++ rest).take j)).length ≤ (visible sep pre).length := by
  rcases h i j hword hlen with hle | hle
  · have hprefix : pre <+: (pre ++ rest).take i :=
      List.prefix_take_iff.mpr ⟨List.prefix_append pre rest, hle⟩
    exact .inl (visible_mono hprefix).length_le
  · have hprefix : (pre ++ rest).take j <+: pre := by
      rw [List.take_append_of_le_length hle]
      exact List.take_prefix j pre
    exact .inr (visible_mono hprefix).length_le

end Words
