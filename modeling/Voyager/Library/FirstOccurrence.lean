import Mathlib.Data.List.Basic
import Mathlib.Data.List.Infix

/-!
# The first occurrence of a pattern

`after pat s` is what follows the first occurrence of the pattern `pat` in the list `s`. A
search that has found nothing need only keep as much of what it has read as is shorter than
the pattern, and what a search has found stays found when more is read.
-/

namespace FirstOccurrence

variable {α : Type*} [DecidableEq α] {pat : List α}

/-- What follows the first occurrence of the pattern. -/
def after (pat : List α) : List α → Option (List α)
  | [] => if pat = [] then some [] else none
  | a :: s => if pat <+: a :: s then some ((a :: s).drop pat.length) else after pat s

theorem after_of_starts {s : List α} (h : pat <+: s) : after pat s = some (s.drop pat.length) := by
  cases s with
  | nil =>
      have hnil := List.prefix_nil.mp h
      rw [after, if_pos hnil, hnil]
      rfl
  | cons a s => rw [after, if_pos h]

@[simp] theorem after_append_self (pat s : List α) : after pat (pat ++ s) = some s := by
  rw [after_of_starts (List.prefix_append pat s), List.drop_left]

theorem after_cons_of_not {a : α} {s : List α} (h : ¬ pat <+: a :: s) :
    after pat (a :: s) = after pat s := if_neg h

/-- A list shorter than the pattern does not hold it. -/
theorem after_eq_none_of_length_lt {s : List α} (h : s.length < pat.length) :
    after pat s = none := by
  induction s with
  | nil =>
      have hne : pat ≠ [] := List.ne_nil_of_length_pos h
      rw [after, if_neg hne]
  | cons a s ih =>
      have hnot : ¬ pat <+: a :: s := fun hp => Nat.not_le.mpr h hp.length_le
      rw [after_cons_of_not hnot]
      apply ih
      rw [List.length_cons] at h
      omega

/-- What is found is a pattern and what follows it. -/
theorem length_after_le {s rest : List α} (h : after pat s = some rest) :
    rest.length + pat.length ≤ s.length := by
  induction s with
  | nil =>
      rw [after] at h
      split at h
      · rename_i hnil
        cases h
        rw [hnil]
        rfl
      · cases h
  | cons a s ih =>
      by_cases hp : pat <+: a :: s
      · rw [after_of_starts hp] at h
        cases h
        have hle := hp.length_le
        rw [List.length_drop]
        omega
      · rw [after_cons_of_not hp] at h
        have hle := ih h
        rw [List.length_cons]
        omega

/-- What is found stays found. -/
theorem after_append {s rest : List α} (h : after pat s = some rest) (more : List α) :
    after pat (s ++ more) = some (rest ++ more) := by
  induction s with
  | nil =>
      rw [after] at h
      split at h
      · rename_i hnil
        cases h
        rw [hnil]
        exact after_append_self [] more
      · cases h
  | cons a s ih =>
      by_cases hp : pat <+: a :: s
      · rw [after_of_starts hp] at h
        cases h
        rw [after_of_starts (hp.trans (List.prefix_append _ _)),
          List.drop_append_of_le_length hp.length_le]
      · rw [after_cons_of_not hp] at h
        have hle := length_after_le h
        have hmore : ¬ pat <+: a :: (s ++ more) := by
          intro hp'
          apply hp
          apply List.prefix_of_prefix_length_le hp' (List.prefix_append (a :: s) more)
          rw [List.length_cons]
          omega
        rw [List.cons_append, after_cons_of_not hmore]
        exact ih h

/-- A search that found nothing need only keep an end shorter than the pattern. -/
theorem after_append_of_eq_none {s keep : List α} (hlen : pat.length ≤ keep.length + 1)
    (h : after pat (s ++ keep) = none) (more : List α) :
    after pat (s ++ keep ++ more) = after pat (keep ++ more) := by
  induction s with
  | nil => rfl
  | cons a s ih =>
      have hnot : ¬ pat <+: a :: (s ++ keep) := by
        intro hp
        rw [List.cons_append, after_of_starts hp] at h
        cases h
      rw [List.cons_append, after_cons_of_not hnot] at h
      have hmore : ¬ pat <+: a :: (s ++ keep ++ more) := by
        intro hp
        apply hnot
        apply List.prefix_of_prefix_length_le hp (List.prefix_append (a :: (s ++ keep)) more)
        rw [List.length_cons, List.length_append]
        omega
      rw [List.cons_append, List.cons_append, after_cons_of_not hmore]
      exact ih h

end FirstOccurrence
