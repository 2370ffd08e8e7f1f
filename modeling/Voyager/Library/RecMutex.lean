import Mathlib.Data.Nat.Notation
import Mathlib.Tactic.TypeStar

/-!
# Recursive mutexes

The task that holds a recursive mutex can take it again, and others have to wait until it
was given back as often as it was taken.
-/

/-- `held t n` was taken by `t`, and then `n` times more. -/
inductive RecMutex (τ : Type*)
  | free
  | held (t : τ) (n : ℕ)
  deriving DecidableEq

namespace RecMutex

variable {τ : Type*}

def holder : RecMutex τ → Option τ
  | free => none
  | held t _ => some t

variable [DecidableEq τ]

/-- How often `t` has taken the mutex and not given it back. -/
def depth : RecMutex τ → τ → ℕ
  | free, _ => 0
  | held t n, t' => if t = t' then n + 1 else 0

/-- The mutex is taken by `t`, unless another task holds it. -/
def take : RecMutex τ → τ → Option (RecMutex τ)
  | free, t => some (held t 0)
  | held t n, t' => if t = t' then some (held t (n + 1)) else none

/-- The mutex is given back by `t`; this changes nothing when `t` does not hold it. -/
def give : RecMutex τ → τ → RecMutex τ
  | free, _ => free
  | held t 0, t' => if t = t' then free else held t 0
  | held t (n + 1), t' => if t = t' then held t n else held t (n + 1)

variable {m m' : RecMutex τ} {t t' : τ}

@[simp] theorem depth_free (t : τ) : (free : RecMutex τ).depth t = 0 := rfl

theorem holder_eq_some_iff : m.holder = some t ↔ 0 < m.depth t := by
  cases m with
  | free => simp [holder]
  | held t' n =>
      rw [holder, depth, Option.some.injEq]
      constructor
      · intro h
        rw [if_pos h]
        exact Nat.succ_pos n
      · intro h
        split at h
        · rename_i heq
          exact heq
        · exact absurd h (Nat.lt_irrefl 0)

/-- Only one task holds the mutex. -/
theorem eq_of_depth_pos (h : 0 < m.depth t) (h' : 0 < m.depth t') : t = t' := by
  rw [← holder_eq_some_iff] at h h'
  exact Option.some.inj (h.symm.trans h')

theorem depth_of_take (h : m.take t = some m') : m'.depth t = m.depth t + 1 := by
  cases m with
  | free =>
      cases h
      exact if_pos rfl
  | held t' n =>
      rw [take] at h
      split at h
      · rename_i heq
        cases h
        rw [depth, depth, if_pos heq, if_pos heq]
      · cases h

theorem depth_of_take_of_ne (h : m.take t = some m') (hne : t' ≠ t) : m'.depth t' = m.depth t' := by
  cases m with
  | free =>
      cases h
      exact if_neg (Ne.symm hne)
  | held u n =>
      rw [take] at h
      split at h
      · rename_i heq
        cases h
        rw [depth, depth, if_neg (heq ▸ Ne.symm hne), if_neg (heq ▸ Ne.symm hne)]
      · cases h

theorem depth_give (m : RecMutex τ) (t : τ) : (m.give t).depth t = m.depth t - 1 := by
  cases m with
  | free => rfl
  | held u n =>
      cases n with
      | zero =>
          rw [give, depth]
          split
          · rfl
          · rename_i h
            exact if_neg h
      | succ n =>
          rw [give, depth]
          split
          · rename_i h
            exact if_pos h
          · rename_i h
            exact if_neg h

theorem depth_give_of_ne (m : RecMutex τ) (hne : t' ≠ t) : (m.give t).depth t' = m.depth t' := by
  cases m with
  | free => rfl
  | held u n =>
      cases n with
      | zero =>
          rw [give, depth]
          split
          · rename_i h
            exact (if_neg (h ▸ Ne.symm hne)).symm
          · rfl
      | succ n =>
          rw [give, depth]
          split
          · rename_i h
            rw [depth, if_neg (h ▸ Ne.symm hne), if_neg (h ▸ Ne.symm hne)]
          · rfl

end RecMutex
