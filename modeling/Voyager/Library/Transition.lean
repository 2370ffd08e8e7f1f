import Mathlib.Data.List.Basic

/-!
# Runs of a labelled transition system

A system is an option-valued step function: `step s a` is the state after the
action `a` in the state `s`, and `none` when `a` cannot happen in `s`. The action
carries every choice the environment or the scheduler makes, so a run is a list
of actions and `exec` computes the state it ends in. Invariants are proved once,
from what one step preserves; `Meets` restricts a run to steps that satisfy a
condition on the state before the step.
-/

namespace Transition

variable {σ α τ : Type*}

/-- The state after the actions `as`, or `none` when one of them cannot happen. -/
def exec (step : σ → α → Option σ) : σ → List α → Option σ
  | s, [] => some s
  | s, a :: as => (step s a).bind fun t => exec step t as

@[simp] theorem exec_nil (step : σ → α → Option σ) (s : σ) :
    exec step s [] = some s := rfl

theorem exec_cons (step : σ → α → Option σ) (s : σ) (a : α) (as : List α) :
    exec step s (a :: as) = (step s a).bind fun t => exec step t as := rfl

theorem exec_cons_eq_some_iff {step : σ → α → Option σ} {s u : σ} {a : α} {as : List α} :
    exec step s (a :: as) = some u ↔ ∃ t, step s a = some t ∧ exec step t as = some u := by
  rw [exec_cons, Option.bind_eq_some_iff]

theorem exec_append (step : σ → α → Option σ) (s : σ) (as bs : List α) :
    exec step s (as ++ bs) = (exec step s as).bind fun t => exec step t bs := by
  induction as generalizing s with
  | nil => rfl
  | cons a as ih =>
      rw [List.cons_append, exec_cons, exec_cons]
      cases step s a with
      | none => rfl
      | some t => exact ih t

/-- Every step of the run `as` from `s` is taken in a state that satisfies `ok`
for its action. -/
def Meets (step : σ → α → Option σ) (ok : σ → α → Prop) : σ → List α → Prop
  | _, [] => True
  | s, a :: as => ok s a ∧ ∀ t, step s a = some t → Meets step ok t as

/-- Whether a run meets a condition is decided along the run. -/
instance decidableMeets {step : σ → α → Option σ} {ok : σ → α → Prop}
    [∀ s a, Decidable (ok s a)] : ∀ s as, Decidable (Meets step ok s as)
  | _, [] => isTrue trivial
  | s, a :: as =>
      match h : step s a with
      | none => decidable_of_iff (ok s a) (by simp [Meets, h])
      | some t =>
          have : Decidable (Meets step ok t as) := decidableMeets t as
          decidable_of_iff (ok s a ∧ Meets step ok t as) (by simp [Meets, h])

/-- A condition that the actions of a run meet in every state. -/
theorem meets_of_forall {step : σ → α → Option σ} {ok : σ → α → Prop} {s : σ} {as : List α}
    (h : ∀ a ∈ as, ∀ s, ok s a) : Meets step ok s as := by
  induction as generalizing s with
  | nil => trivial
  | cons a as ih =>
      exact ⟨h a List.mem_cons_self s, fun t _ => ih fun b hb => h b (List.mem_cons_of_mem a hb)⟩

/-- The first part of a run meets what the whole run meets. -/
theorem Meets.of_append {step : σ → α → Option σ} {ok : σ → α → Prop} {s : σ} {as bs : List α}
    (h : Meets step ok s (as ++ bs)) : Meets step ok s as := by
  induction as generalizing s with
  | nil => trivial
  | cons a as ih => exact ⟨h.1, fun t ht => ih (h.2 t ht)⟩

/-- A run preserves what every one of its steps preserves. The condition `ok` on
the steps may be used in the step. -/
theorem exec_invariant_of_meets {step : σ → α → Option σ} {ok : σ → α → Prop}
    {Inv : σ → Prop}
    (hstep : ∀ s a t, Inv s → ok s a → step s a = some t → Inv t)
    {s t : σ} {as : List α} (hs : Inv s) (hok : Meets step ok s as)
    (hrun : exec step s as = some t) : Inv t := by
  induction as generalizing s with
  | nil =>
      cases hrun
      exact hs
  | cons a as ih =>
      obtain ⟨u, hu, hrest⟩ := exec_cons_eq_some_iff.mp hrun
      exact ih (hstep s a u hs hok.1 hu) (hok.2 u hu) hrest

/-- The invariant rule: what every step preserves holds after every run. -/
theorem exec_invariant {step : σ → α → Option σ} {Inv : σ → Prop}
    (hstep : ∀ s a t, Inv s → step s a = some t → Inv t)
    {s t : σ} {as : List α} (hs : Inv s) (hrun : exec step s as = some t) : Inv t := by
  induction as generalizing s with
  | nil =>
      cases hrun
      exact hs
  | cons a as ih =>
      obtain ⟨u, hu, hrest⟩ := exec_cons_eq_some_iff.mp hrun
      exact ih (hstep s a u hs hu) hrest

end Transition
