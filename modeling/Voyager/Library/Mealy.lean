import Mathlib.Algebra.Ring.Nat
import Mathlib.Data.List.Basic
import Voyager.Library.Transition

/-!
# Machines that read a stream

A machine reads its input one symbol at a time; each symbol moves the state and
emits some outputs. `run` is the state and the outputs after a list of symbols. A
machine that is fed in chunks is the same thing with chunks for symbols, and
`run_flatten` says when the chunking does not matter. `run_simulation` compares two
machines over the same inputs, `exists_run_of_exec` a transition system with a machine.
-/

namespace Mealy

variable {σ τ β γ : Type*}

/-- The state and the outputs, in order, after the symbols `bs`. -/
def run (step : σ → β → σ × List γ) : σ → List β → σ × List γ
  | s, [] => (s, [])
  | s, b :: bs => ((run step (step s b).1 bs).1, (step s b).2 ++ (run step (step s b).1 bs).2)

@[simp] theorem run_nil (step : σ → β → σ × List γ) (s : σ) :
    run step s [] = (s, []) := rfl

theorem run_cons (step : σ → β → σ × List γ) (s : σ) (b : β) (bs : List β) :
    run step s (b :: bs) =
      ((run step (step s b).1 bs).1, (step s b).2 ++ (run step (step s b).1 bs).2) := rfl

theorem run_append (step : σ → β → σ × List γ) (s : σ) (as bs : List β) :
    run step s (as ++ bs) =
      ((run step (run step s as).1 bs).1,
        (run step s as).2 ++ (run step (run step s as).1 bs).2) := by
  induction as generalizing s with
  | nil => rfl
  | cons a as ih => rw [List.cons_append, run_cons, run_cons, ih, List.append_assoc]

/-- Feeding in chunks is feeding the concatenation, when two chunks are. -/
theorem run_flatten {feed : σ → List β → σ × List γ}
    (hnil : ∀ s, feed s [] = (s, []))
    (happend : ∀ s as bs, feed s (as ++ bs) =
      ((feed (feed s as).1 bs).1, (feed s as).2 ++ (feed (feed s as).1 bs).2))
    (s : σ) (chunks : List (List β)) :
    run feed s chunks = feed s chunks.flatten := by
  induction chunks generalizing s with
  | nil => rw [List.flatten_nil, hnil, run_nil]
  | cons c cs ih => rw [List.flatten_cons, happend, run_cons, ih]

/-- Two machines that stay related emit the same outputs. -/
theorem run_simulation {step : σ → β → σ × List γ} {step' : τ → β → τ × List γ}
    {R : σ → τ → Prop}
    (hstep : ∀ s t b, R s t → R (step s b).1 (step' t b).1 ∧ (step s b).2 = (step' t b).2)
    {s : σ} {t : τ} (h : R s t) (bs : List β) :
    R (run step s bs).1 (run step' t bs).1 ∧ (run step s bs).2 = (run step' t bs).2 := by
  induction bs generalizing s t with
  | nil => exact ⟨h, rfl⟩
  | cons b bs ih =>
      obtain ⟨hrel, hout⟩ := hstep s t b h
      obtain ⟨hrest, houts⟩ := ih hrel
      exact ⟨hrest, by rw [run_cons, run_cons, hout, houts]⟩

/-- A system of which every step is a few symbols of a machine is in every run the machine on
all of them. `abs` is the machine's state, `log` what the machine has put out, as `shown`. -/
theorem exists_run_of_exec {α δ : Type*} {step : σ → α → Option σ} {machine : τ → β → τ × List γ}
    {Inv : σ → Prop} (abs : σ → τ) (log : σ → List δ) (shown : γ → Option δ)
    (hstep : ∀ s a t, Inv s → step s a = some t → Inv t ∧
      ∃ bs, (run machine (abs s) bs).1 = abs t ∧
        log t = log s ++ (run machine (abs s) bs).2.filterMap shown)
    {s t : σ} {as : List α} (hs : Inv s) (hrun : Transition.exec step s as = some t) :
    ∃ bs, (run machine (abs s) bs).1 = abs t ∧
      log t = log s ++ (run machine (abs s) bs).2.filterMap shown := by
  induction as generalizing s with
  | nil =>
      cases hrun
      exact ⟨[], rfl, (List.append_nil _).symm⟩
  | cons a as ih =>
      obtain ⟨u, hu, hrest⟩ := Transition.exec_cons_eq_some_iff.mp hrun
      obtain ⟨hinv, bs, habs, hlog⟩ := hstep s a u hs hu
      obtain ⟨bs', habs', hlog'⟩ := ih hinv hrest
      refine ⟨bs ++ bs', ?_, ?_⟩
      · rw [run_append, habs, habs']
      · rw [run_append, habs, List.filterMap_append, ← List.append_assoc, ← hlog, hlog']

/-! ## What goes in and what comes out -/

/-- What every step preserves holds after every run. -/
theorem run_invariant {step : σ → β → σ × List γ} (Inv : σ → Prop)
    (hstep : ∀ s b, Inv s → Inv (step s b).1) {s : σ} (hs : Inv s) (bs : List β) :
    Inv (run step s bs).1 := by
  induction bs generalizing s with
  | nil => exact hs
  | cons b bs ih => exact ih (hstep s b hs)

/-- What every step preserves of the state and of all that was put out so far. -/
theorem run_log_invariant {step : σ → β → σ × List γ} (Inv : σ → List γ → Prop)
    (hstep : ∀ s log b, Inv s log → Inv (step s b).1 (log ++ (step s b).2)) {s : σ}
    {log : List γ} (hs : Inv s log) (bs : List β) :
    Inv (run step s bs).1 (log ++ (run step s bs).2) := by
  induction bs generalizing s log with
  | nil =>
      rw [run_nil, List.append_nil]
      exact hs
  | cons b bs ih =>
      rw [run_cons, ← List.append_assoc]
      exact ih (hstep s log b hs)

/-- A machine that hands out what it holds in the order it took it, leaving some of it out,
hands out what went in in that order. -/
theorem run_sublist {δ : Type*} {step : σ → β → σ × List γ} (held : σ → List δ)
    (taken : β → List δ) (given : γ → Option δ)
    (hstep : ∀ s b, ((step s b).2.filterMap given ++ held (step s b).1).Sublist
      (held s ++ taken b)) (s : σ) (bs : List β) :
    ((run step s bs).2.filterMap given ++ held (run step s bs).1).Sublist
      (held s ++ bs.flatMap taken) := by
  induction bs generalizing s with
  | nil => simp
  | cons b bs ih =>
      have hrest := (ih (step s b).1).append_left ((step s b).2.filterMap given)
      have hfirst := (hstep s b).append_right (bs.flatMap taken)
      rw [run_cons, List.filterMap_append, List.append_assoc, List.flatMap_cons,
        ← List.append_assoc (held s)]
      rw [List.append_assoc] at hfirst
      exact hrest.trans hfirst

/-- What goes in comes out or is still there, as long as the machine stays in states where
each step accounts for what it takes. -/
theorem run_balance {step : σ → β → σ × List γ} (counts : σ → Prop) (weight : σ → ℕ)
    (taken : β → ℕ)
    (hstep : ∀ s b, counts (step s b).1 →
      counts s ∧ weight s + taken b = (step s b).2.length + weight (step s b).1)
    {s : σ} {bs : List β} (hrun : counts (run step s bs).1) :
    counts s ∧
      weight s + (bs.map taken).sum = (run step s bs).2.length + weight (run step s bs).1 := by
  induction bs generalizing s with
  | nil => exact ⟨hrun, by simp⟩
  | cons b bs ih =>
      obtain ⟨hnext, hrest⟩ := ih hrun
      obtain ⟨hs, hfirst⟩ := hstep s b hnext
      refine ⟨hs, ?_⟩
      calc weight s + ((b :: bs).map taken).sum
          = weight s + taken b + (bs.map taken).sum := by
            rw [List.map_cons, List.sum_cons, Nat.add_assoc]
        _ = (step s b).2.length + (weight (step s b).1 + (bs.map taken).sum) := by
            rw [hfirst, Nat.add_assoc]
        _ = (run step s (b :: bs)).2.length + weight (run step s (b :: bs)).1 := by
            rw [hrest, run_cons, List.length_append, Nat.add_assoc]

/-- Inputs that leave no trace can be taken out of a run. `R` relates the run with the run
without them; `ok` is what the outputs show of the condition under which they leave none. -/
theorem run_filter (step : σ → β → σ × List γ) (R : σ → σ → Prop) (keep : β → Bool)
    (shown : γ → Bool) (ok : γ → Prop)
    (hkeep : ∀ s t b, R s t → keep b = true → (∀ c ∈ (step s b).2, ok c) →
      R (step s b).1 (step t b).1 ∧ (step t b).2 = (step s b).2.filter shown)
    (hdrop : ∀ s t b, R s t → keep b = false → (∀ c ∈ (step s b).2, ok c) →
      R (step s b).1 t ∧ (step s b).2.filter shown = [])
    {s t : σ} (h : R s t) {bs : List β} (hok : ∀ c ∈ (run step s bs).2, ok c) :
    R (run step s bs).1 (run step t (bs.filter keep)).1 ∧
      (run step t (bs.filter keep)).2 = (run step s bs).2.filter shown := by
  induction bs generalizing s t with
  | nil => exact ⟨h, rfl⟩
  | cons b bs ih =>
      rw [run_cons] at hok
      have hnow : ∀ c ∈ (step s b).2, ok c := fun c hc => hok c (List.mem_append_left _ hc)
      have hrest : ∀ c ∈ (run step (step s b).1 bs).2, ok c :=
        fun c hc => hok c (List.mem_append_right _ hc)
      rw [run_cons, List.filter_append]
      cases hb : keep b with
      | true =>
          obtain ⟨hrel, hout⟩ := hkeep s t b h hb hnow
          obtain ⟨hrel', hout'⟩ := ih hrel hrest
          rw [List.filter_cons_of_pos hb, run_cons]
          exact ⟨hrel', by rw [hout, hout']⟩
      | false =>
          obtain ⟨hrel, hout⟩ := hdrop s t b h hb hnow
          obtain ⟨hrel', hout'⟩ := ih hrel hrest
          rw [List.filter_cons_of_neg (by simp [hb]), hout, List.nil_append]
          exact ⟨hrel', hout'⟩

/-! ## Watched runs -/

/-- Every output of a run is allowed by what the observer knows, as long as the inputs are
proper. -/
def Obeys {ω : Type*} (step : σ → β → σ × List γ) (observe : ω → β → List γ → ω)
    (proper : ω → β → Prop) (allowed : ω → β → γ → Prop) : σ → ω → List β → Prop
  | _, _, [] => True
  | s, o, b :: bs => proper o b → (∀ c ∈ (step s b).2, allowed o b c) ∧
      Obeys step observe proper allowed (step s b).1 (observe o b (step s b).2) bs

/-- A machine obeys in every run when a relation of its states with what the observer knows is
kept, and allows what it puts out. -/
theorem obeys_of_invariant {ω : Type*} {step : σ → β → σ × List γ}
    {observe : ω → β → List γ → ω} {proper : ω → β → Prop} {allowed : ω → β → γ → Prop}
    (Inv : σ → ω → Prop)
    (hstep : ∀ s o b, Inv s o → proper o b →
      Inv (step s b).1 (observe o b (step s b).2) ∧ ∀ c ∈ (step s b).2, allowed o b c)
    {s : σ} {o : ω} (h : Inv s o) (bs : List β) : Obeys step observe proper allowed s o bs := by
  induction bs generalizing s o with
  | nil => trivial
  | cons b bs ih =>
      intro hproper
      obtain ⟨hnext, hallowed⟩ := hstep s o b h hproper
      exact ⟨hallowed, ih hnext⟩

/-- A machine that obeys what is allowed obeys what follows from it. -/
theorem Obeys.mono {ω : Type*} {step : σ → β → σ × List γ} {observe : ω → β → List γ → ω}
    {proper : ω → β → Prop} {allowed allowed' : ω → β → γ → Prop} {s : σ} {o : ω} {bs : List β}
    (h : Obeys step observe proper allowed s o bs)
    (hall : ∀ o b c, allowed o b c → allowed' o b c) :
    Obeys step observe proper allowed' s o bs := by
  induction bs generalizing s o with
  | nil => trivial
  | cons b bs ih =>
      intro hproper
      obtain ⟨hnow, hrest⟩ := h hproper
      exact ⟨fun c hc => hall o b c (hnow c hc), ih hrest⟩

end Mealy
