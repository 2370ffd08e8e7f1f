import Mathlib.Data.Nat.ModEq

/-!
# Stop and wait over two channels

A sender works on its item number `k`, a receiver has accepted `m` items. What is in
flight is tagged: a message to the receiver with the number of its item, an answer with
the number of items the receiver had accepted when it was sent. The channels keep the
order but may lose anything. `Link` is what holds of the tags at any time, and it is
kept by every move either side makes. On the wire the numbers are known modulo `n`
only; two items can be in flight (`Link.fwd_cases`, `Link.bwd_cases`), and any `n` above
one tells these apart (`Link.succ_mod_ne`).
-/

namespace StopAndWait

variable {α β : Type*}

/-- Sender at `k`, receiver at `m`, messages `fwd` and answers `bwd` in flight. -/
structure Link (k m : ℕ) (fwd : List (ℕ × α)) (bwd : List (ℕ × β)) : Prop where
  le : k ≤ m
  le_succ : m ≤ k + 1
  fwd_bounds : ∀ x ∈ fwd, m ≤ x.1 + 1 ∧ x.1 ≤ k
  bwd_bounds : ∀ y ∈ bwd, k ≤ y.1 ∧ y.1 ≤ m
  fwd_sorted : fwd.Pairwise fun x x' => x.1 ≤ x'.1
  bwd_sorted : bwd.Pairwise fun y y' => y.1 ≤ y'.1

namespace Link

variable {k m n : ℕ} {fwd fwd' : List (ℕ × α)} {bwd bwd' : List (ℕ × β)}

theorem init : Link 0 0 ([] : List (ℕ × α)) ([] : List (ℕ × β)) where
  le := le_rfl
  le_succ := Nat.zero_le _
  fwd_bounds := fun _ hx => absurd hx List.not_mem_nil
  bwd_bounds := fun _ hy => absurd hy List.not_mem_nil
  fwd_sorted := List.Pairwise.nil
  bwd_sorted := List.Pairwise.nil

/-- The channels lose what they want. -/
theorem lose (h : Link k m fwd bwd) (hfwd : fwd'.Sublist fwd) (hbwd : bwd'.Sublist bwd) :
    Link k m fwd' bwd' where
  le := h.le
  le_succ := h.le_succ
  fwd_bounds := fun x hx => h.fwd_bounds x (hfwd.subset hx)
  bwd_bounds := fun y hy => h.bwd_bounds y (hbwd.subset hy)
  fwd_sorted := h.fwd_sorted.sublist hfwd
  bwd_sorted := h.bwd_sorted.sublist hbwd

/-- The sender sends its item, once or again. -/
theorem send (h : Link k m fwd bwd) (a : α) : Link k m (fwd ++ [(k, a)]) bwd where
  le := h.le
  le_succ := h.le_succ
  fwd_bounds := by
    intro x hx
    rcases List.mem_append.mp hx with hx | hx
    · exact h.fwd_bounds x hx
    · rw [List.mem_singleton.mp hx]
      exact ⟨h.le_succ, le_rfl⟩
  bwd_bounds := h.bwd_bounds
  fwd_sorted := by
    refine List.pairwise_append.mpr ⟨h.fwd_sorted, List.pairwise_singleton _ _, ?_⟩
    intro x hx y hy
    rw [List.mem_singleton.mp hy]
    exact (h.fwd_bounds x hx).2
  bwd_sorted := h.bwd_sorted

/-- The receiver answers, whatever it has to say. -/
theorem answer (h : Link k m fwd bwd) (b : β) : Link k m fwd (bwd ++ [(m, b)]) where
  le := h.le
  le_succ := h.le_succ
  fwd_bounds := h.fwd_bounds
  bwd_bounds := by
    intro y hy
    rcases List.mem_append.mp hy with hy | hy
    · exact h.bwd_bounds y hy
    · rw [List.mem_singleton.mp hy]
      exact ⟨h.le, le_rfl⟩
  fwd_sorted := h.fwd_sorted
  bwd_sorted := by
    refine List.pairwise_append.mpr ⟨h.bwd_sorted, List.pairwise_singleton _ _, ?_⟩
    intro x hx y hy
    rw [List.mem_singleton.mp hy]
    exact (h.bwd_bounds x hx).2

theorem sendAll (h : Link k m fwd bwd) (as : List α) :
    Link k m (fwd ++ as.map fun a => (k, a)) bwd := by
  induction as generalizing fwd with
  | nil => rwa [List.map_nil, List.append_nil]
  | cons a as ih =>
      rw [List.map_cons, List.append_cons]
      exact ih (h.send a)

theorem answerAll (h : Link k m fwd bwd) (bs : List β) :
    Link k m fwd (bwd ++ bs.map fun b => (m, b)) := by
  induction bs generalizing bwd with
  | nil => rwa [List.map_nil, List.append_nil]
  | cons b bs ih =>
      rw [List.map_cons, List.append_cons]
      exact ih (h.answer b)

/-- The receiver accepts the item it waits for. -/
theorem accept {a : α} (h : Link k m ((m, a) :: fwd) bwd) : Link k (m + 1) fwd bwd where
  le := h.le.trans (Nat.le_succ m)
  le_succ := Nat.succ_le_succ (h.fwd_bounds (m, a) List.mem_cons_self).2
  fwd_bounds := by
    intro x hx
    have hsorted := (List.pairwise_cons.mp h.fwd_sorted).1 x hx
    exact ⟨Nat.succ_le_succ hsorted, (h.fwd_bounds x (List.mem_cons_of_mem _ hx)).2⟩
  bwd_bounds := fun y hy =>
    ⟨(h.bwd_bounds y hy).1, (h.bwd_bounds y hy).2.trans (Nat.le_succ m)⟩
  fwd_sorted := (List.pairwise_cons.mp h.fwd_sorted).2
  bwd_sorted := h.bwd_sorted

/-- The sender goes on to its next item when an answer says this one was accepted. -/
theorem advance {b : β} (h : Link k m fwd ((k + 1, b) :: bwd)) : Link (k + 1) m fwd bwd where
  le := (h.bwd_bounds (k + 1, b) List.mem_cons_self).2
  le_succ := h.le_succ.trans (Nat.le_succ _)
  fwd_bounds := fun x hx =>
    ⟨(h.fwd_bounds x hx).1, (h.fwd_bounds x hx).2.trans (Nat.le_succ k)⟩
  bwd_bounds := by
    intro y hy
    have hsorted := (List.pairwise_cons.mp h.bwd_sorted).1 y hy
    exact ⟨hsorted, (h.bwd_bounds y (List.mem_cons_of_mem _ hy)).2⟩
  fwd_sorted := h.fwd_sorted
  bwd_sorted := (List.pairwise_cons.mp h.bwd_sorted).2

/-- A message is of the item waited for or of the one before. -/
theorem fwd_cases {x : ℕ × α} (h : Link k m fwd bwd) (hx : x ∈ fwd) :
    x.1 = m ∧ k = m ∨ x.1 + 1 = m := by
  have hbounds := h.fwd_bounds x hx
  have hle := h.le
  omega

/-- An answer acknowledges the item worked on or the one before. -/
theorem bwd_cases {y : ℕ × β} (h : Link k m fwd bwd) (hy : y ∈ bwd) :
    y.1 = k + 1 ∧ m = k + 1 ∨ y.1 = k := by
  have hbounds := h.bwd_bounds y hy
  have hle := h.le_succ
  omega

theorem succ_mod_ne (hn : 1 < n) (i : ℕ) : i % n ≠ (i + 1) % n := by
  intro h
  have hzero : n ∣ i + 1 - i := (Nat.modEq_iff_dvd' (Nat.le_succ i)).mp h
  rw [Nat.add_sub_cancel_left] at hzero
  exact hn.ne' (Nat.dvd_one.mp hzero)

end Link

end StopAndWait
