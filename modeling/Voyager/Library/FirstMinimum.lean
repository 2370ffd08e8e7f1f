import Mathlib.Order.Lattice

/-!
# The first minimum of a list

A loop that keeps the best element so far, and changes it only for a better one, ends with the
first of the best.
-/

namespace FirstMinimum

variable {α β : Type*} [LinearOrder β] (f : α → β)

/-- The first element of `a :: l` at which `f` is smallest. -/
def minOf (a : α) (l : List α) : α := l.foldl (fun o i => if f i < f o then i else o) a

theorem minOf_cons (a b : α) (l : List α) :
    minOf f a (b :: l) = minOf f (if f b < f a then b else a) l := rfl

theorem le_of_mem {a : α} {l : List α} : ∀ x ∈ a :: l, f (minOf f a l) ≤ f x := by
  induction l generalizing a with
  | nil =>
      intro x hx
      rw [List.mem_singleton.mp hx]
      exact le_refl _
  | cons b l ih =>
      intro x hx
      rw [minOf_cons]
      by_cases h : f b < f a
      · rw [if_pos h]
        rcases List.mem_cons.mp hx with rfl | hx
        · exact (ih b List.mem_cons_self).trans h.le
        · exact ih x hx
      · rw [if_neg h]
        rcases List.mem_cons.mp hx with rfl | hx
        · exact ih x List.mem_cons_self
        · rcases List.mem_cons.mp hx with rfl | hx
          · exact (ih a List.mem_cons_self).trans (not_lt.mp h)
          · exact ih x (List.mem_cons_of_mem a hx)

theorem mem (a : α) (l : List α) : minOf f a l ∈ a :: l := by
  induction l generalizing a with
  | nil => exact List.mem_cons_self
  | cons b l ih =>
      rw [minOf_cons]
      rcases List.mem_cons.mp (ih (if f b < f a then b else a)) with h | h
      · rw [h]
        split
        · exact List.mem_cons_of_mem a List.mem_cons_self
        · exact List.mem_cons_self
      · exact List.mem_cons_of_mem a (List.mem_cons_of_mem b h)

/-- What stands before it is larger, in a list in order. -/
theorem lt_of_lt [LinearOrder α] {a : α} {l : List α} (hl : (a :: l).Pairwise (· ≤ ·)) :
    ∀ x ∈ a :: l, x < minOf f a l → f (minOf f a l) < f x := by
  induction l generalizing a with
  | nil =>
      intro x hx hlt
      rw [List.mem_singleton.mp hx] at hlt
      exact absurd hlt (lt_irrefl _)
  | cons b l ih =>
      obtain ⟨ha, hbl⟩ := List.pairwise_cons.mp hl
      obtain ⟨hb, hl⟩ := List.pairwise_cons.mp hbl
      have hab := ha b List.mem_cons_self
      rw [minOf_cons]
      intro x hx hlt
      by_cases h : f b < f a
      · rw [if_pos h] at hlt ⊢
        rcases List.mem_cons.mp hx with rfl | hx
        · exact lt_of_le_of_lt (le_of_mem f _ List.mem_cons_self) h
        · exact ih hbl x hx hlt
      · rw [if_neg h] at hlt ⊢
        have hal := List.pairwise_cons.mpr ⟨fun y hy => ha y (List.mem_cons_of_mem b hy), hl⟩
        rcases List.mem_cons.mp hx with rfl | hx
        · exact ih hal x List.mem_cons_self hlt
        · rcases List.mem_cons.mp hx with rfl | hx
          · -- the minimum is behind `b`, and so behind `a`
            have ha' : a < minOf f a l := lt_of_le_of_lt hab hlt
            exact (ih hal a List.mem_cons_self ha').trans_le (not_lt.mp h)
          · exact ih hal x (List.mem_cons_of_mem a hx) hlt

end FirstMinimum
