import Mathlib.Data.List.Induction
import Mathlib.Data.List.Perm.Basic
import Mathlib.Order.Lattice

/-!
# Insertion sort in place

The array is a list that is updated with `List.set`. `place` shifts the entries with a
smaller key one place up, from the index `j` downwards, and writes `e` in the gap; `sort`
does it for every index from the second on. The greatest key comes first, and entries with
equal keys keep their order.
-/

namespace InsertionSort

variable {α β : Type*} [LinearOrder β] {f : α → β} {e x : α} {l A B : List α}

/-- The inner loop, with the gap at the index `j`. -/
def place (f : α → β) (e : α) : List α → ℕ → List α
  | l, 0 => l.set 0 e
  | l, j + 1 =>
      match l[j]? with
      | some x => if f x < f e then place f e (l.set (j + 1) x) j else l.set (j + 1) e
      | none => l.set (j + 1) e

/-- One turn of the outer loop. -/
def insertAt (f : α → β) (l : List α) (i : ℕ) : List α :=
  match l[i]? with
  | some e => place f e l i
  | none => l

/-- The outer loop up to the index `n`. -/
def sortTo (f : α → β) (l : List α) (n : ℕ) : List α :=
  (List.range' 1 (n - 1)).foldl (insertAt f) l

def sort (f : α → β) (l : List α) : List α := sortTo f l l.length

/-! ## The inner loop -/

theorem set_length_append (A B : List α) (x e : α) :
    (A ++ x :: B).set A.length e = A ++ e :: B := by
  rw [List.set_append_right A.length e (Nat.le_refl _), Nat.sub_self, List.set_cons_zero]

/-- The entry goes to its place among the entries `A` below the gap. -/
theorem place_append (f : α → β) (e x : α) (A B : List α) :
    ∃ P S, A = P ++ S ∧ place f e (A ++ x :: B) A.length = P ++ e :: S ++ B ∧
      (∀ s ∈ S, f s < f e) ∧ ∀ p, P.getLast? = some p → f e ≤ f p := by
  induction A using List.reverseRecOn generalizing x B with
  | nil => exact ⟨[], [], rfl, rfl, by simp, by simp⟩
  | append_singleton A a ih =>
      have hlast : (A ++ [a] ++ x :: B)[A.length]? = some a := by simp
      rw [List.length_append, List.length_singleton, place, hlast]
      dsimp only
      split
      · rename_i hlt
        have hset : (A ++ [a] ++ x :: B).set (A.length + 1) a = A ++ a :: (a :: B) := by
          have hgap := set_length_append (A ++ [a]) B x a
          rw [List.length_append, List.length_singleton] at hgap
          rw [hgap, List.append_assoc]
          rfl
        obtain ⟨P, S, hA, hplace, hS, hP⟩ := ih a (a :: B)
        refine ⟨P, S ++ [a], by rw [hA, List.append_assoc], ?_, ?_, hP⟩
        · rw [hset, hplace]
          simp
        · intro s hs
          rcases List.mem_append.mp hs with hs | hs
          · exact hS s hs
          · rwa [List.mem_singleton.mp hs]
      · rename_i hnot
        refine ⟨A ++ [a], [], (List.append_nil _).symm, ?_, by simp, ?_⟩
        · have hgap := set_length_append (A ++ [a]) B x e
          rw [List.length_append, List.length_singleton] at hgap
          rw [hgap]
          simp
        · intro p hp
          rw [List.getLast?_concat, Option.some.injEq] at hp
          rw [← hp]
          exact not_lt.mp hnot

/-- The keys go down. -/
abbrev Sorted (f : α → β) (l : List α) : Prop := l.Pairwise fun a b => f b ≤ f a

/-- Where the entry is put, the list stays sorted. -/
theorem Sorted.insert {P S : List α} (hsorted : Sorted f (P ++ S)) (hS : ∀ s ∈ S, f s < f e)
    (hP : ∀ p, P.getLast? = some p → f e ≤ f p) : Sorted f (P ++ e :: S) := by
  obtain ⟨hsP, hsS, hPS⟩ := List.pairwise_append.mp hsorted
  have hle : ∀ p ∈ P, f e ≤ f p := by
    intro p hp
    obtain ⟨Q, q, rfl⟩ := List.eq_nil_or_concat P |>.resolve_left (List.ne_nil_of_mem hp)
    rw [List.concat_eq_append] at hP hp hsP
    have hq := hP q List.getLast?_concat
    rcases List.mem_append.mp hp with hp | hp
    · exact hq.trans ((List.pairwise_append.mp hsP).2.2 p hp q List.mem_cons_self)
    · rwa [List.mem_singleton.mp hp]
  have htail : (e :: S).Pairwise fun a b => f b ≤ f a :=
    List.pairwise_cons.mpr ⟨fun s hs => le_of_lt (hS s hs), hsS⟩
  refine List.pairwise_append.mpr ⟨hsP, htail, ?_⟩
  intro p hp s hs
  rcases List.mem_cons.mp hs with rfl | hs
  · exact hle p hp
  · exact hPS p hp s hs

/-! ## The outer loop -/

/-- One turn sorts one entry more. -/
theorem insertAt_append (hsorted : Sorted f A) (B : List α) :
    ∃ A', insertAt f (A ++ x :: B) A.length = A' ++ B ∧ A'.Perm (A ++ [x]) ∧ Sorted f A' := by
  have hget : (A ++ x :: B)[A.length]? = some x := by simp
  obtain ⟨P, S, rfl, hplace, hS, hP⟩ := place_append f x x A B
  rw [insertAt, hget]
  refine ⟨P ++ x :: S, hplace, ?_, hsorted.insert hS hP⟩
  exact List.perm_middle.trans (List.perm_append_singleton x (P ++ S)).symm

/-- What the loop has reached is sorted, and the rest is as it was. -/
theorem sortTo_spec (f : α → β) (l : List α) {n : ℕ} (hn : n < l.length) :
    ∃ A, sortTo f l (n + 1) = A ++ l.drop (n + 1) ∧ A.Perm (l.take (n + 1)) ∧ Sorted f A := by
  induction n with
  | zero =>
      cases l with
      | nil => exact absurd hn (Nat.not_lt_zero _)
      | cons a l => exact ⟨[a], rfl, List.Perm.refl _, List.pairwise_singleton _ _⟩
  | succ n ih =>
      obtain ⟨A, hA, hperm, hsorted⟩ := ih (Nat.lt_of_succ_lt hn)
      have hlength : A.length = n + 1 := by
        rw [hperm.length_eq, List.length_take]
        omega
      have hdrop : l.drop (n + 1) = l[n + 1] :: l.drop (n + 1 + 1) := List.drop_eq_getElem_cons hn
      obtain ⟨A', hA', hperm', hsorted'⟩ := insertAt_append (x := l[n + 1]) hsorted
        (l.drop (n + 1 + 1))
      refine ⟨A', ?_, hperm'.trans ?_, hsorted'⟩
      · rw [hlength] at hA'
        have hrange : List.range' 1 (n + 1) = List.range' 1 n ++ [n + 1] := by
          rw [List.range'_concat]
          congr 2
          omega
        have hstep : sortTo f l (n + 1 + 1) = insertAt f (sortTo f l (n + 1)) (n + 1) := by
          rw [sortTo, Nat.add_sub_cancel, hrange, List.foldl_append]
          rfl
        rw [hstep, hA, hdrop, hA']
      · rw [List.take_succ_eq_append_getElem hn]
        exact hperm.append_right _

theorem sort_perm (f : α → β) (l : List α) : (sort f l).Perm l ∧ Sorted f (sort f l) := by
  cases hl : l with
  | nil => exact ⟨List.Perm.refl _, List.Pairwise.nil⟩
  | cons a l' =>
      rw [← hl]
      have hlength : l.length = l'.length + 1 := by rw [hl, List.length_cons]
      obtain ⟨A, hA, hperm, hsorted⟩ := sortTo_spec f l (n := l'.length) (by omega)
      rw [← hlength, List.drop_length, List.append_nil] at hA
      rw [← hlength, List.take_length] at hperm
      rw [sort, hA]
      exact ⟨hperm, hsorted⟩

end InsertionSort
