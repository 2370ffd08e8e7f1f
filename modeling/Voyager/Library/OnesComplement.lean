import Mathlib.Algebra.Ring.Int.Defs
import Mathlib.Algebra.Ring.Divisibility.Basic
import Mathlib.Data.List.GetD
import Mathlib.Tactic.LinearCombination
import Mathlib.Tactic.Ring
import Mathlib.Tactic.Zify

/-!
# One's-complement sums

A one's-complement sum of digits of base `b` adds every carry back in at the low end. It is a
residue modulo `b - 1` in which the class of zero has two names, `0` and `b - 1`, and the
first of them is reached from the number `0` only.

The words summed are made of two smaller digits each, of base `b`, so a digit counts `b`
times or once, by whether it stands at an even or at an odd place of the list.
-/

namespace OnesComplement

/-- Adds the carries back in until one digit of base `b` is left. -/
def fold (b s : ℕ) : ℕ :=
  if _h : 2 ≤ b ∧ b ≤ s then fold b (s % b + s / b) else s
termination_by s
decreasing_by
  have hdiv := Nat.div_add_mod s b
  have hpos : 0 < s / b := Nat.div_pos _h.2 (by omega)
  have htwice : 2 * (s / b) ≤ b * (s / b) := Nat.mul_le_mul_right _ _h.1
  omega

theorem fold_of_lt {b s : ℕ} (h : s < b) : fold b s = s := by
  rw [fold, dif_neg]
  omega

theorem fold_of_le {b s : ℕ} (hb : 2 ≤ b) (h : b ≤ s) : fold b s = fold b (s % b + s / b) := by
  rw [fold, dif_pos ⟨hb, h⟩]

theorem fold_lt {b : ℕ} (hb : 2 ≤ b) (s : ℕ) : fold b s < b := by
  induction s using fold.induct b with
  | case1 s h ih =>
      rw [fold_of_le hb h.2]
      exact ih
  | case2 s h =>
      have hlt : s < b := by omega
      rwa [fold_of_lt hlt]

theorem fold_pos {b : ℕ} (hb : 2 ≤ b) {s : ℕ} (hs : 0 < s) : 0 < fold b s := by
  induction s using fold.induct b with
  | case1 s h ih =>
      rw [fold_of_le hb h.2]
      apply ih
      have hdiv : 0 < s / b := Nat.div_pos h.2 (by omega)
      exact Nat.add_pos_right _ hdiv
  | case2 s h =>
      have hlt : s < b := by omega
      rwa [fold_of_lt hlt]

/-- A carry is worth one at the low end. -/
theorem fold_sub_dvd {b : ℕ} (hb : 2 ≤ b) (s : ℕ) : ((b : ℤ) - 1) ∣ (fold b s : ℤ) - s := by
  induction s using fold.induct b with
  | case1 s h ih =>
      obtain ⟨k, hk⟩ := ih
      have hdiv : ((s % b : ℕ) : ℤ) + b * (s / b : ℕ) = s := by exact_mod_cast Nat.mod_add_div s b
      push_cast at hk hdiv
      rw [fold_of_le hb h.2]
      exact ⟨k - (s / b : ℕ), by push_cast; linear_combination hk + hdiv⟩
  | case2 s h =>
      have hlt : s < b := by omega
      rw [fold_of_lt hlt, sub_self]
      exact dvd_zero _

/-- All digits full is how a sum of zero shows, unless everything summed is zero. -/
theorem fold_eq_pred_iff {b : ℕ} (hb : 2 ≤ b) {s : ℕ} (hs : 0 < s) :
    fold b s = b - 1 ↔ ((b : ℤ) - 1) ∣ s := by
  have hlt := fold_lt hb s
  have hpos := fold_pos hb hs
  rw [← dvd_iff_dvd_of_dvd_sub (fold_sub_dvd hb s)]
  constructor
  · intro h
    have hcast : (fold b s : ℤ) = (b : ℤ) - 1 := by omega
    rw [hcast]
  · intro h
    have hle : (b : ℤ) - 1 ≤ fold b s := Int.le_of_dvd (by exact_mod_cast hpos) h
    omega

/-! ## Sums of words of two digits -/

/-- The sum of the words of a list of digits of base `b`: two digits a word, the high digit
first, and a last digit alone is a high one. -/
def pairSum (b : ℕ) : List ℕ → ℕ
  | [] => 0
  | [hi] => hi * b
  | hi :: lo :: rest => hi * b + lo + pairSum b rest

/-- What the digit at a place counts for. -/
def weight (b i : ℕ) : ℕ := if i % 2 = 0 then b else 1

theorem weight_of_even (b : ℕ) {i : ℕ} (h : i % 2 = 0) : weight b i = b := if_pos h

theorem weight_of_odd (b : ℕ) {i : ℕ} (h : i % 2 = 1) : weight b i = 1 := by
  rw [weight, if_neg]
  rw [h]
  exact Nat.one_ne_zero

@[simp] theorem weight_zero (b : ℕ) : weight b 0 = b := rfl

@[simp] theorem weight_one (b : ℕ) : weight b 1 = 1 := rfl

theorem weight_add_two (b i : ℕ) : weight b (i + 2) = weight b i := by
  rw [weight, weight, Nat.add_mod_right]

/-- A digit written over another changes the sum by its weight. -/
theorem pairSum_set (b : ℕ) (ds : List ℕ) (i d : ℕ) (h : i < ds.length) :
    pairSum b (ds.set i d) + weight b i * ds[i] = pairSum b ds + weight b i * d := by
  induction ds using pairSum.induct generalizing i with
  | case1 => simp at h
  | case2 hi =>
      have hi0 : i = 0 := by simpa using h
      subst hi0
      simp only [List.set_cons_zero, pairSum, List.getElem_cons_zero, weight_zero]
      ring
  | case3 hi lo rest ih =>
      match i with
      | 0 =>
          simp only [List.set_cons_zero, pairSum, List.getElem_cons_zero, weight_zero]
          ring
      | 1 =>
          simp only [List.set_cons_succ, List.set_cons_zero, pairSum, List.getElem_cons_succ,
            List.getElem_cons_zero, weight_one]
          ring
      | i + 2 =>
          have hrest : i < rest.length := by simpa using h
          have hset := ih i hrest
          simp only [List.set_cons_succ, pairSum, List.getElem_cons_succ, weight_add_two]
          linear_combination hset

/-- A word off the boundary counts `b` times: the carry of its low digit comes round. -/
theorem weight_word_dvd (b i : ℕ) (hi lo : ℤ) :
    ((b * b : ℕ) : ℤ) - 1 ∣
      (weight b i * hi + weight b (i + 1) * lo) - weight b (i + 1) * (hi * b + lo) := by
  rcases Nat.mod_two_eq_zero_or_one i with h | h
  · rw [weight_of_even b h, weight_of_odd b (by omega : (i + 1) % 2 = 1)]
    exact ⟨0, by push_cast; ring⟩
  · rw [weight_of_odd b h, weight_of_even b (by omega : (i + 1) % 2 = 0)]
    exact ⟨-hi, by push_cast; ring⟩

/-- The word at a place of a list of digits. -/
def wordAt (b : ℕ) (ds : List ℕ) (i : ℕ) : ℕ := ds.getD i 0 * b + ds.getD (i + 1) 0

/-- A word written at a place of a list of digits. -/
def setWord (ds : List ℕ) (i hi lo : ℕ) : List ℕ := (ds.set i hi).set (i + 1) lo

@[simp] theorem length_setWord (ds : List ℕ) (i hi lo : ℕ) :
    (setWord ds i hi lo).length = ds.length := by
  rw [setWord, List.length_set, List.length_set]

/-- A word before the one that was written is as it was. -/
theorem wordAt_setWord_of_lt (b : ℕ) (ds : List ℕ) {c i : ℕ} (h : c + 1 < i) (hi lo : ℕ) :
    wordAt b (setWord ds i hi lo) c = wordAt b ds c := by
  have hget : ∀ k, k ≤ c + 1 → (setWord ds i hi lo).getD k 0 = ds.getD k 0 := by
    intro k hk
    rw [setWord, List.getD_eq_getElem?_getD, List.getD_eq_getElem?_getD,
      List.getElem?_set_ne (by omega), List.getElem?_set_ne (by omega)]
  rw [wordAt, wordAt, hget c (Nat.le_succ c), hget (c + 1) (Nat.le_refl _)]

/-- A word written over another, wherever it stands. -/
theorem pairSum_setWord_dvd (b : ℕ) {ds : List ℕ} {i : ℕ} (h : i + 1 < ds.length) (hi lo : ℕ) :
    ((b * b : ℕ) : ℤ) - 1 ∣
      (pairSum b (setWord ds i hi lo) - pairSum b ds : ℤ) -
        weight b (i + 1) * ((hi * b + lo : ℕ) - wordAt b ds i) := by
  have hi_lt : i < ds.length := by omega
  have hfirst := pairSum_set b ds i hi hi_lt
  have hsecond := pairSum_set b (ds.set i hi) (i + 1) lo (by rwa [List.length_set])
  rw [List.getElem_set_ne (by omega)] at hsecond
  obtain ⟨k, hk⟩ := weight_word_dvd b i hi lo
  obtain ⟨l, hl⟩ := weight_word_dvd b i ds[i] ds[i + 1]
  rw [setWord, wordAt, List.getD_eq_getElem _ _ hi_lt, List.getD_eq_getElem _ _ h]
  zify at hfirst hsecond
  exact ⟨k - l, by push_cast at hk hl ⊢; linear_combination hfirst + hsecond + hk - hl⟩

/-! ## A checksum kept up to date -/

/-- The checksum after one word of what it covers has changed from `old` to `new`: the
complement of the sum of the complement of the checksum, that of the old word, and the new
word. -/
def update (b hc old new : ℕ) : ℕ := b - 1 - fold b ((b - 1 - hc) + (b - 1 - old) + new)

/-- Checksum and word together keep their sum. -/
theorem update_dvd {b : ℕ} (hb : 2 ≤ b) {hc old : ℕ} (hhc : hc < b) (hold : old < b) (new : ℕ) :
    (b : ℤ) - 1 ∣ ((update b hc old new : ℤ) - hc) + (new - old) := by
  have hlt := fold_lt hb ((b - 1 - hc) + (b - 1 - old) + new)
  obtain ⟨k, hk⟩ := fold_sub_dvd hb ((b - 1 - hc) + (b - 1 - old) + new)
  have hcast : (((b - 1 - hc) + (b - 1 - old) + new : ℕ) : ℤ) =
      (b - 1 - hc) + (b - 1 - old) + new := by omega
  have hupdate : (update b hc old new : ℤ) =
      b - 1 - fold b ((b - 1 - hc) + (b - 1 - old) + new) := by
    rw [update]
    omega
  rw [hcast] at hk
  exact ⟨-1 - k, by rw [hupdate]; linear_combination -hk⟩

/-- What the update is good for: the word at `i` and the checksum, at the even place `c`
before it, both change, and a sum of zero stays one exactly when the word stands at an even
place too or `b + 1` divides the change. -/
theorem dvd_pairSum_update_iff {b : ℕ} (hb : 2 ≤ b) {ds : List ℕ} {i c hi lo chi clo : ℕ}
    (hi_lt : i + 1 < ds.length) (hc_lt : c + 1 < i) (hc_even : c % 2 = 0)
    (hsum_lt : wordAt b ds c < b * b) (hold_lt : wordAt b ds i < b * b)
    (hupdate : chi * b + clo = update (b * b) (wordAt b ds c) (wordAt b ds i) (hi * b + lo))
    {rest : ℕ} (hsum : ((b * b : ℕ) : ℤ) - 1 ∣ (rest + pairSum b ds : ℕ)) :
    ((b * b : ℕ) : ℤ) - 1 ∣
        (rest + pairSum b (setWord (setWord ds i hi lo) c chi clo) : ℕ) ↔
      i % 2 = 0 ∨ (b : ℤ) + 1 ∣ (hi * b + lo : ℕ) - (wordAt b ds i : ℕ) := by
  have hpos : 2 ≤ b * b := Nat.le_trans hb (Nat.le_mul_of_pos_left b (by omega))
  have hword := pairSum_setWord_dvd b hi_lt hi lo
  have hc_lt' : c + 1 < (setWord ds i hi lo).length := by
    rw [length_setWord]
    omega
  have hcheck := pairSum_setWord_dvd b hc_lt' chi clo
  rw [wordAt_setWord_of_lt b ds hc_lt, hupdate, weight_of_odd b (by omega), Nat.cast_one,
    one_mul] at hcheck
  have hkeep := update_dvd hpos hsum_lt hold_lt (hi * b + lo)
  -- what the two changes leave of the sum
  have hleft : ((b * b : ℕ) : ℤ) - 1 ∣
      (rest + pairSum b (setWord (setWord ds i hi lo) c chi clo) : ℕ) -
        (weight b (i + 1) - 1) * ((hi * b + lo : ℕ) - (wordAt b ds i : ℤ)) := by
    obtain ⟨k, hk⟩ := hword
    obtain ⟨l, hl⟩ := hcheck
    obtain ⟨m, hm⟩ := hkeep
    obtain ⟨n, hn⟩ := hsum
    exact ⟨k + l + m + n, by push_cast at hk hl hm hn ⊢; linear_combination hk + hl + hm + hn⟩
  rw [dvd_iff_dvd_of_dvd_sub hleft]
  rcases Nat.mod_two_eq_zero_or_one i with h | h
  · rw [weight_of_odd b (by omega), Nat.cast_one, sub_self, zero_mul]
    exact iff_of_true (dvd_zero _) (.inl h)
  · have hsplit : ((b * b : ℕ) : ℤ) - 1 = ((b : ℤ) - 1) * ((b : ℤ) + 1) := by push_cast; ring
    have hne : (b : ℤ) - 1 ≠ 0 := by omega
    rw [weight_of_even b (by omega), hsplit, mul_dvd_mul_iff_left hne]
    exact ⟨.inr, fun hor => hor.resolve_left (by omega)⟩

end OnesComplement
