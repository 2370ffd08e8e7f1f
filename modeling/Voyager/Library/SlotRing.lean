import Mathlib.Data.Fin.Basic
import Mathlib.Data.List.Induction
import Mathlib.Data.Nat.ModEq
import Mathlib.Logic.Function.Basic

/-!
# Slots written in turn

A ring has a fixed number of slots and a cursor. A push writes the slot under the
cursor, whatever it holds, and moves the cursor on. A value can also be erased, which
leaves a hole that the cursor does not look for, and the whole ring can be cleared. A
value is in the ring while it was pushed after the last clear, not erased since, and
fewer values than there are slots were pushed after it: this is read off the history of
the operations alone.
-/

/-- Slots, and the one the next push writes. -/
structure SlotRing (α : Type*) (n : ℕ) where
  slots : Fin n → Option α
  next : Fin n

namespace SlotRing

/-- What can happen to a ring. -/
inductive Op (α : Type*)
  | push (a : α)
  | erase (a : α)
  | clear
  deriving DecidableEq

section Operations

variable {α : Type*} {n : ℕ} [NeZero n]

def empty : SlotRing α n := { slots := fun _ => none, next := 0 }

/-- Write the slot under the cursor and move the cursor on. -/
def push (r : SlotRing α n) (a : α) : SlotRing α n :=
  { slots := Function.update r.slots r.next (some a), next := r.next + 1 }

/-- Leave a hole wherever the value is. -/
def erase [DecidableEq α] (r : SlotRing α n) (a : α) : SlotRing α n :=
  { r with slots := fun i => if r.slots i = some a then none else r.slots i }

theorem next_push (r : SlotRing α n) (a : α) : (r.push a).next = r.next + 1 := rfl

theorem slots_push_next (r : SlotRing α n) (a : α) : (r.push a).slots r.next = some a :=
  Function.update_self ..

theorem slots_push_of_ne {r : SlotRing α n} {a : α} {i : Fin n} (hi : i ≠ r.next) :
    (r.push a).slots i = r.slots i :=
  Function.update_of_ne hi ..

omit [NeZero n] in
theorem slots_erase_eq_some_iff [DecidableEq α] {r : SlotRing α n} {a b : α} {i : Fin n} :
    (r.erase b).slots i = some a ↔ r.slots i = some a ∧ a ≠ b := by
  rw [erase]
  dsimp only
  split
  · rename_i h
    rw [h, Option.some.injEq]
    constructor
    · exact fun hnone => absurd hnone.symm (Option.some_ne_none a)
    · rintro ⟨rfl, hne⟩
      exact absurd rfl hne
  · rename_i h
    constructor
    · exact fun hi => ⟨hi, fun hab => h (hab ▸ hi)⟩
    · exact And.left

end Operations

/-! ## Histories -/

section Histories

variable {α : Type*}

def Op.isPush : Op α → Bool
  | .push _ => true
  | _ => false

/-- The number of pushes since the last clear. -/
def pushes (ops : List (Op α)) : ℕ :=
  ops.foldl (fun k op => if op.isPush then k + 1 else if op matches .clear then 0 else k) 0

@[simp] theorem pushes_nil : pushes ([] : List (Op α)) = 0 := rfl

@[simp] theorem pushes_append_push (ops : List (Op α)) (a : α) :
    pushes (ops ++ [.push a]) = pushes ops + 1 := by
  rw [pushes, List.foldl_append]
  rfl

@[simp] theorem pushes_append_erase (ops : List (Op α)) (a : α) :
    pushes (ops ++ [.erase a]) = pushes ops := by
  rw [pushes, List.foldl_append]
  rfl

@[simp] theorem pushes_append_clear (ops : List (Op α)) : pushes (ops ++ [.clear]) = 0 := by
  rw [pushes, List.foldl_append]
  rfl

/-- The operations after the push of a value that leave it in a ring of `n` slots. -/
structure Survives (n : ℕ) (a : α) (after : List (Op α)) : Prop where
  clear : .clear ∉ after
  erase : .erase a ∉ after
  few : after.countP Op.isPush < n

theorem pushes_append_of_survives {n : ℕ} {a : α} {after : List (Op α)} (h : Survives n a after)
    (before : List (Op α)) :
    pushes (before ++ .push a :: after) = pushes before + 1 + after.countP Op.isPush := by
  have hclear := h.clear
  clear h
  induction after using List.reverseRecOn with
  | nil => exact pushes_append_push before a
  | append_singleton after op ih =>
      rw [List.mem_append, not_or] at hclear
      rw [← List.cons_append, ← List.append_assoc, List.countP_append, ← Nat.add_assoc,
        ← ih hclear.1]
      cases op with
      | push b => exact pushes_append_push _ b
      | erase b => exact pushes_append_erase _ b
      | clear => exact absurd List.mem_cons_self hclear.2

/-- Where the last element of a list stands when the list is split at an element. -/
theorem append_singleton_eq_append_cons_iff {β : Type*} {xs before after : List β} {x y : β} :
    xs ++ [y] = before ++ x :: after ↔
      (after = [] ∧ xs = before ∧ y = x) ∨
        ∃ after', after = after' ++ [y] ∧ xs = before ++ x :: after' := by
  constructor
  · intro h
    rcases List.eq_nil_or_concat after with rfl | ⟨after', z, rfl⟩
    · obtain ⟨hxs, hy⟩ := List.append_inj' h rfl
      exact .inl ⟨rfl, hxs, List.singleton_inj.mp hy⟩
    · rw [List.concat_eq_append, ← List.cons_append, ← List.append_assoc] at h
      obtain ⟨hxs, hy⟩ := List.append_inj' h rfl
      obtain rfl := List.singleton_inj.mp hy
      exact .inr ⟨after', List.concat_eq_append, hxs⟩
  · rintro (⟨rfl, rfl, rfl⟩ | ⟨after', rfl, rfl⟩)
    · rfl
    · rw [List.append_assoc, List.cons_append]

end Histories

section Replay

variable {α : Type*} [DecidableEq α] {n : ℕ} [NeZero n]

def apply (r : SlotRing α n) : Op α → SlotRing α n
  | .push a => r.push a
  | .erase a => r.erase a
  | .clear => empty

/-- The ring after the operations, the oldest first. -/
def replay (ops : List (Op α)) : SlotRing α n := ops.foldl apply empty

@[simp] theorem replay_nil : (replay [] : SlotRing α n) = empty := rfl

theorem replay_append_singleton (ops : List (Op α)) (op : Op α) :
    (replay (ops ++ [op]) : SlotRing α n) = (replay ops).apply op := by
  rw [replay, replay, List.foldl_append, List.foldl_cons, List.foldl_nil]

/-- The cursor counts the pushes. -/
theorem next_replay (ops : List (Op α)) :
    ((replay ops : SlotRing α n).next : ℕ) = pushes ops % n := by
  induction ops using List.reverseRecOn with
  | nil => exact (Nat.zero_mod n).symm
  | append_singleton ops op ih =>
      rw [replay_append_singleton]
      cases op with
      | push a =>
          rw [apply, next_push, Fin.val_add, ih, Fin.coe_ofNat_eq_mod, pushes_append_push,
            Nat.add_mod_mod, Nat.mod_add_mod]
      | erase a =>
          rw [pushes_append_erase]
          exact ih
      | clear =>
          rw [pushes_append_clear]
          exact (Nat.zero_mod n).symm

/-- What a slot holds: a value that was pushed when it was the slot's turn, and that nothing
has driven out since. -/
theorem slots_replay_eq_some_iff {ops : List (Op α)} {i : Fin n} {a : α} :
    (replay ops).slots i = some a ↔
      ∃ before after, ops = before ++ .push a :: after ∧ Survives n a after ∧
        pushes before % n = i := by
  induction ops using List.reverseRecOn generalizing a with
  | nil => simp [empty]
  | append_singleton ops op ih =>
      rw [replay_append_singleton]
      have hn : 0 < n := Nat.pos_of_ne_zero (NeZero.ne n)
      have hnext := next_replay (n := n) ops
      have hzero : Survives n a [] :=
        ⟨List.not_mem_nil, List.not_mem_nil, hn⟩
      cases op with
      | push b =>
          rw [apply]
          by_cases hi : i = (replay ops).next
          · -- the slot just written: what survived longer has another slot
            rw [hi, slots_push_next, Option.some.injEq]
            constructor
            · rintro rfl
              exact ⟨ops, [], rfl, hzero, hnext.symm⟩
            · rintro ⟨before, after, hsplit, hsurvives, hturn⟩
              rcases append_singleton_eq_append_cons_iff.mp hsplit with
                ⟨-, -, hop⟩ | ⟨after', rfl, rfl⟩
              · exact Op.push.inj hop
              · exfalso
                have hfew := hsurvives.few
                rw [List.countP_append] at hfew
                have hone : [Op.push b].countP Op.isPush = 1 := rfl
                have hprefix : Survives n a after' :=
                  ⟨fun h => hsurvives.clear (List.mem_append_left _ h),
                    fun h => hsurvives.erase (List.mem_append_left _ h), by omega⟩
                rw [pushes_append_of_survives hprefix] at hnext
                have hdvd : n ∣ pushes before + 1 + after'.countP Op.isPush - pushes before :=
                  (Nat.modEq_iff_dvd' (by omega)).mp (hturn.trans hnext)
                have hle := Nat.le_of_dvd (by omega) hdvd
                omega
          · rw [slots_push_of_ne hi, ih]
            have hne : (i : ℕ) ≠ pushes ops % n := fun h => hi (Fin.ext (h.trans hnext.symm))
            constructor
            · rintro ⟨before, after, rfl, hsurvives, hturn⟩
              refine ⟨before, after ++ [.push b], by simp, ⟨?_, ?_, ?_⟩, hturn⟩
              · simpa using hsurvives.clear
              · simpa using hsurvives.erase
              · -- the slot would be the one just written
                have hone : [Op.push b].countP Op.isPush = 1 := rfl
                rw [List.countP_append, hone]
                have hfew := hsurvives.few
                have hlast : after.countP Op.isPush + 1 ≠ n := by
                  intro hfull
                  rw [pushes_append_of_survives hsurvives, Nat.add_assoc, Nat.add_comm 1, hfull,
                    Nat.add_mod_right] at hne
                  exact hne hturn.symm
                omega
            · rintro ⟨before, after, hsplit, hsurvives, hturn⟩
              rcases append_singleton_eq_append_cons_iff.mp hsplit with
                ⟨-, rfl, -⟩ | ⟨after', rfl, rfl⟩
              · exact absurd hturn.symm hne
              · refine ⟨before, after', rfl, ⟨?_, ?_, ?_⟩, hturn⟩
                · exact fun h => hsurvives.clear (List.mem_append_left _ h)
                · exact fun h => hsurvives.erase (List.mem_append_left _ h)
                · have hfew := hsurvives.few
                  rw [List.countP_append] at hfew
                  exact Nat.lt_of_le_of_lt (Nat.le_add_right _ _) hfew
      | erase b =>
          rw [apply, slots_erase_eq_some_iff, ih]
          constructor
          · rintro ⟨⟨before, after, rfl, hsurvives, hturn⟩, hne⟩
            refine ⟨before, after ++ [.erase b], by simp, ⟨?_, ?_, ?_⟩, hturn⟩
            · simpa using hsurvives.clear
            · simpa using ⟨hsurvives.erase, hne⟩
            · rw [List.countP_append]
              exact hsurvives.few
          · rintro ⟨before, after, hsplit, hsurvives, hturn⟩
            rcases append_singleton_eq_append_cons_iff.mp hsplit with
              ⟨-, -, hop⟩ | ⟨after', rfl, rfl⟩
            · cases hop
            · refine ⟨⟨before, after', rfl, ⟨?_, ?_, ?_⟩, hturn⟩, ?_⟩
              · exact fun h => hsurvives.clear (List.mem_append_left _ h)
              · exact fun h => hsurvives.erase (List.mem_append_left _ h)
              · have hfew := hsurvives.few
                rw [List.countP_append] at hfew
                exact hfew
              · rintro rfl
                exact hsurvives.erase (List.mem_append_right _ List.mem_cons_self)
      | clear =>
          constructor
          · exact fun h => absurd h.symm (Option.some_ne_none a)
          · rintro ⟨before, after, hsplit, hsurvives, -⟩
            rcases append_singleton_eq_append_cons_iff.mp hsplit with
              ⟨-, -, hop⟩ | ⟨after', rfl, -⟩
            · cases hop
            · exact absurd (List.mem_append_right _ List.mem_cons_self) hsurvives.clear

/-- A ring holds a value while some push of it survives. -/
theorem exists_slots_replay_iff {ops : List (Op α)} {a : α} :
    (∃ i : Fin n, (replay ops).slots i = some a) ↔
      ∃ before after, ops = before ++ .push a :: after ∧ Survives n a after := by
  constructor
  · rintro ⟨i, hi⟩
    obtain ⟨before, after, hsplit, hsurvives, -⟩ := slots_replay_eq_some_iff.mp hi
    exact ⟨before, after, hsplit, hsurvives⟩
  · rintro ⟨before, after, hsplit, hsurvives⟩
    exact ⟨⟨pushes before % n, Nat.mod_lt _ (Nat.pos_of_ne_zero (NeZero.ne n))⟩,
      slots_replay_eq_some_iff.mpr ⟨before, after, hsplit, hsurvives, rfl⟩⟩

end Replay

/-! ## Pushes alone -/

section Pushes

variable {α : Type*} [DecidableEq α] {n : ℕ} [NeZero n]

/-- The ring after the pushes `as`. -/
def ofList (as : List α) : SlotRing α n := replay (as.map .push)

theorem ofList_append_singleton (as : List α) (a : α) :
    (ofList (as ++ [a]) : SlotRing α n) = (ofList as).push a := by
  rw [ofList, ofList, List.map_append]
  exact replay_append_singleton _ _

omit [DecidableEq α] in
theorem pushes_map_push (as : List α) : pushes (as.map Op.push) = as.length := by
  induction as using List.reverseRecOn with
  | nil => rfl
  | append_singleton as a ih =>
      rw [List.map_append, List.length_append, ← ih]
      exact pushes_append_push _ a

omit [DecidableEq α] [NeZero n] in
theorem survives_map_push {a : α} {as : List α} :
    Survives n a (as.map .push) ↔ as.length < n := by
  have hcount : (as.map Op.push).countP Op.isPush = as.length := by
    rw [List.countP_map]
    exact List.countP_eq_length.mpr fun _ _ => rfl
  constructor
  · exact fun h => hcount ▸ h.few
  · exact fun h => ⟨by simp, by simp, hcount.symm ▸ h⟩

theorem next_ofList (as : List α) : ((ofList as : SlotRing α n).next : ℕ) = as.length % n := by
  rw [ofList, next_replay, pushes_map_push]

/-- What a slot holds was pushed at a number that belongs to the slot, and is among the
last `n` values pushed. -/
theorem slots_ofList_eq_some_iff {as : List α} {i : Fin n} {a : α} :
    (ofList as).slots i = some a ↔
      ∃ j, as[j]? = some a ∧ j % n = i ∧ as.length ≤ j + n := by
  rw [ofList, slots_replay_eq_some_iff]
  constructor
  · rintro ⟨before, after, hsplit, hsurvives, hturn⟩
    obtain ⟨as₁, as₂, rfl, rfl, has₂⟩ := List.map_eq_append_iff.mp hsplit
    obtain ⟨a', as₃, rfl, ha, rfl⟩ := List.map_eq_cons_iff.mp has₂
    obtain rfl := Op.push.inj ha
    have hfew := survives_map_push.mp hsurvives
    rw [pushes_map_push] at hturn
    refine ⟨as₁.length, ?_, hturn, ?_⟩
    · rw [List.getElem?_append_right le_rfl, Nat.sub_self, List.getElem?_cons_zero]
    · rw [List.length_append, List.length_cons]
      exact Nat.add_le_add_left hfew _
  · rintro ⟨j, hj, hturn, hle⟩
    obtain ⟨hlt, rfl⟩ := List.getElem?_eq_some_iff.mp hj
    refine ⟨(as.take j).map .push, (as.drop (j + 1)).map .push, ?_, ?_, ?_⟩
    · rw [← List.map_cons, ← List.map_append, ← List.drop_eq_getElem_cons hlt,
        List.take_append_drop]
    · rw [survives_map_push, List.length_drop]
      omega
    · rw [pushes_map_push, List.length_take_of_le hlt.le, hturn]

/-- Each of the last `n` values pushed is in the slot of its number. -/
theorem slots_ofList_of_getElem? {as : List α} {j : ℕ} {a : α} (hj : as[j]? = some a)
    (hle : as.length ≤ j + n) :
    (ofList as).slots ⟨j % n, Nat.mod_lt j (Nat.pos_of_ne_zero (NeZero.ne n))⟩ = some a :=
  slots_ofList_eq_some_iff.mpr ⟨j, hj, rfl, hle⟩

/-- A ring holds the last `n` values pushed. -/
theorem exists_slots_ofList_iff {as : List α} {a : α} :
    (∃ i : Fin n, (ofList as).slots i = some a) ↔ a ∈ as.drop (as.length - n) := by
  rw [List.mem_iff_getElem?]
  constructor
  · rintro ⟨i, hi⟩
    obtain ⟨j, hj, -, hle⟩ := slots_ofList_eq_some_iff.mp hi
    refine ⟨j - (as.length - n), ?_⟩
    rw [List.getElem?_drop, Nat.add_sub_cancel' (by omega), hj]
  · rintro ⟨j, hj⟩
    rw [List.getElem?_drop] at hj
    exact ⟨_, slots_ofList_of_getElem? hj (by omega)⟩

/-- The slots fill up from the first one. -/
theorem slots_ofList_isSome_iff {as : List α} {i : Fin n} :
    ((ofList as).slots i).isSome = true ↔ (i : ℕ) < as.length := by
  rw [Option.isSome_iff_exists]
  constructor
  · rintro ⟨a, ha⟩
    obtain ⟨j, hj, hmod, -⟩ := slots_ofList_eq_some_iff.mp ha
    have hlt := (List.getElem?_eq_some_iff.mp hj).1
    exact lt_of_le_of_lt (hmod ▸ Nat.mod_le j n) hlt
  · intro hi
    -- the last number below the length that belongs to the slot
    have hn : 0 < n := Nat.pos_of_ne_zero (NeZero.ne n)
    have hdiv := Nat.div_add_mod (as.length - 1 - i) n
    have hmod := Nat.mod_lt (as.length - 1 - i) hn
    have hlt : i + n * ((as.length - 1 - i) / n) < as.length := by omega
    refine ⟨as[i + n * ((as.length - 1 - i) / n)], slots_ofList_eq_some_iff.mpr
      ⟨i + n * ((as.length - 1 - i) / n), List.getElem?_eq_getElem hlt, ?_, by omega⟩⟩
    rw [Nat.add_mul_mod_self_left, Nat.mod_eq_of_lt i.isLt]

end Pushes

end SlotRing
