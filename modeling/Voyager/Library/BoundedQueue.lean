import Mathlib.Data.List.Basic

/-!
# Bounded queues

A queue between two tasks that holds at most `depth` items. Sending to a full
queue fails at once, receiving takes the oldest item.
-/

/-- A first-in first-out queue of at most `depth` items, the oldest first. -/
@[ext] structure BoundedQueue (α : Type*) (depth : ℕ) where
  items : List α
  length_le : items.length ≤ depth

namespace BoundedQueue

variable {α : Type*} {depth : ℕ}

/-- A queue after its creation or a reset. -/
def empty : BoundedQueue α depth := { items := [], length_le := Nat.zero_le depth }

/-- There is room for one more item. -/
def HasRoom (q : BoundedQueue α depth) : Prop := q.items.length < depth

instance (q : BoundedQueue α depth) : Decidable q.HasRoom :=
  inferInstanceAs (Decidable (_ < _))

/-- The number of free slots. -/
def spaces (q : BoundedQueue α depth) : ℕ := depth - q.items.length

/-- Append an item, unless the queue is full. -/
def send (q : BoundedQueue α depth) (a : α) : Option (BoundedQueue α depth) :=
  if h : q.HasRoom then
    some { items := q.items ++ [a], length_le := by rw [List.length_append]; exact h }
  else none

/-- The oldest item and the queue without it. -/
def receive (q : BoundedQueue α depth) : Option (α × BoundedQueue α depth) :=
  match h : q.items with
  | [] => none
  | a :: rest =>
      have hle : (a :: rest).length ≤ depth := by rw [← h]; exact q.length_le
      some (a, { items := rest, length_le := Nat.le_of_succ_le hle })

@[simp] theorem items_empty : (empty : BoundedQueue α depth).items = [] := rfl

/-- Sending appends, and needs room. -/
theorem send_eq_some_iff {q q' : BoundedQueue α depth} {a : α} :
    q.send a = some q' ↔ q.HasRoom ∧ q'.items = q.items ++ [a] := by
  unfold send
  split
  · rename_i h
    rw [Option.some.injEq]
    constructor
    · rintro rfl
      exact ⟨h, rfl⟩
    · rintro ⟨-, hitems⟩
      exact BoundedQueue.ext hitems.symm
  · rename_i h
    simp [h]

theorem send_eq_none_iff {q : BoundedQueue α depth} {a : α} :
    q.send a = none ↔ ¬ q.HasRoom := by
  unfold send
  split <;> simp_all

theorem HasRoom.exists_send {q : BoundedQueue α depth} (h : q.HasRoom) (a : α) :
    ∃ q', q.send a = some q' ∧ q'.items = q.items ++ [a] :=
  ⟨_, dif_pos h, rfl⟩

@[simp] theorem spaces_empty : (empty : BoundedQueue α depth).spaces = depth := rfl

theorem hasRoom_iff {q : BoundedQueue α depth} : q.HasRoom ↔ 0 < q.spaces :=
  Nat.sub_pos_iff_lt.symm

/-- Sending takes a slot. -/
theorem spaces_of_send {q q' : BoundedQueue α depth} {a : α} (h : q.send a = some q') :
    q.spaces = q'.spaces + 1 := by
  obtain ⟨hroom, hitems⟩ := send_eq_some_iff.mp h
  unfold HasRoom at hroom
  rw [spaces, spaces, hitems, List.length_append, List.length_singleton]
  omega

/-- Receiving takes the head. -/
theorem receive_eq_some_iff {q q' : BoundedQueue α depth} {a : α} :
    q.receive = some (a, q') ↔ q.items = a :: q'.items := by
  obtain ⟨items, hle⟩ := q
  obtain ⟨items', hle'⟩ := q'
  cases items with
  | nil => simp [receive]
  | cons b rest => simp [receive]

/-- Receiving frees a slot. -/
theorem spaces_of_receive {q q' : BoundedQueue α depth} {a : α} (h : q.receive = some (a, q')) :
    q'.spaces = q.spaces + 1 := by
  have hitems := receive_eq_some_iff.mp h
  have hle := q.length_le
  rw [hitems, List.length_cons] at hle
  rw [spaces, spaces, hitems, List.length_cons]
  omega

end BoundedQueue
