import Voyager.Display.AsciiFold
import Voyager.Library.SlotRing

/-!
# The messages on the display

The display keeps the last five messages in arrays of fixed rows, which are written in turn. The
names and the texts are cut to their rows and folded. What the display reads back is the list of
the last five messages, the newest first.
-/

namespace Voyager

namespace MessageRing

open MemBlock AsciiFold

open WrapText (Text)

/-! ## The code -/

def MSG_RING_SIZE : ℕ := 5

instance : NeZero MSG_RING_SIZE := ⟨by decide⟩

/-- 32 characters and the `NUL`. -/
def MSG_FROM_LEN : ℕ := 33

/-- 96 characters and the `NUL`. -/
def MSG_TEXT_LEN : ℕ := 97

structure MsgRing where
  froms : MemBlock Byte
  texts : MemBlock Byte
  /-- the slot that the next push writes -/
  head : UInt8
  count : UInt8
  total : UInt32

/-- `memset` to zero -/
def zeroed (size : ℕ) : MemBlock Byte := ⟨size, fun k => if k < size then some 0 else none⟩

def ringInit : MsgRing where
  froms := zeroed (MSG_RING_SIZE * MSG_FROM_LEN)
  texts := zeroed (MSG_RING_SIZE * MSG_TEXT_LEN)
  head := 0
  count := 0
  total := 0

/-- The ring with its new row: the cursor moves on. -/
def advance (r : MsgRing) (froms texts : MemBlock Byte) : MsgRing where
  froms := froms
  texts := texts
  head := UInt8.ofNat ((r.head.toNat + 1) % MSG_RING_SIZE)
  count := if r.count.toNat < MSG_RING_SIZE then r.count + 1 else r.count
  total := r.total + 1

def ringPush (r : MsgRing) (sender text : Option Text) : Option MsgRing := do
  let froms ← safeCopy r.froms (r.head.toNat * MSG_FROM_LEN) MSG_FROM_LEN sender
  let texts ← safeCopy r.texts (r.head.toNat * MSG_TEXT_LEN) MSG_TEXT_LEN text
  some (advance r froms texts)

/-- `i = 0` is the newest; `-1` when `i` is out of range. -/
def ringSlot (r : MsgRing) (i : ℤ) : ℤ :=
  if i < 0 ∨ r.count.toNat ≤ i then -1
  else Int.tmod (r.head.toNat + MSG_RING_SIZE - 1 - i) MSG_RING_SIZE

def ringFrom (r : MsgRing) (i : ℤ) : Option (List Byte) :=
  if ringSlot r i < 0 then some [] else r.froms.string 0 ((ringSlot r i).toNat * MSG_FROM_LEN)

def ringText (r : MsgRing) (i : ℤ) : Option (List Byte) :=
  if ringSlot r i < 0 then some [] else r.texts.string 0 ((ringSlot r i).toNat * MSG_TEXT_LEN)

/-- The display task at `CMD_MESSAGE`: push, and fold the newest. -/
def receive (r : MsgRing) (m : Option Text × Option Text) : Option MsgRing := do
  let r ← ringPush r m.1 m.2
  let k := (ringSlot r 0).toNat
  let froms ← asciiFold r.froms (k * MSG_FROM_LEN)
  let texts ← asciiFold r.texts (k * MSG_TEXT_LEN)
  some { r with froms, texts }

/-! ## Rows -/

section Rows

variable {α : Type*} {stride n : ℕ} {b b' : MemBlock Byte} {s : List Byte}

/-- The rows of an array hold the strings `f a` of the values in the slots of a ring. -/
def RowsHold (stride : ℕ) (f : α → List Byte) (ring : SlotRing α n) (b : MemBlock Byte) : Prop :=
  b.size = n * stride ∧ ∀ i a, ring.slots i = some a →
    (f a).length < stride ∧ b.HoldsString 0 ((i : ℕ) * stride) (f a)

/-- Two rows do not overlap. -/
theorem row_le (stride : ℕ) {i j : ℕ} (h : i < j) : i * stride + stride ≤ j * stride := by
  rw [← Nat.succ_mul]
  exact Nat.mul_le_mul_right stride h

/-- Writing the row under the cursor is a push. -/
theorem RowsHold.push [NeZero n] {f : α → List Byte} {ring : SlotRing α n} {a : α}
    (h : RowsHold stride f ring b)
    (hwithin : Within b b' ((ring.next : ℕ) * stride) ((ring.next : ℕ) * stride + stride))
    (hlt : (f a).length < stride) (hrow : b'.HoldsString 0 ((ring.next : ℕ) * stride) (f a)) :
    RowsHold stride f (ring.push a) b' := by
  refine ⟨hwithin.size.trans h.1, fun i a' hi => ?_⟩
  by_cases hnext : i = ring.next
  · subst hnext
    rw [SlotRing.slots_push_next] at hi
    cases hi
    exact ⟨hlt, hrow⟩
  · rw [SlotRing.slots_push_of_ne hnext] at hi
    obtain ⟨hlt', hold⟩ := h.2 i a' hi
    refine ⟨hlt', hwithin.holdsString ?_ hold⟩
    rcases Nat.lt_or_gt_of_ne (fun heq => hnext (Fin.ext heq)) with hbefore | hafter
    · have := row_le stride hbefore
      omega
    · exact .inr (row_le stride hafter)

/-- One row is written and folded. -/
theorem exists_written (hpos : 0 < stride) {k : ℕ} (hin : k * stride + stride ≤ b.size)
    (src : Option Text) :
    ∃ b₁ b₂, safeCopy b (k * stride) stride src = some b₁ ∧
      asciiFold b₁ (k * stride) = some b₂ ∧
      Within b b₂ (k * stride) (k * stride + stride) ∧
      (folded false (copied stride src)).length < stride ∧
      b₂.HoldsString 0 (k * stride) (folded false (copied stride src)) := by
  obtain ⟨b₁, hcopy, hwithin, hstring⟩ := safeCopy_spec hpos hin src
  obtain ⟨b₂, hfold, hwithin', hstring'⟩ := asciiFold_spec hstring
  have hlt := length_copied_lt hpos src
  refine ⟨b₁, b₂, hcopy, hfold, hwithin.trans hwithin' (Nat.le_refl _) (by omega), ?_, hstring'⟩
  exact Nat.lt_of_le_of_lt (length_folded_le false _) hlt

end Rows

/-! ## The ring and the list of messages -/

/-- What the display shows of a name or of a text that has a row of `n` bytes. -/
def shownIn (n : ℕ) (src : Option Text) : List Byte := folded false (copied n src)

def shownMessage (m : Option Text × Option Text) : List Byte × List Byte :=
  (shownIn MSG_FROM_LEN m.1, shownIn MSG_TEXT_LEN m.2)

/-- The `i`-th newest message, when it is among the last five. -/
def newest (ms : List (List Byte × List Byte)) (i : ℤ) : Option (List Byte × List Byte) :=
  if 0 ≤ i ∧ i < MSG_RING_SIZE then ms.reverse[i.toNat]? else none

/-- The ring after the messages that are shown as `ms`. -/
structure Represents (ms : List (List Byte × List Byte)) (r : MsgRing) : Prop where
  froms : RowsHold MSG_FROM_LEN Prod.fst (SlotRing.ofList ms : SlotRing _ MSG_RING_SIZE) r.froms
  texts : RowsHold MSG_TEXT_LEN Prod.snd (SlotRing.ofList ms : SlotRing _ MSG_RING_SIZE) r.texts
  head : r.head.toNat = ms.length % MSG_RING_SIZE
  count : r.count.toNat = min ms.length MSG_RING_SIZE
  total : r.total = UInt32.ofNat ms.length

theorem represents_init : Represents [] ringInit where
  froms := ⟨rfl, fun _ _ h => by cases h⟩
  texts := ⟨rfl, fun _ _ h => by cases h⟩
  head := rfl
  count := rfl
  total := rfl

section Represents

variable {ms : List (List Byte × List Byte)} {r : MsgRing}

theorem toNat_head_advance (r : MsgRing) (froms texts : MemBlock Byte) :
    (advance r froms texts).head.toNat = (r.head.toNat + 1) % MSG_RING_SIZE := by
  have hmod := Nat.mod_lt (r.head.toNat + 1) (by decide : 0 < MSG_RING_SIZE)
  exact toNat_ofNat_of_lt (hmod.trans (by decide))

theorem toNat_count_advance (r : MsgRing) (froms texts : MemBlock Byte) :
    (advance r froms texts).count.toNat =
      if r.count.toNat < MSG_RING_SIZE then r.count.toNat + 1 else r.count.toNat := by
  rw [advance]
  dsimp only
  split
  · next h =>
      rw [UInt8.toNat_add, Nat.mod_eq_of_lt]
      · rfl
      · change r.count.toNat + 1 < 256
        unfold MSG_RING_SIZE at h
        omega
  · rfl

theorem Represents.next (h : Represents ms r) :
    ((SlotRing.ofList ms : SlotRing _ MSG_RING_SIZE).next : ℕ) = r.head.toNat := by
  rw [SlotRing.next_ofList, h.head]

/-- The slot of the `i`-th newest message is the one of its number. -/
theorem Represents.slot (h : Represents ms r) {i : ℕ} (hi : i < min ms.length MSG_RING_SIZE) :
    ringSlot r i = ((ms.length - 1 - i) % MSG_RING_SIZE : ℕ) := by
  have hcount := h.count
  have hhead := h.head
  unfold MSG_RING_SIZE at *
  unfold ringSlot MSG_RING_SIZE
  rw [if_neg (by omega), Int.tmod_eq_emod_of_nonneg (by omega)]
  omega

theorem Represents.slot_of_le (h : Represents ms r) {i : ℤ}
    (hi : i < 0 ∨ min ms.length MSG_RING_SIZE ≤ i) : ringSlot r i = -1 := by
  have hcount := h.count
  exact if_pos (by omega)

/-- The newest message is in the slot that was written last. -/
theorem ringSlot_advance (hhead : r.head.toNat < MSG_RING_SIZE) (froms texts : MemBlock Byte) :
    ringSlot (advance r froms texts) 0 = r.head.toNat := by
  have hnew := toNat_head_advance r froms texts
  have hpos : 0 < (advance r froms texts).count.toNat := by
    rw [toNat_count_advance]
    unfold MSG_RING_SIZE
    split <;> omega
  unfold ringSlot
  unfold MSG_RING_SIZE at *
  rw [if_neg (by omega), Int.tmod_eq_emod_of_nonneg (by omega), hnew]
  omega

/-- One message. -/
theorem Represents.receive (h : Represents ms r) (m : Option Text × Option Text) :
    ∃ r', receive r m = some r' ∧ Represents (ms ++ [shownMessage m]) r' := by
  have hnext := h.next
  have hlt : r.head.toNat < MSG_RING_SIZE := by
    rw [h.head]
    exact Nat.mod_lt _ (by decide)
  have hfromsIn := row_le MSG_FROM_LEN hlt
  have htextsIn := row_le MSG_TEXT_LEN hlt
  rw [← h.froms.1] at hfromsIn
  rw [← h.texts.1] at htextsIn
  obtain ⟨froms₁, froms₂, hcopy, hfold, hwithin, hlength, hstring⟩ :=
    exists_written (by decide) hfromsIn m.1
  obtain ⟨texts₁, texts₂, hcopy', hfold', hwithin', hlength', hstring'⟩ :=
    exists_written (by decide) htextsIn m.2
  have hslot := ringSlot_advance hlt froms₁ texts₁
  refine ⟨{ advance r froms₁ texts₁ with froms := froms₂, texts := texts₂ }, ?_, ?_⟩
  · rw [MessageRing.receive, ringPush, hcopy, hcopy']
    dsimp only [Option.bind_eq_bind, Option.bind_some]
    rw [hslot, Int.toNat_natCast]
    dsimp only [advance]
    rw [hfold, hfold']
    rfl
  · rw [← hnext] at hwithin hstring hwithin' hstring'
    constructor
    · rw [SlotRing.ofList_append_singleton]
      exact h.froms.push hwithin hlength hstring
    · rw [SlotRing.ofList_append_singleton]
      exact h.texts.push hwithin' hlength' hstring'
    · have hhead := toNat_head_advance r froms₁ texts₁
      rw [h.head, Nat.mod_add_mod] at hhead
      rwa [List.length_append, List.length_singleton]
    · have hcount := toNat_count_advance r froms₁ texts₁
      rw [h.count] at hcount
      rw [List.length_append, List.length_singleton]
      refine hcount.trans ?_
      unfold MSG_RING_SIZE
      split <;> omega
    · dsimp only [advance]
      rw [h.total, List.length_append, List.length_singleton, UInt32.ofNat_add]
      rfl

theorem exists_receive (ms : List (Option Text × Option Text)) :
    ∃ r, ms.foldlM MessageRing.receive ringInit = some r ∧ Represents (ms.map shownMessage) r := by
  induction ms using List.reverseRecOn with
  | nil => exact ⟨ringInit, rfl, represents_init⟩
  | append_singleton ms m ih =>
      obtain ⟨r, hr, h⟩ := ih
      obtain ⟨r', hr', h'⟩ := h.receive m
      refine ⟨r', ?_, ?_⟩
      · rw [List.foldlM_append, hr]
        simpa using hr'
      · rw [List.map_append]
        exact h'

/-- The message that is read back is the one of its number, and none beyond the last five. -/
theorem Represents.read (h : Represents ms r) (i : ℤ) :
    ringFrom r i = some ((newest ms i).elim [] Prod.fst) ∧
      ringText r i = some ((newest ms i).elim [] Prod.snd) := by
  unfold newest
  split
  · next hi =>
      by_cases hlt : i.toNat < ms.length
      · obtain ⟨k, rfl⟩ := Int.eq_ofNat_of_zero_le hi.1
        have hk : k < min ms.length MSG_RING_SIZE := by
          rw [Int.toNat_natCast] at hlt
          exact lt_min hlt (by exact_mod_cast hi.2)
        have hslot := h.slot hk
        have hidx : ms.length - 1 - k < ms.length := by omega
        have hget : ms[ms.length - 1 - k]? = some ms[ms.length - 1 - k] :=
          List.getElem?_eq_getElem hidx
        have hrow := SlotRing.slots_ofList_of_getElem? (n := MSG_RING_SIZE) hget (by omega)
        obtain ⟨-, hfrom⟩ := h.froms.2 _ _ hrow
        obtain ⟨-, htext⟩ := h.texts.2 _ _ hrow
        unfold ringFrom ringText
        rw [hslot, if_neg (by omega), if_neg (by omega), Int.toNat_natCast,
          Int.toNat_natCast, List.getElem?_reverse (by omega), hget]
        exact ⟨hfrom.string, htext.string⟩
      · have hslot := h.slot_of_le (i := i) (by unfold MSG_RING_SIZE at *; omega)
        rw [List.getElem?_eq_none (by rw [List.length_reverse]; omega)]
        unfold ringFrom ringText
        rw [hslot]
        exact ⟨rfl, rfl⟩
  · next hi =>
      have hslot := h.slot_of_le (i := i) (by unfold MSG_RING_SIZE at *; omega)
      unfold ringFrom ringText
      rw [hslot]
      exact ⟨rfl, rfl⟩

end Represents

/-- After any messages the display reads back the last five of them, the newest first, each cut to
its row and folded, and nothing beyond them. -/
theorem ring_of_messages (ms : List (Option Text × Option Text)) :
    ∃ r, ms.foldlM receive ringInit = some r ∧ r.count.toNat = min ms.length MSG_RING_SIZE ∧
      r.total = UInt32.ofNat ms.length ∧
      ∀ i : ℤ, ringFrom r i = some ((newest (ms.map shownMessage) i).elim [] Prod.fst) ∧
        ringText r i = some ((newest (ms.map shownMessage) i).elim [] Prod.snd) := by
  obtain ⟨r, hr, h⟩ := exists_receive ms
  have hcount := h.count
  have htotal := h.total
  rw [List.length_map] at hcount htotal
  exact ⟨r, hr, hcount, htotal, h.read⟩

end MessageRing

end Voyager
