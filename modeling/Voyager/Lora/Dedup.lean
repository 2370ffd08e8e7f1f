import Mathlib.Data.Fin.Basic
import Mathlib.Data.List.FinRange
import Voyager.Basic

/-!
# Receiver dedup

A receiver remembers the seq it accepted last from each of `DEDUP_SLOTS` sources,
known by a 32-bit key. An entry counts only while fewer than `DEDUP_WINDOW` packets
have been accepted since. Looking up changes nothing; only a commit takes a slot,
and evicts when all are taken.
-/

namespace Voyager

namespace LoraProto

abbrev DEDUP_SLOTS : ℕ := 4
def DEDUP_WINDOW : UInt32 := 16

structure RxDedupEntry where
  key : UInt32
  /-- `accepted` when the entry was committed. -/
  acceptedAt : UInt32
  seq : Byte
  used : Bool

def RxDedupEntry.empty : RxDedupEntry := { key := 0, acceptedAt := 0, seq := 0, used := false }

/-- The table: `lru` is the slot the next eviction takes, `accepted` the number of
commits so far. -/
structure RxDedupMulti where
  entries : Fin DEDUP_SLOTS → RxDedupEntry
  lru : Fin DEDUP_SLOTS
  accepted : UInt32

def RxDedupMulti.empty : RxDedupMulti :=
  { entries := fun _ => .empty, lru := 0, accepted := 0 }

/-- `hash_mac`; `none` is the null pointer. The string ends at its first zero byte. -/
def hashMac : Option (List Byte) → UInt32
  | none => 1
  | some mac =>
      let chars := mac.takeWhile (· ≠ 0)
      if chars = [] then 1
      else
        let h : UInt32 := chars.foldl (fun h c => ((h <<< 5) + h) ^^^ c.toUInt32) 5381
        if h ≠ 0 then h else 1

/-- `extract_mac_key`. `jsonMac` is what the JSON library makes of the text: the string
under `"mac"`, or `none` when the text is no JSON or has no such string. -/
def extractMacKey (jsonMac : List Byte → Option (List Byte)) (payload : List Byte) : UInt32 :=
  hashMac (jsonMac payload)

/-- The slot of the entry for `key`, if there is one. -/
def rxDedupLookup (d : RxDedupMulti) (key : UInt32) : Option (Fin DEDUP_SLOTS) :=
  (List.finRange DEDUP_SLOTS).find? fun i => (d.entries i).used && (d.entries i).key == key

/-- `rx_dedup_find`: the slot to write for `key`, which is the one it has, else a free one,
else the one whose turn it is. -/
def rxDedupFind (d : RxDedupMulti) (key : UInt32) : Fin DEDUP_SLOTS × RxDedupMulti :=
  match rxDedupLookup d key with
  | some i => (i, d)
  | none =>
      match (List.finRange DEDUP_SLOTS).find? fun i => !(d.entries i).used with
      | some i => (i, d)
      | none =>
          (d.lru,
            { d with
              lru := d.lru + 1
              entries := Function.update d.entries d.lru { d.entries d.lru with used := false } })

/-- `rx_is_duplicate_multi`. -/
def rxIsDuplicateMulti (d : RxDedupMulti) (key : UInt32) (seq : Byte) : Bool :=
  match rxDedupLookup d key with
  | none => false
  | some i => (d.entries i).seq == seq && decide (d.accepted - (d.entries i).acceptedAt < DEDUP_WINDOW)

/-- `rx_commit_multi`. -/
def rxCommitMulti (d : RxDedupMulti) (key : UInt32) (seq : Byte) : RxDedupMulti :=
  let e := rxDedupFind d key
  { e.2 with
    entries :=
      Function.update e.2.entries e.1 { key, seq, acceptedAt := e.2.accepted, used := true }
    accepted := e.2.accepted + 1 }

variable {d : RxDedupMulti} {key : UInt32} {seq : Byte} {i : Fin DEDUP_SLOTS}

theorem rxDedupLookup_eq_some (h : rxDedupLookup d key = some i) :
    (d.entries i).used = true ∧ (d.entries i).key = key := by
  have hi := List.find?_some h
  simpa using hi

theorem rxDedupLookup_eq_none :
    rxDedupLookup d key = none ↔ ∀ i, ¬ ((d.entries i).used = true ∧ (d.entries i).key = key) := by
  simp [rxDedupLookup]

theorem rxIsDuplicateMulti_eq_true :
    rxIsDuplicateMulti d key seq = true ↔
      ∃ i, rxDedupLookup d key = some i ∧ (d.entries i).seq = seq ∧
        d.accepted - (d.entries i).acceptedAt < DEDUP_WINDOW := by
  unfold rxIsDuplicateMulti
  split
  · rename_i h
    simp [h]
  · rename_i i h
    simp [h]

/-- The first match of a search stays the first match when only its own value changes. -/
theorem find?_finRange_update {n : ℕ} {p q : Fin n → Bool} {i : Fin n} (hi : q i = true)
    (hother : ∀ j, j ≠ i → q j = true → p j = true)
    (hfirst : (List.finRange n).find? p = some i ∨ ∀ j, p j = false) :
    (List.finRange n).find? q = some i := by
  have hsorted := List.pairwise_lt_finRange n
  obtain ⟨as, bs, hsplit⟩ := List.append_of_mem (List.mem_finRange i)
  rw [List.find?_eq_some_iff_append]
  refine ⟨hi, as, bs, hsplit, ?_⟩
  intro j hj
  rw [hsplit, List.pairwise_append] at hsorted
  have hlt : j < i := hsorted.2.2 j hj i List.mem_cons_self
  rw [Bool.not_eq_true', Bool.eq_false_iff]
  intro hqj
  have hpj : p j = true := hother j (ne_of_lt hlt) hqj
  rcases hfirst with hfind | hnone
  · -- `i` was the first match, so `j` before it was none
    obtain ⟨-, cs, ds, hsplit', hcs⟩ := List.find?_eq_some_iff_append.mp hfind
    have hsorted' := List.pairwise_lt_finRange n
    rw [hsplit', List.pairwise_append] at hsorted'
    have hmem : j ∈ cs ++ i :: ds := hsplit' ▸ List.mem_finRange j
    rcases List.mem_append.mp hmem with h | h
    · simpa [hpj] using hcs j h
    · rcases List.mem_cons.mp h with rfl | h
      · exact lt_irrefl _ hlt
      · exact lt_asymm hlt ((List.pairwise_cons.mp hsorted'.2.1).1 j h)
  · rw [hnone j] at hpj
    cases hpj

/-- What a commit leaves: the entry in the slot it took, and the others as they were. -/
theorem rxCommitMulti_entries (d : RxDedupMulti) (key : UInt32) (seq : Byte) :
    (rxCommitMulti d key seq).entries =
      Function.update d.entries (rxDedupFind d key).1
        { key, seq, acceptedAt := d.accepted, used := true } ∧
      (rxCommitMulti d key seq).accepted = d.accepted + 1 := by
  unfold rxCommitMulti rxDedupFind
  split
  · exact ⟨rfl, rfl⟩
  · split
    · exact ⟨rfl, rfl⟩
    · exact ⟨Function.update_idem _ _ _, rfl⟩

/-- A commit is found again, in the slot it took. -/
theorem rxDedupLookup_rxCommitMulti (d : RxDedupMulti) (key : UInt32) (seq : Byte) :
    rxDedupLookup (rxCommitMulti d key seq) key = some (rxDedupFind d key).1 := by
  have hentries := (rxCommitMulti_entries d key seq).1
  unfold rxDedupLookup
  rw [hentries]
  refine find?_finRange_update
    (p := fun i => (d.entries i).used && (d.entries i).key == key) ?_ ?_ ?_
  · simp
  · intro j hj hq
    simpa [Function.update_of_ne hj] using hq
  · by_cases hnone : rxDedupLookup d key = none
    · right
      intro j
      simpa [rxDedupLookup] using rxDedupLookup_eq_none.mp hnone j
    · left
      obtain ⟨i, hi⟩ := Option.ne_none_iff_exists'.mp hnone
      have hfind : (rxDedupFind d key).1 = i := by rw [rxDedupFind, hi]
      rw [hfind]
      exact hi

/-- A packet that was just accepted is a duplicate when it comes again. -/
theorem rxIsDuplicateMulti_rxCommitMulti (d : RxDedupMulti) (key : UInt32) (seq : Byte) :
    rxIsDuplicateMulti (rxCommitMulti d key seq) key seq = true := by
  obtain ⟨hentries, haccepted⟩ := rxCommitMulti_entries d key seq
  refine rxIsDuplicateMulti_eq_true.mpr ⟨_, rxDedupLookup_rxCommitMulti d key seq, ?_, ?_⟩
  · rw [hentries, Function.update_self]
  · rw [hentries, haccepted, Function.update_self]
    have hone : d.accepted + 1 - d.accepted = 1 := by grind
    rw [hone]
    decide

end LoraProto

end Voyager
