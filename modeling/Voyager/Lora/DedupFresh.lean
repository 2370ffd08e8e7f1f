import Voyager.Lora.DedupHistory

/-!
# No fresh packet is taken for a retry

Each slot stands for one commit of the history: the last one of its key, with its seq and
the number of commits before it. A check compares the stamps modulo `2 ^ 32`, which tells
them apart as long as fewer commits were made. So what a check calls a duplicate repeats
the last packet of its source, accepted within the window.
-/

namespace Voyager

namespace LoraProto

/-- The calls on a table. -/
inductive DedupCall
  | check (key : UInt32) (seq : Byte)
  | commit (key : UInt32) (seq : Byte)

def DedupCall.commit? : DedupCall → Option (UInt32 × Byte)
  | .check _ _ => none
  | .commit key seq => some (key, seq)

/-- The table a call leaves, and what a check answers. -/
def DedupCall.run (d : RxDedupMulti) : DedupCall → RxDedupMulti × Option Bool
  | .check key seq => (d, some (rxIsDuplicateMulti d key seq))
  | .commit key seq => (rxCommitMulti d key seq, none)

/-- The table after the calls. -/
def runCalls (d : RxDedupMulti) (calls : List DedupCall) : RxDedupMulti :=
  calls.foldl (fun d call => (call.run d).1) d

theorem runCalls_append (d : RxDedupMulti) (calls more : List DedupCall) :
    runCalls d (calls ++ more) = runCalls (runCalls d calls) more :=
  List.foldl_append

/-- Only the commits among the calls count. -/
theorem runCalls_eq_commitAll (d : RxDedupMulti) (calls : List DedupCall) :
    runCalls d calls = commitAll d (calls.filterMap DedupCall.commit?) := by
  induction calls generalizing d with
  | nil => rfl
  | cons call calls ih =>
      cases call with
      | check key seq => exact ih d
      | commit key seq => exact ih (rxCommitMulti d key seq)

/-- The commits are `before`, one of `seq` for `key`, and `later` ones of other keys. -/
structure LastCommit (commits : List (UInt32 × Byte)) (key : UInt32) (seq : Byte)
    (before later : List (UInt32 × Byte)) : Prop where
  split : commits = before ++ (key, seq) :: later
  other : ∀ c ∈ later, c.1 ≠ key

variable {commits before later : List (UInt32 × Byte)} {key k : UInt32} {seq s : Byte}
  {i : Fin DEDUP_SLOTS}

theorem lastCommit_append_self (commits : List (UInt32 × Byte)) (key : UInt32) (seq : Byte) :
    LastCommit (commits ++ [(key, seq)]) key seq commits [] where
  split := rfl
  other _ hc := absurd hc List.not_mem_nil

theorem LastCommit.append_of_ne (h : LastCommit commits k s before later) (hne : key ≠ k) :
    LastCommit (commits ++ [(key, seq)]) k s before (later ++ [(key, seq)]) where
  split := by rw [h.split, List.append_assoc, List.cons_append]
  other c hc := by
    rcases List.mem_append.mp hc with hc | hc
    · exact h.other c hc
    · rw [List.mem_singleton.mp hc]
      exact hne

theorem commitAll_append_singleton (d : RxDedupMulti) (commits : List (UInt32 × Byte))
    (key : UInt32) (seq : Byte) :
    commitAll d (commits ++ [(key, seq)]) = rxCommitMulti (commitAll d commits) key seq :=
  commitAll_append d commits [(key, seq)]

/-- The slot of a key holds the last commit for it, stamped with the number of commits
before. -/
theorem lastCommit_of_keyAt (hi : (commitAll .empty commits).keyAt i = some k) :
    ∃ before later,
      LastCommit commits k ((commitAll .empty commits).entries i).seq before later ∧
        ((commitAll .empty commits).entries i).acceptedAt = UInt32.ofNat before.length := by
  induction commits using List.reverseRecOn with
  | nil => simp [RxDedupMulti.keyAt, RxDedupMulti.empty, RxDedupEntry.empty] at hi
  | append_singleton commits c ih =>
      obtain ⟨key, seq⟩ := c
      set d := commitAll .empty commits with hd
      have hring := (keyRing_commitAll commits).rxCommitMulti key seq
      rw [← hd] at hring
      rw [commitAll_append_singleton, ← hd] at hi ⊢
      rw [(rxCommitMulti_entries d key seq).1]
      have hslot : (rxCommitMulti d key seq).keyAt (rxDedupFind d key).1 = some key :=
        hring.lookup_eq_some_iff.mp (rxDedupLookup_rxCommitMulti d key seq)
      by_cases hfound : i = (rxDedupFind d key).1
      · -- the slot just written
        rw [hfound, hslot, Option.some.injEq] at hi
        rw [hfound, Function.update_self, ← hi]
        refine ⟨commits, [], lastCommit_append_self commits key seq, ?_⟩
        rw [hd, accepted_commitAll]
        exact UInt32.zero_add _
      · -- another slot holds another key, and its entry stays
        have hne : key ≠ k := by
          rintro rfl
          exact hfound (hring.unique i _ key hi hslot)
        rw [keyAt_rxCommitMulti, Function.update_of_ne hfound] at hi
        obtain ⟨before, later, hlast, hat⟩ := ih hi
        rw [Function.update_of_ne hfound]
        exact ⟨before, later ++ [(key, seq)], hlast.append_of_ne hne, hat⟩

theorem ofNat_sub_ofNat_length (h : LastCommit commits k s before later) :
    UInt32.ofNat commits.length - UInt32.ofNat before.length = UInt32.ofNat (later.length + 1) := by
  rw [h.split, List.length_append, List.length_cons, UInt32.ofNat_add]
  grind

/-- A check is true exactly when the key is still in the table, the last commit for it was
of this seq, and few enough were made since. -/
theorem rxIsDuplicateMulti_commitAll_iff (hfew : commits.length < 2 ^ 32) :
    rxIsDuplicateMulti (commitAll .empty commits) k s = true ↔
      k ∈ (insertedKeys .empty commits).drop
          ((insertedKeys .empty commits).length - DEDUP_SLOTS) ∧
        ∃ before later, LastCommit commits k s before later ∧
          later.length < DEDUP_WINDOW.toNat - 1 := by
  have hring := keyRing_commitAll commits
  have hwindow {before later : List (UInt32 × Byte)} {s : Byte}
      (hlast : LastCommit commits k s before later) :
      (commitAll .empty commits).accepted - UInt32.ofNat before.length < DEDUP_WINDOW ↔
        later.length < DEDUP_WINDOW.toNat - 1 := by
    have hle : later.length + 1 ≤ commits.length := by
      rw [hlast.split, List.length_append, List.length_cons]
      exact Nat.le_add_left _ _
    have hstart : RxDedupMulti.empty.accepted = 0 := rfl
    rw [accepted_commitAll, hstart, UInt32.zero_add, ofNat_sub_ofNat_length hlast,
      UInt32.lt_iff_toNat_lt, UInt32.toNat_ofNat', Nat.mod_eq_of_lt (by omega)]
    exact Nat.lt_sub_iff_add_lt.symm
  constructor
  · intro hdup
    obtain ⟨i, hfound, hseq, hage⟩ := rxIsDuplicateMulti_eq_true.mp hdup
    rw [hring.lookup_eq_some_iff] at hfound
    obtain ⟨before, later, hlast, hat⟩ := lastCommit_of_keyAt hfound
    rw [hat, hwindow hlast] at hage
    rw [hseq] at hlast
    exact ⟨hring.exists_keyAt_iff.mp ⟨i, hfound⟩, before, later, hlast, hage⟩
  · rintro ⟨hmem, before, later, hlast, hlater⟩
    rw [hlast.split, insertedKeys_append] at hmem
    rw [hlast.split, commitAll_append]
    exact ((keyRing_commitAll before).rxIsDuplicateMulti_commitAll_iff hlast.other hlater).mpr hmem

/-- In every run of fewer than `2 ^ 32` commits the used entries have different keys, a check
is true only of the seq committed last for the key and within the window, and a check
that is followed by other calls might as well not have been made. -/
theorem runCalls_fresh (calls : List DedupCall)
    (hfew : (calls.filterMap DedupCall.commit?).length < 2 ^ 32) :
    (∀ i j, ((runCalls .empty calls).entries i).used = true →
        ((runCalls .empty calls).entries j).used = true →
        ((runCalls .empty calls).entries i).key = ((runCalls .empty calls).entries j).key →
        i = j) ∧
      (∀ k s, rxIsDuplicateMulti (runCalls .empty calls) k s = true →
        ∃ before later,
          LastCommit (calls.filterMap DedupCall.commit?) k s before later ∧
            later.length < DEDUP_WINDOW.toNat - 1) ∧
      ∀ k s later, runCalls .empty (calls ++ .check k s :: later) =
        runCalls .empty (calls ++ later) := by
  have hring := keyRing_commitAll (calls.filterMap DedupCall.commit?)
  refine ⟨?_, ?_, ?_⟩
  · intro i j hi hj hkey
    rw [runCalls_eq_commitAll] at hi hj hkey
    exact hring.unique i j _ (RxDedupMulti.keyAt_eq_some_iff.mpr ⟨hi, hkey⟩)
      (RxDedupMulti.keyAt_eq_some_iff.mpr ⟨hj, rfl⟩)
  · intro k s hdup
    rw [runCalls_eq_commitAll] at hdup
    exact ((rxIsDuplicateMulti_commitAll_iff hfew).mp hdup).2
  · intro k s later
    rw [runCalls_append, runCalls_append]
    rfl

/-- Four keys fill the table, a fifth takes the entry of the first, and the first comes back. -/
def fullCalls : List DedupCall :=
  [.commit 1 10, .commit 2 11, .commit 3 12, .commit 4 13, .check 1 10, .commit 5 14,
    .check 1 10, .commit 1 15]

theorem runCalls_fresh_fullCalls :
    (rxIsDuplicateMulti (runCalls .empty fullCalls) 1 15 = true ∧
      rxIsDuplicateMulti (runCalls .empty fullCalls) 2 11 = false ∧
      rxIsDuplicateMulti (runCalls .empty fullCalls) 3 12 = true) ∧
      (∀ i j, ((runCalls .empty fullCalls).entries i).used = true →
        ((runCalls .empty fullCalls).entries j).used = true →
        ((runCalls .empty fullCalls).entries i).key = ((runCalls .empty fullCalls).entries j).key →
        i = j) ∧
      ∀ k s, rxIsDuplicateMulti (runCalls .empty fullCalls) k s = true →
        ∃ before later, LastCommit (fullCalls.filterMap DedupCall.commit?) k s before later ∧
          later.length < DEDUP_WINDOW.toNat - 1 := by
  obtain ⟨hunique, hfresh, -⟩ := runCalls_fresh fullCalls (by decide)
  exact ⟨by decide +kernel, hunique, hfresh⟩

end LoraProto

end Voyager
