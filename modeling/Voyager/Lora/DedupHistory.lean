import Mathlib.Data.List.Dedup
import Mathlib.Data.List.Perm.Subperm
import Voyager.Library.SlotRing
import Voyager.Lora.Dedup

/-!
# Which retries are recognised

The table is a ring of keys: a key that is new takes the slot after the one taken last,
and a key that is there keeps its slot and its turn when it is committed again. So a
retry is recognised while its key is among the last `DEDUP_SLOTS` keys put in, whatever
was committed again in the meantime. A table that evicts the key used least recently
would recognise more.
-/

namespace Voyager

namespace LoraProto

/-- The table after `rx_commit_multi` for each of the keys and seqs. -/
def commitAll (d : RxDedupMulti) (commits : List (UInt32 × Byte)) : RxDedupMulti :=
  commits.foldl (fun d c => rxCommitMulti d c.1 c.2) d

/-- The keys that the commits put in: those the table did not hold when they came. -/
def insertedKeys (d : RxDedupMulti) : List (UInt32 × Byte) → List UInt32
  | [] => []
  | c :: commits =>
      (if rxDedupLookup d c.1 = none then [c.1] else []) ++
        insertedKeys (rxCommitMulti d c.1 c.2) commits

@[simp] theorem commitAll_nil (d : RxDedupMulti) : commitAll d [] = d := rfl

theorem commitAll_cons (d : RxDedupMulti) (c : UInt32 × Byte) (commits : List (UInt32 × Byte)) :
    commitAll d (c :: commits) = commitAll (rxCommitMulti d c.1 c.2) commits := rfl

theorem commitAll_append (d : RxDedupMulti) (cs ds : List (UInt32 × Byte)) :
    commitAll d (cs ++ ds) = commitAll (commitAll d cs) ds :=
  List.foldl_append

theorem insertedKeys_append (d : RxDedupMulti) (cs ds : List (UInt32 × Byte)) :
    insertedKeys d (cs ++ ds) = insertedKeys d cs ++ insertedKeys (commitAll d cs) ds := by
  induction cs generalizing d with
  | nil => rfl
  | cons c cs ih =>
      rw [List.cons_append, insertedKeys, ih, insertedKeys, List.append_assoc, commitAll_cons]

/-- The key a slot holds. -/
def RxDedupMulti.keyAt (d : RxDedupMulti) (i : Fin DEDUP_SLOTS) : Option UInt32 :=
  if (d.entries i).used then some (d.entries i).key else none

theorem RxDedupMulti.keyAt_eq_some_iff {d : RxDedupMulti} {i : Fin DEDUP_SLOTS} {key : UInt32} :
    d.keyAt i = some key ↔ (d.entries i).used = true ∧ (d.entries i).key = key := by
  unfold RxDedupMulti.keyAt
  split
  · rename_i h
    rw [Option.some.injEq, and_iff_right h]
  · rename_i h
    simp [h]

theorem RxDedupMulti.keyAt_isSome (d : RxDedupMulti) (i : Fin DEDUP_SLOTS) :
    (d.keyAt i).isSome = (d.entries i).used := by
  unfold RxDedupMulti.keyAt
  cases (d.entries i).used with
  | false => rfl
  | true => rfl

/-- A commit writes its key into the slot it takes. -/
theorem keyAt_rxCommitMulti (d : RxDedupMulti) (key : UInt32) (seq : Byte) :
    (rxCommitMulti d key seq).keyAt =
      Function.update d.keyAt (rxDedupFind d key).1 (some key) := by
  funext i
  rw [RxDedupMulti.keyAt, (rxCommitMulti_entries d key seq).1]
  by_cases hi : i = (rxDedupFind d key).1
  · rw [hi, Function.update_self, Function.update_self]
    rfl
  · rw [Function.update_of_ne hi, Function.update_of_ne hi]
    rfl

/-- The keys of the table are the ring of the keys put in, each in one slot, and `lru` is
the slot whose turn it is once all are taken. -/
structure KeyRing (d : RxDedupMulti) (keys : List UInt32) : Prop where
  slots : ∀ i, d.keyAt i = (SlotRing.ofList keys).slots i
  lru : (d.lru : ℕ) = if keys.length < DEDUP_SLOTS then 0 else keys.length % DEDUP_SLOTS
  unique : ∀ i j key, d.keyAt i = some key → d.keyAt j = some key → i = j

theorem keyRing_empty : KeyRing RxDedupMulti.empty [] where
  slots _ := rfl
  lru := rfl
  unique i j key h := by simp [RxDedupMulti.keyAt, RxDedupMulti.empty, RxDedupEntry.empty] at h

variable {d : RxDedupMulti} {keys : List UInt32} {key k : UInt32} {seq : Byte}
  {i : Fin DEDUP_SLOTS}

theorem KeyRing.lookup_eq_some_iff (h : KeyRing d keys) :
    rxDedupLookup d key = some i ↔ d.keyAt i = some key := by
  constructor
  · intro hi
    exact RxDedupMulti.keyAt_eq_some_iff.mpr (rxDedupLookup_eq_some hi)
  · intro hi
    cases hfound : rxDedupLookup d key with
    | none => exact absurd (RxDedupMulti.keyAt_eq_some_iff.mp hi) (rxDedupLookup_eq_none.mp hfound i)
    | some j =>
        have hj := RxDedupMulti.keyAt_eq_some_iff.mpr (rxDedupLookup_eq_some hfound)
        rw [h.unique j i key hj hi]

/-- The table holds a key while it is among the last ones put in. -/
theorem KeyRing.exists_keyAt_iff (h : KeyRing d keys) :
    (∃ i, d.keyAt i = some key) ↔ key ∈ keys.drop (keys.length - DEDUP_SLOTS) := by
  rw [← SlotRing.exists_slots_ofList_iff (n := DEDUP_SLOTS)]
  exact exists_congr fun i => by rw [h.slots i]

theorem KeyRing.used_iff (h : KeyRing d keys) (i : Fin DEDUP_SLOTS) :
    (d.entries i).used = true ↔ (i : ℕ) < keys.length := by
  rw [← d.keyAt_isSome i, h.slots i, SlotRing.slots_ofList_isSome_iff]

/-- A new key takes the slot the ring writes next, and `lru` follows. -/
theorem KeyRing.rxDedupFind_of_none (h : KeyRing d keys) (hnone : rxDedupLookup d key = none) :
    (rxDedupFind d key).1 = (SlotRing.ofList keys : SlotRing UInt32 DEDUP_SLOTS).next ∧
      ((rxDedupFind d key).2.lru : ℕ) =
        if keys.length + 1 < DEDUP_SLOTS then 0 else (keys.length + 1) % DEDUP_SLOTS := by
  have hlru := h.lru
  have hnext := SlotRing.next_ofList (n := DEDUP_SLOTS) keys
  rw [rxDedupFind, hnone]
  cases hfree : (List.finRange DEDUP_SLOTS).find? fun i => !(d.entries i).used with
  | some i =>
      -- the first free slot is the one after the keys put in so far
      obtain ⟨hi, n, hn, hni, hbefore⟩ := List.find?_eq_some_iff_getElem.mp hfree
      rw [List.getElem_finRange] at hni
      have hin : (i : ℕ) = n := by rw [← hni]; rfl
      have hle : keys.length ≤ i := by
        have hused := mt (h.used_iff i).mpr (by simpa using hi)
        exact Nat.le_of_not_lt hused
      have hge : ¬ keys.length < i := by
        intro hlt
        have hfirst := hbefore keys.length (hin ▸ hlt)
        have hused := (h.used_iff ⟨keys.length, hlt.trans i.isLt⟩).mp (by simpa using hfirst)
        exact lt_irrefl _ hused
      have hlength : keys.length = i := by omega
      have hlt := i.isLt
      constructor
      · apply Fin.ext
        rw [hnext, hlength, Nat.mod_eq_of_lt hlt]
      · rw [if_pos (by omega)] at hlru
        rw [hlru]
        split
        · rfl
        · have hfull : keys.length + 1 = DEDUP_SLOTS := by omega
          rw [hfull, Nat.mod_self]
  | none =>
      have hused := (h.used_iff 3).mp (by simpa using List.find?_eq_none.mp hfree 3 (List.mem_finRange 3))
      have hfull : ¬ keys.length < DEDUP_SLOTS := by
        have h3 : ((3 : Fin DEDUP_SLOTS) : ℕ) = 3 := rfl
        rw [h3] at hused
        exact Nat.not_lt.mpr hused
      rw [if_neg hfull] at hlru
      constructor
      · apply Fin.ext
        rw [hnext]
        exact hlru
      · rw [if_neg (by omega), Fin.val_add, hlru, Nat.mod_add_mod]
        rfl

/-- A commit pushes its key when it is new, and moves nothing when it is there. -/
theorem KeyRing.rxCommitMulti (h : KeyRing d keys) (key : UInt32) (seq : Byte) :
    KeyRing (rxCommitMulti d key seq)
      (keys ++ if rxDedupLookup d key = none then [key] else []) := by
  have hkeyAt := keyAt_rxCommitMulti d key seq
  cases hfound : rxDedupLookup d key with
  | none =>
      obtain ⟨hslot, hlru⟩ := h.rxDedupFind_of_none hfound
      have habsent : ∀ j, d.keyAt j ≠ some key := fun j hj =>
        rxDedupLookup_eq_none.mp hfound j (RxDedupMulti.keyAt_eq_some_iff.mp hj)
      rw [if_pos rfl]
      constructor
      · intro i
        rw [hkeyAt, SlotRing.ofList_append_singleton, hslot]
        by_cases hi : i = (SlotRing.ofList keys : SlotRing UInt32 DEDUP_SLOTS).next
        · rw [hi, Function.update_self, SlotRing.slots_push_next]
        · rw [Function.update_of_ne hi, SlotRing.slots_push_of_ne hi, h.slots]
      · rw [List.length_append, List.length_singleton]
        exact hlru
      · intro i j k hi hj
        rw [hkeyAt] at hi hj
        by_cases hi' : i = (rxDedupFind d key).1
        · by_cases hj' : j = (rxDedupFind d key).1
          · rw [hi', hj']
          · rw [hi', Function.update_self] at hi
            rw [Function.update_of_ne hj', ← hi] at hj
            exact absurd hj (habsent j)
        · rw [Function.update_of_ne hi'] at hi
          by_cases hj' : j = (rxDedupFind d key).1
          · rw [hj', Function.update_self] at hj
            rw [← hj] at hi
            exact absurd hi (habsent i)
          · rw [Function.update_of_ne hj'] at hj
            exact h.unique i j k hi hj
  | some i =>
      have hfind : rxDedupFind d key = (i, d) := by rw [rxDedupFind, hfound]
      have hsame : (LoraProto.rxCommitMulti d key seq).keyAt = d.keyAt := by
        rw [hkeyAt, hfind, ← h.lookup_eq_some_iff.mp hfound, Function.update_eq_self]
      have hlru : (LoraProto.rxCommitMulti d key seq).lru = d.lru := by
        rw [LoraProto.rxCommitMulti, hfind]
      rw [if_neg (Option.some_ne_none i), List.append_nil]
      constructor
      · rw [hsame]
        exact h.slots
      · rw [hlru]
        exact h.lru
      · rw [hsame]
        exact h.unique

/-- The table after any commits is the ring of the keys they put in. -/
theorem KeyRing.commitAll (h : KeyRing d keys) (commits : List (UInt32 × Byte)) :
    KeyRing (commitAll d commits) (keys ++ insertedKeys d commits) := by
  induction commits generalizing d keys with
  | nil =>
      rw [insertedKeys, List.append_nil]
      exact h
  | cons c commits ih =>
      rw [commitAll_cons, insertedKeys, ← List.append_assoc]
      exact ih (h.rxCommitMulti c.1 c.2)

theorem keyRing_commitAll (commits : List (UInt32 × Byte)) :
    KeyRing (LoraProto.commitAll .empty commits) (insertedKeys .empty commits) :=
  keyRing_empty.commitAll commits

/-- The keys the table holds were put in one time each among the last ones. -/
theorem KeyRing.nodup (h : KeyRing d keys) :
    (keys.drop (keys.length - DEDUP_SLOTS)).Nodup := by
  rw [List.nodup_iff_getElem?_ne_getElem?]
  intro a b hab hb heq
  rw [List.length_drop] at hb
  rw [List.getElem?_drop, List.getElem?_drop] at heq
  set p := keys.length - DEDUP_SLOTS + a with hp
  set q := keys.length - DEDUP_SLOTS + b with hq
  have hqlt : q < keys.length := by omega
  have hget : keys[q]? = some keys[q] := List.getElem?_eq_getElem hqlt
  have hslotp := h.slots _ ▸ SlotRing.slots_ofList_of_getElem? (n := DEDUP_SLOTS)
    (heq.trans hget) (by omega)
  have hslotq := h.slots _ ▸ SlotRing.slots_ofList_of_getElem? (n := DEDUP_SLOTS) hget (by omega)
  have hmod : p % DEDUP_SLOTS = q % DEDUP_SLOTS :=
    congrArg Fin.val (h.unique _ _ _ hslotp hslotq)
  have hdvd : DEDUP_SLOTS ∣ q - p := (Nat.modEq_iff_dvd' (by omega)).mp hmod
  have hle := Nat.le_of_dvd (by omega) hdvd
  omega

/-- The slot that holds a key was written with `seq`, `age` commits after the start. -/
def WrittenAs (d : RxDedupMulti) (k : UInt32) (seq : Byte) (age : UInt32) : Prop :=
  ∀ i, d.keyAt i = some k → (d.entries i).seq = seq ∧ (d.entries i).acceptedAt = age

theorem KeyRing.writtenAs_rxCommitMulti (h : KeyRing d keys) (k : UInt32) (seq : Byte) :
    WrittenAs (LoraProto.rxCommitMulti d k seq) k seq d.accepted := by
  intro i hi
  have hslot := (h.rxCommitMulti k seq).lookup_eq_some_iff.mpr hi
  rw [rxDedupLookup_rxCommitMulti, Option.some.injEq] at hslot
  rw [(rxCommitMulti_entries d k seq).1, hslot, Function.update_self]
  exact ⟨rfl, rfl⟩

/-- Commits of other keys do not touch the entry of a key they leave in the table. -/
theorem WrittenAs.commitAll {age : UInt32} (h : WrittenAs d k seq age)
    {commits : List (UInt32 × Byte)} (hother : ∀ c ∈ commits, c.1 ≠ k) :
    WrittenAs (LoraProto.commitAll d commits) k seq age := by
  induction commits generalizing d with
  | nil => exact h
  | cons c commits ih =>
      rw [commitAll_cons]
      refine ih ?_ fun c' hc' => hother c' (List.mem_cons_of_mem c hc')
      intro i hi
      rw [keyAt_rxCommitMulti] at hi
      have hne : i ≠ (rxDedupFind d c.1).1 := by
        rintro rfl
        rw [Function.update_self, Option.some.injEq] at hi
        exact hother c List.mem_cons_self hi
      rw [Function.update_of_ne hne] at hi
      rw [(rxCommitMulti_entries d c.1 c.2).1, Function.update_of_ne hne]
      exact h i hi

theorem accepted_commitAll (d : RxDedupMulti) (commits : List (UInt32 × Byte)) :
    (LoraProto.commitAll d commits).accepted = d.accepted + UInt32.ofNat commits.length := by
  induction commits generalizing d with
  | nil => exact (UInt32.add_zero _).symm
  | cons c commits ih =>
      rw [commitAll_cons, ih, (rxCommitMulti_entries d c.1 c.2).2, List.length_cons,
        UInt32.ofNat_add, UInt32.add_assoc, UInt32.add_comm (UInt32.ofNat commits.length)]
      rfl

/-- A key whose entry is young enough is recognised exactly while the table holds it. -/
theorem KeyRing.rxIsDuplicateMulti_iff {age : UInt32} (h : KeyRing d keys)
    (hwritten : WrittenAs d k seq age) (hage : d.accepted - age < DEDUP_WINDOW) :
    rxIsDuplicateMulti d k seq = true ↔ k ∈ keys.drop (keys.length - DEDUP_SLOTS) := by
  rw [rxIsDuplicateMulti_eq_true, ← h.exists_keyAt_iff]
  refine exists_congr fun i => ?_
  rw [h.lookup_eq_some_iff]
  constructor
  · exact fun hi => hi.1
  · intro hi
    obtain ⟨hseq, hat⟩ := hwritten i hi
    exact ⟨hi, hseq, hat ▸ hage⟩

/-- The same for the seq committed last, while fewer commits of other keys came after it
than the window admits. -/
theorem KeyRing.rxIsDuplicateMulti_commitAll_iff (h : KeyRing d keys) {k : UInt32} {s : Byte}
    {later : List (UInt32 × Byte)} (hlater : ∀ c ∈ later, c.1 ≠ k)
    (hwindow : later.length < DEDUP_WINDOW.toNat - 1) :
    rxIsDuplicateMulti (LoraProto.commitAll d ((k, s) :: later)) k s = true ↔
      k ∈ (keys ++ insertedKeys d ((k, s) :: later)).drop
        ((keys ++ insertedKeys d ((k, s) :: later)).length - DEDUP_SLOTS) := by
  have hwritten := (h.writtenAs_rxCommitMulti k s).commitAll hlater
  refine (h.commitAll ((k, s) :: later)).rxIsDuplicateMulti_iff hwritten ?_
  rw [commitAll_cons, accepted_commitAll, (rxCommitMulti_entries d k s).2]
  have hsub : d.accepted + 1 + UInt32.ofNat later.length - d.accepted =
      UInt32.ofNat (later.length + 1) := by
    rw [UInt32.ofNat_add]
    grind
  rw [hsub, UInt32.lt_iff_toNat_lt, UInt32.toNat_ofNat', Nat.mod_eq_of_lt]
  · exact Nat.add_lt_of_lt_sub hwindow
  · have hbound : DEDUP_WINDOW.toNat = 16 := rfl
    omega

/-- A retry of the packet that `k` was committed for last, before the window has passed,
is recognised exactly while `k` is among the last `DEDUP_SLOTS` keys put in. -/
theorem retry_recognised_iff (before : List (UInt32 × Byte)) {later : List (UInt32 × Byte)}
    {k : UInt32} {s : Byte}
    (hlater : ∀ c ∈ later, c.1 ≠ k) (hwindow : later.length < DEDUP_WINDOW.toNat - 1) :
    rxIsDuplicateMulti (commitAll .empty (before ++ (k, s) :: later)) k s = true ↔
      k ∈ (insertedKeys .empty (before ++ (k, s) :: later)).drop
        ((insertedKeys .empty (before ++ (k, s) :: later)).length - DEDUP_SLOTS) := by
  rw [commitAll_append, insertedKeys_append]
  exact (keyRing_commitAll before).rxIsDuplicateMulti_commitAll_iff hlater hwindow

theorem retry_recognised_iff_new :
    rxIsDuplicateMulti (commitAll .empty [(1, 3), (2, 0), (3, 0)]) 1 3 = true ↔
      (1 : UInt32) ∈ (insertedKeys .empty [(1, 3), (2, 0), (3, 0)]).drop
        ((insertedKeys .empty [(1, 3), (2, 0), (3, 0)]).length - DEDUP_SLOTS) :=
  retry_recognised_iff [] (by simp) (by decide)

/-- The key committed again is the first to go: its retry is delivered a second time. -/
theorem retry_after_recommit_missed :
    ¬ ∀ (before later : List (UInt32 × Byte)) (k : UInt32) (s : Byte),
      (∀ c ∈ later, c.1 ≠ k) → later.length < DEDUP_WINDOW.toNat - 1 →
        (later.map Prod.fst).dedup.length ≤ DEDUP_SLOTS - 1 →
          rxIsDuplicateMulti (commitAll .empty (before ++ (k, s) :: later)) k s = true := by
  intro h
  have hdup := h [(1, 0), (2, 0), (3, 0), (4, 0)] [(5, 0)] 1 7 (by simp) (by decide) (by decide)
  exact absurd hdup (by decide)

theorem mem_of_mem_insertedKeys {commits : List (UInt32 × Byte)}
    (h : k ∈ insertedKeys d commits) : k ∈ commits.map Prod.fst := by
  induction commits generalizing d with
  | nil => exact h
  | cons c commits ih =>
      rw [insertedKeys] at h
      rcases List.mem_append.mp h with h | h
      · split at h
        · rw [List.mem_singleton.mp h]
          exact List.mem_cons_self
        · exact absurd h List.not_mem_nil
      · exact List.mem_cons_of_mem c.1 (ih h)

/-- A key that was new when it was committed stays for as many other keys as there are
other slots: the ones put in after it are all different while it is there. -/
theorem retry_recognised_of_new {before later : List (UInt32 × Byte)} {k : UInt32} {s : Byte}
    (hnew : rxDedupLookup (commitAll .empty before) k = none)
    (hlater : ∀ c ∈ later, c.1 ≠ k) (hwindow : later.length < DEDUP_WINDOW.toNat - 1)
    (hkeys : (later.map Prod.fst).dedup.length ≤ DEDUP_SLOTS - 1) :
    rxIsDuplicateMulti (commitAll .empty (before ++ (k, s) :: later)) k s = true := by
  have hring := keyRing_commitAll before
  have hnodup := (hring.commitAll ((k, s) :: later)).nodup
  rw [commitAll_append, hring.rxIsDuplicateMulti_commitAll_iff hlater hwindow]
  rw [insertedKeys, if_pos hnew, List.singleton_append] at hnodup ⊢
  set older := insertedKeys .empty before
  set newer := insertedKeys (rxCommitMulti (commitAll .empty before) k s) later with hnewer
  rw [List.length_append, List.length_cons] at hnodup ⊢
  by_cases hfew : newer.length < DEDUP_SLOTS
  · rw [List.drop_append_of_le_length (by omega)]
    exact List.mem_append_right _ List.mem_cons_self
  · -- four different keys put in after `k`, among at most three
    exfalso
    have hdrop : (older ++ k :: newer).drop
        (older.length + (newer.length + 1) - DEDUP_SLOTS) =
        newer.drop (newer.length - DEDUP_SLOTS) := by
      have hlength : older.length + (newer.length + 1) - DEDUP_SLOTS =
          (older ++ [k]).length + (newer.length - DEDUP_SLOTS) := by
        rw [List.length_append, List.length_singleton]
        omega
      rw [List.append_cons, hlength, List.drop_length_add_append]
    rw [hdrop] at hnodup
    have hsubset : newer.drop (newer.length - DEDUP_SLOTS) ⊆ (later.map Prod.fst).dedup := by
      intro key hkey
      have hmem := mem_of_mem_insertedKeys (List.mem_of_mem_drop hkey)
      exact List.mem_dedup.mpr hmem
    have hle := (List.subperm_of_subset hnodup hsubset).length_le
    rw [List.length_drop] at hle
    have hslots : DEDUP_SLOTS = 4 := rfl
    omega

end LoraProto

end Voyager
