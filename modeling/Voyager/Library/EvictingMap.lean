import Mathlib.Data.List.Basic
import Mathlib.Data.List.Nodup
import Mathlib.Data.List.Perm.Subperm

/-!
# Bounded maps that forget the oldest key

A map of at most `max` keys. A key keeps its place when its value is written again; a
new key beyond the bound pushes out the key that was put in first.
-/

/-- The entries, the oldest key first. -/
structure EvictingMap (κ α : Type*) (max : ℕ) where
  entries : List (κ × α)
  nodup : (entries.map Prod.fst).Nodup
  length_le : entries.length ≤ max

namespace EvictingMap

variable {κ α : Type*} [DecidableEq κ] {max : ℕ}

def empty : EvictingMap κ α max where
  entries := []
  nodup := List.nodup_nil
  length_le := Nat.zero_le max

/-- The value of a key. -/
def get (m : EvictingMap κ α max) (k : κ) : Option α :=
  (m.entries.find? fun e => e.1 = k).map Prod.snd

/-- The entries with one more written, before the oldest are pushed out. -/
def write (entries : List (κ × α)) (k : κ) (v : α) : List (κ × α) :=
  if k ∈ entries.map Prod.fst then entries.map fun e => if e.1 = k then (k, v) else e
  else entries ++ [(k, v)]

theorem keys_write (entries : List (κ × α)) (k : κ) (v : α) :
    (write entries k v).map Prod.fst =
      if k ∈ entries.map Prod.fst then entries.map Prod.fst else entries.map Prod.fst ++ [k] := by
  unfold write
  split
  · rw [List.map_map]
    refine List.map_congr_left fun e _ => ?_
    rw [Function.comp_apply]
    split
    · rename_i he
      exact he.symm
    · rfl
  · rw [List.map_append]
    rfl

theorem nodup_write {entries : List (κ × α)} (h : (entries.map Prod.fst).Nodup) (k : κ) (v : α) :
    ((write entries k v).map Prod.fst).Nodup := by
  rw [keys_write]
  split
  · exact h
  · rename_i hk
    exact List.nodup_append.mpr ⟨h, List.nodup_singleton k, fun a ha b hb =>
      fun hab => hk (List.mem_singleton.mp hb ▸ hab ▸ ha)⟩

theorem mem_write {entries : List (κ × α)} {k : κ} {v : α} {e : κ × α}
    (h : e ∈ write entries k v) : e = (k, v) ∨ e ∈ entries := by
  unfold write at h
  split at h
  · obtain ⟨e', he', rfl⟩ := List.mem_map.mp h
    split
    · exact .inl rfl
    · exact .inr he'
  · rcases List.mem_append.mp h with h | h
    · exact .inr h
    · exact .inl (List.mem_singleton.mp h)

/-- Write a key; beyond the bound the oldest keys go. -/
def put (m : EvictingMap κ α max) (k : κ) (v : α) : EvictingMap κ α max where
  entries := (write m.entries k v).drop ((write m.entries k v).length - max)
  nodup := by
    rw [List.map_drop]
    exact (nodup_write m.nodup k v).sublist (List.drop_sublist _ _)
  length_le := by
    rw [List.length_drop]
    omega

/-- The value of a key, and the map without it. -/
def take (m : EvictingMap κ α max) (k : κ) : Option α × EvictingMap κ α max :=
  (m.get k,
    { entries := m.entries.filter fun e => e.1 ≠ k
      nodup := m.nodup.sublist (List.filter_sublist.map Prod.fst)
      length_le := Nat.le_trans (List.length_filter_le _ _) m.length_le })

@[simp] theorem get_empty (k : κ) : (empty : EvictingMap κ α max).get k = none := rfl

/-- A key has at most one value. -/
theorem get_eq_some_iff {m : EvictingMap κ α max} {k : κ} {v : α} :
    m.get k = some v ↔ (k, v) ∈ m.entries := by
  unfold get
  rw [Option.map_eq_some_iff]
  constructor
  · rintro ⟨e, he, rfl⟩
    have hk : e.1 = k := by simpa using List.find?_some he
    rw [← hk]
    exact List.mem_of_find?_eq_some he
  · intro h
    obtain ⟨e, he⟩ : ∃ e, m.entries.find? (fun e => decide (e.1 = k)) = some e :=
      Option.isSome_iff_exists.mp (List.find?_isSome.mpr ⟨(k, v), h, by simp⟩)
    have hk : e.1 = k := by simpa using List.find?_some he
    have heq : e = (k, v) := List.inj_on_of_nodup_map m.nodup (List.mem_of_find?_eq_some he) h hk
    exact ⟨e, he, by rw [heq]⟩

/-- What a map holds after a write was written now or was there before. -/
theorem get_put {m : EvictingMap κ α max} {k k' : κ} {v v' : α}
    (h : (m.put k v).get k' = some v') : (k' = k ∧ v' = v) ∨ m.get k' = some v' := by
  rcases mem_write (List.mem_of_mem_drop (get_eq_some_iff.mp h)) with h | h
  · exact .inl (Prod.mk.injEq .. ▸ h)
  · exact .inr (get_eq_some_iff.mpr h)

@[simp] theorem take_fst (m : EvictingMap κ α max) (k : κ) : (m.take k).1 = m.get k := rfl

/-- Taking a key leaves the others. -/
theorem get_take_iff {m : EvictingMap κ α max} {k k' : κ} {v : α} :
    (m.take k).2.get k' = some v ↔ k' ≠ k ∧ m.get k' = some v := by
  rw [get_eq_some_iff, get_eq_some_iff, take, List.mem_filter, and_comm, decide_eq_true_iff]

/-! ## What is not forgotten -/

/-- The key `k` has the value `v`, and the keys put in after it are among `others`. -/
def Held (m : EvictingMap κ α max) (k : κ) (v : α) (others : List κ) : Prop :=
  ∃ older younger, m.entries = older ++ (k, v) :: younger ∧ ∀ e ∈ younger, e.1 ∈ others

variable {m : EvictingMap κ α max} {k k' : κ} {v v' : α} {others : List κ}

theorem Held.get_eq (h : m.Held k v others) : m.get k = some v := by
  obtain ⟨older, younger, hentries, -⟩ := h
  rw [get_eq_some_iff, hentries]
  exact List.mem_append_right older List.mem_cons_self

theorem get_eq_none_iff : m.get k = none ↔ k ∉ m.entries.map Prod.fst := by
  constructor
  · intro h hk
    obtain ⟨e, he, rfl⟩ := List.mem_map.mp hk
    rw [get_eq_some_iff.mpr he] at h
    cases h
  · intro h
    rw [Option.eq_none_iff_forall_ne_some]
    intro v hv
    exact h (List.mem_map_of_mem (get_eq_some_iff.mp hv))

theorem entries_put (m : EvictingMap κ α max) (k : κ) (v : α) :
    (m.put k v).entries = (write m.entries k v).drop ((write m.entries k v).length - max) := rfl

theorem entries_take (m : EvictingMap κ α max) (k : κ) :
    (m.take k).2.entries = m.entries.filter fun e => e.1 ≠ k := rfl

/-- A new key is the youngest. -/
theorem held_put (hmax : 0 < max) (hnew : m.get k = none) : (m.put k v).Held k v others := by
  rw [get_eq_none_iff] at hnew
  refine ⟨m.entries.drop (m.entries.length + 1 - max), [], ?_, fun e he => absurd he List.not_mem_nil⟩
  have hle : m.entries.length + 1 - max ≤ m.entries.length := by omega
  rw [entries_put, write, if_neg hnew, List.length_append, List.length_singleton,
    List.drop_append_of_le_length hle]

/-- A key stays while fewer others than the map has room for are put in after it. -/
theorem Held.put (h : m.Held k v others) (hne : k' ≠ k) (hmem : k' ∈ others)
    (hfew : others.length < max) : (m.put k' v').Held k v others := by
  obtain ⟨older, younger, hentries, hyounger⟩ := h
  have hwrite : ∃ older' younger', write m.entries k' v' = older' ++ (k, v) :: younger' ∧
      ∀ e ∈ younger', e.1 ∈ others := by
    unfold write
    split
    · refine ⟨older.map fun e => if e.1 = k' then (k', v') else e,
        younger.map fun e => if e.1 = k' then (k', v') else e, ?_, ?_⟩
      · rw [hentries, List.map_append, List.map_cons, if_neg (Ne.symm hne)]
      · intro e he
        obtain ⟨e', he', rfl⟩ := List.mem_map.mp he
        split
        · exact hmem
        · exact hyounger e' he'
    · refine ⟨older, younger ++ [(k', v')], ?_, ?_⟩
      · rw [hentries, List.append_assoc, List.cons_append]
      · intro e he
        rcases List.mem_append.mp he with he | he
        · exact hyounger e he
        · rw [List.mem_singleton.mp he]
          exact hmem
  obtain ⟨older', younger', hsplit, hyounger'⟩ := hwrite
  -- the younger keys are all different, and fit the map with `k`
  have hnodup : (younger'.map Prod.fst).Nodup := by
    have hall := nodup_write m.nodup k' v'
    rw [hsplit, List.map_append, List.map_cons] at hall
    exact (List.nodup_cons.mp (List.nodup_append.mp hall).2.1).2
  have hsubset : younger'.map Prod.fst ⊆ others := by
    intro key hkey
    obtain ⟨e, he, rfl⟩ := List.mem_map.mp hkey
    exact hyounger' e he
  have hlength := (List.subperm_of_subset hnodup hsubset).length_le
  rw [List.length_map] at hlength
  refine ⟨older'.drop ((older' ++ (k, v) :: younger').length - max), younger', ?_, hyounger'⟩
  have hle : (older' ++ (k, v) :: younger').length - max ≤ older'.length := by
    rw [List.length_append, List.length_cons]
    omega
  rw [entries_put, hsplit, List.drop_append_of_le_length hle]

/-- Taking another key leaves it. -/
theorem Held.take (h : m.Held k v others) (hne : k' ≠ k) : (m.take k').2.Held k v others := by
  obtain ⟨older, younger, hentries, hyounger⟩ := h
  refine ⟨older.filter fun e => e.1 ≠ k', younger.filter fun e => e.1 ≠ k', ?_, fun e he => ?_⟩
  · rw [entries_take, hentries, List.filter_append, List.filter_cons_of_pos (by simpa using hne.symm)]
  · exact hyounger e (List.mem_of_mem_filter he)

/-! ## Maps with other values -/

omit [DecidableEq κ] in
theorem eq_of_entries {m m' : EvictingMap κ α max} (h : m.entries = m'.entries) : m = m' := by
  cases m
  cases m'
  cases h
  rfl

variable {β : Type*} (f : α → β)

/-- The map with every value changed. -/
def map (m : EvictingMap κ α max) : EvictingMap κ β max where
  entries := m.entries.map fun e => (e.1, f e.2)
  nodup := by
    rw [List.map_map]
    exact m.nodup
  length_le := by
    rw [List.length_map]
    exact m.length_le

omit [DecidableEq κ] in
@[simp] theorem map_empty : (empty : EvictingMap κ α max).map f = empty := rfl

@[simp] theorem get_map (m : EvictingMap κ α max) (k : κ) : (m.map f).get k = (m.get k).map f := by
  unfold get map
  rw [List.find?_map, Option.map_map, Option.map_map]
  rfl

theorem write_map (entries : List (κ × α)) (k : κ) (v : α) :
    write (entries.map fun e => (e.1, f e.2)) k (f v) =
      (write entries k v).map fun e => (e.1, f e.2) := by
  have hkeys : (entries.map fun e => (e.1, f e.2)).map Prod.fst = entries.map Prod.fst := by
    rw [List.map_map]
    rfl
  unfold write
  rw [hkeys]
  split
  · rw [List.map_map, List.map_map]
    refine List.map_congr_left fun e _ => ?_
    rw [Function.comp_apply, Function.comp_apply]
    split <;> rfl
  · rw [List.map_append]
    rfl

theorem map_put (m : EvictingMap κ α max) (k : κ) (v : α) :
    (m.put k v).map f = (m.map f).put k (f v) := by
  refine eq_of_entries ?_
  rw [entries_put]
  change _ = (write (m.entries.map _) k (f v)).drop ((write (m.entries.map _) k (f v)).length - max)
  rw [write_map, List.length_map, ← List.map_drop]
  rfl

theorem map_take (m : EvictingMap κ α max) (k : κ) :
    (m.map f).take k = ((m.take k).1.map f, (m.take k).2.map f) := by
  refine Prod.ext (get_map f m k) (eq_of_entries ?_)
  rw [entries_take]
  exact List.filter_map

end EvictingMap
