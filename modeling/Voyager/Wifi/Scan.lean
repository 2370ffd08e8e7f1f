import Mathlib.Data.List.Nodup
import Mathlib.Order.Bounds.Basic
import Voyager.Library.InsertionSort
import Voyager.Wifi.Provision

/-!
# The list of a WiFi scan

The channels are scanned one by one, and every hit is merged into a list of limited size.
An SSID has one entry, with its strongest hit; when the list is full, a new SSID takes the
place of the weakest entry if it is stronger. At the end the list is sorted.
-/

namespace Voyager

namespace Wifi

namespace Scan

/-- `WifiScanEntry`. -/
structure WifiScanEntry where
  ssid : List Byte
  rssi : ℤ
  deriving DecidableEq, Repr

/-- One hit: the SSID, which may be a null pointer, and the signal strength. -/
structure Hit where
  ssid : Option (List Byte)
  rssi : ℤ
  deriving DecidableEq, Repr

/-- The conversion to `int8_t`. -/
def int8 (x : ℤ) : ℤ := x.bmod 256

/-- `rssi`, brought between -128 and 0. -/
def clampRssi (rssi : ℤ) : ℤ :=
  let rssi := if rssi < -128 then -128 else rssi
  if rssi > 0 then 0 else rssi

/-- The slot of the first weakest entry: the loop that looks for it. -/
def weakest (list : List WifiScanEntry) : ℕ :=
  (List.range' 1 (list.length - 1)).foldl
    (fun slot i => if (list.getD i ⟨[], 0⟩).rssi < (list.getD slot ⟨[], 0⟩).rssi then i else slot) 0

/-- What `strncpy` and the zero byte after it leave in a slot. -/
def newEntry (ssid : List Byte) (rssi : ℤ) : WifiScanEntry := ⟨ssid.take 32, int8 rssi⟩

/-- `wifi_scan_merge`, for the first `count` entries of the array. -/
def wifiScanMerge (cap : ℕ) (list : List WifiScanEntry) (hit : Hit) : List WifiScanEntry :=
  match hit.ssid with
  | none => list
  | some ssid =>
      if cap = 0 ∨ validSsid ssid = false then list
      else
        let rssi := clampRssi hit.rssi
        match list.findIdx? fun e => e.ssid = ssid with
        | some i =>
            let e := list.getD i ⟨[], 0⟩
            if rssi > e.rssi then list.set i { e with rssi := int8 rssi } else list
        | none =>
            if list.length ≥ cap then
              let slot := weakest list
              if rssi ≤ (list.getD slot ⟨[], 0⟩).rssi then list
              else list.set slot (newEntry ssid rssi)
            else list ++ [newEntry ssid rssi]

/-- `wifi_scan_sort`. -/
def wifiScanSort (list : List WifiScanEntry) : List WifiScanEntry :=
  InsertionSort.sort WifiScanEntry.rssi list

/-- What `scan_ssid` reports after all its hits. -/
def scanSsid (cap : ℕ) (hits : List Hit) : List WifiScanEntry :=
  wifiScanSort (hits.foldl (wifiScanMerge cap) [])

/-! ## What a list has to be -/

/-- The strengths at which an SSID was heard. -/
def heard (ssid : List Byte) (hits : List Hit) : Set ℤ :=
  {rssi | ∃ hit ∈ hits, hit.ssid = some ssid ∧ clampRssi hit.rssi = rssi}

/-- The strongest networks of these hits, as many as there is room for. -/
structure Strongest (cap : ℕ) (hits : List Hit) (list : List WifiScanEntry) : Prop where
  length_le : list.length ≤ cap
  nodup : (list.map WifiScanEntry.ssid).Nodup
  valid : ∀ e ∈ list, validSsid e.ssid = true
  rssi : ∀ e ∈ list, IsGreatest (heard e.ssid hits) e.rssi
  /-- A network is left out of a full list only, and was never stronger than an entry. -/
  leftOut : ∀ ssid, validSsid ssid = true → ssid ∉ list.map WifiScanEntry.ssid →
    ∀ rssi ∈ heard ssid hits, list.length = cap ∧ ∀ e ∈ list, rssi ≤ e.rssi

variable {cap : ℕ} {hits : List Hit} {list list' A B : List WifiScanEntry} {hit : Hit}
  {ssid s : List Byte} {r : ℤ} {e w : WifiScanEntry}

theorem heard_append_singleton_of_ne (h : hit.ssid ≠ some s) :
    heard s (hits ++ [hit]) = heard s hits := by
  ext r
  simp [heard, or_and_right, exists_or, h]

theorem heard_append_singleton_self (h : hit.ssid = some s) :
    heard s (hits ++ [hit]) = insert (clampRssi hit.rssi) (heard s hits) := by
  ext r
  simp [heard, or_and_right, exists_or, h, or_comm, eq_comm]

/-- The order of the entries does not matter. -/
theorem Strongest.perm (h : Strongest cap hits list) (hperm : list'.Perm list) :
    Strongest cap hits list' where
  length_le := hperm.length_eq ▸ h.length_le
  nodup := (hperm.map _).nodup_iff.mpr h.nodup
  valid e he := h.valid e (hperm.mem_iff.mp he)
  rssi e he := h.rssi e (hperm.mem_iff.mp he)
  leftOut ssid hvalid hout rssi hrssi := by
    have hout' : ssid ∉ list.map WifiScanEntry.ssid := fun hmem =>
      hout ((hperm.map _).mem_iff.mpr hmem)
    obtain ⟨hfull, hle⟩ := h.leftOut ssid hvalid hout' rssi hrssi
    exact ⟨hperm.length_eq.trans hfull, fun e he => hle e (hperm.mem_iff.mp he)⟩

/-! ## One hit -/

/-- What a hit of a valid SSID can do to the list. -/
inductive Merged (cap : ℕ) (ssid : List Byte) (r : ℤ) :
    List WifiScanEntry → List WifiScanEntry → Prop
  | raise (A B : List WifiScanEntry) (old : ℤ) :
      Merged cap ssid r (A ++ ⟨ssid, old⟩ :: B) (A ++ ⟨ssid, max old r⟩ :: B)
  | add (list : List WifiScanEntry) : ssid ∉ list.map WifiScanEntry.ssid → list.length < cap →
      Merged cap ssid r list (list ++ [⟨ssid, r⟩])
  | skip (list : List WifiScanEntry) : ssid ∉ list.map WifiScanEntry.ssid → cap ≤ list.length →
      (∀ e ∈ list, r ≤ e.rssi) → Merged cap ssid r list list
  | replace (A B : List WifiScanEntry) (w : WifiScanEntry) :
      ssid ∉ (A ++ w :: B).map WifiScanEntry.ssid → cap ≤ (A ++ w :: B).length →
      (∀ e ∈ A ++ w :: B, w.rssi ≤ e.rssi) → w.rssi < r →
      Merged cap ssid r (A ++ w :: B) (A ++ ⟨ssid, r⟩ :: B)

theorem clampRssi_mem (rssi : ℤ) : -128 ≤ clampRssi rssi ∧ clampRssi rssi ≤ 0 := by
  simp only [clampRssi]
  grind

theorem int8_clampRssi (rssi : ℤ) : int8 (clampRssi rssi) = clampRssi rssi := by
  have h := clampRssi_mem rssi
  exact Int.bmod_eq_of_le (by omega) (by omega)

theorem newEntry_of_valid (h : validSsid ssid = true) (rssi : ℤ) :
    newEntry ssid (clampRssi rssi) = ⟨ssid, clampRssi rssi⟩ := by
  have hlength : ssid.length ≤ 32 := by
    by_contra hlong
    rw [validSsid, if_pos (Or.inr (Nat.not_le.mp hlong))] at h
    cases h
  rw [newEntry, List.take_of_length_le hlength, int8_clampRssi]

/-- The loop finds an index, and no entry below the index reached is weaker. -/
theorem weakest_loop (list : List WifiScanEntry) (n : ℕ) :
    let slot := (List.range' 1 n).foldl (fun slot i =>
      if (list.getD i ⟨[], 0⟩).rssi < (list.getD slot ⟨[], 0⟩).rssi then i else slot) 0
    slot ≤ n ∧ ∀ i ≤ n, (list.getD slot ⟨[], 0⟩).rssi ≤ (list.getD i ⟨[], 0⟩).rssi := by
  induction n with
  | zero => simp
  | succ n ih =>
      rw [List.range'_concat, List.foldl_append, List.foldl_cons, List.foldl_nil]
      dsimp only at ih ⊢
      have hnext : 1 + 1 * n = n + 1 := by omega
      rw [hnext]
      split
      · rename_i hlt
        refine ⟨le_refl _, fun i hi => ?_⟩
        rcases Nat.le_succ_iff.mp hi with hi | hi
        · exact hlt.le.trans (ih.2 i hi)
        · rw [hi]
      · rename_i hnot
        refine ⟨ih.1.trans (Nat.le_succ n), fun i hi => ?_⟩
        rcases Nat.le_succ_iff.mp hi with hi | hi
        · exact ih.2 i hi
        · rw [hi]
          exact not_lt.mp hnot

/-- The entry at an index, and the list around it. -/
theorem exists_append_of_lt {i : ℕ} (h : i < list.length) :
    ∃ A w B, list = A ++ w :: B ∧ list.getD i ⟨[], 0⟩ = w ∧ ∀ e, list.set i e = A ++ e :: B := by
  refine ⟨list.take i, list[i], list.drop (i + 1), ?_, ?_, fun e => ?_⟩
  · rw [← List.drop_eq_getElem_cons h, List.take_append_drop]
  · rw [List.getD_eq_getElem?_getD, List.getElem?_eq_getElem h, Option.getD_some]
  · rw [List.set_eq_take_append_cons_drop, if_pos h]

theorem exists_weakest (h : list ≠ []) :
    ∃ A w B, list = A ++ w :: B ∧ list.getD (weakest list) ⟨[], 0⟩ = w ∧
      (∀ e, list.set (weakest list) e = A ++ e :: B) ∧ ∀ e ∈ list, w.rssi ≤ e.rssi := by
  have hpos := List.length_pos_of_ne_nil h
  obtain ⟨hslot, hmin⟩ := weakest_loop list (list.length - 1)
  rw [← weakest] at hslot hmin
  have hlt : weakest list < list.length := by omega
  obtain ⟨A, w, B, hlist, hget, hset⟩ := exists_append_of_lt hlt
  refine ⟨A, w, B, hlist, hget, hset, fun e he => ?_⟩
  obtain ⟨i, hi, rfl⟩ := List.getElem_of_mem he
  have hle := hmin i (by omega)
  rwa [hget, List.getD_eq_getElem?_getD, List.getElem?_eq_getElem hi, Option.getD_some] at hle

theorem wifiScanMerge_of_not_valid (h : ∀ s, hit.ssid = some s → validSsid s = false) :
    wifiScanMerge cap list hit = list := by
  rw [wifiScanMerge]
  split
  · rfl
  · rename_i s hs
    exact if_pos (Or.inr (h s hs))

theorem wifiScanMerge_merged (hcap : 0 < cap) (hs : hit.ssid = some s)
    (hvalid : validSsid s = true) :
    Merged cap s (clampRssi hit.rssi) list (wifiScanMerge cap list hit) := by
  have hskip : ¬ (cap = 0 ∨ validSsid s = false) := by
    rw [hvalid]
    simp [hcap.ne']
  simp only [wifiScanMerge, hs, if_neg hskip]
  split
  · rename_i i hi
    obtain ⟨hlt, hssid, -⟩ := List.findIdx?_eq_some_iff_getElem.mp hi
    obtain ⟨A, w, B, hlist, hget, hset⟩ := exists_append_of_lt hlt
    have hw : w.ssid = s := by
      rw [← hget, List.getD_eq_getElem?_getD, List.getElem?_eq_getElem hlt, Option.getD_some]
      exact of_decide_eq_true hssid
    obtain ⟨ssid, old⟩ := w
    cases hw
    rw [hget, int8_clampRssi, hset, hlist]
    have hraise : Merged cap ssid (clampRssi hit.rssi) (A ++ ⟨ssid, old⟩ :: B)
        (A ++ ⟨ssid, max old (clampRssi hit.rssi)⟩ :: B) := .raise A B old
    split
    · rename_i hlt
      rwa [max_eq_right hlt.le] at hraise
    · rename_i hnot
      rwa [max_eq_left (not_lt.mp hnot)] at hraise
  · rename_i hnone
    have hout : s ∉ list.map WifiScanEntry.ssid := by
      rintro hmem
      obtain ⟨e, he, hes⟩ := List.mem_map.mp hmem
      exact absurd hes (of_decide_eq_false (List.findIdx?_eq_none_iff.mp hnone e he))
    rw [newEntry_of_valid hvalid]
    split
    · rename_i hfull
      have hne : list ≠ [] := List.ne_nil_of_length_pos (hcap.trans_le hfull)
      obtain ⟨A, w, B, hlist, hget, hset, hmin⟩ := exists_weakest hne
      rw [hget, hset]
      split
      · rename_i hle
        exact .skip list hout hfull fun e he => hle.trans (hmin e he)
      · rename_i hnot
        rw [hlist] at hout hfull hmin ⊢
        exact .replace A B w hout hfull hmin (not_le.mp hnot)
    · rename_i hroom
      exact .add list hout (not_le.mp hroom)

/-! ## What a hit preserves -/

section Step

variable (h : Strongest cap hits list) (hs : hit.ssid = some s) (hvalid : validSsid s = true)

include hs in
theorem heard_append_singleton_other {t : List Byte} (hne : t ≠ s) :
    heard t (hits ++ [hit]) = heard t hits := by
  apply heard_append_singleton_of_ne
  rw [hs]
  exact fun heq => hne (Option.some.inj heq).symm

include h hs in
/-- The other entries keep their strongest hit. -/
theorem Strongest.rssi_other (he : e ∈ list) (hne : e.ssid ≠ s) :
    IsGreatest (heard e.ssid (hits ++ [hit])) e.rssi := by
  rw [heard_append_singleton_other hs hne]
  exact h.rssi e he

theorem ssid_ne_of_notMem (hout : s ∉ list.map WifiScanEntry.ssid) (he : e ∈ list) :
    e.ssid ≠ s := by
  rintro rfl
  exact hout (List.mem_map_of_mem he)

theorem Strongest.raise {old : ℤ} (h : Strongest cap hits (A ++ ⟨s, old⟩ :: B))
    (hs : hit.ssid = some s) :
    Strongest cap (hits ++ [hit]) (A ++ ⟨s, max old (clampRssi hit.rssi)⟩ :: B) where
  length_le := by simpa using h.length_le
  nodup := by simpa using h.nodup
  valid e he := by
    simp only [List.mem_append, List.mem_cons] at he
    rcases he with he | rfl | he
    · exact h.valid e (by simp [he])
    · exact h.valid ⟨s, old⟩ (by simp)
    · exact h.valid e (by simp [he])
  rssi e he := by
    have hnodup := h.nodup
    rw [List.map_append, List.map_cons, List.nodup_middle, List.nodup_cons,
      ← List.map_append] at hnodup
    simp only [List.mem_append, List.mem_cons] at he
    rcases he with he | rfl | he
    · exact h.rssi_other hs (by simp [he]) (ssid_ne_of_notMem hnodup.1 (by simp [he]))
    · rw [heard_append_singleton_self hs, max_comm]
      exact (h.rssi ⟨s, old⟩ (by simp)).insert _
    · exact h.rssi_other hs (by simp [he]) (ssid_ne_of_notMem hnodup.1 (by simp [he]))
  leftOut t ht hout rssi hrssi := by
    have hout' : t ∉ (A ++ ⟨s, old⟩ :: B).map WifiScanEntry.ssid := by simpa using hout
    have hne : t ≠ s := fun heq => hout' (by simp [heq])
    rw [heard_append_singleton_other hs hne] at hrssi
    obtain ⟨hfull, hle⟩ := h.leftOut t ht hout' rssi hrssi
    refine ⟨by simpa using hfull, fun e he => ?_⟩
    simp only [List.mem_append, List.mem_cons] at he
    rcases he with he | rfl | he
    · exact hle e (by simp [he])
    · exact (hle ⟨s, old⟩ (by simp)).trans (le_max_left _ _)
    · exact hle e (by simp [he])

include h hs hvalid

/-- As long as there is room, an SSID that is not listed was not heard before. -/
theorem Strongest.add (hout : s ∉ list.map WifiScanEntry.ssid) (hroom : list.length < cap) :
    Strongest cap (hits ++ [hit]) (list ++ [⟨s, clampRssi hit.rssi⟩]) where
  length_le := by
    rw [List.length_append, List.length_singleton]
    exact hroom
  nodup := by simpa [List.nodup_append'] using ⟨h.nodup, by simpa using hout⟩
  valid e he := by
    rcases List.mem_append.mp he with he | he
    · exact h.valid e he
    · rwa [List.mem_singleton.mp he]
  rssi e he := by
    rcases List.mem_append.mp he with he | he
    · exact h.rssi_other hs he (ssid_ne_of_notMem hout he)
    · have hempty : heard s hits = ∅ := by
        refine Set.eq_empty_iff_forall_notMem.mpr fun r hr => ?_
        exact hroom.ne (h.leftOut s hvalid hout r hr).1
      rw [List.mem_singleton.mp he, heard_append_singleton_self hs, hempty]
      simp
  leftOut t ht hout' rssi hrssi := by
    rw [List.map_append, List.mem_append, not_or] at hout'
    have hne : t ≠ s := by simpa using hout'.2
    rw [heard_append_singleton_other hs hne] at hrssi
    exact absurd (h.leftOut t ht hout'.1 rssi hrssi).1 hroom.ne

/-- A hit that is not stronger than any entry of a full list. -/
theorem Strongest.skip (hout : s ∉ list.map WifiScanEntry.ssid) (hfull : cap ≤ list.length)
    (hle : ∀ e ∈ list, clampRssi hit.rssi ≤ e.rssi) : Strongest cap (hits ++ [hit]) list where
  length_le := h.length_le
  nodup := h.nodup
  valid := h.valid
  rssi e he := h.rssi_other hs he (ssid_ne_of_notMem hout he)
  leftOut t ht hout' rssi hrssi := by
    by_cases heq : t = s
    · rw [heq, heard_append_singleton_self hs] at hrssi
      rcases hrssi with rfl | hrssi
      · exact ⟨h.length_le.antisymm hfull, hle⟩
      · exact h.leftOut s hvalid hout rssi hrssi
    · rw [heard_append_singleton_other hs heq] at hrssi
      exact h.leftOut t ht hout' rssi hrssi

end Step

/-- The weakest entry gives way: what was left out before, and what is left out now, was never
stronger than it. -/
theorem Strongest.replace (h : Strongest cap hits (A ++ w :: B)) (hs : hit.ssid = some s)
    (hvalid : validSsid s = true) (hout : s ∉ (A ++ w :: B).map WifiScanEntry.ssid)
    (hfull : cap ≤ (A ++ w :: B).length) (hmin : ∀ e ∈ A ++ w :: B, w.rssi ≤ e.rssi)
    (hlt : w.rssi < clampRssi hit.rssi) :
    Strongest cap (hits ++ [hit]) (A ++ ⟨s, clampRssi hit.rssi⟩ :: B) := by
  have hw : w ∈ A ++ w :: B := by simp
  have hsub : ∀ e ∈ A ++ B, e ∈ A ++ w :: B := by
    intro e he
    rcases List.mem_append.mp he with he | he
    · simp [he]
    · simp [he]
  have hmem : ∀ e ∈ A ++ (⟨s, clampRssi hit.rssi⟩ : WifiScanEntry) :: B,
      e = ⟨s, clampRssi hit.rssi⟩ ∨ e ∈ A ++ B := by
    intro e he
    simp only [List.mem_append, List.mem_cons] at he ⊢
    tauto
  refine ⟨by simpa using h.length_le, ?_, ?_, ?_, ?_⟩
  · have hnodup := h.nodup
    rw [List.map_append, List.map_cons, List.nodup_middle, List.nodup_cons] at hnodup ⊢
    refine ⟨fun hin => ?_, hnodup.2⟩
    rw [← List.map_append] at hin
    obtain ⟨e, he, hes⟩ := List.mem_map.mp hin
    exact ssid_ne_of_notMem hout (hsub e he) hes
  · intro e he
    rcases hmem e he with rfl | he
    · exact hvalid
    · exact h.valid e (hsub e he)
  · intro e he
    rcases hmem e he with rfl | he
    · rw [heard_append_singleton_self hs]
      refine ⟨Set.mem_insert _ _, fun r hr => ?_⟩
      rcases hr with rfl | hr
      · exact le_refl _
      · exact ((h.leftOut s hvalid hout r hr).2 w hw).trans hlt.le
    · exact h.rssi_other hs (hsub e he) (ssid_ne_of_notMem hout (hsub e he))
  · intro t ht hout' rssi hrssi
    have hne : t ≠ s := fun heq => hout' (by simp [heq])
    rw [heard_append_singleton_other hs hne] at hrssi
    have hle : rssi ≤ w.rssi := by
      by_cases heq : t = w.ssid
      · rw [heq] at hrssi
        exact (h.rssi w hw).2 hrssi
      · have hold : t ∉ (A ++ w :: B).map WifiScanEntry.ssid := by
          simp only [List.map_append, List.map_cons, List.mem_append, List.mem_cons] at hout' ⊢
          tauto
        exact (h.leftOut t ht hold rssi hrssi).2 w hw
    have hlength : (A ++ w :: B).length = cap := h.length_le.antisymm hfull
    refine ⟨by simpa using hlength, fun e he => ?_⟩
    rcases hmem e he with rfl | he
    · exact hle.trans hlt.le
    · exact hle.trans (hmin e (hsub e he))

theorem Strongest.merged (h : Strongest cap hits list) (hs : hit.ssid = some s)
    (hvalid : validSsid s = true) (hm : Merged cap s (clampRssi hit.rssi) list list') :
    Strongest cap (hits ++ [hit]) list' := by
  cases hm with
  | raise A B old => exact h.raise hs
  | add list hout hroom => exact h.add hs hvalid hout hroom
  | skip list hout hfull hle => exact h.skip hs hvalid hout hfull hle
  | replace A B w hout hfull hmin hlt => exact h.replace hs hvalid hout hfull hmin hlt

/-- A hit without a valid SSID counts for nothing. -/
theorem Strongest.of_not_valid (h : Strongest cap hits list)
    (hnot : ∀ s, hit.ssid = some s → validSsid s = false) :
    Strongest cap (hits ++ [hit]) list := by
  have hheard : ∀ t, validSsid t = true → heard t (hits ++ [hit]) = heard t hits := by
    intro t ht
    apply heard_append_singleton_of_ne
    intro heq
    rw [hnot t heq] at ht
    cases ht
  refine ⟨h.length_le, h.nodup, h.valid, fun e he => ?_, fun t ht hout rssi hrssi => ?_⟩
  · rw [hheard _ (h.valid e he)]
    exact h.rssi e he
  · rw [hheard t ht] at hrssi
    exact h.leftOut t ht hout rssi hrssi

theorem strongest_nil (cap : ℕ) : Strongest cap [] [] :=
  ⟨Nat.zero_le cap, List.nodup_nil, by simp, by simp, by simp [heard]⟩

/-! ## All hits -/

theorem strongest_foldl (hcap : 0 < cap) (hits : List Hit) :
    Strongest cap hits (hits.foldl (wifiScanMerge cap) []) := by
  induction hits using List.reverseRecOn with
  | nil => exact strongest_nil cap
  | append_singleton hits hit ih =>
      rw [List.foldl_append, List.foldl_cons, List.foldl_nil]
      by_cases hvalid : ∃ s, hit.ssid = some s ∧ validSsid s = true
      · obtain ⟨s, hs, hvalid⟩ := hvalid
        exact ih.merged hs hvalid (wifiScanMerge_merged hcap hs hvalid)
      · have hnot : ∀ s, hit.ssid = some s → validSsid s = false := by
          intro s hs
          by_contra hne
          exact hvalid ⟨s, hs, Bool.eq_true_of_not_eq_false hne⟩
        rw [wifiScanMerge_of_not_valid hnot]
        exact ih.of_not_valid hnot

/-- The report holds the strongest networks, and the strongest of them first. -/
theorem scanSsid_strongest (hcap : 0 < cap) (hits : List Hit) :
    Strongest cap hits (scanSsid cap hits) ∧
      (scanSsid cap hits).Pairwise fun a b => b.rssi ≤ a.rssi := by
  obtain ⟨hperm, hsorted⟩ :=
    InsertionSort.sort_perm WifiScanEntry.rssi (hits.foldl (wifiScanMerge cap) [])
  exact ⟨(strongest_foldl hcap hits).perm hperm, hsorted⟩

/-- A network that was replaced comes back stronger, and replaces the weakest. -/
theorem scanSsid_strongest_two :
    scanSsid 2 [⟨some (ascii "far"), -90⟩, ⟨some (ascii "home"), -50⟩, ⟨none, -20⟩,
        ⟨some (ascii "shop"), -60⟩, ⟨some (ascii "far"), -55⟩] =
      [⟨ascii "home", -50⟩, ⟨ascii "far", -55⟩] ∧
    Strongest 2 [⟨some (ascii "far"), -90⟩, ⟨some (ascii "home"), -50⟩, ⟨none, -20⟩,
        ⟨some (ascii "shop"), -60⟩, ⟨some (ascii "far"), -55⟩]
      [⟨ascii "home", -50⟩, ⟨ascii "far", -55⟩] := by
  have hrun : scanSsid 2 [⟨some (ascii "far"), -90⟩, ⟨some (ascii "home"), -50⟩, ⟨none, -20⟩,
      ⟨some (ascii "shop"), -60⟩, ⟨some (ascii "far"), -55⟩] =
        [⟨ascii "home", -50⟩, ⟨ascii "far", -55⟩] := by
    decide +kernel
  exact ⟨hrun, hrun ▸ (scanSsid_strongest (by decide) _).1⟩

end Scan

end Wifi

end Voyager
