import Voyager.Wifi.Scan

/-!
# The networks that Improv lists

The results of one scan are merged into an array of fixed size: a name has one entry, with the
strength and the security of its strongest hit, and a name that comes when the array is full is
left out. A strength above zero is cut to zero only in the first hit of a name. At the end the
strongest network stands first.
-/

namespace Voyager

namespace Wifi

namespace ImprovNetworks

open Scan (clampRssi int8)

/-- `WifiNet`. -/
structure WifiNet where
  ssid : List Byte
  rssi : ℤ
  secure : Bool
  deriving DecidableEq, Repr

/-- What the driver tells about the result `i` of a scan; it has the strength in an `int8_t`. -/
structure ScanResult where
  ssid : List Byte
  rssi : ℤ
  secure : Bool
  rssi_mem : -128 ≤ rssi ∧ rssi ≤ 127
  deriving DecidableEq, Repr

/-- One turn of the loop over the results, for the first `count` entries of the array. -/
def mergeResult (max : ℕ) (out : List WifiNet) (r : ScanResult) : List WifiNet :=
  if r.ssid.length = 0 ∨ r.ssid.length > 32 then out
  else
    match out.findIdx? fun e => e.ssid = r.ssid with
    | some j =>
        let e := out.getD j ⟨[], 0, false⟩
        if r.rssi > e.rssi then out.set j { e with rssi := int8 r.rssi, secure := r.secure }
        else out
    | none =>
        if out.length = max then out
        else out ++ [⟨r.ssid, int8 (clampRssi r.rssi), r.secure⟩]

/-- `wifi_improv_scan`, with what the scan has found; `provisioning` or a radio that is not free
within five seconds end it at once. -/
def wifiImprovScan (max : ℕ) (provisioning locked : Bool) (results : List ScanResult) :
    List WifiNet :=
  if max = 0 ∨ provisioning = true ∨ locked = false then []
  else InsertionSort.sort WifiNet.rssi (results.foldl (mergeResult max) [])

/-! ## What is listed -/

/-- The names of some results that are not hidden, each at its first place. -/
def names (results : List ScanResult) : List (List Byte) :=
  ((results.map ScanResult.ssid).filter fun s => s.length ≠ 0 ∧ s.length ≤ 32).eraseDups

/-- What a result counts behind the results `before`. -/
def counted (before : List ScanResult) (r : ScanResult) : ℤ :=
  if r.ssid ∈ before.map ScanResult.ssid then r.rssi else clampRssi r.rssi

/-- An entry is as strong and as secure as the first one of the results of its name that count
most. -/
def IsStrongest (results : List ScanResult) (e : WifiNet) : Prop :=
  ∃ before r after, results = before ++ r :: after ∧ r.ssid = e.ssid ∧ r.secure = e.secure ∧
    counted before r = e.rssi ∧
    (∀ before' r' after', before = before' ++ r' :: after' → r'.ssid = e.ssid →
      counted before' r' < e.rssi) ∧
    ∀ before' r' after', results = before' ++ r' :: after' → r'.ssid = e.ssid →
      counted before' r' ≤ e.rssi

variable {max : ℕ} {results : List ScanResult} {out : List WifiNet} {r : ScanResult}
  {e : WifiNet} {s : List Byte}

theorem mem_names : s ∈ names results ↔
    (s.length ≠ 0 ∧ s.length ≤ 32) ∧ ∃ r ∈ results, r.ssid = s := by
  rw [names, List.mem_eraseDups, List.mem_filter, List.mem_map, decide_eq_true_eq, and_comm]

/-- A result that is hidden, or whose name was heard before. -/
theorem names_append_known (h : r.ssid.length ≠ 0 ∧ r.ssid.length ≤ 32 → r.ssid ∈ names results) :
    names (results ++ [r]) = names results := by
  unfold names at h ⊢
  rw [List.map_append, List.filter_append, List.eraseDups_append, List.map_singleton]
  by_cases hname : r.ssid.length ≠ 0 ∧ r.ssid.length ≤ 32
  · rw [List.filter_cons_of_pos (by simpa using hname), List.filter_nil, List.cons_removeAll,
      if_neg (by rw [List.contains_iff_mem.mpr (List.mem_eraseDups.mp (h hname))]; decide),
      List.nil_removeAll, List.eraseDups_nil, List.append_nil]
  · rw [List.filter_cons_of_neg (by simpa using hname), List.filter_nil]
    simp [List.removeAll]

theorem names_append_new (hname : r.ssid.length ≠ 0 ∧ r.ssid.length ≤ 32)
    (hout : r.ssid ∉ names results) : names (results ++ [r]) = names results ++ [r.ssid] := by
  unfold names at hout ⊢
  rw [List.mem_eraseDups] at hout
  rw [List.map_append, List.filter_append, List.eraseDups_append, List.map_singleton,
    List.filter_cons_of_pos (by simpa using hname), List.filter_nil, List.cons_removeAll,
    if_pos (by simpa using hout), List.nil_removeAll]
  rfl

/-! ## One result -/

/-- What the loop keeps. -/
structure Listed (max : ℕ) (results : List ScanResult) (out : List WifiNet) : Prop where
  ssids : out.map WifiNet.ssid = (names results).take max
  nodup : (out.map WifiNet.ssid).Nodup
  strongest : ∀ e ∈ out, IsStrongest results e

theorem int8_of_mem {x : ℤ} (h : -128 ≤ x) (h' : x ≤ 127) : int8 x = x :=
  Int.bmod_eq_of_le (by omega) (by omega)

theorem counted_of_mem (h : r.ssid ∈ names results) : counted results r = r.rssi := by
  obtain ⟨-, r', hr', hssid⟩ := mem_names.mp h
  exact if_pos (List.mem_map.mpr ⟨r', hr', hssid⟩)

theorem counted_of_notMem (hname : r.ssid.length ≠ 0 ∧ r.ssid.length ≤ 32)
    (h : r.ssid ∉ names results) : counted results r = clampRssi r.rssi := by
  refine if_neg fun hmem => h (mem_names.mpr ⟨hname, ?_⟩)
  simpa using hmem

/-- A place in a list with one more result is a place in the list, or the new one. -/
theorem append_cons_eq_concat {before after : List ScanResult} {r' : ScanResult}
    (h : results ++ [r] = before ++ r' :: after) :
    (∃ after', results = before ++ r' :: after') ∨ before = results ∧ r' = r := by
  rcases List.eq_nil_or_concat' after with rfl | ⟨after', c, rfl⟩
  · obtain ⟨hbefore, hlast⟩ := List.append_inj' h rfl
    exact .inr ⟨hbefore.symm, (List.cons.inj hlast).1.symm⟩
  · have hassoc : before ++ r' :: (after' ++ [c]) = (before ++ r' :: after') ++ [c] := by simp
    rw [hassoc] at h
    exact .inl ⟨after', (List.append_inj' h rfl).1⟩

/-- One more result that does not count more changes nothing for an entry. -/
theorem IsStrongest.append (h : IsStrongest results e)
    (hle : r.ssid = e.ssid → counted results r ≤ e.rssi) : IsStrongest (results ++ [r]) e := by
  obtain ⟨before, r₁, after, rfl, hssid, hsecure, hrssi, hfirst, hmax⟩ := h
  refine ⟨before, r₁, after ++ [r], by simp, hssid, hsecure, hrssi, hfirst, ?_⟩
  intro before' r' after' heq hname
  rcases append_cons_eq_concat heq with ⟨after', hold⟩ | ⟨rfl, rfl⟩
  · exact hmax before' r' after' hold hname
  · exact hle hname

/-- A result that counts more than all before. -/
theorem isStrongest_last (hssid : r.ssid = e.ssid) (hsecure : r.secure = e.secure)
    (hrssi : counted results r = e.rssi)
    (hmax : ∀ before' r' after', results = before' ++ r' :: after' → r'.ssid = e.ssid →
      counted before' r' < e.rssi) : IsStrongest (results ++ [r]) e := by
  refine ⟨results, r, [], rfl, hssid, hsecure, hrssi, hmax, ?_⟩
  intro before' r' after' heq hname
  rcases append_cons_eq_concat heq with ⟨after', hold⟩ | ⟨rfl, rfl⟩
  · exact (hmax before' r' after' hold hname).le
  · exact hrssi.le

/-- The strength of an entry is in range, and above zero only where a result was. -/
theorem IsStrongest.rssi_mem (h : IsStrongest results e) :
    -128 ≤ e.rssi ∧ e.rssi ≤ 127 ∧
      ((∀ r ∈ results, r.ssid = e.ssid → r.rssi ≤ 0) → e.rssi ≤ 0) := by
  obtain ⟨before, r, after, rfl, hssid, -, hrssi, -⟩ := h
  rw [← hrssi, counted]
  split
  · exact ⟨r.rssi_mem.1, r.rssi_mem.2, fun hzero => hzero r (by simp) hssid⟩
  · have hclamp := Scan.clampRssi_mem r.rssi
    exact ⟨hclamp.1, hclamp.2.trans (by decide), fun _ => hclamp.2⟩

theorem Listed.mem_names (h : Listed max results out) (he : e ∈ out) : e.ssid ∈ names results := by
  have hmem : e.ssid ∈ out.map WifiNet.ssid := List.mem_map_of_mem he
  rw [h.ssids] at hmem
  exact List.mem_of_mem_take hmem

/-- A result whose name has an entry already. -/
theorem Listed.raise {A B : List WifiNet} (h : Listed max results (A ++ e :: B))
    (hssid : r.ssid = e.ssid) (hlt : e.rssi < r.rssi) :
    Listed max (results ++ [r]) (A ++ ⟨e.ssid, r.rssi, r.secure⟩ :: B) := by
  have hmem : r.ssid ∈ names results := hssid ▸ h.mem_names (by simp)
  have hnodup := h.nodup
  rw [List.map_append, List.map_cons, List.nodup_middle, List.nodup_cons, ← List.map_append]
    at hnodup
  have hother {e' : WifiNet} (he' : e' ∈ A ++ B) : r.ssid ≠ e'.ssid := fun heq =>
    hnodup.1 (hssid ▸ heq ▸ List.mem_map_of_mem he')
  have hcases {e' : WifiNet} (he' : e' ∈ A ++ ⟨e.ssid, r.rssi, r.secure⟩ :: B) :
      e' = ⟨e.ssid, r.rssi, r.secure⟩ ∨ e' ∈ A ++ B := by
    simp only [List.mem_append, List.mem_cons] at he' ⊢
    tauto
  have hkept {e' : WifiNet} (he' : e' ∈ A ++ B) : e' ∈ A ++ e :: B := by
    simp only [List.mem_append, List.mem_cons] at he' ⊢
    tauto
  constructor
  · rw [names_append_known fun _ => hmem, ← h.ssids]
    simp
  · simpa using h.nodup
  · intro e' he'
    rcases hcases he' with rfl | he'
    · obtain ⟨_, _, _, -, -, -, -, -, hmax⟩ := h.strongest e (by simp)
      refine isStrongest_last hssid rfl (counted_of_mem hmem) ?_
      exact fun before' r' after' heq hname => (hmax before' r' after' heq hname).trans_lt hlt
    · exact (h.strongest e' (hkept he')).append fun heq => absurd heq (hother he')

/-- A result that leaves the array as it is. -/
theorem Listed.skip (h : Listed max results out)
    (htake : (names (results ++ [r])).take max = (names results).take max)
    (hle : ∀ e ∈ out, r.ssid = e.ssid → counted results r ≤ e.rssi) :
    Listed max (results ++ [r]) out where
  ssids := h.ssids.trans htake.symm
  nodup := h.nodup
  strongest e he := (h.strongest e he).append (hle e he)

/-- A name that is new to the array. -/
theorem Listed.add (h : Listed max results out) (hname : r.ssid.length ≠ 0 ∧ r.ssid.length ≤ 32)
    (hout : r.ssid ∉ out.map WifiNet.ssid) (hroom : out.length ≠ max) :
    Listed max (results ++ [r]) (out ++ [⟨r.ssid, clampRssi r.rssi, r.secure⟩]) := by
  have hlength := congrArg List.length h.ssids
  rw [List.length_map, List.length_take] at hlength
  have htake : (names results).take max = names results := List.take_of_length_le (by omega)
  have hnew : r.ssid ∉ names results := by
    rwa [← htake, ← h.ssids]
  have hnever (r' : ScanResult) (hr' : r' ∈ results) : r'.ssid ≠ r.ssid := fun heq =>
    hnew (ImprovNetworks.mem_names.mpr ⟨hname, r', hr', heq⟩)
  constructor
  · rw [names_append_new hname hnew, List.map_append, h.ssids, htake, List.take_of_length_le]
    · rfl
    · rw [List.length_append, List.length_singleton]
      omega
  · rw [List.map_append, List.nodup_append']
    exact ⟨h.nodup, List.nodup_singleton _, by simpa using hout⟩
  · intro e he
    rcases List.mem_append.mp he with hold | hlast
    · exact (h.strongest e hold).append fun heq =>
        absurd (heq ▸ List.mem_map_of_mem hold) hout
    · rw [List.mem_singleton.mp hlast]
      refine isStrongest_last rfl rfl (counted_of_notMem hname hnew) ?_
      intro before' r' after' hold heq
      exact absurd heq (hnever r' (hold ▸ List.mem_append_right _ List.mem_cons_self))

/-- Whatever the result is, the array lists what was found so far. -/
theorem Listed.merge (h : Listed max results out) :
    Listed max (results ++ [r]) (mergeResult max out r) := by
  unfold mergeResult
  split
  · next hhidden =>
      have hnot : ¬ (r.ssid.length ≠ 0 ∧ r.ssid.length ≤ 32) := by omega
      refine h.skip (by rw [names_append_known fun hname => absurd hname hnot]) fun e he heq => ?_
      exact absurd (heq ▸ (ImprovNetworks.mem_names.mp (h.mem_names he)).1) hnot
  · next hshown =>
      have hname : r.ssid.length ≠ 0 ∧ r.ssid.length ≤ 32 := by omega
      split
      · next j hj =>
          obtain ⟨hlt, hssid, -⟩ := List.findIdx?_eq_some_iff_getElem.mp hj
          have hssid : r.ssid = out[j].ssid := (of_decide_eq_true hssid).symm
          have hget : out.getD j ⟨[], 0, false⟩ = out[j] := by
            rw [List.getD_eq_getElem?_getD, List.getElem?_eq_getElem hlt, Option.getD_some]
          have hlist : out = out.take j ++ out[j] :: out.drop (j + 1) := by
            rw [← List.drop_eq_getElem_cons hlt, List.take_append_drop]
          dsimp only
          rw [hget]
          split
          · next hgt =>
              rw [int8_of_mem r.rssi_mem.1 r.rssi_mem.2, List.set_eq_take_append_cons_drop,
                if_pos hlt]
              generalize out[j] = e at *
              exact (hlist ▸ h).raise hssid hgt
          · next hle =>
              have hmem : r.ssid ∈ names results := hssid ▸ h.mem_names (List.getElem_mem hlt)
              refine h.skip (by rw [names_append_known fun _ => hmem]) fun e he heq => ?_
              have hsame : e = out[j] :=
                List.inj_on_of_nodup_map h.nodup he (List.getElem_mem hlt) (heq.symm.trans hssid)
              rw [hsame, counted_of_mem hmem]
              exact not_lt.mp hle
      · next hnone =>
          have hout : r.ssid ∉ out.map WifiNet.ssid := by
            intro hmem
            obtain ⟨e, he, hes⟩ := List.mem_map.mp hmem
            exact absurd hes (of_decide_eq_false (List.findIdx?_eq_none_iff.mp hnone e he))
          split
          · next hfull =>
              have hlength := congrArg List.length h.ssids
              rw [List.length_map, List.length_take] at hlength
              refine h.skip ?_ fun e he heq => absurd (heq ▸ List.mem_map_of_mem he) hout
              by_cases hheard : r.ssid ∈ names results
              · rw [names_append_known fun _ => hheard]
              · rw [names_append_new hname hheard, List.take_append_of_le_length (by omega)]
          · next hroom =>
              rw [Scan.int8_clampRssi]
              exact h.add hname hout hroom

/-! ## The whole scan -/

theorem listed_foldl (max : ℕ) (results : List ScanResult) :
    Listed max results (results.foldl (mergeResult max) []) := by
  induction results using List.reverseRecOn with
  | nil => exact ⟨by simp [names], List.nodup_nil, by simp⟩
  | append_singleton results r ih =>
      rw [List.foldl_append, List.foldl_cons, List.foldl_nil]
      exact ih.merge

/-- Every name that was heard has one entry, as long as there is room in the order in which they
were heard; an entry is as strong and as secure as the strongest result of its name, and the
strongest entry stands first. -/
theorem wifiImprovScan_lists (max : ℕ) (results : List ScanResult) :
    ((wifiImprovScan max false true results).map WifiNet.ssid).Perm ((names results).take max) ∧
      ((wifiImprovScan max false true results).map WifiNet.ssid).Nodup ∧
      (∀ e ∈ wifiImprovScan max false true results, IsStrongest results e ∧
        -128 ≤ e.rssi ∧ e.rssi ≤ 127 ∧
        ((∀ r ∈ results, r.ssid = e.ssid → r.rssi ≤ 0) → e.rssi ≤ 0)) ∧
      InsertionSort.Sorted WifiNet.rssi (wifiImprovScan max false true results) := by
  have hlisted := listed_foldl max results
  unfold wifiImprovScan
  split
  · next hempty =>
      have hmax : max = 0 := by simpa using hempty
      subst hmax
      simp
  · obtain ⟨hperm, hsorted⟩ :=
      InsertionSort.sort_perm WifiNet.rssi (results.foldl (mergeResult max) [])
    refine ⟨hlisted.ssids ▸ hperm.map _, (hperm.map _).nodup_iff.mpr hlisted.nodup, ?_, hsorted⟩
    intro e he
    have hstrongest := hlisted.strongest e (hperm.mem_iff.mp he)
    exact ⟨hstrongest, hstrongest.rssi_mem⟩

/-- Of two strengths above zero of one name the first is cut, the second is not. -/
example : wifiImprovScan 20 false true
    [⟨[0x41], 5, true, by decide⟩, ⟨[], -30, false, by decide⟩, ⟨[0x41], 3, false, by decide⟩] =
      [⟨[0x41], 3, false⟩] := by decide

end ImprovNetworks

end Wifi

end Voyager
