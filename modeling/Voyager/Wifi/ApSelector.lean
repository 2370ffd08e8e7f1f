import Mathlib.Data.List.MinMax
import Voyager.Wifi.Scan

/-!
# The choice of an access point

Several access points can have the saved SSID. `WifiApSelector` is told of every hit of a
scan and keeps two candidates: the strongest of all, and the strongest of those that are
not the one to avoid. `List.argmax` is the first of the greatest elements of a list.
-/

namespace Voyager

namespace Wifi

namespace ApSelector

open Scan (clampRssi int8)

/-- The six bytes of a BSSID. -/
abbrev Bssid := Vector Byte 6

/-- `WifiApCandidate`. -/
structure WifiApCandidate where
  valid : Bool
  rssi : ℤ
  channel : Byte
  bssid : Bssid
  deriving DecidableEq, Repr

def noBssid : Bssid := .replicate 6 0

/-- `WifiApCandidate()`. -/
def noCandidate : WifiApCandidate := ⟨false, -128, 0, noBssid⟩

/-- What `WifiApSelector.add` is told of one hit. -/
structure Hit where
  ssid : Option (List Byte)
  rssi : ℤ
  bssid : Option Bssid
  channel : ℤ
  deriving DecidableEq, Repr

/-- `wifi_consider_ap`: whether the candidate changed, and the candidate. -/
def wifiConsiderAp (best : WifiApCandidate) (wantSsid : Option (List Byte)) (hit : Hit) :
    Bool × WifiApCandidate :=
  match wantSsid, hit.ssid, hit.bssid with
  | some want, some ssid, some bssid =>
      if want = [] then (false, best)
      else if want ≠ ssid then (false, best)
      else if hit.channel < 1 ∨ hit.channel > 14 then (false, best)
      else
        let rssi := clampRssi hit.rssi
        if best.valid ∧ rssi ≤ best.rssi then (false, best)
        else (true, ⟨true, int8 rssi, UInt8.ofInt hit.channel, bssid⟩)
  | _, _, _ => (false, best)

structure WifiApSelector where
  any : WifiApCandidate
  other : WifiApCandidate
  hasAvoid : Bool
  avoid : Bssid
  /-- The hits with the wanted SSID. -/
  seen : ℕ
  deriving DecidableEq, Repr

namespace WifiApSelector

/-- `WifiApSelector()`. -/
def new : WifiApSelector := ⟨noCandidate, noCandidate, false, noBssid, 0⟩

def setAvoid (sel : WifiApSelector) (b : Option Bssid) : WifiApSelector :=
  { sel with hasAvoid := b.isSome, avoid := b.getD sel.avoid }

def add (wantSsid : Option (List Byte)) (sel : WifiApSelector) (hit : Hit) : WifiApSelector :=
  if wantSsid = none ∨ hit.ssid = none ∨ wantSsid ≠ hit.ssid then sel
  else
    { sel with
      seen := sel.seen + 1
      any := (wifiConsiderAp sel.any wantSsid hit).2
      other :=
        if !(sel.hasAvoid && hit.bssid == some sel.avoid) then
          (wifiConsiderAp sel.other wantSsid hit).2
        else sel.other }

def pick (sel : WifiApSelector) : WifiApCandidate := if sel.other.valid then sel.other else sel.any

def onlyAvoided (sel : WifiApSelector) : Bool :=
  sel.hasAvoid && sel.any.valid && !sel.other.valid

/-- A selector that was told what to avoid, and then of all these hits. -/
def afterHits (want : List Byte) (avoid : Option Bssid) (hits : List Hit) : WifiApSelector :=
  hits.foldl (add (some want)) (new.setAvoid avoid)

end WifiApSelector

/-! ## What is to be chosen -/

/-- A hit that may be chosen. -/
def Eligible (want : List Byte) (hit : Hit) : Prop :=
  hit.ssid = some want ∧ hit.bssid.isSome ∧ 1 ≤ hit.channel ∧ hit.channel ≤ 14

instance (want : List Byte) : DecidablePred (Eligible want) := fun hit =>
  inferInstanceAs (Decidable (hit.ssid = some want ∧ hit.bssid.isSome ∧ 1 ≤ hit.channel ∧
    hit.channel ≤ 14))

def eligibleHits (want : List Byte) (hits : List Hit) : List Hit :=
  hits.filter fun hit => Eligible want hit

/-- The first of the strongest hits. -/
def strongest (hits : List Hit) : Option Hit :=
  @List.argmax Hit ℤ Int.instLinearOrder.toPreorder Int.decLt (fun hit => clampRssi hit.rssi) hits

/-- The candidate that is made of a hit. -/
def candidate : Option Hit → WifiApCandidate
  | none => noCandidate
  | some hit =>
      ⟨true, clampRssi hit.rssi, UInt8.ofInt hit.channel, hit.bssid.getD noBssid⟩

/-- The hits that do not have the BSSID to avoid. -/
def notAvoided (avoid : Option Bssid) (hits : List Hit) : List Hit :=
  hits.filter fun hit => avoid = none ∨ hit.bssid ≠ avoid

variable {want : List Byte} {avoid : Option Bssid} {hits : List Hit} {hit : Hit}

/-! ## One hit -/

theorem strongest_append_singleton_of_none (h : strongest hits = none) (hit : Hit) :
    strongest (hits ++ [hit]) = some hit := by
  rw [strongest, List.argmax_concat, ← strongest, h]

/-- Of two hits of the same strength, the first stays. -/
theorem strongest_append_singleton_of_some {best : Hit} (h : strongest hits = some best)
    (hit : Hit) : strongest (hits ++ [hit]) =
      some (if clampRssi best.rssi < clampRssi hit.rssi then hit else best) := by
  rw [strongest, List.argmax_concat, ← strongest, h]
  exact (apply_ite some _ _ _).symm

theorem wifiConsiderAp_of_not_eligible (h : ¬ Eligible want hit) (best : WifiApCandidate) :
    (wifiConsiderAp best (some want) hit).2 = best := by
  obtain ⟨ssid, rssi, bssid, channel⟩ := hit
  cases ssid with
  | none => rfl
  | some ssid =>
      cases bssid with
      | none => rfl
      | some bssid =>
          simp only [Eligible, Option.some.injEq, Option.isSome_some, true_and] at h
          simp only [wifiConsiderAp]
          split
          · rfl
          · split
            · rfl
            · rename_i hsame
              have hchannel : channel < 1 ∨ channel > 14 := by
                by_contra hin
                exact h ⟨(not_not.mp hsame).symm, by omega, by omega⟩
              rw [if_pos hchannel]

/-- A hit that may be chosen is compared with the candidate. -/
theorem wifiConsiderAp_of_eligible (hwant : want ≠ []) (h : Eligible want hit)
    (best : WifiApCandidate) :
    (wifiConsiderAp best (some want) hit).2 =
      if best.valid ∧ clampRssi hit.rssi ≤ best.rssi then best else candidate (some hit) := by
  obtain ⟨ssid, rssi, bssid, channel⟩ := hit
  obtain ⟨hssid, hbssid, hlo, hhi⟩ := h
  obtain ⟨b, rfl⟩ := Option.isSome_iff_exists.mp hbssid
  dsimp only at hssid hlo hhi
  subst hssid
  have hchannel : ¬ (channel < 1 ∨ channel > 14) := by omega
  simp only [wifiConsiderAp, if_neg hwant, if_neg hchannel, ne_eq, not_true_eq_false, if_false,
    Scan.int8_clampRssi, candidate, Option.getD_some]
  split <;> rfl

theorem wifiConsiderAp_strongest (hwant : want ≠ []) (h : Eligible want hit) (hits : List Hit) :
    (wifiConsiderAp (candidate (strongest hits)) (some want) hit).2 =
      candidate (strongest (hits ++ [hit])) := by
  rw [wifiConsiderAp_of_eligible hwant h]
  cases hbest : strongest hits with
  | none =>
      rw [strongest_append_singleton_of_none hbest]
      simp [candidate, noCandidate]
  | some best =>
      rw [strongest_append_singleton_of_some hbest]
      by_cases hle : clampRssi hit.rssi ≤ clampRssi best.rssi
      · rw [if_pos ⟨rfl, hle⟩, if_neg (not_lt.mpr hle)]
      · rw [if_neg (fun hboth => hle hboth.2), if_pos (not_le.mp hle)]

/-! ## All hits -/

theorem eligibleHits_append_singleton (h : Eligible want hit) (hits : List Hit) :
    eligibleHits want (hits ++ [hit]) = eligibleHits want hits ++ [hit] := by
  simp [eligibleHits, h]

theorem eligibleHits_append_singleton_of_not (h : ¬ Eligible want hit) (hits : List Hit) :
    eligibleHits want (hits ++ [hit]) = eligibleHits want hits := by
  simp [eligibleHits, h]

theorem notAvoided_append_singleton (h : avoid = none ∨ hit.bssid ≠ avoid) (hits : List Hit) :
    notAvoided avoid (hits ++ [hit]) = notAvoided avoid hits ++ [hit] := by
  rw [notAvoided, List.filter_append, List.filter_singleton, decide_eq_true h, ← notAvoided]
  rfl

theorem notAvoided_append_singleton_of_not (h : ¬ (avoid = none ∨ hit.bssid ≠ avoid))
    (hits : List Hit) : notAvoided avoid (hits ++ [hit]) = notAvoided avoid hits := by
  rw [notAvoided, List.filter_append, List.filter_singleton, decide_eq_false h, ← notAvoided]
  exact List.append_nil _

/-- Where a selector stands after these hits. -/
structure Chosen (want : List Byte) (avoid : Option Bssid) (hits : List Hit)
    (sel : WifiApSelector) : Prop where
  hasAvoid : sel.hasAvoid = avoid.isSome
  avoids : ∀ b, avoid = some b → sel.avoid = b
  any : sel.any = candidate (strongest (eligibleHits want hits))
  other : sel.other = candidate (strongest (notAvoided avoid (eligibleHits want hits)))

theorem chosen_new (want : List Byte) (avoid : Option Bssid) :
    Chosen want avoid [] (WifiApSelector.new.setAvoid avoid) where
  hasAvoid := rfl
  avoids b h := by
    rw [h]
    rfl
  any := rfl
  other := rfl

variable {sel : WifiApSelector}

/-- The test for the BSSID to avoid. -/
theorem Chosen.passes_iff (h : Chosen want avoid hits sel) (hit : Hit) :
    (!(sel.hasAvoid && hit.bssid == some sel.avoid)) = true ↔ avoid = none ∨ hit.bssid ≠ avoid := by
  rw [h.hasAvoid]
  cases havoid : avoid with
  | none => simp
  | some b => simp [h.avoids b havoid]

theorem Chosen.add_of_not_eligible (h : Chosen want avoid hits sel) (hnot : ¬ Eligible want hit) :
    Chosen want avoid (hits ++ [hit]) (sel.add (some want) hit) := by
  have hsame := eligibleHits_append_singleton_of_not hnot hits
  have hadd : (sel.add (some want) hit).hasAvoid = sel.hasAvoid ∧
      (sel.add (some want) hit).avoid = sel.avoid ∧ (sel.add (some want) hit).any = sel.any ∧
      (sel.add (some want) hit).other = sel.other := by
    rw [WifiApSelector.add]
    split
    · exact ⟨rfl, rfl, rfl, rfl⟩
    · rw [wifiConsiderAp_of_not_eligible hnot, wifiConsiderAp_of_not_eligible hnot, ite_self]
      exact ⟨rfl, rfl, rfl, rfl⟩
  constructor
  · rw [hadd.1, h.hasAvoid]
  · rw [hadd.2.1]
    exact h.avoids
  · rw [hadd.2.2.1, hsame, h.any]
  · rw [hadd.2.2.2, hsame, h.other]

theorem Chosen.add_of_eligible (hwant : want ≠ []) (h : Chosen want avoid hits sel)
    (hok : Eligible want hit) :
    Chosen want avoid (hits ++ [hit]) (sel.add (some want) hit) := by
  have hmine : ¬ (some want = none ∨ hit.ssid = none ∨ some want ≠ hit.ssid) := by
    simp [hok.1]
  rw [WifiApSelector.add, if_neg hmine]
  refine ⟨h.hasAvoid, h.avoids, ?_, ?_⟩
  · dsimp only
    rw [h.any, eligibleHits_append_singleton hok, wifiConsiderAp_strongest hwant hok]
  · dsimp only
    rw [eligibleHits_append_singleton hok, h.other]
    split
    · rename_i hpass
      rw [notAvoided_append_singleton ((h.passes_iff hit).mp hpass),
        wifiConsiderAp_strongest hwant hok]
    · rename_i hstop
      rw [notAvoided_append_singleton_of_not ((h.passes_iff hit).not.mp hstop)]

theorem chosen_afterHits (hwant : want ≠ []) (avoid : Option Bssid) (hits : List Hit) :
    Chosen want avoid hits (WifiApSelector.afterHits want avoid hits) := by
  induction hits using List.reverseRecOn with
  | nil => exact chosen_new want avoid
  | append_singleton hits hit ih =>
      rw [WifiApSelector.afterHits, List.foldl_append]
      by_cases hok : Eligible want hit
      · exact ih.add_of_eligible hwant hok
      · exact ih.add_of_not_eligible hok

/-! ## The choice -/

theorem candidate_valid (best : Option Hit) : (candidate best).valid = best.isSome := by
  cases best with
  | none => rfl
  | some hit => rfl

theorem strongest_isSome_iff : (strongest hits).isSome = true ↔ hits ≠ [] := by
  rw [Option.isSome_iff_ne_none, strongest, ne_eq, List.argmax_eq_none]

/-- Nothing is left when every hit has the BSSID to avoid. -/
theorem notAvoided_eq_nil_iff :
    notAvoided avoid hits = [] ↔ ∀ hit ∈ hits, avoid ≠ none ∧ hit.bssid = avoid := by
  simp [notAvoided, List.filter_eq_nil_iff]

/-- The selector picks the first of the strongest hits that are not to be avoided, or of all
when there is no other. -/
theorem pick_afterHits (hwant : want ≠ []) (avoid : Option Bssid) (hits : List Hit) :
    (WifiApSelector.afterHits want avoid hits).pick =
        candidate ((strongest (notAvoided avoid (eligibleHits want hits))).or
          (strongest (eligibleHits want hits))) ∧
      ((WifiApSelector.afterHits want avoid hits).pick.valid = false ↔
        eligibleHits want hits = []) ∧
      ((WifiApSelector.afterHits want avoid hits).onlyAvoided = true ↔
        eligibleHits want hits ≠ [] ∧ ∀ hit ∈ eligibleHits want hits, hit.bssid = avoid) := by
  have h := chosen_afterHits hwant avoid hits
  have hpick : (WifiApSelector.afterHits want avoid hits).pick =
      candidate ((strongest (notAvoided avoid (eligibleHits want hits))).or
        (strongest (eligibleHits want hits))) := by
    rw [WifiApSelector.pick, h.any, h.other, candidate_valid]
    cases hother : strongest (notAvoided avoid (eligibleHits want hits)) with
    | none => rfl
    | some best => rfl
  refine ⟨hpick, ?_, ?_⟩
  · rw [hpick, candidate_valid, Option.isSome_or, Bool.or_eq_false_iff, ← Bool.not_eq_true,
      ← Bool.not_eq_true, strongest_isSome_iff, strongest_isSome_iff, not_not, not_not]
    refine and_iff_right_of_imp fun hnil => ?_
    rw [hnil]
    rfl
  · rw [WifiApSelector.onlyAvoided, h.hasAvoid, h.any, h.other, candidate_valid, candidate_valid,
      Bool.and_eq_true, Bool.and_eq_true, Bool.not_eq_true', ← Bool.not_eq_true,
      strongest_isSome_iff, strongest_isSome_iff, not_not, notAvoided_eq_nil_iff,
      Option.isSome_iff_ne_none]
    constructor
    · rintro ⟨⟨havoid, hne⟩, hall⟩
      exact ⟨hne, fun hit hmem => (hall hit hmem).2⟩
    · rintro ⟨hne, hall⟩
      have havoid : avoid ≠ none := by
        obtain ⟨hit, hmem⟩ := List.exists_mem_of_ne_nil _ hne
        have hok : Eligible want hit := of_decide_eq_true (List.mem_filter.mp hmem).2
        rw [← hall hit hmem]
        exact Option.isSome_iff_ne_none.mp hok.2.1
      exact ⟨⟨havoid, hne⟩, fun hit hmem => ⟨havoid, hall hit hmem⟩⟩

/-- Two nodes of the same strength, and the stronger one to avoid. -/
theorem pick_afterHits_mesh :
    (ascii "home" ≠ []) ∧
      (WifiApSelector.afterHits (ascii "home") (some (.replicate 6 1))
        [⟨some (ascii "home"), -48, some (.replicate 6 1), 11⟩,
          ⟨some (ascii "home"), -60, some (.replicate 6 2), 1⟩,
          ⟨some (ascii "home"), -60, some (.replicate 6 3), 6⟩]).pick =
        ⟨true, -60, 1, .replicate 6 2⟩ := by
  have hwant : ascii "home" ≠ [] := by decide
  refine ⟨hwant, (pick_afterHits hwant _ _).1.trans ?_⟩
  decide +kernel

end ApSelector

end Wifi

end Voyager
