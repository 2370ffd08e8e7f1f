import Mathlib.Data.List.Chain
import Voyager.Library.FirstMinimum
import Voyager.Net.Serial

/-!
# The table of peers

The board keeps the eight nodes it heard last, each with the value of `millis()` then. A new
node takes the slot with the smallest value. After `millis()` has wrapped the smallest value
is no longer the oldest, and then the table forgets nodes that it heard later than others.
-/

namespace Voyager

open LoraProto

namespace PeerTable

/-! ## Runs -/

/-- One call of `net_heard`. The time counts the milliseconds since the start without bound;
the clock of the board shows it modulo `2 ^ 32`. -/
structure Hearing where
  node : UInt16
  time : ℕ
  env : Env
  clock : env.millis = UInt32.ofNat time

/-- The board after some hearings, the last one first. -/
def boardAfter (b : Board) : List Hearing → Board
  | [] => b
  | h :: past => (boardAfter b past).netHeard h.env h.node

/-- Node ids are not zero, and less than `2 ^ 31` milliseconds lie between two calls. -/
structure Timed (past : List Hearing) : Prop where
  nodes : ∀ h ∈ past, h.node ≠ 0
  gaps : past.IsChain fun later earlier =>
    earlier.time ≤ later.time ∧ later.time < earlier.time + 2 ^ 31

def Heard (past : List Hearing) (n : UInt16) : Prop := ∃ h ∈ past, h.node = n

/-- When a node was last heard. -/
def lastHeard : List Hearing → UInt16 → ℕ
  | [], _ => 0
  | h :: past, n => if h.node = n then h.time else lastHeard past n

/-! ## What the table promises -/

def node (b : Board) (i : Fin NET_PEERS) : UInt16 := (b.net.peers i).node
def seen (b : Board) (i : Fin NET_PEERS) : UInt32 := (b.net.peers i).seen

/-- No node has two slots. -/
def NodesOnce (b : Board) : Prop := ∀ i j, node b i ≠ 0 → node b i = node b j → i = j

/-- A node that was heard but is not in the table was heard no later than all those that are
there, and they fill it. -/
def KeepsRecent (past : List Hearing) (b : Board) : Prop :=
  ∀ n, Heard past n → (∀ i, node b i ≠ n) →
    ∀ i, Heard past (node b i) ∧ lastHeard past n ≤ lastHeard past (node b i)

/-- The first slot with the smallest value of the clock. -/
def FirstSmallest (b : Board) (i : Fin NET_PEERS) : Prop :=
  (∀ j, seen b i ≤ seen b j) ∧ ∀ j < i, seen b i < seen b j

/-- No slot has to be given up for the node, or the smallest value of the clock stands for the
time that is longest ago. -/
def Meets (past : List Hearing) (b : Board) (n : UInt16) : Prop :=
  (∃ i, node b i = n) ∨ (∃ i, node b i = 0) ∨
    ∀ i, FirstSmallest b i → ∀ j, lastHeard past (node b i) ≤ lastHeard past (node b j)

/-- Every call of the run meets the condition. -/
def MeetsAll (b : Board) : List Hearing → Prop
  | [] => True
  | h :: past => Meets past (boardAfter b past) h.node ∧ MeetsAll b past

/-! ## One call -/

section Step

variable {b : Board} {env : Env} {n : UInt16} {past : List Hearing} {h : Hearing}

/-- What `net_heard` stores for a time. -/
def stamp (t : ℕ) : UInt32 := if UInt32.ofNat t ≠ 0 then UInt32.ofNat t else 1

theorem stamp_ne_zero (t : ℕ) : stamp t ≠ 0 := by
  rw [stamp]
  split
  · assumption
  · decide

theorem node_netHeard (i : Fin NET_PEERS) :
    node (b.netHeard env n) i = if i = b.netPeerSlot n then n else node b i := by
  simp only [node, Board.netHeard, Function.update_apply]
  split <;> rfl

theorem seen_netHeard (hclock : h.env.millis = UInt32.ofNat h.time) (i : Fin NET_PEERS) :
    seen (b.netHeard h.env n) i = if i = b.netPeerSlot n then stamp h.time else seen b i := by
  simp only [seen, Board.netHeard, Function.update_apply, hclock]
  split <;> rfl

theorem netPeerSlot_of_mem (hmem : ∃ i, node b i = n) : node b (b.netPeerSlot n) = n := by
  obtain ⟨i, hi⟩ := hmem
  have hfind : ((List.finRange NET_PEERS).find? fun i => (b.net.peers i).node == n).isSome := by
    rw [List.find?_isSome]
    exact ⟨i, List.mem_finRange i, beq_iff_eq.mpr hi⟩
  obtain ⟨j, hj⟩ := Option.isSome_iff_exists.mp hfind
  have hnode := List.find?_some (p := fun i => (b.net.peers i).node == n) hj
  rw [Board.netPeerSlot, hj]
  exact beq_iff_eq.mp hnode

/-- A new node takes the first slot with the smallest value. -/
theorem firstSmallest_netPeerSlot (hmem : ∀ i, node b i ≠ n) :
    FirstSmallest b (b.netPeerSlot n) := by
  have hfind : ((List.finRange NET_PEERS).find? fun i => (b.net.peers i).node == n) = none := by
    rw [List.find?_eq_none]
    exact fun i _ hi => hmem i (beq_iff_eq.mp hi)
  have hslot : b.netPeerSlot n =
      FirstMinimum.minOf (fun i => (seen b i).toNat) 0 (List.finRange NET_PEERS) := by
    rw [Board.netPeerSlot, hfind]
    simp only [FirstMinimum.minOf, ← UInt32.lt_iff_toNat_lt]
    rfl
  have hall : ∀ i : Fin NET_PEERS, i ∈ 0 :: List.finRange NET_PEERS := fun i =>
    List.mem_cons_of_mem 0 (List.mem_finRange i)
  have hsorted : (0 :: List.finRange NET_PEERS).Pairwise (· ≤ ·) := by decide
  have hle := FirstMinimum.le_of_mem (fun i => (seen b i).toNat) (a := 0)
    (l := List.finRange NET_PEERS)
  have hlt := FirstMinimum.lt_of_lt (fun i => (seen b i).toNat) hsorted
  rw [hslot]
  exact ⟨fun j => UInt32.le_iff_toNat_le.mpr (hle j (hall j)),
    fun j hj => UInt32.lt_iff_toNat_lt.mpr (hlt j (hall j) hj)⟩

/-- What a slot holds: nothing, or a node and the stamp of its last hearing. -/
structure TableInv (past : List Hearing) (b : Board) : Prop where
  free : ∀ i, node b i = 0 → seen b i = 0
  used : ∀ i, node b i ≠ 0 → Heard past (node b i) ∧ seen b i = stamp (lastHeard past (node b i))
  once : NodesOnce b

theorem Heard.cons {m : UInt16} (hm : Heard past m) : Heard (h :: past) m := by
  obtain ⟨g, hg, hnode⟩ := hm
  exact ⟨g, List.mem_cons_of_mem h hg, hnode⟩

theorem heard_cons_of_ne {m : UInt16} (hm : Heard (h :: past) m) (hne : h.node ≠ m) :
    Heard past m := by
  obtain ⟨g, hg, hnode⟩ := hm
  rcases List.mem_cons.mp hg with rfl | hg
  · exact absurd hnode hne
  · exact ⟨g, hg, hnode⟩

theorem Heard.exists_lastHeard {m : UInt16} (hm : Heard past m) :
    ∃ h ∈ past, lastHeard past m = h.time := by
  induction past with
  | nil =>
      obtain ⟨g, hg, -⟩ := hm
      exact absurd hg List.not_mem_nil
  | cons h past ih =>
      rw [lastHeard]
      split
      · exact ⟨h, List.mem_cons_self, rfl⟩
      · next hne =>
          obtain ⟨g, hg, htime⟩ := ih (heard_cons_of_ne hm hne)
          exact ⟨g, List.mem_cons_of_mem h hg, htime⟩

theorem lastHeard_cons_self : lastHeard (h :: past) h.node = h.time := if_pos rfl

theorem lastHeard_cons_of_ne {m : UInt16} (hne : h.node ≠ m) :
    lastHeard (h :: past) m = lastHeard past m := if_neg hne

/-- A slot other than the one that is written holds another node. -/
theorem TableInv.node_ne (hinv : TableInv past b) (hn : n ≠ 0) {i : Fin NET_PEERS}
    (hi : i ≠ b.netPeerSlot n) : node b i ≠ n := by
  intro heq
  have hslot := netPeerSlot_of_mem ⟨i, heq⟩
  exact hi (hinv.once i _ (heq ▸ hn) (heq.trans hslot.symm))

theorem TableInv.netHeard (hinv : TableInv past b) (hn : h.node ≠ 0) :
    TableInv (h :: past) (b.netHeard h.env h.node) := by
  have hother : ∀ i, i ≠ b.netPeerSlot h.node → h.node ≠ node b i := fun i hi =>
    (hinv.node_ne hn hi).symm
  constructor
  · intro i hi
    rw [node_netHeard] at hi
    rw [seen_netHeard h.clock]
    split at hi
    · exact absurd hi hn
    · next hne =>
        rw [if_neg hne]
        exact hinv.free i hi
  · intro i hi
    rw [node_netHeard] at hi ⊢
    rw [seen_netHeard h.clock]
    by_cases hslot : i = b.netPeerSlot h.node
    · rw [if_pos hslot, if_pos hslot, lastHeard_cons_self]
      exact ⟨⟨h, List.mem_cons_self, rfl⟩, rfl⟩
    · rw [if_neg hslot] at hi ⊢
      rw [if_neg hslot, lastHeard_cons_of_ne (hother i hslot)]
      obtain ⟨hheard, hseen⟩ := hinv.used i hi
      exact ⟨hheard.cons, hseen⟩
  · intro i j hi hij
    rw [node_netHeard] at hi hij
    rw [node_netHeard] at hij
    by_cases his : i = b.netPeerSlot h.node
    · rw [if_pos his] at hij
      by_cases hjs : j = b.netPeerSlot h.node
      · rw [his, hjs]
      · rw [if_neg hjs] at hij
        exact absurd hij (hother j hjs)
    · rw [if_neg his] at hi hij
      by_cases hjs : j = b.netPeerSlot h.node
      · rw [if_pos hjs] at hij
        exact absurd hij.symm (hother i his)
      · rw [if_neg hjs] at hij
        exact hinv.once i j hi hij

/-- A free slot is taken before any other. -/
theorem TableInv.node_firstSmallest (hinv : TableInv past b) (hfree : ∃ i, node b i = 0)
    {i : Fin NET_PEERS} (hi : FirstSmallest b i) : node b i = 0 := by
  obtain ⟨j, hj⟩ := hfree
  by_contra hused
  have hle := hi.1 j
  rw [hinv.free j hj, (hinv.used i hused).2] at hle
  exact stamp_ne_zero _ (UInt32.le_zero_iff.mp hle)

theorem FirstSmallest.eq {i j : Fin NET_PEERS} (hi : FirstSmallest b i) (hj : FirstSmallest b j) :
    i = j := by
  rcases lt_trichotomy i j with hlt | heq | hlt
  · exact absurd (hj.2 i hlt) (UInt32.not_lt.mpr (hi.1 j))
  · exact heq
  · exact absurd (hi.2 j hlt) (UInt32.not_lt.mpr (hj.1 i))

/-- A call that gives up the right slot keeps the promise of the table. -/
theorem KeepsRecent.netHeard (hkeeps : KeepsRecent past b) (hinv : TableInv past b)
    (hnodes : ∀ m, Heard past m → m ≠ 0) (htime : ∀ m, lastHeard past m ≤ h.time)
    (hmeets : Meets past b h.node) :
    KeepsRecent (h :: past) (b.netHeard h.env h.node) := by
  intro m hm hout i
  have hslot := hout (b.netPeerSlot h.node)
  rw [node_netHeard, if_pos rfl] at hslot
  have hpast := heard_cons_of_ne hm hslot
  have hrest : ∀ j, j ≠ b.netPeerSlot h.node → node b j ≠ m := by
    intro j hj
    have hj' := hout j
    rw [node_netHeard, if_neg hj] at hj'
    exact hj'
  rw [node_netHeard, lastHeard_cons_of_ne hslot]
  by_cases hi : i = b.netPeerSlot h.node
  · rw [if_pos hi, lastHeard_cons_self]
    exact ⟨⟨h, List.mem_cons_self, rfl⟩, htime m⟩
  · rw [if_neg hi]
    have hbefore : Heard past (node b i) ∧ lastHeard past m ≤ lastHeard past (node b i) := by
      by_cases hgone : node b (b.netPeerSlot h.node) = m
      · -- `m` had the slot that the new node takes
        have hnew : ∀ j, node b j ≠ h.node := fun j hj =>
          hslot (hgone ▸ (netPeerSlot_of_mem ⟨j, hj⟩).symm)
        have hfirst := firstSmallest_netPeerSlot hnew
        by_cases hfree : ∃ j, node b j = 0
        · exact absurd (hgone ▸ hinv.node_firstSmallest hfree hfirst) (hnodes m hpast)
        · rcases hmeets with ⟨j, hj⟩ | hmeets | hmeets
          · exact absurd hj (hnew j)
          · exact absurd hmeets hfree
          · exact ⟨(hinv.used i fun hi => hfree ⟨i, hi⟩).1, hgone ▸ hmeets _ hfirst i⟩
      · refine hkeeps m hpast (fun j hj => ?_) i
        by_cases hjs : j = b.netPeerSlot h.node
        · exact hgone (hjs ▸ hj)
        · exact hrest j hjs hj
    have hne : h.node ≠ node b i := by
      intro heq
      have hmem := netPeerSlot_of_mem ⟨i, heq.symm⟩
      exact hi (hinv.once i _ (hnodes _ hbefore.1) (heq.symm.trans hmem.symm))
    rw [lastHeard_cons_of_ne hne]
    exact ⟨hbefore.1.cons, hbefore.2⟩

/-- A call that keeps the promise of the table has met the condition. -/
theorem meets_of_keepsRecent (hinv : TableInv past b)
    (hkeeps : KeepsRecent (h :: past) (b.netHeard h.env h.node)) : Meets past b h.node := by
  by_cases hmem : ∃ i, node b i = h.node
  · exact .inl hmem
  · by_cases hfree : ∃ i, node b i = 0
    · exact .inr (.inl hfree)
    · refine .inr (.inr fun i hfirst j => ?_)
      have hnew : ∀ j, h.node ≠ node b j := fun j hj => hmem ⟨j, hj.symm⟩
      have hslot : i = b.netPeerSlot h.node :=
        hfirst.eq (firstSmallest_netPeerSlot fun j hj => hmem ⟨j, hj⟩)
      have hused : ∀ j, node b j ≠ 0 := fun j hj => hfree ⟨j, hj⟩
      by_cases hj : j = i
      · rw [hj]
      · -- the node of `i` has lost its slot, the one of `j` has not
        have hout : ∀ k, node (b.netHeard h.env h.node) k ≠ node b i := by
          intro k
          rw [node_netHeard]
          split
          · exact hnew i
          · next hk => exact fun heq => hk (hslot ▸ hinv.once k i (hused k) heq)
        have hle := (hkeeps (node b i) (hinv.used i (hused i)).1.cons hout j).2
        rw [node_netHeard, if_neg (hslot ▸ hj), lastHeard_cons_of_ne (hnew i),
          lastHeard_cons_of_ne (hnew j)] at hle
        exact hle

theorem toNat_stamp {t k : ℕ} (hlo : k * 2 ^ 32 < t) (hhi : t < (k + 1) * 2 ^ 32) :
    (stamp t).toNat = t - k * 2 ^ 32 := by
  have hmod : (UInt32.ofNat t).toNat = t - k * 2 ^ 32 := by
    rw [UInt32.toNat_ofNat']
    omega
  have hne : UInt32.ofNat t ≠ 0 := by
    intro hzero
    rw [hzero] at hmod
    change 0 = _ at hmod
    omega
  rw [stamp, if_pos hne, hmod]

/-- The condition is met as long as `millis()` has not wrapped between the hearings that the
table holds. -/
theorem meets_of_no_wrap (hinv : TableInv past b) (n : UInt16) {k : ℕ}
    (hepoch : ∀ i, node b i ≠ 0 →
      k * 2 ^ 32 < lastHeard past (node b i) ∧ lastHeard past (node b i) < (k + 1) * 2 ^ 32) :
    Meets past b n := by
  by_cases hfree : ∃ i, node b i = 0
  · exact .inr (.inl hfree)
  · refine .inr (.inr fun i hfirst j => ?_)
    have hused : ∀ j, node b j ≠ 0 := fun j hj => hfree ⟨j, hj⟩
    obtain ⟨hloi, hhii⟩ := hepoch i (hused i)
    obtain ⟨hloj, hhij⟩ := hepoch j (hused j)
    have hle := UInt32.le_iff_toNat_le.mp (hfirst.1 j)
    rw [(hinv.used i (hused i)).2, (hinv.used j (hused j)).2, toNat_stamp hloi hhii,
      toNat_stamp hloj hhij] at hle
    omega

end Step

/-! ## Whole runs -/

section Run

variable {nodeId : NodeId} {nextSeq : Byte} {past : List Hearing} {h : Hearing}

theorem Timed.tail (ht : Timed (h :: past)) : Timed past :=
  ⟨fun g hg => ht.nodes g (List.mem_cons_of_mem h hg), ht.gaps.tail⟩

theorem Timed.heard_ne_zero (ht : Timed past) : ∀ m, Heard past m → m ≠ 0 := by
  rintro m ⟨g, hg, rfl⟩
  exact ht.nodes g hg

/-- Nothing was heard after the last hearing. -/
theorem Timed.lastHeard_le (ht : Timed (h :: past)) : ∀ m, lastHeard past m ≤ h.time := by
  induction past generalizing h with
  | nil => exact fun m => Nat.zero_le _
  | cons g past ih =>
      intro m
      have hgap := (List.isChain_cons_cons.mp ht.gaps).1.1
      rw [lastHeard]
      split
      · exact hgap
      · exact (ih ht.tail m).trans hgap

theorem tableInv_boardAfter (ht : Timed past) :
    TableInv past (boardAfter (.init nodeId nextSeq) past) := by
  induction past with
  | nil =>
      exact ⟨fun i _ => rfl, fun i hi => absurd rfl hi, fun i _ hi => absurd rfl hi⟩
  | cons h past ih => exact (ih ht.tail).netHeard (ht.nodes h List.mem_cons_self)

/-- No node has two slots, whatever the clock shows. -/
theorem nodesOnce_boardAfter (ht : Timed past) :
    NodesOnce (boardAfter (.init nodeId nextSeq) past) :=
  (tableInv_boardAfter ht).once

/-- A run in which `millis()` does not wrap meets the condition. -/
theorem meetsAll_of_no_wrap (ht : Timed past) {k : ℕ}
    (hepoch : ∀ h ∈ past, k * 2 ^ 32 < h.time ∧ h.time < (k + 1) * 2 ^ 32) :
    MeetsAll (.init nodeId nextSeq) past := by
  induction past with
  | nil => trivial
  | cons h past ih =>
      have hinv : TableInv past (boardAfter (.init nodeId nextSeq) past) :=
        tableInv_boardAfter ht.tail
      have hpast := fun g hg => hepoch g (List.mem_cons_of_mem h hg)
      refine ⟨meets_of_no_wrap hinv h.node (k := k) fun i hi => ?_, ih ht.tail hpast⟩
      obtain ⟨g, hg, htime⟩ := (hinv.used i hi).1.exists_lastHeard
      rw [htime]
      exact hpast g hg

/-- The table promises what it should in every state of a run if and only if each call of the
run meets the condition. -/
theorem recent_peers_kept_iff (ht : Timed past) :
    (∀ q, q <:+ past → NodesOnce (boardAfter (.init nodeId nextSeq) q) ∧
      KeepsRecent q (boardAfter (.init nodeId nextSeq) q)) ↔
    MeetsAll (.init nodeId nextSeq) past := by
  induction past with
  | nil =>
      refine ⟨fun _ => trivial, fun _ q hq => ?_⟩
      rw [List.suffix_nil.mp hq]
      refine ⟨nodesOnce_boardAfter ht, ?_⟩
      rintro m ⟨g, hg, -⟩
      exact absurd hg List.not_mem_nil
  | cons h past ih =>
      have hinv : TableInv past (boardAfter (.init nodeId nextSeq) past) :=
        tableInv_boardAfter ht.tail
      constructor
      · intro hall
        refine ⟨?_, (ih ht.tail).mp fun q hq => hall q (hq.trans (List.suffix_cons h past))⟩
        exact meets_of_keepsRecent hinv (hall _ List.suffix_rfl).2
      · rintro ⟨hmeets, hrest⟩ q hq
        have hpast := (ih ht.tail).mpr hrest
        rcases List.suffix_cons_iff.mp hq with rfl | hq
        · exact ⟨nodesOnce_boardAfter ht, (hpast past List.suffix_rfl).2.netHeard hinv
            ht.tail.heard_ne_zero ht.lastHeard_le hmeets⟩
        · exact hpast q hq

end Run

/-! ## A run over a wrap of the clock -/

/-- A node is heard at a time. -/
def hears (n : UInt16) (t : ℕ) : Hearing where
  node := n
  time := t
  env := { heap := true, millis := UInt32.ofNat t, rssi := -60 }
  clock := rfl

def someBoard : Board := .init ⟨0x0101, by decide, by decide⟩ 0

/-- Eight nodes are heard just before the clock wraps, and two more after it. -/
def wrapRun : List Hearing :=
  [hears 10 (2 ^ 32 + 200), hears 9 (2 ^ 32 + 100), hears 8 (2 ^ 32 - 10), hears 7 (2 ^ 32 - 20),
    hears 6 (2 ^ 32 - 30), hears 5 (2 ^ 32 - 40), hears 4 (2 ^ 32 - 50), hears 3 (2 ^ 32 - 60),
    hears 2 (2 ^ 32 - 70), hears 1 (2 ^ 32 - 80)]

/-- The tenth node takes the slot of the ninth, which was heard last. -/
theorem newest_peer_forgotten : ¬ ∀ past, Timed past →
    NodesOnce (boardAfter someBoard past) ∧ KeepsRecent past (boardAfter someBoard past) := by
  intro hall
  have htimed : Timed wrapRun := ⟨by decide, by decide⟩
  have hkeeps := (hall wrapRun htimed).2 9 ⟨hears 9 (2 ^ 32 + 100), by simp [wrapRun], rfl⟩
  have hout : ∀ i, node (boardAfter someBoard wrapRun) i ≠ 9 := by decide +kernel
  exact absurd (hkeeps hout 1).2 (by decide +kernel)

/-- Ten nodes are heard before the clock wraps, the first of them twice. -/
def fullRun : List Hearing :=
  [hears 10 1000, hears 9 900, hears 8 800, hears 1 750, hears 7 700, hears 6 600, hears 5 500,
    hears 4 400, hears 3 300, hears 2 200, hears 1 100]

/-- The last two take the slots of those that were silent longest. -/
theorem recent_peers_kept_iff_fullRun :
    (∀ q, q <:+ fullRun → NodesOnce (boardAfter someBoard q) ∧
      KeepsRecent q (boardAfter someBoard q)) ∧
    (List.finRange NET_PEERS).map (node (boardAfter someBoard fullRun)) =
      [1, 9, 10, 4, 5, 6, 7, 8] := by
  have htimed : Timed fullRun := ⟨by decide, by decide⟩
  have hmeets : MeetsAll someBoard fullRun :=
    meetsAll_of_no_wrap htimed (k := 0) (by decide)
  exact ⟨(recent_peers_kept_iff htimed).mpr hmeets, by decide +kernel⟩

end PeerTable

end Voyager
