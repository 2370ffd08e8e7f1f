import Voyager.Web.TxSteps

/-!
# Whose outcome a page reports

A page keeps the results of ids it does not know, for the case that a result overtakes
its own `202`, and it waits under an id until a result comes. Both outlive a restart of
the device, after which the ids are handed out again. A report is right as long as an id
is handed out only when nothing about it is left over.
-/

namespace Voyager

namespace Web

open LoraProto

namespace System

variable {π : Type}

/-- Nothing is left over that could make a report about `id` wrong, when `page` gets it. -/
structure FreeFor (s : System π) (page : π) (id : TxId) : Prop where
  noAck : ¬ s.HoldsAck page id
  notActive : ∀ item ∈ s.active, item.p.id ≠ id
  nobodyWaits : ∀ page' sub, s.Waits page' id sub → .acked sub ∈ s.log

/-- An id is handed out only when it is free. -/
def IdFree (s : System π) (a : Action π) : Prop :=
  ∀ page message, a = .transmit page message true → s.device.sendPackets.HasRoom →
    s.FreeFor page (txIdAfter s.device.txId)

structure Inv (s : System π) : Prop where
  answered : ∀ page id sub, s.Waits page id sub → s.HoldsAck page id → .acked sub ∈ s.log
  underway : ∀ page id sub, s.Waits page id sub → .acked sub ∉ s.log →
    ∀ item ∈ s.active, item.p.id ≠ 0 → item.p.id = id → item.sub = sub
  finished : ∀ item, s.device.tx = .finished item true → item.p.id ≠ 0 → .acked item.sub ∈ s.log
  type : ∀ item ∈ s.active, item.p.id ≠ 0 → item.p.type = T_LORA_MSG
  reported : ∀ page sub r, .reported page sub r ∈ s.log → r.akn = 1 → .acked sub ∈ s.log

variable {s t : System π}

/-- A step keeps the invariant when it adds no page that waits, no acknowledgement and no
item with an id, and when what it finishes and reports has been acknowledged. -/
theorem Inv.of_le (h : s.Inv)
    (hwaits : ∀ page id sub, t.Waits page id sub → s.Waits page id sub)
    (hacks : ∀ page id, t.HoldsAck page id → s.HoldsAck page id)
    (hactive : ∀ item ∈ t.active, item.p.id ≠ 0 → item ∈ s.active)
    (hlog : ∀ e ∈ s.log, e ∈ t.log)
    (hfinished : ∀ item, t.device.tx = .finished item true → item.p.id ≠ 0 →
      .acked item.sub ∈ t.log)
    (hreported : ∀ page sub r, .reported page sub r ∈ t.log → r.akn = 1 →
      .reported page sub r ∈ s.log ∨ .acked sub ∈ s.log) : t.Inv where
  answered page id sub hw ha := hlog _ (h.answered page id sub (hwaits _ _ _ hw) (hacks _ _ ha))
  underway page id sub hw hacked item hitem hne :=
    h.underway page id sub (hwaits _ _ _ hw) (fun hs => hacked (hlog _ hs)) item
      (hactive item hitem hne) hne
  finished := hfinished
  type item hitem hne := h.type item (hactive item hitem hne) hne
  reported page sub r hr hakn := by
    rcases hreported page sub r hr hakn with hr | hacked
    · exact hlog _ (h.reported page sub r hr hakn)
    · exact hlog _ hacked

/-! ## The steps of the device -/

/-- An id that is free is handed out. -/
theorem inv_accepted {page : π} {id : TxId} {item : Item} {queued : ℕ} (h : s.Inv)
    (hfree : s.FreeFor page id) (hid : item.p.id = id) (htype : item.p.type = T_LORA_MSG)
    (hpages : t.pages = s.pages)
    (honTheWay : t.onTheWay = .response page item.sub (.accepted id queued) :: s.onTheWay)
    (htx : t.device.tx = s.device.tx)
    (hitems : t.device.sendPackets.items = s.device.sendPackets.items ++ [item])
    (hlog : t.log = .accepted page item.sub id :: s.log) : t.Inv := by
  have hacks : ∀ page' id', t.HoldsAck page' id' → s.HoldsAck page' id' := fun page' id' ha =>
    holdsAck_of_append ha hpages (w := [.response page item.sub (.accepted id queued)]) honTheWay
      fun msg hm => nomatch List.mem_singleton.mp hm
  have hmono : ∀ e ∈ s.log, e ∈ t.log := fun e he => hlog ▸ List.mem_cons_of_mem _ he
  have hactive : ∀ i ∈ t.active, i ∈ s.active ∨ i = item := by
    intro i hi
    rw [active, htx, hitems, ← List.append_assoc] at hi
    exact (List.mem_append.mp hi).imp_right List.mem_singleton.mp
  refine { answered := ?_, underway := ?_, finished := ?_, type := ?_, reported := ?_ }
  · intro page' id' sub hw ha
    rcases waits_of_response hw hpages honTheWay with ⟨rfl, rfl, queued', heq⟩ | hw
    · cases heq
      exact absurd (hacks _ _ ha) hfree.noAck
    · exact hmono _ (h.answered page' id' sub hw (hacks _ _ ha))
  · intro page' id' sub hw hacked i hi hne hid'
    rcases waits_of_response hw hpages honTheWay with ⟨rfl, rfl, queued', heq⟩ | hw
    · cases heq
      rcases hactive i hi with hi | rfl
      · exact absurd hid' (hfree.notActive i hi)
      · rfl
    · rcases hactive i hi with hi | rfl
      · exact h.underway page' id' sub hw (fun hs => hacked (hmono _ hs)) i hi hne hid'
      · have hw : s.Waits page' id sub := hid ▸ hid' ▸ hw
        exact absurd (hmono _ (hfree.nobodyWaits page' sub hw)) hacked
  · intro i hi hne
    exact hmono _ (h.finished i (htx ▸ hi) hne)
  · intro i hi hne
    rcases hactive i hi with hi | rfl
    · exact h.type i hi hne
    · exact htype
  · intro page' sub r hr hakn
    rw [hlog] at hr
    rcases List.mem_cons.mp hr with heq | hr
    · cases heq
    · exact hmono _ (h.reported page' sub r hr hakn)

theorem inv_transmit {page : π} {message : List Byte} {heap : Bool} (h : s.Inv)
    (hfree : s.IdFree (.transmit page message heap)) : (s.transmit page message heap).Inv := by
  unfold transmit
  split
  · rename_i id queued d' hr
    obtain ⟨rfl, hroom, hid, -, htx, hitems⟩ := TxDevice.enqueueTx_accepted hr
    exact inv_accepted h (hid ▸ hfree page message rfl hroom) rfl rfl rfl rfl htx hitems rfl
  · rename_i status error d' hr
    obtain ⟨-, htx, hqueue⟩ := TxDevice.enqueueTx_refused hr
    refine h.of_le ?_ ?_ (fun item hitem => ?_) (fun _ he => he) (fun item hitem => ?_)
      fun _ _ _ ho _ => .inl ho
    · intro page' id sub hw
      rcases waits_of_response (s := s) hw rfl rfl with ⟨-, -, queued, heq⟩ | hw
      · cases heq
      · exact hw
    · intro page' id ha
      exact holdsAck_of_append (w := [_]) ha rfl rfl fun msg hm => nomatch List.mem_singleton.mp hm
    · rw [active, htx, hqueue] at hitem
      exact fun _ => hitem
    · rw [htx] at hitem
      exact h.finished item hitem

/-- A step of the device that sends no answer and no result keeps the invariant, when it
adds no item with an id and finishes only what was acknowledged. -/
theorem inv_device {device : TxDevice} {w : List (Message π)} {log : List (Entry π)} (h : s.Inv)
    (hws : ∀ m ∈ w, ∃ page msg, m = .started page msg)
    (hactive : ∀ i ∈ device.tx.underway ++ device.sendPackets.items, i.p.id ≠ 0 → i ∈ s.active)
    (hlog : ∀ e ∈ s.log, e ∈ log)
    (hreports : ∀ page sub r, .reported page sub r ∈ log → .reported page sub r ∈ s.log)
    (hfinished : ∀ i, device.tx = .finished i true → i.p.id ≠ 0 → .acked i.sub ∈ log) :
    ({ s with device, onTheWay := w ++ s.onTheWay, log } : System π).Inv := by
  refine h.of_le (fun page id sub hw => ?_) (fun page id ha => ?_) hactive hlog hfinished
    fun page sub r hr _ => .inl (hreports page sub r hr)
  · refine waits_of_append hw rfl rfl fun r hm => ?_
    obtain ⟨_, _, heq⟩ := hws _ hm
    cases heq
  · refine holdsAck_of_append ha rfl rfl fun msg hm => ?_
    obtain ⟨_, _, heq⟩ := hws _ hm
    cases heq

/-- A step of the TX task on the item it has. -/
theorem inv_tx {tx : TxState} {log : List (Entry π)} (h : s.Inv)
    (hunderway : ∀ i ∈ tx.underway, i ∈ s.active) (hlog : ∀ e ∈ s.log, e ∈ log)
    (hreports : ∀ page sub r, .reported page sub r ∈ log → .reported page sub r ∈ s.log)
    (hfinished : ∀ i, tx = .finished i true → i.p.id ≠ 0 → .acked i.sub ∈ log) :
    ({ s with device := { s.device with tx }, log } : System π).Inv := by
  refine inv_device (w := []) h nofun (fun i hi _ => ?_) hlog hreports hfinished
  rcases List.mem_append.mp hi with hi | hi
  · exact hunderway i hi
  · exact List.mem_append_right _ hi

/-- A result is sent: whoever waits under its id waits for this very item. -/
theorem inv_txResult {item : Item} {ok : Bool} {username : String} {clients : List π} (h : s.Inv)
    (htx : s.device.tx = .finished item ok) :
    ({ s with
      device := { s.device with tx := .idle }
      onTheWay := sendTxResult item ok username clients ++ s.onTheWay } : System π).Inv where
  answered page id sub hw ha := by
    have hwaits : s.Waits page id sub := waits_of_append hw rfl rfl fun r => response_notMem
    obtain ⟨msg, hakn, hget | ⟨hid, hm⟩⟩ := ha
    · exact h.answered page id sub hwaits ⟨msg, hakn, .inl hget⟩
    · rcases List.mem_append.mp hm with hm | hm
      · obtain ⟨hne, page', heq⟩ := mem_sendTxResult hm
        cases heq
        cases ok with
        | false => cases hakn
        | true =>
            by_contra hacked
            have hitem : item ∈ s.active := by
              rw [active, htx]
              exact List.mem_cons_self
            have hsub : item.sub = sub := h.underway page id sub hwaits hacked item hitem hne hid
            exact hacked (hsub ▸ h.finished item htx hne)
      · exact h.answered page id sub hwaits ⟨msg, hakn, .inr ⟨hid, hm⟩⟩
  underway page id sub hw hacked i hi :=
    h.underway page id sub (waits_of_append hw rfl rfl fun r => response_notMem) hacked i
      (List.mem_append_right _ hi)
  finished := nofun
  type i hi := h.type i (List.mem_append_right _ hi)
  reported := h.reported

theorem freeFor_start {page : π} {id : TxId} : (start : System π).FreeFor page id where
  noAck := by
    rintro ⟨msg, -, hget | ⟨-, hm⟩⟩
    · cases hget
    · cases hm
  notActive := nofun
  nobodyWaits _ _ hw := absurd hw not_waits_start

theorem inv_start : (start : System π).Inv where
  answered _ _ _ hw := absurd hw not_waits_start
  underway _ _ _ hw := absurd hw not_waits_start
  finished := nofun
  type := nofun
  reported := nofun

/-! ## The steps of the pages -/

/-- A page that waits reports an acknowledgement that it has. -/
theorem PageStep.inv (hstep : PageStep s t) (h : s.Inv) : t.Inv := by
  refine h.of_le hstep.waits hstep.acks (fun item hitem _ => ?_) hstep.mono (fun item hi hne => ?_)
    fun page sub r hr hakn => ?_
  · rwa [active, hstep.device] at hitem
  · exact hstep.mono _ (h.finished item (hstep.device ▸ hi) hne)
  · rcases hstep.new _ hr with hr | ⟨page', id, sub', r', heq, hw, ha⟩
    · exact .inl hr
    · cases heq
      exact .inr (h.answered page id sub hw (ha hakn))

variable [DecidableEq π]

/-- One step, on the condition that it hands out no id that is not free. -/
theorem inv_step {a : Action π} (h : s.Inv) (hfree : s.IdFree a) (hstep : s.step a = some t) :
    t.Inv := by
  cases a with
  | transmit page message heap =>
      cases hstep
      exact inv_transmit h hfree
  | sendOwn type message =>
      obtain ⟨device, hqueue, rfl⟩ := Option.map_eq_some_iff.mp hstep
      obtain ⟨-, -, htx, hitems⟩ := TxDevice.queue_spec hqueue
      refine inv_device (w := []) h nofun ?_ (fun _ he => he) (fun _ _ _ hr => hr)
        fun i hi => h.finished i (htx ▸ hi)
      intro i hi hne
      rw [htx, hitems, ← List.append_assoc] at hi
      rcases List.mem_append.mp hi with hi | hi
      · exact hi
      · cases List.mem_singleton.mp hi
        exact absurd rfl hne
  | txTake expectedMs clients =>
      unfold step at hstep
      dsimp only at hstep
      split at hstep
      · rename_i item sendPackets htx hreceive
        cases hstep
        refine inv_device h (fun m => mem_sendTxStarted) ?_ (fun _ he => he) (fun _ _ _ hr => hr) nofun
        intro i hi _
        rw [active, htx, BoundedQueue.receive_eq_some_iff.mp hreceive]
        exact hi
      · cases hstep
  | txBegin seq sent =>
      unfold step at hstep
      dsimp only at hstep
      split at hstep
      · rename_i item htx
        cases hstep
        have hitem : item ∈ s.active := by
          rw [active, htx]
          exact List.mem_cons_self
        refine inv_tx h (fun i hi => ?_) (fun _ he => he) (fun _ _ _ hr => hr)
          fun i hi hne => ?_
        · rwa [TxDevice.mem_underway_begin hi]
        · -- a network broadcast has no id
          obtain ⟨rfl, hnet⟩ := TxDevice.begin_finished hi
          have htype := (h.type i hitem hne).symm.trans hnet
          cases htype
      · cases hstep
  | txTimeout =>
      unfold step at hstep
      dsimp only at hstep
      split at hstep
      · rename_i item t htx
        cases hstep
        refine inv_tx h (fun i hi => ?_) (fun _ he => he) (fun _ _ _ hr => hr)
          fun i hi hne => ?_
        · rw [TxDevice.mem_underway_proceed hi, active, htx]
          exact List.mem_cons_self
        · exact absurd (TxDevice.proceed_finished hi).2 (txOnTimeout_ne_success t)
      · cases hstep
  | txAck seq value =>
      unfold step at hstep
      dsimp only at hstep
      split at hstep
      · rename_i item t htx
        cases hstep
        refine inv_tx h (fun i hi => ?_) (fun e he => ?_) (fun page sub r hr => ?_)
          fun i hi hne => ?_
        · rw [TxDevice.mem_underway_proceed hi, active, htx]
          exact List.mem_cons_self
        · split
          · exact List.mem_cons_of_mem _ he
          · exact he
        · split at hr
          · exact (List.mem_cons.mp hr).resolve_left nofun
          · exact hr
        · obtain ⟨rfl, hsuccess⟩ := TxDevice.proceed_finished hi
          rw [if_pos hsuccess]
          exact List.mem_cons_self
      · cases hstep
  | txResult username clients =>
      unfold step at hstep
      dsimp only at hstep
      split at hstep
      · rename_i item ok htx
        cases hstep
        exact inv_txResult h htx
      · cases hstep
  | reboot =>
      cases hstep
      exact inv_device (w := []) h nofun nofun (fun _ he => he) (fun _ _ _ hr => hr) nofun
  | deliver m =>
      unfold step at hstep
      dsimp only at hstep
      split at hstep
      · rename_i hm
        cases hstep
        exact (pageStep_receive hm).inv h
      · cases hstep
  | lose m =>
      unfold step at hstep
      dsimp only at hstep
      split at hstep
      · cases hstep
        exact (pageStep_forget fun _ => List.mem_of_mem_erase).inv h
      · cases hstep
  | timer page id =>
      cases hstep
      exact (pageStep_timer page id).inv h

/-- In every run in which an id is handed out only when it is free, a page reports an
acknowledgement only for a packet that the TX task got one for. -/
theorem own_outcome_reported {as : List (Action π)}
    (hfree : Transition.Meets step IdFree start as)
    (hrun : Transition.exec step start as = some s) {page : π} {sub : ℕ} {r : Outcome}
    (hreported : .reported page sub r ∈ s.log) (hakn : r.akn = 1) : .acked sub ∈ s.log :=
  (Transition.exec_invariant_of_meets (fun _ _ _ h hfree hstep => inv_step h hfree hstep)
    inv_start hfree hrun).reported page sub r hreported hakn

/-! ## A run across a restart -/

/-- In the run, a page reports an acknowledgement only for a packet that the TX task got
one for. -/
def ReportsOwnOutcomes (as : List (Action π)) : Prop :=
  ∀ s, Transition.exec step start as = some s →
    ∀ page sub r, .reported page sub r ∈ s.log → r.akn = 1 → .acked sub ∈ s.log

/-- The result of the first id after a start. -/
def firstResult : TxResult := { id := 1, akn := 1, username := "" }

/-- The TX task sends a packet and gets an acknowledgement. -/
def acknowledged (clients : List Bool) : List (Action Bool) :=
  [.txTake 1000 clients, .txBegin 7 false, .txAck 7 ACK_OK, .txResult "" clients]

/-- Page `false` submits `hi` and its packet is acknowledged; the other page hears it too. -/
def firstRun : List (Action Bool) :=
  [.transmit false [104, 105] true, .deliver (.response false 0 (.accepted 1 1))] ++
    acknowledged [false, true] ++
    [.deliver (.result false firstResult), .deliver (.result true firstResult)]

/-- Then the device restarts, and page `true` submits `hi`. Its packet is still queued when
the `202` comes. -/
def restartRun : List (Action Bool) :=
  firstRun ++
    [.reboot, .transmit true [104, 105] true, .deliver (.response true 1 (.accepted 1 1))]

theorem own_outcome_reported_firstRun :
    ∃ s, Transition.exec step start firstRun = some s ∧
      .reported false 0 (normalizeTxResult firstResult) ∈ s.log ∧ .acked 0 ∈ s.log := by
  have hsome : ((Transition.exec step start firstRun).map
      fun s => decide (.reported false 0 (normalizeTxResult firstResult) ∈ s.log)) = some true := by
    decide
  obtain ⟨s, hrun, hreported⟩ := Option.map_eq_some_iff.mp hsome
  have hreported := of_decide_eq_true hreported
  have hfree : Transition.Meets step IdFree start firstRun := by
    refine ⟨?_, fun t _ => Transition.meets_of_forall fun a ha s => ?_⟩
    · rintro page message heq -
      cases heq
      exact freeFor_start
    · rintro page message rfl
      exact absurd ha (by simp [acknowledged])
  exact ⟨s, hrun, hreported, own_outcome_reported hfree hrun hreported rfl⟩

/-- Page `true` reports that its packet was acknowledged, which nobody has sent yet. -/
theorem restart_reports_foreign_outcome : ¬ ReportsOwnOutcomes restartRun := by
  intro h
  have hsome : ((Transition.exec step start restartRun).map fun s =>
      decide (.reported true 1 (normalizeTxResult firstResult) ∈ s.log ∧ .acked 1 ∉ s.log)) =
      some true := by decide
  obtain ⟨s, hrun, hlog⟩ := Option.map_eq_some_iff.mp hsome
  obtain ⟨hreported, hacked⟩ := of_decide_eq_true hlog
  exact hacked (h s hrun true 1 _ hreported rfl)

end System

end Web

end Voyager
