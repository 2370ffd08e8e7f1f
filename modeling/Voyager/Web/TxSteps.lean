import Voyager.Web.Transmit

/-!
# What a page waits for

A page waits under an id from the moment its `202` is sent until its tracker calls back,
and it may keep an acknowledgement for an id it does not wait for. What the steps of the
device and of the pages do to both is said here once.
-/

namespace Voyager

namespace Web

namespace System

variable {π : Type}

/-- The items that are queued or being sent. -/
def active (s : System π) : List Item := s.device.tx.underway ++ s.device.sendPackets.items

/-- `page` keeps an acknowledgement for `id`, or one is on its way to it. -/
def HoldsAck (s : System π) (page : π) (id : TxId) : Prop :=
  ∃ msg : TxResult, msg.akn = 1 ∧
    ((s.pages page).earlyResult.get id = some msg ∨
      msg.id = id ∧ .result page msg ∈ s.onTheWay)

/-- `page` waits under `id` for the outcome of item `sub`: the `202` is on its way to it,
or it has registered the id. -/
def Waits (s : System π) (page : π) (id : TxId) (sub : ℕ) : Prop :=
  (∃ queued, .response page sub (.accepted id queued) ∈ s.onTheWay) ∨
    ∃ p, (s.pages page).pending id = some p ∧ p.cb = sub

variable {s t : System π}

/-! ## What the device sends -/

/-- After an answer is sent, a page waits for it or for what it waited for before. -/
theorem waits_of_response {page page' : π} {sub sub' : ℕ} {id : TxId} {r : Response}
    (h : t.Waits page' id sub') (hpages : t.pages = s.pages)
    (honTheWay : t.onTheWay = .response page sub r :: s.onTheWay) :
    (page' = page ∧ sub' = sub ∧ ∃ queued, r = .accepted id queued) ∨ s.Waits page' id sub' := by
  rcases h with ⟨queued, hm⟩ | hp
  · rw [honTheWay] at hm
    rcases List.mem_cons.mp hm with heq | hm
    · cases heq
      exact .inl ⟨rfl, rfl, queued, rfl⟩
    · exact .inr (.inl ⟨queued, hm⟩)
  · rw [hpages] at hp
    exact .inr (.inr hp)

/-- What is sent but is no result gives no page an acknowledgement. -/
theorem holdsAck_of_append {page : π} {id : TxId} {w : List (Message π)}
    (h : t.HoldsAck page id) (hpages : t.pages = s.pages)
    (honTheWay : t.onTheWay = w ++ s.onTheWay) (hws : ∀ msg, .result page msg ∉ w) :
    s.HoldsAck page id := by
  obtain ⟨msg, hakn, hget | ⟨hid, hm⟩⟩ := h
  · rw [hpages] at hget
    exact ⟨msg, hakn, .inl hget⟩
  · rw [honTheWay] at hm
    rcases List.mem_append.mp hm with hm | hm
    · exact absurd hm (hws msg)
    · exact ⟨msg, hakn, .inr ⟨hid, hm⟩⟩

/-- A page waits for nothing new when no answer is sent. -/
theorem waits_of_append {page : π} {id : TxId} {sub : ℕ} {w : List (Message π)}
    (h : t.Waits page id sub) (hpages : t.pages = s.pages)
    (honTheWay : t.onTheWay = w ++ s.onTheWay) (hws : ∀ r, .response page sub r ∉ w) :
    s.Waits page id sub := by
  rcases h with ⟨queued, hm⟩ | hp
  · rw [honTheWay] at hm
    rcases List.mem_append.mp hm with hm | hm
    · exact absurd hm (hws _)
    · exact .inl ⟨queued, hm⟩
  · rw [hpages] at hp
    exact .inr hp

theorem mem_sendTxStarted {item : Item} {expectedMs : ℕ} {clients : List π} {m : Message π}
    (h : m ∈ sendTxStarted item expectedMs clients) : ∃ page msg, m = .started page msg := by
  unfold sendTxStarted at h
  split at h
  · cases h
  · obtain ⟨page, -, rfl⟩ := List.mem_map.mp h
    exact ⟨page, _, rfl⟩

theorem mem_sendTxResult {item : Item} {ok : Bool} {username : String} {clients : List π}
    {m : Message π} (h : m ∈ sendTxResult item ok username clients) :
    item.p.id ≠ 0 ∧
      ∃ page, m = .result page { id := item.p.id, akn := if ok then 1 else 0, username } := by
  unfold sendTxResult at h
  split at h
  · cases h
  · rename_i hid
    obtain ⟨page, -, rfl⟩ := List.mem_map.mp h
    exact ⟨hid, page, rfl⟩

theorem response_notMem {item : Item} {ok : Bool} {username : String} {clients : List π}
    {page : π} {sub : ℕ} {r : Response} :
    .response page sub r ∉ sendTxResult item ok username clients := by
  intro hm
  obtain ⟨-, page', heq⟩ := mem_sendTxResult hm
  cases heq

theorem not_waits_start {page : π} {id : TxId} {sub : ℕ} :
    ¬ (start : System π).Waits page id sub := by
  rintro (⟨queued, hm⟩ | ⟨p, hp, -⟩)
  · cases hm
  · cases hp

/-! ## The steps of the pages -/

/-- What a step of a page does to the whole. -/
structure PageStep (s t : System π) : Prop where
  device : t.device = s.device
  waits : ∀ page id sub, t.Waits page id sub → s.Waits page id sub
  acks : ∀ page id, t.HoldsAck page id → s.HoldsAck page id
  mono : ∀ e ∈ s.log, e ∈ t.log
  new : ∀ e ∈ t.log, e ∈ s.log ∨ ∃ page id sub r, e = .reported page sub r ∧
    s.Waits page id sub ∧ (r.akn = 1 → s.HoldsAck page id)

/-- What is lost on the way does no harm. -/
theorem pageStep_forget {w : List (Message π)} (hws : ∀ m ∈ w, m ∈ s.onTheWay) :
    PageStep s ({ s with onTheWay := w } : System π) where
  device := rfl
  waits _ _ _ hw := hw.imp_left fun ⟨queued, hm⟩ => ⟨queued, hws _ hm⟩
  acks _ _ := fun ⟨msg, hakn, ha⟩ => ⟨msg, hakn, ha.imp_right fun ⟨hid, hm⟩ => ⟨hid, hws _ hm⟩⟩
  mono _ he := he
  new _ he := .inl he

variable [DecidableEq π]

/-- A tracker has done something, and `w` is still on its way: the page waits only for what
it waited for, keeps only acknowledgements that it had, and reports only what it waited for. -/
theorem pageStep_track {page : π} {w : List (Message π)} {r : TxTracker ℕ × List (Callback ℕ)}
    (hws : ∀ m ∈ w, m ∈ s.onTheWay)
    (hpending : ∀ id p, r.1.pending id = some p → s.Waits page id p.cb)
    (hearly : ∀ id msg, r.1.earlyResult.get id = some msg → msg.akn = 1 → s.HoldsAck page id)
    (hcalls : ∀ sub o, .cb sub o ∈ r.2 →
      ∃ id, s.Waits page id sub ∧ (o.akn = 1 → s.HoldsAck page id)) :
    PageStep s ({ s with onTheWay := w }.track page r) where
  device := rfl
  waits := by
    rintro page' id sub (⟨queued, hm⟩ | ⟨p, hp, rfl⟩)
    · exact .inl ⟨queued, hws _ hm⟩
    · by_cases hpage : page' = page
      · subst hpage
        have hp : r.1.pending id = some p := by simpa [track] using hp
        exact hpending id p hp
      · exact .inr ⟨p, by simpa [track, hpage] using hp, rfl⟩
  acks := by
    rintro page' id ⟨msg, hakn, hget | ⟨hid, hm⟩⟩
    · by_cases hpage : page' = page
      · subst hpage
        have hget : r.1.earlyResult.get id = some msg := by simpa [track] using hget
        exact hearly id msg hget hakn
      · exact ⟨msg, hakn, .inl (by simpa [track, hpage] using hget)⟩
    · exact ⟨msg, hakn, .inr ⟨hid, hws _ hm⟩⟩
  mono _ he := List.mem_append_right _ he
  new e he := by
    refine (List.mem_append.mp he).symm.imp_right fun he => ?_
    obtain ⟨call, hcall, heq⟩ := List.mem_filterMap.mp he
    cases call with
    | cb sub o =>
        cases Option.some.inj heq
        obtain ⟨id, hwaits, hakn⟩ := hcalls sub o hcall
        exact ⟨page, id, sub, o, rfl, hwaits, hakn⟩
    | onState k phase expectedMs attempts => cases heq

/-- What reaches a page was on its way to it. -/
theorem pageStep_receive {m : Message π} (hm : m ∈ s.onTheWay) :
    PageStep s ({ s with onTheWay := s.onTheWay.erase m }.receive m) := by
  have hws : ∀ m' ∈ s.onTheWay.erase m, m' ∈ s.onTheWay := fun _ => List.mem_of_mem_erase
  cases m with
  | response page sub r =>
      cases r with
      | accepted id queued =>
          have hwaits : s.Waits page id sub := .inl ⟨queued, hm⟩
          obtain ⟨hpending, hearly, hcalls⟩ := (s.pages page).register_spec id sub
          refine pageStep_track hws ?_ ?_ ?_
          · intro k p hp
            rcases hpending k p hp with ⟨rfl, hcb⟩ | hp
            · exact hcb ▸ hwaits
            · exact .inr ⟨p, hp, rfl⟩
          · intro k msg hget hakn
            exact ⟨msg, hakn, .inl (hearly k msg hget)⟩
          · intro k o ho
            obtain ⟨rfl, msg, hget, rfl⟩ := hcalls k o ho
            exact ⟨id, hwaits, fun hakn => ⟨msg, TxTracker.normalizeTxResult_akn hakn, .inl hget⟩⟩
      | refused status error => exact pageStep_forget hws
  | started page msg =>
      obtain ⟨hpending, hearly, hcalls⟩ := (s.pages page).started_spec msg
      refine pageStep_track hws ?_ ?_ fun k o ho => absurd ho (hcalls k o)
      · intro k p hp
        obtain ⟨q, hq, hcb⟩ := hpending k p hp
        exact .inr ⟨q, hq, hcb⟩
      · intro k m hget hakn
        exact ⟨m, hakn, .inl (hearly ▸ hget)⟩
  | result page msg =>
      obtain ⟨hpending, hearly, hcalls⟩ := (s.pages page).resolve_spec msg
      refine pageStep_track hws (fun k p hp => .inr ⟨p, hpending k p hp, rfl⟩) ?_ ?_
      · intro k m hget hakn
        rcases hearly k m hget with ⟨rfl, rfl⟩ | hget
        · exact ⟨m, hakn, .inr ⟨rfl, hm⟩⟩
        · exact ⟨m, hakn, .inl hget⟩
      · intro k o ho
        obtain ⟨rfl, p, hp, rfl⟩ := hcalls k o ho
        exact ⟨msg.id, .inr ⟨p, hp, rfl⟩,
          fun hakn => ⟨msg, TxTracker.normalizeTxResult_akn hakn, .inr ⟨rfl, hm⟩⟩⟩

theorem pageStep_timer (page : π) (id : TxId) :
    PageStep s (s.track page ((s.pages page).timerFired id)) := by
  obtain ⟨hpending, hearly, hcalls⟩ := (s.pages page).timerFired_spec id
  refine pageStep_track (w := s.onTheWay) (fun _ hm => hm)
    (fun k p hp => .inr ⟨p, hpending k p hp, rfl⟩) ?_ ?_
  · intro k msg hget hakn
    exact ⟨msg, hakn, .inl (hearly ▸ hget)⟩
  · intro k o ho
    obtain ⟨hzero, p, hp, rfl⟩ := hcalls k o ho
    refine ⟨id, .inr ⟨p, hp, rfl⟩, fun hakn => ?_⟩
    rw [hzero] at hakn
    cases hakn

end System

end Web

end Voyager
