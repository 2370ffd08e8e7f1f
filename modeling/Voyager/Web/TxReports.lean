import Voyager.Web.TxTimers

/-!
# What the page reports

Over a run in which every id is registered once, an id that waits has a timer, and an id
that waits no more has been reported once: with its result, unless its timer fired before
the result came. A result that comes before its id is registered is not forgotten as long
as fewer than `EARLY_MAX` other ids have something early in between.
-/

namespace Voyager

namespace Web

namespace TxTimers

namespace Tracker

variable {ι κ : Type} {t : Tracker ι κ} {key : ι} {p q : Item ι κ}

/-! ## What an operation changes -/

theorem Linked.congr {t' : Tracker ι κ} (hl : t.Linked) (hpending : t'.pending = t.pending)
    (harmed : t'.armed = t.armed) (hnext : t'.nextHandle = t.nextHandle) : t'.Linked where
  armed_iff := by
    rw [hpending, harmed]
    exact hl.armed_iff
  ref_eq := by
    rw [hpending, harmed]
    exact hl.ref_eq
  unused := by
    rw [harmed, hnext]
    exact hl.unused

section Notify

variable (t) (p) (phase : Phase) (e a : Option ℕ)

/-- Telling the state of an item is no report. -/
@[simp] theorem reports_notify : (t.notify p phase e a).reports = t.reports := by
  unfold notify
  split
  · rfl
  · rw [reports, call, List.filterMap_append]
    exact List.append_nil _

theorem calls_prefix_notify : t.calls <+: (t.notify p phase e a).calls := by
  unfold notify
  split
  · exact List.prefix_rfl
  · exact List.prefix_append t.calls _

end Notify

theorem reports_call_cb (t : Tracker ι κ) (k : κ) (r : Report ι) :
    (t.call (.cb k r)).reports = t.reports ++ [(k, r)] := by
  rw [reports, call, List.filterMap_append]
  rfl

@[simp] theorem reports_clearT (t : Tracker ι κ) (timer : Option ℕ) :
    (t.clearT timer).reports = t.reports := by
  rw [reports, calls_clearT, reports]

/-- In `t'` the id waits, with a timer, for the callback; everything else is as in `t`. -/
structure WaitsIn (t t' : Tracker ι κ) [DecidableEq ι] (key : ι) (cb : κ) : Prop where
  linked : t'.Linked
  pending : ∃ p, t'.pending = Function.update t.pending key (some p) ∧
    p.id = key ∧ p.cb = cb ∧ p.timer ≠ none
  earlyResult : t'.earlyResult = t.earlyResult
  fired : t'.fired = t.fired
  reports : t'.reports = t.reports

variable [DecidableEq ι]

theorem Linked.setPending_same (hl : t.Linked) (hq : t.pending key = some q)
    (htimer : p.timer = q.timer) (href : p.ref = q.ref) : (t.setPending key (some p)).Linked where
  armed_iff h k := by
    rw [show (t.setPending key (some p)).armed = t.armed from rfl, hl.armed_iff]
    change _ ↔ ∃ q', Function.update t.pending key (some p) k = some q' ∧ _
    by_cases hk : k = key
    · subst hk
      rw [Function.update_self, hq]
      simp [htimer]
    · rw [Function.update_of_ne hk]
  ref_eq h timer p' harmed hp' := by
    change Function.update t.pending key (some p) timer.key = some p' at hp'
    by_cases hk : timer.key = key
    · rw [hk, Function.update_self, Option.some.injEq] at hp'
      rw [← hp', href]
      exact hl.ref_eq h timer q harmed (hk ▸ hq)
    · rw [Function.update_of_ne hk] at hp'
      exact hl.ref_eq h timer p' harmed hp'
  unused := hl.unused

theorem waitsIn_arm (hl : t.Linked) (hq : t.pending key = some q) (htimer : p.timer = q.timer)
    (hid : p.id = key) (ms : ℕ) :
    t.WaitsIn ((t.arm key p ms).1.setPending key (some (t.arm key p ms).2)) key p.cb where
  linked := hl.arm hq htimer ms
  pending := by
    refine ⟨(t.arm key p ms).2, ?_, hid, rfl, Option.some_ne_none _⟩
    change Function.update (t.clearT p.timer).pending key _ = _
    rw [pending_clearT]
  earlyResult := earlyResult_clearT t p.timer
  fired := fired_clearT t p.timer
  reports := reports_clearT t p.timer

theorem WaitsIn.notify {t' : Tracker ι κ} {cb : κ} (h : t.WaitsIn t' key cb) (phase : Phase)
    (e a : Option ℕ) : t.WaitsIn (t'.notify p phase e a) key cb where
  linked := h.linked.congr (pending_notify ..) (armed_notify ..) (nextHandle_notify ..)
  pending := by
    rw [pending_notify]
    exact h.pending
  earlyResult := by
    rw [earlyResult_notify]
    exact h.earlyResult
  fired := by
    rw [fired_notify]
    exact h.fired
  reports := by
    rw [reports_notify]
    exact h.reports

theorem waitsIn_markStarted (hl : t.Linked) (hp : t.pending key = some p) (hid : p.id = key)
    (msg : StartedMsg ι) : t.WaitsIn (t.markStarted key p msg) key p.cb := by
  unfold markStarted
  refine WaitsIn.notify ?_ _ _ _
  set p' : Item ι κ := { p with state := .sending }
  by_cases hzero : msg.expectedMs = some 0
  · by_cases hnone : p'.timer = none
    · rw [if_pos hzero, if_pos hnone]
      exact waitsIn_arm (p := p') hl hp rfl hid _
    · -- the timer that runs is kept
      rw [if_pos hzero, if_neg hnone]
      exact
        { linked := hl.setPending_same hp rfl rfl
          pending := ⟨p', rfl, hid, rfl, hnone⟩
          earlyResult := rfl
          fired := rfl
          reports := rfl }
  · rw [if_neg hzero]
    exact waitsIn_arm (p := p') hl hp rfl hid _

/-- What is done to a waiting object afterwards is done to the tracker before. -/
theorem WaitsIn.trans {t₁ t₂ : Tracker ι κ} {cb : κ} (h : t₁.WaitsIn t₂ key cb)
    (hpending : Function.update t₁.pending key none = Function.update t.pending key none)
    (hearly : t₁.earlyResult = t.earlyResult) (hfired : t₁.fired = t.fired)
    (hreports : t₁.reports = t.reports) : t.WaitsIn t₂ key cb where
  linked := h.linked
  pending := by
    obtain ⟨p, hp, hrest⟩ := h.pending
    have hsome := congrArg (fun f => Function.update f key (some p)) hpending
    simp only [Function.update_idem] at hsome
    exact ⟨p, hp.trans hsome, hrest⟩
  earlyResult := h.earlyResult.trans hearly
  fired := h.fired.trans hfired
  reports := h.reports.trans hreports

/-- An id that nothing is known about waits from its registration on. -/
theorem waitsIn_register (hl : t.Linked) (hnone : t.pending key = none)
    (hearly : t.earlyResult.get key = none) (cb : κ) (onState : Option κ) :
    t.WaitsIn (t.register key cb onState) key cb := by
  set p : Item ι κ :=
    { ref := t.nextRef, id := key, cb, onState, state := .queued, timer := none } with hp
  set t₁ := ({ t with nextRef := t.nextRef + 1 }.setPending key (some p)).notify p .queued none none
    with ht₁
  have hl₁ : t₁.Linked := by
    have hnew := hl.setPending_new (p := p) hnone rfl
    exact hnew.congr (pending_notify ..) (armed_notify ..) (nextHandle_notify ..)
  have hpending₁ : t₁.pending = Function.update t.pending key (some p) := pending_notify ..
  have hp₁ : t₁.pending key = some p := by rw [hpending₁, Function.update_self]
  have hidem : Function.update t₁.pending key none = Function.update t.pending key none := by
    rw [hpending₁, Function.update_idem]
  have hreports : t₁.reports = t.reports := reports_notify ..
  have hnone : (t.earlyResult.take key).1 = none := hearly
  unfold register
  split
  · rename_i r rest htake
    rw [htake] at hnone
    cases hnone
  dsimp only
  split
  · rename_i s earlyStarted hs
    have hl₂ : Linked { t₁ with earlyStarted } := hl₁.congr rfl rfl rfl
    exact (waitsIn_markStarted hl₂ hp₁ rfl s).trans hidem (earlyResult_notify ..) (fired_notify ..)
      hreports
  · exact (waitsIn_arm hl₁ hp₁ rfl rfl _).trans hidem (earlyResult_notify ..) (fired_notify ..)
      hreports

/-! ## Every run -/

/-- What holds after the events `past`, in which every id is registered once. -/
structure Inv (t : Tracker ι κ) (past : List (Event ι κ)) : Prop where
  linked : t.Linked
  timed : ∀ k p, t.pending k = some p → p.timer ≠ none
  waiting : ∀ k p, t.pending k = some p → p.id = k ∧ ∃ o, .register k p.cb o ∈ past
  early : ∀ k m, t.earlyResult.get k = some m → m.id = k ∧ .result m ∈ past
  reported : ∀ c r, (c, r) ∈ t.reports → t.pending r.id = none ∧ ∃ o, .register r.id c o ∈ past
  nodup : (t.reports.map fun x => x.2.id).Nodup
  settled : ∀ k c o, .register k c o ∈ past →
    t.pending k ≠ none ∨ k ∈ t.fired ∨ ∃ m, .result m ∈ past ∧ m.id = k

theorem inv_create (timeoutMs slackMs : Option ℕ) :
    (create timeoutMs slackMs : Tracker ι κ).Inv [] where
  linked := linked_create timeoutMs slackMs
  timed k p hp := by cases hp
  waiting k p hp := by cases hp
  early k m hm := by cases hm
  reported c r hr := by cases hr
  nodup := List.nodup_nil
  settled k c o ho := absurd ho List.not_mem_nil

variable {past : List (Event ι κ)} {e : Event ι κ} {t' : Tracker ι κ} {cb : κ}

/-- An event that changes only what is early. -/
theorem Inv.of_same (h : t.Inv past) (hlinked : t'.Linked) (hpending : t'.pending = t.pending)
    (hreports : t'.reports = t.reports) (hfired : t'.fired = t.fired)
    (hearly : ∀ k m, t'.earlyResult.get k = some m → m.id = k ∧ .result m ∈ past ++ [e])
    (he : e.registered = none) : t'.Inv (past ++ [e]) where
  linked := hlinked
  timed := hpending ▸ h.timed
  waiting k p hp := by
    obtain ⟨hid, o, ho⟩ := h.waiting k p (hpending ▸ hp)
    exact ⟨hid, o, List.mem_append_left _ ho⟩
  early := hearly
  reported c r hr := by
    obtain ⟨hnone, o, ho⟩ := h.reported c r (hreports ▸ hr)
    exact ⟨hpending ▸ hnone, o, List.mem_append_left _ ho⟩
  nodup := hreports ▸ h.nodup
  settled k c o ho := by
    rcases List.mem_append.mp ho with ho | ho
    · rcases h.settled k c o ho with hp | hf | ⟨m, hm, hid⟩
      · exact .inl (hpending ▸ hp)
      · exact .inr (.inl (hfired ▸ hf))
      · exact .inr (.inr ⟨m, List.mem_append_left _ hm, hid⟩)
    · rw [← List.mem_singleton.mp ho] at he
      cases he

/-- An event after which the id `key` waits. -/
theorem Inv.of_waitsIn (h : t.Inv past) (hw : t.WaitsIn t' key cb)
    (hregistered : ∃ o, .register key cb o ∈ past ++ [e])
    (hfresh : ∀ c r, (c, r) ∈ t.reports → r.id ≠ key)
    (he : ∀ k, e.registered = some k → k = key) : t'.Inv (past ++ [e]) := by
  obtain ⟨p, hpending, hid, hcb, htimer⟩ := hw.pending
  have hother : ∀ k, k ≠ key → t'.pending k = t.pending k := fun k hk => by
    rw [hpending, Function.update_of_ne hk]
  have hself : t'.pending key = some p := by rw [hpending, Function.update_self]
  constructor
  · exact hw.linked
  · intro k q hq
    by_cases hk : k = key
    · rw [hk, hself, Option.some.injEq] at hq
      exact hq ▸ htimer
    · exact h.timed k q (hother k hk ▸ hq)
  · intro k q hq
    by_cases hk : k = key
    · subst hk
      rw [hself, Option.some.injEq] at hq
      subst hq
      exact ⟨hid, hcb ▸ hregistered⟩
    · obtain ⟨hqid, o, ho⟩ := h.waiting k q (hother k hk ▸ hq)
      exact ⟨hqid, o, List.mem_append_left _ ho⟩
  · intro k m hm
    rw [hw.earlyResult] at hm
    obtain ⟨hmid, hmem⟩ := h.early k m hm
    exact ⟨hmid, List.mem_append_left _ hmem⟩
  · intro c r hr
    rw [hw.reports] at hr
    obtain ⟨hnone, o, ho⟩ := h.reported c r hr
    exact ⟨by rw [hother _ (hfresh c r hr), hnone], o, List.mem_append_left _ ho⟩
  · rw [hw.reports]
    exact h.nodup
  · intro k c o ho
    by_cases hk : k = key
    · rw [hk, hself]
      exact .inl (Option.some_ne_none p)
    · rcases List.mem_append.mp ho with ho | ho
      · rcases h.settled k c o ho with hp | hf | ⟨m, hm, hmid⟩
        · exact .inl (hother k hk ▸ hp)
        · exact .inr (.inl (hw.fired ▸ hf))
        · exact .inr (.inr ⟨m, List.mem_append_left _ hm, hmid⟩)
      · exact absurd (he k (by rw [← List.mem_singleton.mp ho]; rfl)) hk

/-- An event that reports the id `key`. -/
theorem Inv.of_report {r : Report ι} (h : t.Inv past) (hlinked : t'.Linked)
    (hpending : t'.pending = Function.update t.pending key none)
    (hreports : t'.reports = t.reports ++ [(cb, r)]) (hid : r.id = key)
    (hfired : ∀ k ∈ t.fired, k ∈ t'.fired)
    (hearly : ∀ k m, t'.earlyResult.get k = some m → t.earlyResult.get k = some m)
    (hregistered : ∃ o, .register key cb o ∈ past ++ [e])
    (hfresh : ∀ c r, (c, r) ∈ t.reports → r.id ≠ key)
    (hwhy : key ∈ t'.fired ∨ ∃ m, .result m ∈ past ++ [e] ∧ m.id = key)
    (he : ∀ k, e.registered = some k → k = key) : t'.Inv (past ++ [e]) := by
  have hother : ∀ k, k ≠ key → t'.pending k = t.pending k := fun k hk => by
    rw [hpending, Function.update_of_ne hk]
  have hself : t'.pending key = none := by rw [hpending, Function.update_self]
  have hback : ∀ k q, t'.pending k = some q → t.pending k = some q := by
    intro k q hq
    by_cases hk : k = key
    · rw [hk, hself] at hq
      cases hq
    · exact hother k hk ▸ hq
  constructor
  · exact hlinked
  · exact fun k q hq => h.timed k q (hback k q hq)
  · intro k q hq
    obtain ⟨hqid, o, ho⟩ := h.waiting k q (hback k q hq)
    exact ⟨hqid, o, List.mem_append_left _ ho⟩
  · intro k m hm
    obtain ⟨hmid, hmem⟩ := h.early k m (hearly k m hm)
    exact ⟨hmid, List.mem_append_left _ hmem⟩
  · intro c r' hr
    rw [hreports] at hr
    rcases List.mem_append.mp hr with hr | hr
    · obtain ⟨hnone, o, ho⟩ := h.reported c r' hr
      exact ⟨by rw [hother _ (hfresh c r' hr), hnone], o, List.mem_append_left _ ho⟩
    · obtain ⟨rfl, rfl⟩ := Prod.mk.inj (List.mem_singleton.mp hr)
      rw [hid]
      exact ⟨hself, hregistered⟩
  · rw [hreports, List.map_append, List.map_singleton, hid]
    refine List.nodup_append.mpr ⟨h.nodup, List.nodup_singleton key, ?_⟩
    intro a ha b hb
    obtain ⟨⟨c, r'⟩, hr, rfl⟩ := List.mem_map.mp ha
    rw [List.mem_singleton.mp hb]
    exact hfresh c r' hr
  · intro k c o ho
    by_cases hk : k = key
    · exact .inr (hk ▸ hwhy)
    · rcases List.mem_append.mp ho with ho | ho
      · rcases h.settled k c o ho with hp | hf | ⟨m, hm, hmid⟩
        · exact .inl (hother k hk ▸ hp)
        · exact .inr (.inl (hfired k hf))
        · exact .inr (.inr ⟨m, List.mem_append_left _ hm, hmid⟩)
      · exact absurd (he k (by rw [← List.mem_singleton.mp ho]; rfl)) hk

/-- An id that waits has not been reported. -/
theorem Inv.fresh_of_pending (h : t.Inv past) (hp : t.pending key = some p) :
    ∀ c r, (c, r) ∈ t.reports → r.id ≠ key := by
  rintro c r hr rfl
  rw [(h.reported c r hr).1] at hp
  cases hp

theorem inv_register {id : ι} {o : Option κ} (h : t.Inv past)
    (hnew : ∀ c o, .register id c o ∉ past) :
    (t.register id cb o).Inv (past ++ [.register id cb o]) := by
  have hnone : t.pending id = none := by
    rw [Option.eq_none_iff_forall_ne_some]
    intro p hp
    obtain ⟨-, o', ho'⟩ := h.waiting id p hp
    exact hnew _ _ ho'
  have hfresh : ∀ c r, (c, r) ∈ t.reports → r.id ≠ id := by
    rintro c r hr rfl
    obtain ⟨-, o', ho'⟩ := h.reported c r hr
    exact hnew _ _ ho'
  have hmem : ∃ o', .register id cb o' ∈ past ++ [.register id cb o] :=
    ⟨o, List.mem_append_right _ List.mem_cons_self⟩
  have he : ∀ k, (Event.register id cb o : Event ι κ).registered = some k → k = id :=
    fun k hk => (Option.some.inj hk).symm
  cases hearly : t.earlyResult.get id with
  | none => exact h.of_waitsIn (waitsIn_register h.linked hnone hearly cb o) hmem hfresh he
  | some r =>
      obtain ⟨hrid, hr⟩ := h.early id r hearly
      have htake : t.earlyResult.take id = (some r, (t.earlyResult.take id).2) := Prod.ext hearly rfl
      unfold register
      rw [htake]
      refine h.of_report (r := normalizeTxResult r) (h.linked.congr rfl rfl rfl) ?_
        (reports_call_cb _ cb _) hrid (fun k hk => hk) (fun k m hm => ?_) hmem hfresh
        (.inr ⟨r, List.mem_append_left _ hr, hrid⟩) he
      · change t.pending = Function.update t.pending id none
        rw [← hnone, Function.update_eq_self]
      · exact (EvictingMap.get_take_iff.mp hm).2

theorem inv_started {msg : StartedMsg ι} (h : t.Inv past) :
    (t.started msg).Inv (past ++ [.started msg]) := by
  have hearly : ∀ k m, t.earlyResult.get k = some m →
      m.id = k ∧ .result m ∈ past ++ [.started msg] := by
    intro k m hm
    obtain ⟨hid, hmem⟩ := h.early k m hm
    exact ⟨hid, List.mem_append_left _ hmem⟩
  unfold started
  split
  · exact h.of_same (h.linked.congr rfl rfl rfl) rfl rfl rfl hearly rfl
  · rename_i p hp
    obtain ⟨hid, o, ho⟩ := h.waiting msg.id p hp
    exact h.of_waitsIn (waitsIn_markStarted h.linked hp hid msg) ⟨o, List.mem_append_left _ ho⟩
      (h.fresh_of_pending hp) (fun k hk => nomatch hk)

theorem inv_resolve {msg : ResultMsg ι} (h : t.Inv past) :
    (t.resolve msg).Inv (past ++ [.result msg]) := by
  have hmem : Event.result msg ∈ past ++ [.result msg] :=
    List.mem_append_right _ List.mem_cons_self
  unfold resolve
  split
  · refine h.of_same (h.linked.congr rfl rfl rfl) rfl rfl rfl (fun k m hm => ?_) rfl
    rcases EvictingMap.get_put hm with ⟨rfl, rfl⟩ | hm
    · exact ⟨rfl, hmem⟩
    · obtain ⟨hid, hmem'⟩ := h.early k m hm
      exact ⟨hid, List.mem_append_left _ hmem'⟩
  · rename_i p hp
    obtain ⟨-, o, ho⟩ := h.waiting msg.id p hp
    refine h.of_report (r := normalizeTxResult msg) ((h.linked.finish hp).congr rfl rfl rfl) ?_ ?_
      rfl (fun k hk => ?_) (fun k m hm => ?_) ⟨o, List.mem_append_left _ ho⟩
      (h.fresh_of_pending hp) (.inr ⟨msg, hmem, rfl⟩) (fun k hk => nomatch hk)
    · change Function.update (t.clearT p.timer).pending msg.id none = _
      rw [pending_clearT]
      rfl
    · rw [reports_call_cb]
      exact congrArg (· ++ _) (reports_clearT t p.timer)
    · change k ∈ (t.clearT p.timer).fired
      rwa [fired_clearT]
    · change (t.clearT p.timer).earlyResult.get k = some m at hm
      rwa [earlyResult_clearT] at hm

/-- A timer that fires is the timer of an id that waits, and reports it. -/
theorem fire_eq_some {handle : ℕ} (h : t.Inv past) (hfire : t.fire handle = some t') :
    ∃ p, t.pending p.id = some p ∧ p.timer = some handle ∧
      t' = ({ t.clearT (some handle) with fired := t.fired ++ [p.id] }.setPending p.id none).call
        (.cb p.cb { id := p.id, akn := 0, username := "", timeout := true, phase := some p.state }) := by
  obtain ⟨timer, harmed, rfl⟩ := Option.map_eq_some_iff.mp hfire
  obtain ⟨p, hp, htimer⟩ := (h.linked.armed_iff handle timer.key).mp ⟨timer, harmed, rfl⟩
  have hid := (h.waiting timer.key p hp).1
  have href := h.linked.ref_eq handle timer p harmed hp
  refine ⟨p, hid ▸ hp, htimer, ?_⟩
  have hsame : (t.clearT (some handle)).pending timer.key = some p := hp
  simp only [hsame, href, if_true, hid]

theorem inv_fire {handle : ℕ} (h : t.Inv past) (hfire : t.fire handle = some t') :
    t'.Inv (past ++ [.fire handle]) := by
  obtain ⟨p, hp, htimer, rfl⟩ := fire_eq_some h hfire
  obtain ⟨-, o, ho⟩ := h.waiting p.id p hp
  have hfinish := h.linked.finish hp
  rw [htimer] at hfinish
  exact h.of_report (hfinish.congr rfl rfl rfl) rfl (reports_call_cb _ _ _) rfl
    (fun k hk => List.mem_append_left _ hk) (fun k m hm => hm) ⟨o, List.mem_append_left _ ho⟩
    (h.fresh_of_pending hp) (.inl (List.mem_append_right _ List.mem_cons_self))
    (fun k hk => nomatch hk)

theorem inv_step (h : t.Inv past)
    (hnew : ∀ id, e.registered = some id → ∀ c o, .register id c o ∉ past)
    (hstep : t.step e = some t') : t'.Inv (past ++ [e]) := by
  cases e with
  | register id cb o =>
      cases hstep
      exact inv_register h (hnew id rfl)
  | started msg =>
      cases hstep
      exact inv_started h
  | result msg =>
      cases hstep
      exact inv_resolve h
  | fire handle => exact inv_fire h hstep

omit [DecidableEq ι] in
theorem notMem_of_nodup {f : Event ι κ → Option ι} {id : ι} {after : List (Event ι κ)}
    (h : ((past ++ e :: after).filterMap f).Nodup) (he : f e = some id) :
    ∀ e' ∈ past ++ after, f e' ≠ some id := by
  intro e' hmem he'
  rw [List.filterMap_append, List.filterMap_cons_some he, List.nodup_middle,
    List.nodup_cons, ← List.filterMap_append] at h
  exact h.1 (List.mem_filterMap.mpr ⟨e', hmem, he'⟩)

theorem inv_exec {es : List (Event ι κ)} {s : Tracker ι κ} (h : t.Inv past)
    (honce : ((past ++ es).filterMap Event.registered).Nodup)
    (hrun : Transition.exec step t es = some s) : s.Inv (past ++ es) := by
  induction es generalizing t past with
  | nil =>
      cases hrun
      rwa [List.append_nil]
  | cons e es ih =>
      obtain ⟨u, hu, hrest⟩ := Transition.exec_cons_eq_some_iff.mp hrun
      have hnew : ∀ id, e.registered = some id → ∀ c o, .register id c o ∉ past := by
        intro id hid c o hmem
        exact notMem_of_nodup honce hid _ (List.mem_append_left es hmem) rfl
      rw [List.append_cons] at honce ⊢
      exact ih (inv_step h hnew hu) honce hrest

/-- Exactly one timer is armed for an id that waits, and none for another. -/
theorem Inv.timers (h : t.Inv past) (id : ι) :
    (t.pending id ≠ none → ∃! handle, ∃ timer, t.armed handle = some timer ∧ timer.key = id) ∧
      (t.pending id = none → ∀ handle timer, t.armed handle = some timer → timer.key ≠ id) := by
  constructor
  · intro hsome
    obtain ⟨p, hp⟩ := Option.ne_none_iff_exists'.mp hsome
    obtain ⟨handle, hhandle⟩ := Option.ne_none_iff_exists'.mp (h.timed id p hp)
    refine ⟨handle, (h.linked.armed_iff handle id).mpr ⟨p, hp, hhandle⟩, fun handle' hh => ?_⟩
    obtain ⟨q, hq, hqtimer⟩ := (h.linked.armed_iff handle' id).mp hh
    rw [hp, Option.some.injEq] at hq
    rw [← hq, hhandle, Option.some.injEq] at hqtimer
    exact hqtimer.symm
  · rintro hnone handle timer harmed hkey
    obtain ⟨q, hq, -⟩ := (h.linked.armed_iff handle id).mp ⟨timer, harmed, hkey⟩
    rw [hnone] at hq
    cases hq

/-! ## Reports stay -/

theorem calls_prefix_markStarted (t : Tracker ι κ) (key : ι) (p : Item ι κ) (msg : StartedMsg ι) :
    t.calls <+: (t.markStarted key p msg).calls := by
  unfold markStarted
  refine List.IsPrefix.trans ?_ (calls_prefix_notify ..)
  change t.calls <+: (ite _ _ _ : Tracker ι κ × Item ι κ).1.calls
  split
  · split
    · exact ⟨[], by rw [List.append_nil, calls_arm]⟩
    · exact List.prefix_rfl
  · exact ⟨[], by rw [List.append_nil, calls_arm]⟩

theorem calls_prefix_register (t : Tracker ι κ) (id : ι) (cb : κ) (o : Option κ) :
    t.calls <+: (t.register id cb o).calls := by
  unfold register
  split
  · exact List.prefix_append t.calls _
  · dsimp only
    set p : Item ι κ := { ref := t.nextRef, id, cb, onState := o, state := .queued, timer := none }
    set t₁ := ({ t with nextRef := t.nextRef + 1 }.setPending id (some p)).notify p .queued none none
    have hgrow : t.calls <+: t₁.calls :=
      calls_prefix_notify ({ t with nextRef := t.nextRef + 1 }.setPending id (some p)) p _ _ _
    split
    · rename_i s earlyStarted _
      exact hgrow.trans (calls_prefix_markStarted { t₁ with earlyStarted } id p s)
    · change t.calls <+: (t₁.arm id p t₁.queuedMs).1.calls
      rwa [calls_arm]

theorem calls_prefix_step (hstep : t.step e = some t') : t.calls <+: t'.calls := by
  cases e with
  | register id cb o =>
      cases hstep
      exact calls_prefix_register t id cb o
  | started msg =>
      cases hstep
      unfold started
      split
      · exact List.prefix_rfl
      · exact calls_prefix_markStarted ..
  | result msg =>
      cases hstep
      unfold resolve
      split
      · exact List.prefix_rfl
      · rename_i p hp
        change t.calls <+: (t.clearT p.timer).calls ++ _
        rw [calls_clearT]
        exact List.prefix_append t.calls _
  | fire handle =>
      obtain ⟨timer, -, rfl⟩ := Option.map_eq_some_iff.mp hstep
      dsimp only
      split
      · exact List.prefix_rfl
      · split
        · exact List.prefix_append t.calls _
        · exact List.prefix_rfl

theorem mem_reports_exec {es : List (Event ι κ)} {s : Tracker ι κ} {x : κ × Report ι}
    (hrun : Transition.exec step t es = some s) (hx : x ∈ t.reports) : x ∈ s.reports := by
  have hstep : ∀ u a v, t.calls <+: u.calls → step u a = some v → t.calls <+: v.calls :=
    fun u a v hu hv => hu.trans (calls_prefix_step hv)
  have hgrow : t.calls <+: s.calls := Transition.exec_invariant hstep List.prefix_rfl hrun
  exact (hgrow.filterMap Call.report).subset hx

/-! ## An early result -/

/-- An event about an id that does not wait is about `id` or about one of `others`. -/
def FewEarly (id : ι) (others : List ι) (t : Tracker ι κ) (e : Event ι κ) : Prop :=
  ∀ j, e.about = some j → t.pending j = none → j = id ∨ j ∈ others

theorem earlyResult_markStarted (t : Tracker ι κ) (key : ι) (p : Item ι κ) (msg : StartedMsg ι) :
    (t.markStarted key p msg).earlyResult = t.earlyResult := by
  unfold markStarted
  dsimp only
  rw [earlyResult_notify]
  change (ite _ _ _ : Tracker ι κ × Item ι κ).1.earlyResult = _
  split
  · split
    · rw [earlyResult_arm]
    · rfl
  · rw [earlyResult_arm]

theorem earlyResult_register (t : Tracker ι κ) (id : ι) (cb : κ) (o : Option κ) :
    (t.register id cb o).earlyResult = (t.earlyResult.take id).2 ∨
      (t.register id cb o).earlyResult = t.earlyResult := by
  unfold register
  split
  · rename_i r earlyResult htake
    exact .inl (congrArg Prod.snd htake).symm
  · right
    dsimp only
    set p : Item ι κ := { ref := t.nextRef, id, cb, onState := o, state := .queued, timer := none }
    set t₁ := ({ t with nextRef := t.nextRef + 1 }.setPending id (some p)).notify p .queued none none
    have hsame : t₁.earlyResult = t.earlyResult :=
      earlyResult_notify ({ t with nextRef := t.nextRef + 1 }.setPending id (some p)) p _ _ _
    split
    · rename_i s earlyStarted _
      exact (earlyResult_markStarted { t₁ with earlyStarted } id p s).trans hsame
    · exact (earlyResult_arm t₁ id p t₁.queuedMs).trans hsame

/-- An early result is kept by the events of few other ids. -/
theorem held_step {msg : ResultMsg ι} {others : List ι} (hlen : others.length < EARLY_MAX)
    (h : t.earlyResult.Held msg.id msg others) (hreg : e.registered ≠ some msg.id)
    (hres : e.resulted ≠ some msg.id) (hfew : FewEarly msg.id others t e)
    (hstep : t.step e = some t') : t'.earlyResult.Held msg.id msg others := by
  cases e with
  | register id cb o =>
      cases hstep
      have hne : id ≠ msg.id := fun hid => hreg (congrArg some hid)
      rcases earlyResult_register t id cb o with heq | heq
      · exact heq ▸ h.take hne
      · exact heq ▸ h
  | started m =>
      cases hstep
      unfold started
      split
      · exact h
      · rw [earlyResult_markStarted]
        exact h
  | result m =>
      cases hstep
      have hne : m.id ≠ msg.id := fun hid => hres (congrArg some hid)
      unfold resolve
      split
      · rename_i hnone
        exact h.put hne ((hfew m.id rfl hnone).resolve_left hne) hlen
      · rename_i p hp
        change (t.clearT p.timer).earlyResult.Held msg.id msg others
        rwa [earlyResult_clearT]
  | fire handle =>
      obtain ⟨timer, -, rfl⟩ := Option.map_eq_some_iff.mp hstep
      dsimp only
      split
      · exact h
      · split <;> exact h

theorem held_exec {msg : ResultMsg ι} {others : List ι} (hlen : others.length < EARLY_MAX)
    {es : List (Event ι κ)} {s : Tracker ι κ} (h : t.earlyResult.Held msg.id msg others)
    (hreg : ∀ e ∈ es, e.registered ≠ some msg.id) (hres : ∀ e ∈ es, e.resulted ≠ some msg.id)
    (hfew : Transition.Meets step (FewEarly msg.id others) t es)
    (hrun : Transition.exec step t es = some s) : s.earlyResult.Held msg.id msg others := by
  induction es generalizing t with
  | nil =>
      cases hrun
      exact h
  | cons e es ih =>
      obtain ⟨u, hu, hrest⟩ := Transition.exec_cons_eq_some_iff.mp hrun
      have hkept := held_step hlen h (hreg e List.mem_cons_self) (hres e List.mem_cons_self)
        hfew.1 hu
      exact ih hkept (fun e' he' => hreg e' (List.mem_cons_of_mem e he'))
        (fun e' he' => hres e' (List.mem_cons_of_mem e he')) (hfew.2 u hu) hrest

/-! ## One report for each id -/

/-- Every id is registered once and has one result, and between an early event and the
registration of its id something early comes for fewer than `EARLY_MAX` other ids. -/
structure Orderly (start : Tracker ι κ) (es : List (Event ι κ)) : Prop where
  registeredOnce : (es.filterMap Event.registered).Nodup
  resultOnce : (es.filterMap Event.resulted).Nodup
  fewOthers : ∀ before e between id cb o after,
    es = before ++ e :: between ++ .register id cb o :: after → e.about = some id →
      ∃ others : List ι, others.length < EARLY_MAX ∧
        ∀ t, Transition.exec step start (before ++ [e]) = some t →
          Transition.Meets step (FewEarly id others) t between

/-- Few early events are about few ids. -/
theorem orderly_of_few {start : Tracker ι κ} {es : List (Event ι κ)}
    (hreg : (es.filterMap Event.registered).Nodup) (hres : (es.filterMap Event.resulted).Nodup)
    (hfew : (es.filterMap Event.about).length ≤ EARLY_MAX) : Orderly start es where
  registeredOnce := hreg
  resultOnce := hres
  fewOthers := by
    intro before e between id cb o after hes habout
    refine ⟨between.filterMap Event.about, ?_, fun t _ => ?_⟩
    · rw [hes] at hfew
      simp only [List.filterMap_append, List.filterMap_cons_some habout, List.length_append,
        List.length_cons] at hfew
      omega
    · exact Transition.meets_of_forall fun e' he' t j hj _ =>
        .inr (List.mem_filterMap.mpr ⟨e', he', hj⟩)

section Run

variable {timeoutMs slackMs : Option ℕ} {es before after : List (Event ι κ)} {s : Tracker ι κ}
  {msg : ResultMsg ι} {o : Option κ}

/-- A result for an id that waits is reported. -/
theorem reported_of_registered (horderly : Orderly (create timeoutMs slackMs) es)
    (hes : es = before ++ .result msg :: after)
    (hbefore : Transition.exec step (create timeoutMs slackMs) before = some t)
    (hfired : msg.id ∉ t.fired) (hreg : .register msg.id cb o ∈ before) :
    (cb, normalizeTxResult msg) ∈ (t.resolve msg).reports := by
  have honce := horderly.registeredOnce
  rw [hes, List.filterMap_append] at honce
  have hinv := inv_exec (inv_create timeoutMs slackMs) (List.nodup_append.mp honce).1 hbefore
  rw [List.nil_append] at hinv
  rcases hinv.settled msg.id cb o hreg with hp | hf | ⟨m, hm, hid⟩
  · obtain ⟨p, hp⟩ := Option.ne_none_iff_exists'.mp hp
    obtain ⟨-, o', ho'⟩ := hinv.waiting msg.id p hp
    have hcb : p.cb = cb := by
      obtain ⟨front, back, hsplit⟩ := List.append_of_mem hreg
      have hnodup := (List.nodup_append.mp honce).1
      rw [hsplit] at hnodup
      have hother := notMem_of_nodup hnodup (e := .register msg.id cb o) rfl
      rw [hsplit] at ho'
      rcases List.mem_append.mp ho' with h | h
      · exact absurd rfl (hother _ (List.mem_append_left back h))
      · rcases List.mem_cons.mp h with h | h
        · cases h
          rfl
        · exact absurd rfl (hother _ (List.mem_append_right front h))
    have hresolve : t.resolve msg =
        ((t.clearT p.timer).setPending msg.id none).call (.cb p.cb (normalizeTxResult msg)) := by
      rw [resolve, hp]
    rw [hresolve, reports_call_cb, hcb]
    exact List.mem_append_right _ List.mem_cons_self
  · exact absurd hf hfired
  · have honce' := horderly.resultOnce
    rw [hes] at honce'
    exact absurd (congrArg some hid) (notMem_of_nodup honce' rfl _ (List.mem_append_left after hm))

/-- A result for an id that is registered later is reported then. -/
theorem reported_of_early (horderly : Orderly (create timeoutMs slackMs) es)
    (hes : es = before ++ .result msg :: after)
    (hbefore : Transition.exec step (create timeoutMs slackMs) before = some t)
    (hrun : Transition.exec step (t.resolve msg) after = some s)
    (hreg : .register msg.id cb o ∈ after) : (cb, normalizeTxResult msg) ∈ s.reports := by
  obtain ⟨between, rest, rfl⟩ := List.append_of_mem hreg
  have hsplit : es = (before ++ .result msg :: between) ++ .register msg.id cb o :: rest := by
    rw [hes, List.append_assoc, List.cons_append]
  have honce := horderly.registeredOnce
  have hother := notMem_of_nodup (hsplit ▸ honce) (e := .register msg.id cb o) rfl
  have hresult := notMem_of_nodup (hes ▸ horderly.resultOnce) (e := .result msg) rfl
  rw [hes, List.filterMap_append] at honce
  have hinv := inv_exec (inv_create timeoutMs slackMs) (List.nodup_append.mp honce).1 hbefore
  rw [List.nil_append] at hinv
  -- nothing is known about the id when its result comes
  have hnone : t.pending msg.id = none := by
    rw [Option.eq_none_iff_forall_ne_some]
    intro p hp
    obtain ⟨-, o', ho'⟩ := hinv.waiting msg.id p hp
    exact hother _ (List.mem_append_left rest (List.mem_append_left _ ho')) rfl
  have hnew : t.earlyResult.get msg.id = none := by
    rw [Option.eq_none_iff_forall_ne_some]
    intro m hm
    obtain ⟨hid, hmem⟩ := hinv.early msg.id m hm
    exact hresult _ (List.mem_append_left _ hmem) (congrArg some hid)
  have hresolve : t.resolve msg = { t with earlyResult := t.earlyResult.put msg.id msg } := by
    rw [resolve, hnone]
  obtain ⟨others, hlen, hmeets⟩ := horderly.fewOthers before (.result msg) between msg.id cb o rest
    hsplit rfl
  have hstart : Transition.exec step (create timeoutMs slackMs) (before ++ [.result msg]) =
      some (t.resolve msg) := by
    rw [Transition.exec_append, hbefore]
    rfl
  rw [Transition.exec_append] at hrun
  obtain ⟨u, hu, hrest⟩ := Option.bind_eq_some_iff.mp hrun
  have hheld : (t.resolve msg).earlyResult.Held msg.id msg others := by
    rw [hresolve]
    exact EvictingMap.held_put (by decide) hnew
  have hkept := held_exec hlen hheld
    (fun e he => hother e (List.mem_append_left rest (List.mem_append_right before
      (List.mem_cons_of_mem _ he))))
    (fun e he => hresult e (List.mem_append_right before (List.mem_append_left _ he)))
    (hmeets _ hstart) hu
  -- the registration takes it
  obtain ⟨v, hv, hend⟩ := Transition.exec_cons_eq_some_iff.mp hrest
  cases hv
  refine mem_reports_exec hend ?_
  have htake : u.earlyResult.take msg.id = (some msg, (u.earlyResult.take msg.id).2) :=
    Prod.ext hkept.get_eq rfl
  have hregister : u.register msg.id cb o =
      { u with
        earlyResult := (u.earlyResult.take msg.id).2
        earlyStarted := (u.earlyStarted.take msg.id).2 }.call (.cb cb (normalizeTxResult msg)) := by
    rw [register, htake]
  rw [hregister, reports_call_cb]
  exact List.mem_append_right _ List.mem_cons_self

/-- The callback of every id is called at most once, with the result of the id when that
comes before the timer fires, and the ids that wait are those that have a timer. -/
theorem reported_once (horderly : Orderly (create timeoutMs slackMs) es)
    (hrun : Transition.exec step (create timeoutMs slackMs) es = some s) :
    (∀ id, (s.reports.map fun x => x.2.id).count id ≤ 1) ∧
      (∀ cb r, (cb, r) ∈ s.reports → ∃ o, .register r.id cb o ∈ es) ∧
      (∀ before msg after t cb o, es = before ++ .result msg :: after →
        Transition.exec step (create timeoutMs slackMs) before = some t → msg.id ∉ t.fired →
          .register msg.id cb o ∈ es → (cb, normalizeTxResult msg) ∈ s.reports) ∧
      ∀ id,
        (s.pending id ≠ none →
          ∃! handle, ∃ timer, s.armed handle = some timer ∧ timer.key = id) ∧
        (id ∈ s.reports.map (fun x => x.2.id) → s.pending id = none) ∧
        (s.pending id = none → ∀ handle timer, s.armed handle = some timer → timer.key ≠ id) := by
  have hinv := inv_exec (inv_create timeoutMs slackMs) horderly.registeredOnce hrun
  refine ⟨List.nodup_iff_count_le_one.mp hinv.nodup, ?_, ?_, fun id => ⟨?_, ?_, ?_⟩⟩
  · exact fun cb r hr => (hinv.reported cb r hr).2
  · intro before msg after t cb o hes hbefore hfired hreg
    rw [hes, Transition.exec_append, hbefore, Option.bind_some] at hrun
    obtain ⟨u, hu, hrest⟩ := Transition.exec_cons_eq_some_iff.mp hrun
    cases hu
    rw [hes] at hreg
    rcases List.mem_append.mp hreg with hreg | hreg
    · exact mem_reports_exec hrest (reported_of_registered horderly hes hbefore hfired hreg)
    · rcases List.mem_cons.mp hreg with hreg | hreg
      · cases hreg
      · exact reported_of_early horderly hes hbefore hrest hreg
  · exact (hinv.timers id).1
  · intro hmem
    obtain ⟨⟨cb, r⟩, hr, rfl⟩ := List.mem_map.mp hmem
    exact (hinv.reported cb r hr).1
  · exact (hinv.timers id).2

end Run

/-- The result of `7` comes before `7` is registered, that of `8` while it waits, and that of `9`
after its timer has fired. -/
def mixedRun : List (Event ℕ ℕ) :=
  [.register 8 101 none, .result { id := 7, akn := 1, username := "bob" },
    .started { id := 9, expectedMs := some 500, attempts := some 2 }, .register 9 102 none,
    .started { id := 8, expectedMs := none, attempts := none }, .register 7 100 none,
    .result { id := 8, akn := 0, username := "" }, .fire 1,
    .result { id := 9, akn := 1, username := "eve" }]

theorem reported_once_mixedRun :
    ∃ s, Transition.exec step (create none none : Tracker ℕ ℕ) mixedRun = some s ∧
      (∀ id, (s.reports.map fun x => x.2.id).count id ≤ 1) ∧
      (100, { id := 7, akn := 1, username := "bob", timeout := false, phase := none }) ∈ s.reports ∧
      (101, { id := 8, akn := 0, username := "", timeout := false, phase := none }) ∈ s.reports ∧
      s.reports.map (fun x => (x.2.id, x.2.timeout)) = [(7, false), (8, false), (9, true)] := by
  have horderly : Orderly (create none none : Tracker ℕ ℕ) mixedRun :=
    orderly_of_few (by decide) (by decide) (by decide)
  obtain ⟨honce, -, hreported, -⟩ := reported_once horderly rfl
  exact ⟨_, rfl, honce,
    hreported [.register 8 101 none] _ _ _ 100 none rfl rfl (by decide) (by simp [mixedRun]),
    hreported (mixedRun.take 6) _ _ _ 101 none rfl rfl (by decide) (by simp [mixedRun]),
    by decide⟩

end Tracker

end TxTimers

end Web

end Voyager
