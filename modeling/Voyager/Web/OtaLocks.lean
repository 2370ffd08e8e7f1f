import Voyager.Web.Ota

/-!
# No upload leaks a lock or loses the snapshot

`Settled` is the part of the invariant that says nothing about the owner; `Owned` is what
an owner adds to it. Every exit of the upload handler, the request handler and the hook
goes through `otaAbortOwner`, or ends the upload well, or keeps the owner.
-/

namespace Voyager

namespace Web

namespace Server

/-- The snapshot in force was taken with nothing written before it, and the first write
came right after it. -/
def SnapshotKept (s : Server) : Prop :=
  ∃ before image after, s.marks = before ++ .took image :: .wrote :: after ∧
    .wrote ∉ before ∧ s.otaKeep = otaKeepSnapshot image

/-- The snapshot in force was taken last, and nothing was written yet. -/
def SnapshotFresh (s : Server) : Prop :=
  ∃ before image, s.marks = before ++ [.took image] ∧ .wrote ∉ before ∧
    s.otaKeep = otaKeepSnapshot image

structure Settled (s : Server) : Prop where
  radio : s.otaRadioHeld = true ↔ s.loraWriteMutex = .ota
  fsMutex : s.fsMutex ≠ .ota
  clean : s.otaFsDirty = false → .wrote ∉ s.marks
  dirty : s.otaFsDirty = true → s.completed = false → s.SnapshotKept ∧ s.fsOffline = true

structure Owned (s : Server) (r : ℕ) (cmd : Cmd) : Prop where
  owner : s.otaOwner = some r
  held : s.otaRadioHeld = true
  notCompleted : s.completed = false
  request : ∃ st, s.requests r = some ⟨cmd, some st, true⟩ ∧ st.status = .running
  flash : cmd = .flash → s.fsOffline = s.otaFsDirty
  spiffs : cmd = .spiffs → s.fsOffline = true ∧ (s.otaFsDirty = false → s.SnapshotFresh)

/-- Nobody owns the update. -/
structure Idle (s : Server) : Prop where
  owner : s.otaOwner = none
  completed : s.completed = true → s.otaRadioHeld = true
  notCompleted : s.completed = false → s.otaRadioHeld = false ∧ s.fsOffline = s.otaFsDirty

structure Inv (s : Server) : Prop where
  settled : s.Settled
  cases : s.Idle ∨ ∃ r cmd, s.Owned r cmd

variable {s : Server} {r : ℕ} {cmd : Cmd} {x : Outcomes}

theorem Settled.setObject (h : s.Settled) (r : ℕ) (st : OtaReqState) : (s.setObject r st).Settled :=
  ⟨h.radio, h.fsMutex, h.clean, h.dirty⟩

/-! ## Releasing -/

theorem inv_release (h : s.Settled) (howner : s.otaOwner = none) (hheld : s.otaRadioHeld = true)
    (hcompleted : s.completed = false) (hoffline : s.fsOffline = s.otaFsDirty) :
    s.otaReleaseRadio.Inv := by
  rw [otaReleaseRadio, if_pos hheld]
  exact ⟨⟨⟨nofun, nofun⟩, h.fsMutex, h.clean, h.dirty⟩,
    .inl ⟨howner, fun hc => absurd (hc.symm.trans hcompleted) (by decide), fun _ => ⟨rfl, hoffline⟩⟩⟩

/-- The owner gives up: the radio is free again and the filesystem is online, unless its
partition is half-written. -/
theorem inv_abort (h : s.Settled) (howner : s.otaOwner = some r) (hheld : s.otaRadioHeld = true)
    (hcompleted : s.completed = false) : (s.otaAbortOwner r).Inv := by
  rw [otaAbortOwner, if_neg (not_not_intro howner)]
  dsimp only
  by_cases hdirty : s.otaFsDirty = true
  · rw [if_pos hdirty]
    have hoffline := (h.dirty hdirty hcompleted).2
    have hnone : Settled { s with otaOwner := none } := ⟨h.radio, h.fsMutex, h.clean, h.dirty⟩
    exact inv_release hnone rfl hheld hcompleted (hoffline.trans hdirty.symm)
  · rw [if_neg hdirty]
    have hnone : Settled { s with otaOwner := none, otaKeep := otaKeepClear, fsOffline := false } :=
      ⟨h.radio, h.fsMutex, h.clean, fun hd => absurd hd hdirty⟩
    exact inv_release hnone rfl hheld hcompleted (Bool.eq_false_iff.mpr hdirty).symm

theorem inv_fail (h : s.Settled) (howner : s.otaOwner = some r) (hheld : s.otaRadioHeld = true)
    (hcompleted : s.completed = false) (why : String) : (s.otaFail r why).Inv :=
  inv_abort (h.setObject r _) howner hheld hcompleted

theorem Owned.inv_fail (ho : s.Owned r cmd) (h : s.Settled) (why : String) :
    (s.otaFail r why).Inv :=
  Server.inv_fail h ho.owner ho.held ho.notCompleted why

/-! ## Writing -/

/-- The partition is about to be written for an owner with a filesystem image. -/
theorem Owned.settled_wrote (ho : s.Owned r .spiffs) (h : s.Settled) (image : FsImage) :
    Settled { s with otaFsDirty := true, fs := image, marks := s.marks ++ [.wrote] } where
  radio := h.radio
  fsMutex := h.fsMutex
  clean := nofun
  dirty := by
    intro _ _
    refine ⟨?_, (ho.spiffs rfl).1⟩
    cases hdirty : s.otaFsDirty with
    | true =>
        obtain ⟨⟨before, img, after, hmarks, hbefore, hkeep⟩, -⟩ := h.dirty hdirty ho.notCompleted
        refine ⟨before, img, after ++ [.wrote], ?_, hbefore, hkeep⟩
        simp only [hmarks, List.append_assoc, List.cons_append]
    | false =>
        obtain ⟨before, img, hmarks, hbefore, hkeep⟩ := (ho.spiffs rfl).2 hdirty
        refine ⟨before, img, [], ?_, hbefore, hkeep⟩
        simp only [hmarks, List.append_assoc, List.cons_append, List.nil_append]

theorem Owned.wrote (ho : s.Owned r .spiffs) (image : FsImage) :
    Owned { s with otaFsDirty := true, fs := image, marks := s.marks ++ [.wrote] } r .spiffs :=
  ⟨ho.owner, ho.held, ho.notCompleted, ho.request, nofun, fun _ => ⟨(ho.spiffs rfl).1, nofun⟩⟩

/-- The upload is complete: the radio stays quiet until the reboot. -/
theorem Owned.inv_done (ho : s.Owned r cmd) (h : s.Settled) (st : OtaReqState) :
    Inv { s.setObject r st with otaOwner := none, completed := true } :=
  ⟨⟨h.radio, h.fsMutex, h.clean, nofun⟩, .inl ⟨rfl, fun _ => ho.held, nofun⟩⟩

theorem Owned.inv_write (ho : s.Owned r cmd) (h : s.Settled) (c : Chunk) (x : Outcomes) :
    (s.otaWrite r cmd c x).Inv := by
  have hend : ∀ s : Server, s.Owned r cmd → s.Settled →
      Inv (if c.len ≠ 0 ∧ ¬ x.updateWrite then s.otaFail r x.errorString
        else if c.final then
          if ¬ x.updateEnd then s.otaFail r x.errorString
          else { s.setObject r ⟨.done, ""⟩ with otaOwner := none, completed := true }
        else s) := by
    intro s ho h
    split
    · exact ho.inv_fail h _
    · split
      · split
        · exact ho.inv_fail h _
        · exact ho.inv_done h _
      · exact ⟨h, .inr ⟨r, cmd, ho⟩⟩
  rw [otaWrite]
  by_cases hwrite : c.len ≠ 0 ∧ cmd = .spiffs
  · rw [if_pos hwrite]
    obtain rfl := hwrite.2
    exact hend _ (ho.wrote _) (ho.settled_wrote h _)
  · rw [if_neg hwrite]
    exact hend s ho h

/-! ## Admission -/

/-- The upload is admitted and `r` owns it; the filesystem has not been looked at. -/
structure Starting (s : Server) (r : ℕ) (cmd : Cmd) : Prop where
  owner : s.otaOwner = some r
  held : s.otaRadioHeld = true
  notCompleted : s.completed = false
  request : ∃ st, s.requests r = some ⟨cmd, some st, true⟩ ∧ st.status = .running
  offline : s.fsOffline = s.otaFsDirty

theorem fsMaintenanceEnd_eq (s : Server) :
    ∃ m, m ≠ .ota ∧ s.fsMaintenanceEnd = { s with fsMutex := m } := by
  rw [fsMaintenanceEnd]
  split
  · exact ⟨.free, nofun, rfl⟩
  · next hm => exact ⟨s.fsMutex, hm, rfl⟩

theorem Settled.withFsMutex (h : s.Settled) {m : Mutex} (hm : m ≠ .ota) :
    Settled { s with fsMutex := m } := ⟨h.radio, hm, h.clean, h.dirty⟩

/-- The filesystem is taken offline: with a snapshot, unless one is kept already. The lock
is held on entry and not on return. -/
theorem Starting.offline_spec {m : Mutex} (ho : s.Starting r .spiffs) (h : s.Settled) :
    (otaTakeOffline { s with fsMutex := m }).Settled ∧
      (otaTakeOffline { s with fsMutex := m }).Owned r .spiffs := by
  rw [otaTakeOffline]
  dsimp only
  obtain ⟨m', hm', hend⟩ := fsMaintenanceEnd_eq
    { (if s.otaFsDirty = true then { s with fsMutex := m }
        else { s with fsMutex := m, otaKeep := otaKeepSnapshot s.fs,
                      marks := s.marks ++ [.took s.fs] }) with fsOffline := true }
  rw [hend]
  by_cases hdirty : s.otaFsDirty = true
  · simp only [if_pos hdirty]
    exact ⟨⟨h.radio, hm', h.clean, fun hd hc => ⟨(h.dirty hd hc).1, rfl⟩⟩,
      ⟨ho.owner, ho.held, ho.notCompleted, ho.request, nofun,
        fun _ => ⟨rfl, fun hclean => absurd (hclean.symm.trans hdirty) (by decide)⟩⟩⟩
  · simp only [if_neg hdirty]
    have hclean := h.clean (Bool.eq_false_iff.mpr hdirty)
    have hfresh : SnapshotFresh
        { s with fsMutex := m', otaKeep := otaKeepSnapshot s.fs, marks := s.marks ++ [.took s.fs],
                 fsOffline := true } := ⟨s.marks, s.fs, rfl, hclean, rfl⟩
    refine ⟨⟨h.radio, hm', fun _ hmem => ?_, fun hd => absurd hd hdirty⟩,
      ⟨ho.owner, ho.held, ho.notCompleted, ho.request, nofun, fun _ => ⟨rfl, fun _ => hfresh⟩⟩⟩
    rcases List.mem_append.mp hmem with hmem | hmem
    · exact hclean hmem
    · exact FsMark.noConfusion (List.mem_singleton.mp hmem)

theorem Starting.begin_spec (ho : s.Starting r cmd) (h : s.Settled) (x : Outcomes) :
    (s.otaBegin r cmd x).2 = false ∧ (s.otaBegin r cmd x).1.Inv ∨
      (s.otaBegin r cmd x).2 = true ∧ (s.otaBegin r cmd x).1.Settled ∧
        (s.otaBegin r cmd x).1.Owned r cmd := by
  have hupdate : ∀ s : Server, s.Settled → s.Owned r cmd →
      (if ¬ x.updateBegin then (s.otaFail r x.errorString, false) else (s, true)).2 = false ∧
          (if ¬ x.updateBegin then (s.otaFail r x.errorString, false) else (s, true)).1.Inv ∨
        (if ¬ x.updateBegin then (s.otaFail r x.errorString, false) else (s, true)).2 = true ∧
          (if ¬ x.updateBegin then (s.otaFail r x.errorString, false) else (s, true)).1.Settled ∧
          (if ¬ x.updateBegin then (s.otaFail r x.errorString, false) else (s, true)).1.Owned r cmd := by
    intro s h ho
    by_cases hbegin : x.updateBegin = true
    · rw [if_neg (not_not_intro hbegin)]
      exact .inr ⟨rfl, h, ho⟩
    · rw [if_pos hbegin]
      exact .inl ⟨rfl, ho.inv_fail h _⟩
  rw [otaBegin]
  cases cmd with
  | flash =>
      rw [if_neg nofun]
      exact hupdate s h ⟨ho.owner, ho.held, ho.notCompleted, ho.request, fun _ => ho.offline, nofun⟩
  | spiffs =>
      rw [if_pos rfl, fsMaintenanceBegin]
      by_cases hmissing : s.fsMutex = .missing
      · rw [if_pos hmissing]
        obtain ⟨hsettled, howned⟩ := ho.offline_spec (m := s.fsMutex) h
        exact hupdate _ hsettled howned
      · rw [if_neg hmissing]
        by_cases hgot : x.fsMaintenance = true
        · rw [if_pos hgot]
          obtain ⟨hsettled, howned⟩ := ho.offline_spec (m := .ota) h
          exact hupdate _ hsettled howned
        · rw [if_neg hgot]
          refine .inl ⟨rfl, inv_release ⟨h.radio, h.fsMutex, h.clean, h.dirty⟩ rfl ho.held
            ho.notCompleted ho.offline⟩

/-! ## Requests that own nothing -/

/-- The invariant looks at no request but the owner's. -/
theorem Inv.update (h : s.Inv) (hne : s.otaOwner ≠ some r) (req : Option Request) :
    Inv { s with requests := Function.update s.requests r req } := by
  refine ⟨⟨h.settled.radio, h.settled.fsMutex, h.settled.clean, h.settled.dirty⟩, ?_⟩
  rcases h.cases with hidle | ⟨r', cmd, ho⟩
  · exact .inl ⟨hidle.owner, hidle.completed, hidle.notCompleted⟩
  · obtain ⟨st, hst, hrunning⟩ := ho.request
    have hr : r' ≠ r := fun heq => hne (heq ▸ ho.owner)
    exact .inr ⟨r', cmd, ho.owner, ho.held, ho.notCompleted,
      ⟨st, by rw [← hst]; exact Function.update_of_ne hr _ _, hrunning⟩, ho.flash, ho.spiffs⟩

theorem Inv.setObject (h : s.Inv) (hne : s.otaOwner ≠ some r) (st : OtaReqState) :
    (s.setObject r st).Inv := h.update hne _

theorem Inv.owned (h : s.Inv) (howner : s.otaOwner = some r) : ∃ cmd, s.Owned r cmd := by
  rcases h.cases with hidle | ⟨r', cmd, ho⟩
  · exact absurd (howner.symm.trans hidle.owner) nofun
  · obtain rfl := Option.some.inj (ho.owner.symm.trans howner)
    exact ⟨cmd, ho⟩

theorem Inv.otaFail (h : s.Inv) (r : ℕ) (why : String) : (s.otaFail r why).Inv := by
  by_cases howner : s.otaOwner = some r
  · obtain ⟨cmd, ho⟩ := h.owned howner
    exact ho.inv_fail h.settled why
  · rw [Server.otaFail, otaAbortOwner, if_pos (show (s.setObject r _).otaOwner ≠ some r from howner)]
    exact h.setObject howner _

/-! ## The handlers -/

theorem otaAdmit_cases (s : Server) (x : Outcomes) :
    ((s.otaAdmit x).2 ≠ .running ∧ (s.otaAdmit x).1 = s) ∨
      (s.otaOwner = none ∧ s.loraWriteMutex = .free ∧
        s.otaAdmit x = ({ s with loraWriteMutex := .ota, otaRadioHeld := true }, .running)) := by
  rw [otaAdmit]
  by_cases h1 : ¬ x.originOk = true
  · rw [if_pos h1]
    exact .inl ⟨nofun, rfl⟩
  rw [if_neg h1]
  by_cases h2 : ¬ x.authIsSet = true
  · rw [if_pos h2]
    exact .inl ⟨nofun, rfl⟩
  rw [if_neg h2]
  by_cases h3 : ¬ x.authCheck = true
  · rw [if_pos h3]
    exact .inl ⟨nofun, rfl⟩
  rw [if_neg h3]
  by_cases howner : s.otaOwner ≠ none
  · rw [if_pos howner]
    exact .inl ⟨nofun, rfl⟩
  rw [if_neg howner]
  by_cases hmutex : s.loraWriteMutex ≠ .free
  · rw [if_pos hmutex]
    exact .inl ⟨nofun, rfl⟩
  rw [if_neg hmutex]
  exact .inr ⟨not_not.mp howner, not_not.mp hmutex, rfl⟩

/-- An admitted request becomes the owner; the radio was free, so nothing was held. -/
theorem Inv.starting (h : s.Inv) {req : Request} (hreq : s.requests r = some req)
    (howner : s.otaOwner = none) (hfree : s.loraWriteMutex = .free) :
    let s' : Server := { (Server.setObject { s with loraWriteMutex := .ota, otaRadioHeld := true } r
      ⟨.running, ""⟩).setHook r with otaOwner := some r }
    s'.Settled ∧ s'.Starting r req.cmd := by
  rcases h.cases with hidle | ⟨r', cmd, ho⟩
  · have hheld : ¬ s.otaRadioHeld = true := by
      rw [h.settled.radio, hfree]
      exact nofun
    have hcompleted : s.completed = false :=
      Bool.eq_false_iff.mpr fun hc => hheld (hidle.completed hc)
    refine ⟨⟨⟨fun _ => rfl, fun _ => rfl⟩, h.settled.fsMutex, h.settled.clean, h.settled.dirty⟩,
      ⟨rfl, rfl, hcompleted, ⟨⟨.running, ""⟩, ?_, rfl⟩, (hidle.notCompleted hcompleted).2⟩⟩
    simp only [Server.setObject, setHook, Function.update_self, hreq, Option.map_some]
  · exact absurd (howner.symm.trans ho.owner) nofun

theorem Inv.otaUpload (h : s.Inv) {req : Request} (hreq : s.requests r = some req) (c : Chunk)
    (x : Outcomes) : (s.otaUpload r req c x).Inv := by
  rw [Server.otaUpload]
  by_cases hindex : c.index = 0
  · rw [if_pos hindex]
    cases hobject : req.tempObject with
    | some st =>
        dsimp only
        split
        · exact h.otaFail r _
        · exact h
    | none =>
        dsimp only
        by_cases hcalloc : ¬ x.calloc = true
        · rw [if_pos hcalloc]
          exact h
        rw [if_neg hcalloc]
        have hne : s.otaOwner ≠ some r := by
          intro howner
          obtain ⟨cmd, ho⟩ := h.owned howner
          obtain ⟨st, hst, -⟩ := ho.request
          cases hreq.symm.trans hst
          cases hobject
        rcases otaAdmit_cases s x with ⟨hrefused, hsame⟩ | ⟨howner, hfree, hadmitted⟩
        · rw [if_pos hrefused, hsame]
          exact h.setObject hne _
        · rw [hadmitted]
          dsimp only
          rw [if_neg (not_not_intro rfl)]
          obtain ⟨hsettled, hstarting⟩ := h.starting hreq howner hfree
          rcases hstarting.begin_spec hsettled x with ⟨hstop, hinv⟩ | ⟨hgo, hsettled', howned⟩
          · rw [if_neg (by rw [hstop]; exact Bool.false_ne_true)]
            exact hinv
          · rw [if_pos hgo]
            exact howned.inv_write hsettled' c x
  · rw [if_neg hindex]
    split
    · next hrunning =>
        obtain ⟨cmd, ho⟩ := h.owned hrunning.2
        obtain ⟨st, hst, -⟩ := ho.request
        obtain rfl := Option.some.inj (hreq.symm.trans hst)
        exact ho.inv_write h.settled c x
    · exact h

theorem Inv.otaRequest (h : s.Inv) (r : ℕ) (req : Request) (guardOk : Bool) :
    (s.otaRequest r req guardOk).1.Inv := by
  rw [Server.otaRequest]
  cases req.tempObject with
  | none => exact h
  | some st =>
      dsimp only
      split
      · exact h.otaFail r _
      · exact h

theorem otaAbortOwner_ne (s : Server) (r : ℕ) : (s.otaAbortOwner r).otaOwner ≠ some r := by
  rw [otaAbortOwner]
  split
  · next hne => exact hne
  · simp only [otaReleaseRadio]
    split <;> split <;> exact nofun

/-- The hook aborts the upload of the request before its object is freed. -/
theorem Inv.disconnect (h : s.Inv) {req : Request} (hreq : s.requests r = some req) :
    (s.disconnect r req).Inv := by
  rw [Server.disconnect]
  split
  · refine Inv.update ?_ (otaAbortOwner_ne s r) none
    by_cases howner : s.otaOwner = some r
    · obtain ⟨cmd, ho⟩ := h.owned howner
      exact inv_abort h.settled howner ho.held ho.notCompleted
    · rw [otaAbortOwner, if_pos howner]
      exact h
  · next hhook =>
      refine h.update (fun howner => hhook ?_) none
      obtain ⟨cmd, ho⟩ := h.owned howner
      obtain ⟨st, hst, -⟩ := ho.request
      cases hreq.symm.trans hst
      rfl

theorem othersMayMove_ne {m m' : Mutex} (h : othersMayMove m m' = true) :
    m ≠ .ota ∧ m' ≠ .ota := by
  revert h
  cases m <;> cases m' <;> decide

theorem Inv.setRadio (h : s.Inv) {m : Mutex} (hm : othersMayMove s.loraWriteMutex m = true) :
    Inv { s with loraWriteMutex := m } := by
  obtain ⟨hold, hnew⟩ := othersMayMove_ne hm
  have hheld : ¬ s.otaRadioHeld = true := fun hheld => hold (h.settled.radio.mp hheld)
  refine ⟨⟨⟨fun hheld' => absurd hheld' hheld, fun hm' => absurd hm' hnew⟩, h.settled.fsMutex,
    h.settled.clean, h.settled.dirty⟩, ?_⟩
  rcases h.cases with hidle | ⟨r, cmd, ho⟩
  · exact .inl ⟨hidle.owner, hidle.completed, hidle.notCompleted⟩
  · exact absurd ho.held hheld

theorem Inv.setFsMutex (h : s.Inv) {m : Mutex} (hm : othersMayMove s.fsMutex m = true) :
    Inv { s with fsMutex := m } := by
  refine ⟨h.settled.withFsMutex (othersMayMove_ne hm).2, ?_⟩
  rcases h.cases with hidle | ⟨r, cmd, ho⟩
  · exact .inl ⟨hidle.owner, hidle.completed, hidle.notCompleted⟩
  · exact .inr ⟨r, cmd, ho.owner, ho.held, ho.notCompleted, ho.request, ho.flash, ho.spiffs⟩

theorem Inv.setFs (h : s.Inv) (image : FsImage) : Inv { s with fs := image } := by
  refine ⟨⟨h.settled.radio, h.settled.fsMutex, h.settled.clean, h.settled.dirty⟩, ?_⟩
  rcases h.cases with hidle | ⟨r, cmd, ho⟩
  · exact .inl ⟨hidle.owner, hidle.completed, hidle.notCompleted⟩
  · exact .inr ⟨r, cmd, ho.owner, ho.held, ho.notCompleted, ho.request, ho.flash, ho.spiffs⟩

/-- Every event keeps the invariant. -/
theorem Inv.step (h : s.Inv) (event : OtaEvent) : (s.step event).Inv := by
  cases event with
  | accept r cmd =>
      rw [Server.step]
      split
      · next hnone =>
          refine h.update (fun howner => ?_) _
          obtain ⟨cmd', ho⟩ := h.owned howner
          obtain ⟨st, hst, -⟩ := ho.request
          cases hnone.symm.trans hst
      · exact h
  | upload r c x =>
      rw [Server.step]
      split
      · exact h
      · next hreq => exact h.otaUpload hreq c x
  | request r guardOk =>
      rw [Server.step]
      split
      · exact h
      · exact h.otaRequest r _ guardOk
  | disconnect r =>
      rw [Server.step]
      split
      · exact h
      · next hreq => exact h.disconnect hreq
  | setRadio m =>
      rw [Server.step]
      split
      · next hm => exact h.setRadio hm
      · exact h
  | setFsMutex m =>
      rw [Server.step]
      split
      · next hm => exact h.setFsMutex hm
      · exact h
  | setFs image => exact h.setFs image

theorem inv_boot (fs : FsImage) : (boot fs).Inv :=
  ⟨⟨⟨nofun, nofun⟩, nofun, fun _ => List.not_mem_nil, nofun⟩,
    .inl ⟨rfl, nofun, fun _ => ⟨rfl, rfl⟩⟩⟩

theorem inv_run (fs : FsImage) (events : List OtaEvent) : (run fs events).Inv :=
  List.foldlRecOn events _ (inv_boot fs) fun _ h event _ => h.step event

end Server

/-- In every run: an owner holds the radio; with no owner and no upload completed nothing
is held, and the filesystem is offline exactly when its partition is half-written; and the
settings kept then are those read before the first byte was written. -/
theorem ota_leaks_nothing (fs : FsImage) (events : List OtaEvent) :
    let s := Server.run fs events
    (s.otaOwner ≠ none → s.otaRadioHeld = true) ∧
      (s.otaOwner = none → s.completed = false →
        s.loraWriteMutex ≠ .ota ∧ s.fsMutex ≠ .ota ∧ s.fsOffline = s.otaFsDirty) ∧
      (s.otaFsDirty = true → s.completed = false →
        ∃ before image after, s.marks = before ++ .took image :: .wrote :: after ∧
          .wrote ∉ before ∧ s.otaKeep = otaKeepSnapshot image) := by
  have h := Server.inv_run fs events
  refine ⟨fun howner => ?_, fun howner hcompleted => ?_, fun hdirty hcompleted =>
    (h.settled.dirty hdirty hcompleted).1⟩
  · rcases h.cases with hidle | ⟨r, cmd, ho⟩
    · exact absurd hidle.owner howner
    · exact ho.held
  · rcases h.cases with hidle | ⟨r, cmd, ho⟩
    · obtain ⟨hheld, hoffline⟩ := hidle.notCompleted hcompleted
      refine ⟨fun hota => ?_, h.settled.fsMutex, hoffline⟩
      exact absurd ((h.settled.radio.mpr hota).symm.trans hheld) (by decide)
    · exact absurd (howner.symm.trans ho.owner) nofun

end Web

end Voyager
