import Voyager.Web.TxSteps

/-!
# The numbers of the items

An item is known by its number: what a page reports under a number belongs to the one
`202` that was sent with it.
-/

namespace Voyager

namespace Web

namespace System

variable {π : Type} {s t : System π}

/-- A number is given to one answer only, and what a page reports under a number comes
after the `202` with that number. -/
structure Numbered (s : System π) : Prop where
  lt : ∀ page sub id, .accepted page sub id ∈ s.log → sub < s.device.subs
  unique : ∀ page page' sub id id', .accepted page sub id ∈ s.log →
    .accepted page' sub id' ∈ s.log → page = page' ∧ id = id'
  waits : ∀ page id sub, s.Waits page id sub → .accepted page sub id ∈ s.log
  reported : ∀ page sub r, .reported page sub r ∈ s.log → ∃ id, .accepted page sub id ∈ s.log

/-- A step that accepts nothing keeps the numbers. -/
theorem Numbered.of_le (h : s.Numbered) (hsubs : s.device.subs ≤ t.device.subs)
    (hwaits : ∀ page id sub, t.Waits page id sub → s.Waits page id sub)
    (hmono : ∀ e ∈ s.log, e ∈ t.log)
    (hnew : ∀ e ∈ t.log, e ∈ s.log ∨ (∃ sub, e = .acked sub) ∨
      ∃ page id sub r, e = .reported page sub r ∧ s.Waits page id sub) : t.Numbered := by
  have haccepted : ∀ page sub id, .accepted page sub id ∈ t.log → .accepted page sub id ∈ s.log := by
    intro page sub id he
    rcases hnew _ he with he | ⟨sub', heq⟩ | ⟨page', id', sub', r, heq, -⟩
    · exact he
    · cases heq
    · cases heq
  refine { lt := ?_, unique := ?_, waits := ?_, reported := ?_ }
  · intro page sub id he
    exact Nat.lt_of_lt_of_le (h.lt page sub id (haccepted _ _ _ he)) hsubs
  · intro page page' sub id id' he he'
    exact h.unique page page' sub id id' (haccepted _ _ _ he) (haccepted _ _ _ he')
  · intro page id sub hw
    exact hmono _ (h.waits page id sub (hwaits _ _ _ hw))
  · intro page sub r he
    rcases hnew _ he with he | ⟨sub', heq⟩ | ⟨page', id, sub', r', heq, hw⟩
    · obtain ⟨id, hid⟩ := h.reported page sub r he
      exact ⟨id, hmono _ hid⟩
    · cases heq
    · cases heq
      exact ⟨id, hmono _ (h.waits page id sub hw)⟩

theorem Numbered.of_device {device : TxDevice} {w : List (Message π)} {log : List (Entry π)}
    (h : s.Numbered) (hws : ∀ page sub r, .response page sub r ∉ w)
    (hsubs : s.device.subs ≤ device.subs) (hmono : ∀ e ∈ s.log, e ∈ log)
    (hnew : ∀ e ∈ log, e ∈ s.log ∨ ∃ sub, e = .acked sub) :
    ({ s with device, onTheWay := w ++ s.onTheWay, log } : System π).Numbered :=
  h.of_le hsubs (fun page _ sub hw => waits_of_append hw rfl rfl (hws page sub)) hmono
    fun e he => (hnew e he).imp_right .inl

theorem PageStep.numbered (hstep : PageStep s t) (h : s.Numbered) : t.Numbered := by
  refine h.of_le (hstep.device ▸ Nat.le_refl _) hstep.waits hstep.mono fun e he => ?_
  rcases hstep.new e he with he | ⟨page, id, sub, r, heq, hw, -⟩
  · exact .inl he
  · exact .inr (.inr ⟨page, id, sub, r, heq, hw⟩)

/-- The next number is new. -/
theorem numbered_transmit {page : π} {message : List Byte} {heap : Bool} (h : s.Numbered) :
    (s.transmit page message heap).Numbered := by
  unfold transmit
  split
  · rename_i id queued d' hr
    obtain ⟨-, -, -, hsubs, -, -⟩ := TxDevice.enqueueTx_accepted hr
    have hfresh : ∀ page' id', .accepted page' s.device.subs id' ∉ s.log := fun page' id' he =>
      Nat.lt_irrefl _ (h.lt page' s.device.subs id' he)
    refine { lt := ?_, unique := ?_, waits := ?_, reported := ?_ }
    · intro page' sub id' he
      rw [hsubs]
      rcases List.mem_cons.mp he with heq | he
      · cases heq
        exact Nat.lt_succ_self _
      · exact Nat.lt_succ_of_lt (h.lt page' sub id' he)
    · intro page₁ page₂ sub id₁ id₂ he₁ he₂
      rcases List.mem_cons.mp he₁ with heq₁ | he₁ <;> rcases List.mem_cons.mp he₂ with heq₂ | he₂
      · cases heq₁
        cases heq₂
        exact ⟨rfl, rfl⟩
      · cases heq₁
        exact absurd he₂ (hfresh _ _)
      · cases heq₂
        exact absurd he₁ (hfresh _ _)
      · exact h.unique page₁ page₂ sub id₁ id₂ he₁ he₂
    · intro page' id' sub hw
      rcases waits_of_response (s := s) hw rfl rfl with ⟨rfl, rfl, queued', heq⟩ | hw
      · cases heq
        exact List.mem_cons_self
      · exact List.mem_cons_of_mem _ (h.waits page' id' sub hw)
    · intro page' sub r he
      obtain ⟨id', hid⟩ := h.reported page' sub r ((List.mem_cons.mp he).resolve_left nofun)
      exact ⟨id', List.mem_cons_of_mem _ hid⟩
  · rename_i status error d' hr
    obtain ⟨hsubs, -, -⟩ := TxDevice.enqueueTx_refused hr
    refine h.of_le (Nat.le_of_eq hsubs.symm) (fun page' id sub hw => ?_) (fun _ he => he)
      fun _ he => .inl he
    rcases waits_of_response (s := s) hw rfl rfl with ⟨-, -, queued, heq⟩ | hw
    · cases heq
    · exact hw

theorem numbered_start : (start : System π).Numbered where
  lt := nofun
  unique := nofun
  waits _ _ _ hw := absurd hw not_waits_start
  reported := nofun

variable [DecidableEq π]

theorem numbered_step {a : Action π} (h : s.Numbered) (hstep : s.step a = some t) : t.Numbered := by
  cases a with
  | transmit page message heap =>
      cases hstep
      exact numbered_transmit h
  | sendOwn type message =>
      obtain ⟨device, hqueue, rfl⟩ := Option.map_eq_some_iff.mp hstep
      obtain ⟨-, hsubs, -, -⟩ := TxDevice.queue_spec hqueue
      exact h.of_device (w := []) nofun (hsubs ▸ Nat.le_succ _) (fun _ he => he) fun _ he => .inl he
  | txTake expectedMs clients =>
      unfold step at hstep
      dsimp only at hstep
      split at hstep
      · cases hstep
        refine h.of_device (fun page sub r hm => ?_) (Nat.le_refl _) (fun _ he => he)
          fun _ he => .inl he
        obtain ⟨page', msg, heq⟩ := mem_sendTxStarted hm
        cases heq
      · cases hstep
  | txBegin seq sent =>
      unfold step at hstep
      dsimp only at hstep
      split at hstep
      · cases hstep
        exact h.of_device (w := []) nofun (Nat.le_refl _) (fun _ he => he) fun _ he => .inl he
      · cases hstep
  | txTimeout =>
      unfold step at hstep
      dsimp only at hstep
      split at hstep
      · cases hstep
        exact h.of_device (w := []) nofun (Nat.le_refl _) (fun _ he => he) fun _ he => .inl he
      · cases hstep
  | txAck seq value =>
      unfold step at hstep
      dsimp only at hstep
      split at hstep
      · rename_i item t htx
        cases hstep
        refine h.of_device (w := []) nofun (Nat.le_refl _) (fun e he => ?_) fun e he => ?_
        · split
          · exact List.mem_cons_of_mem _ he
          · exact he
        · split at he
          · exact (List.mem_cons.mp he).symm.imp_right fun heq => ⟨item.sub, heq⟩
          · exact .inl he
      · cases hstep
  | txResult username clients =>
      unfold step at hstep
      dsimp only at hstep
      split at hstep
      · cases hstep
        exact h.of_device (fun page sub r => response_notMem) (Nat.le_refl _) (fun _ he => he)
          fun _ he => .inl he
      · cases hstep
  | reboot =>
      cases hstep
      exact h.of_device (w := []) nofun (Nat.le_refl _) (fun _ he => he) fun _ he => .inl he
  | deliver m =>
      unfold step at hstep
      dsimp only at hstep
      split at hstep
      · rename_i hm
        cases hstep
        exact (pageStep_receive hm).numbered h
      · cases hstep
  | lose m =>
      unfold step at hstep
      dsimp only at hstep
      split at hstep
      · cases hstep
        exact (pageStep_forget fun _ => List.mem_of_mem_erase).numbered h
      · cases hstep
  | timer page id =>
      cases hstep
      exact (pageStep_timer page id).numbered h

/-- In every run a number stands for one answer, and a report under it goes to the page
that got this answer. -/
theorem numbered_run {as : List (Action π)} (hrun : Transition.exec step start as = some s) :
    s.Numbered :=
  Transition.exec_invariant (fun _ _ _ h hstep => numbered_step h hstep) numbered_start hrun

end System

end Web

end Voyager
