import Mathlib.Data.List.Chain
import Voyager.Kermit.Frames
import Voyager.Library.Transition

/-!
# The serial port as LoRa frames

With the bridge on, `serial_to_lora` collects the bytes of the serial port in a message,
which it sends at a carriage return, at `LORA_MAX_PAYLOAD` bytes, or when the line was quiet
for `SERIAL_FRAME_IDLE_MS`. A pass of its loops looks at the port and at the clock at one
instant. Instants are in milliseconds since the start; the clock has 32 bits.

A Kermit packet has its only carriage return at its end and is never too long, so the bytes
of packets, if they come fast enough, are cut where the packets end.
-/

namespace Voyager

open Kermit
open LoraProto (LORA_MAX_PAYLOAD)

namespace SerialBridge

def SERIAL_FRAME_IDLE_MS : ℕ := 10

def millis (t : ℕ) : UInt32 := UInt32.ofNat t

/-- The state of the loops. `line` are the bytes that were not read yet, each with the instant
at which it arrives; `current` is the message that is being collected, with `last`. -/
structure Bridge where
  now : ℕ
  line : List (ℕ × Byte)
  current : Option (List Byte × UInt32)
  sent : List (List Byte)
  deriving DecidableEq, Repr

namespace Bridge

/-- These bytes will arrive. -/
def start (arrivals : List (ℕ × Byte)) : Bridge where
  now := 0
  line := arrivals
  current := none
  sent := []

/-- `active_serial_available() > 0` at the instant `t`. -/
def available (s : Bridge) (t : ℕ) : Bool := s.line.head?.any fun a => a.1 ≤ t

/-- The message goes to the queue. -/
def send (s : Bridge) (message : List Byte) : Bridge :=
  { s with current := none, sent := s.sent ++ [message] }

/-- The inner loop, with the message and the instant of its last byte. -/
def collect (s : Bridge) (t : ℕ) (message : List Byte) (last : UInt32) : Bridge :=
  if s.available t then
    match s.line with
    | [] => s
    | (_, c) :: rest =>
        let message := message ++ [c]
        let s := { s with line := rest }
        if c = 0x0d ∨ message.length ≥ LORA_MAX_PAYLOAD then s.send message
        else { s with current := some (message, millis t) }
  else if (millis t - last).toNat ≥ SERIAL_FRAME_IDLE_MS then s.send message
  else s

/-- One pass. -/
def pass (s : Bridge) (t : ℕ) : Bridge :=
  match s.current with
  | none => if s.available t then { s with current := some ([], millis t) } else s
  | some (message, last) => s.collect t message last

/-- The next pass is not before the last one. -/
def step (s : Bridge) (t : ℕ) : Option Bridge :=
  if t < s.now then none else some { s.pass t with now := t }

/-- The bytes of the message that is being collected. -/
def message (s : Bridge) : List Byte := (s.current.map Prod.fst).getD []

end Bridge

/-- The bytes that arrive. -/
def bytesOf (arrivals : List (ℕ × Byte)) : List Byte := arrivals.map Prod.snd

/-- No byte comes `SERIAL_FRAME_IDLE_MS` or more after the one before. -/
def Dense (arrivals : List (ℕ × Byte)) : Prop :=
  arrivals.IsChain fun a b => b.1 < a.1 + SERIAL_FRAME_IDLE_MS

/-- Passes when everything has arrived, and more than twice as many as there are bytes. -/
def Drains (arrivals : List (ℕ × Byte)) (passes : List ℕ) : Prop :=
  2 * arrivals.length < passes.length ∧ ∀ a ∈ arrivals, ∀ t ∈ passes, a.1 ≤ t

/-! ## One pass -/

/-- What a pass does: it begins a message, reads a byte and sends the message or goes on with
it, sends the message after a silence, or does nothing. -/
inductive Passed (s : Bridge) (t : ℕ) : Bridge → Prop
  | begins {a rest} (hcurrent : s.current = none) (hline : s.line = a :: rest) (ha : a.1 ≤ t) :
      Passed s t { s with now := t, current := some ([], millis t) }
  | ends {m last a rest} (hcurrent : s.current = some (m, last)) (hline : s.line = a :: rest)
      (hend : a.2 = 0x0d ∨ (m ++ [a.2]).length ≥ LORA_MAX_PAYLOAD) :
      Passed s t { now := t, line := rest, current := none, sent := s.sent ++ [m ++ [a.2]] }
  | reads {m last a rest} (hcurrent : s.current = some (m, last)) (hline : s.line = a :: rest)
      (ha : a.1 ≤ t) (hgo : ¬ (a.2 = 0x0d ∨ (m ++ [a.2]).length ≥ LORA_MAX_PAYLOAD)) :
      Passed s t { now := t, line := rest, current := some (m ++ [a.2], millis t), sent := s.sent }
  | silent {m last} (hcurrent : s.current = some (m, last)) (hline : ∀ a ∈ s.line.head?, t < a.1)
      (hidle : (millis t - last).toNat ≥ SERIAL_FRAME_IDLE_MS) :
      Passed s t { s with now := t, current := none, sent := s.sent ++ [m] }
  | waits (hline : ∀ a ∈ s.line.head?, t < a.1)
      (hidle : ∀ m last, s.current = some (m, last) →
        (millis t - last).toNat < SERIAL_FRAME_IDLE_MS) :
      Passed s t { s with now := t }

variable {s s' : Bridge} {t : ℕ} {arrivals : List (ℕ × Byte)} {m : List Byte} {last : UInt32}

theorem available_eq_true (h : s.available t = true) : ∃ a rest, s.line = a :: rest ∧ a.1 ≤ t := by
  rw [Bridge.available] at h
  cases hline : s.line with
  | nil => simp [hline] at h
  | cons a rest => exact ⟨a, rest, rfl, by simpa [hline] using h⟩

theorem available_eq_false (h : s.available t = false) : ∀ a ∈ s.line.head?, t < a.1 := by
  intro a ha
  rw [Bridge.available, Option.mem_def.mp ha, Option.any_some, decide_eq_false_iff_not] at h
  exact Nat.lt_of_not_le h

theorem pass_of_none (h : s.current = none) (t : ℕ) :
    s.pass t = if s.available t then { s with current := some ([], millis t) } else s := by
  rw [Bridge.pass, h]

theorem pass_of_some (h : s.current = some (m, last)) (t : ℕ) :
    s.pass t = s.collect t m last := by
  rw [Bridge.pass, h]

theorem passed_of_step (h : s.step t = some s') : s.now ≤ t ∧ Passed s t s' := by
  rw [Bridge.step] at h
  split at h
  · cases h
  · next hnow =>
      refine ⟨Nat.le_of_not_lt hnow, ?_⟩
      cases h
      cases havail : s.available t with
      | true =>
          obtain ⟨a, rest, hline, ha⟩ := available_eq_true havail
          cases hcurrent : s.current with
          | none =>
              rw [pass_of_none hcurrent, if_pos havail]
              exact .begins hcurrent hline ha
          | some c =>
              rw [pass_of_some hcurrent, Bridge.collect, if_pos havail, hline]
              dsimp only
              split
              · next hend => exact .ends hcurrent hline hend
              · next hgo => exact .reads hcurrent hline ha hgo
      | false =>
          have hline := available_eq_false havail
          have hnot : ¬ s.available t = true := by
            rw [havail]
            exact Bool.false_ne_true
          cases hcurrent : s.current with
          | none =>
              rw [pass_of_none hcurrent, if_neg hnot]
              exact .waits hline fun m last hc => by
                rw [hcurrent] at hc
                cases hc
          | some c =>
              rw [pass_of_some hcurrent, Bridge.collect, if_neg hnot]
              split
              · next hidle => exact .silent hcurrent hline hidle
              · next hidle =>
                  refine .waits hline fun m last hc => ?_
                  rw [hcurrent] at hc
                  cases hc
                  exact Nat.lt_of_not_le hidle

/-! ## Nothing is lost -/

/-- The messages, the one that is being collected and the bytes to come are the input. -/
structure Keeps (input : List Byte) (s : Bridge) : Prop where
  bytes : s.sent.flatten ++ s.message ++ bytesOf s.line = input
  sent_le : ∀ m ∈ s.sent, m.length ≤ LORA_MAX_PAYLOAD
  message_lt : s.message.length < LORA_MAX_PAYLOAD

variable {input : List Byte}

theorem message_eq (h : s.current = some (m, last)) : s.message = m := by
  rw [Bridge.message, h]
  rfl

theorem message_nil (h : s.current = none) : s.message = [] := by
  rw [Bridge.message, h]
  rfl

theorem nil_lt_payload : ([] : List Byte).length < LORA_MAX_PAYLOAD := by decide

theorem Keeps.step (h : Keeps input s) (hstep : s.step t = some s') : Keeps input s' := by
  have hbytes := h.bytes
  have hlt := h.message_lt
  cases (passed_of_step hstep).2 with
  | begins hcurrent hline ha =>
      rw [message_nil hcurrent] at hbytes
      exact ⟨hbytes, h.sent_le, nil_lt_payload⟩
  | @ends m last a rest hcurrent hline hend =>
      rw [message_eq hcurrent] at hbytes hlt
      rw [hline] at hbytes
      refine ⟨?_, ?_, nil_lt_payload⟩
      · rw [← hbytes]
        simp [Bridge.message, bytesOf]
      · intro m' hm'
        rcases List.mem_append.mp hm' with hm' | hm'
        · exact h.sent_le m' hm'
        · rw [List.mem_singleton.mp hm', List.length_append, List.length_singleton]
          exact hlt
  | @reads m last a rest hcurrent hline ha hgo =>
      rw [message_eq hcurrent] at hbytes
      rw [hline] at hbytes
      refine ⟨?_, h.sent_le, ?_⟩
      · rw [← hbytes]
        simp [Bridge.message, bytesOf]
      · exact Nat.lt_of_not_le fun hle => hgo (.inr hle)
  | @silent m last hcurrent hline hidle =>
      rw [message_eq hcurrent] at hbytes hlt
      refine ⟨?_, ?_, nil_lt_payload⟩
      · rw [← hbytes]
        simp [Bridge.message]
      · intro m' hm'
        rcases List.mem_append.mp hm' with hm' | hm'
        · exact h.sent_le m' hm'
        · rw [List.mem_singleton.mp hm']
          exact Nat.le_of_lt hlt
  | waits hline hidle => exact ⟨h.bytes, h.sent_le, h.message_lt⟩

theorem keeps_run {passes : List ℕ}
    (h : Transition.exec Bridge.step (.start arrivals) passes = some s) :
    Keeps (bytesOf arrivals) s := by
  have hstart : Keeps (bytesOf arrivals) (.start arrivals) :=
    ⟨rfl, fun _ hm => absurd hm List.not_mem_nil, nil_lt_payload⟩
  exact Transition.exec_invariant (fun _ _ _ h hstep => h.step hstep) hstart h

/-! ## A packet is one message -/

/-- The only carriage return of a packet is its last byte, and no message is full before. -/
theorem framed_cut {xs ys : List Byte} {c : Byte} (h : Framed (xs ++ c :: ys)) :
    (c = 0x0d ↔ ys = []) ∧ (ys ≠ [] → (xs ++ [c]).length < LORA_MAX_PAYLOAD) := by
  obtain ⟨inside, hbytes, hclean, hlen⟩ := h
  rcases List.eq_nil_or_concat ys with hys | ⟨zs, z, hys⟩
  · rw [hys, ← List.cons_append] at hbytes
    obtain ⟨-, hc⟩ := List.append_inj' hbytes rfl
    rw [hys]
    exact ⟨iff_of_true (List.singleton_inj.mp hc) rfl, fun h => absurd rfl h⟩
  · have hne : ys ≠ [] := by simp [hys]
    have hmem : c ∈ MARK :: inside := by
      rw [hys, List.concat_eq_append, ← List.cons_append, ← List.append_assoc,
        ← List.cons_append] at hbytes
      obtain ⟨hfront, -⟩ := List.append_inj' hbytes rfl
      rw [← hfront]
      simp
    have hc : c ≠ 0x0d := by
      intro hc
      rw [hc] at hmem
      rcases List.mem_cons.mp hmem with hmark | hin
      · exact absurd hmark (by decide)
      · exact absurd (hclean _ hin) (by decide)
    refine ⟨iff_of_false hc hne, fun _ => ?_⟩
    have hpos := List.length_pos_iff.mpr hne
    rw [List.length_append, List.length_cons, LoraProto.MAX_PAYLOAD] at hlen
    rw [List.length_append, List.length_singleton, LORA_MAX_PAYLOAD]
    omega

theorem framed_ne_nil {bytes : List Byte} (h : Framed bytes) : bytes ≠ [] := by
  obtain ⟨inside, hbytes, -⟩ := h
  rw [hbytes]
  exact List.cons_ne_nil _ _

/-- A packet with the instants of its bytes. -/
structure Arrives (packet : List (ℕ × Byte)) : Prop where
  framed : Framed (bytesOf packet)
  dense : Dense packet

/-- Where the loops are in the packets. Inside of a packet the next byte arrives before the
silence that would end the message. -/
inductive Cuts (packets : List (List (ℕ × Byte))) (s : Bridge) : Prop
  | between (done rest : List (List (ℕ × Byte))) (hpackets : packets = done ++ rest)
      (hsent : s.sent = done.map bytesOf) (hcurrent : s.current = none)
      (hline : s.line = rest.flatten)
  | inside (done tail : List (List (ℕ × Byte))) (front back : List (ℕ × Byte)) (b : ℕ × Byte)
      (t₀ : ℕ) (hpackets : packets = done ++ (front ++ b :: back) :: tail)
      (hsent : s.sent = done.map bytesOf) (hcurrent : s.current = some (bytesOf front, millis t₀))
      (hline : s.line = b :: (back ++ tail.flatten)) (hnow : t₀ ≤ s.now)
      (hnext : b.1 < t₀ + SERIAL_FRAME_IDLE_MS)

variable {packets : List (List (ℕ × Byte))}

theorem millis_sub_le {t₀ t : ℕ} (h : t₀ ≤ t) : (millis t - millis t₀).toNat ≤ t - t₀ := by
  rw [UInt32.toNat_sub, millis, millis, UInt32.toNat_ofNat', UInt32.toNat_ofNat']
  omega

theorem Cuts.step (hall : ∀ p ∈ packets, Arrives p) (h : Cuts packets s)
    (hstep : s.step t = some s') : Cuts packets s' := by
  obtain ⟨hnow', hpass⟩ := passed_of_step hstep
  cases h with
  | between done rest hpackets hsent hcurrent hline =>
      cases hpass with
      | @begins a rest' _ hline' ha =>
          cases rest with
          | nil =>
              rw [hline, List.flatten_nil] at hline'
              cases hline'
          | cons p tail =>
              have hp : Arrives p := hall p (by rw [hpackets]; simp)
              cases p with
              | nil => exact absurd rfl (framed_ne_nil hp.framed)
              | cons b back =>
                  rw [hline, List.flatten_cons, List.cons_append] at hline'
                  obtain ⟨hb, -⟩ := List.cons.inj hline'
                  refine .inside done tail [] back b t hpackets hsent rfl hline le_rfl ?_
                  rw [hb, SERIAL_FRAME_IDLE_MS]
                  omega
      | ends hcurrent' => simp [hcurrent] at hcurrent'
      | reads hcurrent' => simp [hcurrent] at hcurrent'
      | silent hcurrent' => simp [hcurrent] at hcurrent'
      | waits => exact .between done rest hpackets hsent hcurrent hline
  | inside done tail front back b t₀ hpackets hsent hcurrent hline hnow hnext =>
      have hp : Arrives (front ++ b :: back) := hall _ (by rw [hpackets]; simp)
      have hcut := hp.framed
      rw [bytesOf, List.map_append, List.map_cons] at hcut
      obtain ⟨hcr, hfull⟩ := framed_cut hcut
      cases hpass with
      | begins hcurrent' => simp [hcurrent] at hcurrent'
      | @ends m last a rest' hcurrent' hline' hend =>
          rw [hcurrent] at hcurrent'
          rw [hline] at hline'
          cases hcurrent'
          cases hline'
          -- The message ends here, so the packet does.
          have hback : back = [] := by
            by_contra hne
            have hne' : back.map Prod.snd ≠ [] := by rwa [Ne, List.map_eq_nil_iff]
            rcases hend with hend | hend
            · exact hne' (hcr.mp hend)
            · exact absurd (hfull hne') (Nat.not_lt_of_le hend)
          refine .between (done ++ [front ++ [b]]) tail ?_ ?_ rfl ?_
          · rw [hpackets, hback, List.append_assoc, List.singleton_append]
          · rw [hsent, List.map_append]
            simp [bytesOf]
          · rw [hback, List.nil_append]
      | @reads m last a rest' hcurrent' hline' ha hgo =>
          rw [hcurrent] at hcurrent'
          rw [hline] at hline'
          cases hcurrent'
          cases hline'
          cases back with
          | nil => exact absurd (.inl (hcr.mpr rfl)) hgo
          | cons c back =>
              have hgap : c.1 < b.1 + SERIAL_FRAME_IDLE_MS :=
                (List.isChain_append_cons_cons.mp hp.dense).2.1
              refine .inside done tail (front ++ [b]) back c t ?_ hsent ?_ rfl le_rfl
                (hgap.trans_le (Nat.add_le_add_right ha _))
              · rw [hpackets, List.append_assoc, List.singleton_append]
              · simp [bytesOf]
      | @silent m last hcurrent' hline' hidle =>
          rw [hcurrent] at hcurrent'
          cases hcurrent'
          -- The next byte would have been there.
          have hlate := hline' b (by rw [hline]; rfl)
          have hgap := millis_sub_le (hnow.trans hnow')
          rw [SERIAL_FRAME_IDLE_MS] at hnext hidle
          omega
      | waits =>
          exact .inside done tail front back b t₀ hpackets hsent hcurrent hline
            (hnow.trans hnow') hnext

theorem cuts_run (hall : ∀ p ∈ packets, Arrives p) {passes : List ℕ}
    (h : Transition.exec Bridge.step (.start packets.flatten) passes = some s) :
    Cuts packets s :=
  Transition.exec_invariant (fun _ _ _ h hstep => h.step hall hstep)
    (.between [] packets rfl rfl rfl rfl) h

theorem Cuts.sent_prefix (h : Cuts packets s) : s.sent <+: packets.map bytesOf := by
  cases h with
  | between done rest hpackets hsent =>
      rw [hpackets, hsent, List.map_append]
      exact List.prefix_append _ _
  | inside done tail front back b t₀ hpackets hsent =>
      rw [hpackets, hsent, List.map_append]
      exact List.prefix_append _ _

/-- With nothing left to read every packet was sent. -/
theorem Cuts.sent_eq (hall : ∀ p ∈ packets, Arrives p) (h : Cuts packets s)
    (hempty : s.line = []) : s.sent = packets.map bytesOf ∧ s.current = none := by
  cases h with
  | between done rest hpackets hsent hcurrent hline =>
      refine ⟨?_, hcurrent⟩
      cases rest with
      | nil => rw [hpackets, hsent, List.append_nil]
      | cons p tail =>
          have hp : Arrives p := hall p (by rw [hpackets]; simp)
          have hnil : p = [] := by
            rw [hempty, List.flatten_cons] at hline
            exact (List.append_eq_nil_iff.mp hline.symm).1
          rw [hnil] at hp
          exact absurd rfl (framed_ne_nil hp.framed)
  | inside done tail front back b t₀ hpackets hsent hcurrent hline =>
      rw [hempty] at hline
      cases hline

/-! ## Everything is sent -/

/-- The passes that are needed at most to read the rest of the line. -/
def work (s : Bridge) : ℕ := 2 * s.line.length + if s.current = none then 1 else 0

theorem Passed.line_suffix (h : Passed s t s') : s'.line <:+ s.line := by
  cases h with
  | begins => exact List.suffix_rfl
  | ends _ hline =>
      rw [hline]
      exact List.suffix_cons _ _
  | reads _ hline =>
      rw [hline]
      exact List.suffix_cons _ _
  | silent => exact List.suffix_rfl
  | waits => exact List.suffix_rfl

theorem Passed.work_lt (h : Passed s t s') (hall : ∀ a ∈ s.line, a.1 ≤ t) (hne : s.line ≠ []) :
    work s' < work s := by
  have hread : ¬ ∀ a ∈ s.line.head?, t < a.1 := by
    intro hlate
    cases hline : s.line with
    | nil => exact hne hline
    | cons a rest =>
        have harrived := hall a (by rw [hline]; exact List.mem_cons_self)
        have := hlate a (by rw [hline]; rfl)
        omega
  cases h with
  | begins hcurrent => simp [work, hcurrent]
  | ends hcurrent hline =>
      simp [work, hcurrent, hline]
      omega
  | reads hcurrent hline => simp [work, hcurrent, hline]
  | silent _ hlate => exact absurd hlate hread
  | waits hlate => exact absurd hlate hread

theorem line_suffix_run {passes : List ℕ} (h : Transition.exec Bridge.step s passes = some s') :
    s'.line <:+ s.line := by
  have hstep : ∀ u t v, u.line <:+ s.line → Bridge.step u t = some v → v.line <:+ s.line :=
    fun u t v hu hstep => (passed_of_step hstep).2.line_suffix.trans hu
  exact Transition.exec_invariant hstep List.suffix_rfl h

theorem work_run {passes : List ℕ} (hall : ∀ a ∈ s.line, ∀ t ∈ passes, a.1 ≤ t)
    (h : Transition.exec Bridge.step s passes = some s') :
    s'.line = [] ∨ work s' + passes.length ≤ work s := by
  induction passes generalizing s with
  | nil =>
      cases h
      exact .inr le_rfl
  | cons t passes ih =>
      obtain ⟨u, hu, hrest⟩ := Transition.exec_cons_eq_some_iff.mp h
      have hpass := (passed_of_step hu).2
      by_cases hempty : s.line = []
      · have hsuffix := line_suffix_run h
        rw [hempty] at hsuffix
        exact .inl (List.suffix_nil.mp hsuffix)
      · have hlt := hpass.work_lt (fun a ha => hall a ha t List.mem_cons_self) hempty
        have hu' : ∀ a ∈ u.line, ∀ t ∈ passes, a.1 ≤ t := fun a ha t ht =>
          hall a (hpass.line_suffix.mem ha) t (List.mem_cons_of_mem _ ht)
        refine (ih hu' hrest).imp_right fun hle => ?_
        rw [List.length_cons]
        omega

theorem Drains.line_nil {passes later : List ℕ} (hdrains : Drains arrivals later)
    (h : Transition.exec Bridge.step (.start arrivals) (passes ++ later) = some s) :
    s.line = [] := by
  rw [Transition.exec_append, Option.bind_eq_some_iff] at h
  obtain ⟨u, hu, hlater⟩ := h
  have hsuffix : u.line <:+ arrivals := line_suffix_run hu
  have hwork : work u ≤ 2 * arrivals.length + 1 := by
    have hlen := hsuffix.length_le
    rw [work]
    split <;> omega
  rcases work_run (fun a ha => hdrains.2 a (hsuffix.mem ha)) hlater with hnil | hle
  · exact hnil
  · have hlong := hdrains.1
    have hdone : 2 * s.line.length ≤ work s := Nat.le_add_right _ _
    exact List.length_eq_zero_iff.mp (by omega)

/-- The instant `t` is in the silence after these passes. -/
def Silence (passes : List ℕ) (t : ℕ) : Prop :=
  ∀ u ∈ passes, u + SERIAL_FRAME_IDLE_MS ≤ t ∧ t < u + 2 ^ 32

/-- `last` is the clock of one of these passes. -/
def Stamped (passes : List ℕ) (s : Bridge) : Prop :=
  ∀ m last, s.current = some (m, last) → ∃ u ∈ passes, last = millis u

theorem Stamped.step {passes : List ℕ} (h : Stamped passes s) (ht : t ∈ passes)
    (hstep : s.step t = some s') : Stamped passes s' := by
  intro m last hcurrent
  cases (passed_of_step hstep).2 with
  | begins =>
      cases hcurrent
      exact ⟨t, ht, rfl⟩
  | ends => cases hcurrent
  | reads =>
      cases hcurrent
      exact ⟨t, ht, rfl⟩
  | silent => cases hcurrent
  | waits => exact h m last hcurrent

theorem stamped_run {passes : List ℕ}
    (h : Transition.exec Bridge.step (.start arrivals) passes = some s) : Stamped passes s := by
  have hall : Transition.Meets Bridge.step (fun _ t => t ∈ passes) (.start arrivals) passes :=
    Transition.meets_of_forall fun t ht _ => ht
  have hstart : Stamped passes (.start arrivals) := fun m last h => by cases h
  exact Transition.exec_invariant_of_meets (fun _ _ _ h ht hstep => h.step ht hstep) hstart hall h

theorem flushed {passes : List ℕ} (hsilence : Silence passes t)
    (hrun : Transition.exec Bridge.step (.start arrivals) passes = some s) (hempty : s.line = [])
    (hstep : s.step t = some s') : s'.line = [] ∧ s'.current = none := by
  cases (passed_of_step hstep).2 with
  | begins _ hline => simp [hempty] at hline
  | ends _ hline => simp [hempty] at hline
  | reads _ hline => simp [hempty] at hline
  | silent => exact ⟨hempty, rfl⟩
  | waits _ hidle =>
      refine ⟨hempty, ?_⟩
      cases hcurrent : s.current with
      | none => rfl
      | some c =>
          obtain ⟨u, hu, hlast⟩ := stamped_run hrun c.1 c.2 hcurrent
          have hgap := hidle c.1 c.2 hcurrent
          obtain ⟨hidle, hwrap⟩ := hsilence u hu
          rw [hlast, UInt32.toNat_sub, millis, millis, UInt32.toNat_ofNat', UInt32.toNat_ofNat']
            at hgap
          rw [SERIAL_FRAME_IDLE_MS] at hidle hgap
          omega

theorem Keeps.sent_flatten (h : Keeps input s) (hline : s.line = []) (hcurrent : s.current = none) :
    s.sent.flatten = input := by
  have hbytes := h.bytes
  rw [message_nil hcurrent, hline] at hbytes
  simpa [bytesOf] using hbytes

/-- Every packet that is written is framed, packets are cut into one message each, and the
messages are the input whatever it is. -/
theorem one_packet_one_frame :
    (∀ o calls bytes, .write bytes ∈ Sender.effects o calls → Framed bytes) ∧
      (∀ timeoutMs calls bytes, .write bytes ∈ Receiver.effects timeoutMs calls →
        Framed bytes) ∧
      (∀ packets : List (List (ℕ × Byte)), (∀ p ∈ packets, Arrives p) → ∀ passes later s,
        Transition.exec Bridge.step (.start packets.flatten) (passes ++ later) = some s →
          s.sent <+: packets.map bytesOf ∧
            (Drains packets.flatten later →
              s.sent = packets.map bytesOf ∧ s.current = none)) ∧
      ∀ arrivals passes s, Transition.exec Bridge.step (.start arrivals) passes = some s →
        Keeps (bytesOf arrivals) s ∧
          ∀ early later t, passes = early ++ later ++ [t] → Drains arrivals later →
            Silence (early ++ later) t → s.sent.flatten = bytesOf arrivals := by
  refine ⟨?_, ?_, ?_, ?_⟩
  · intro o calls bytes hmem
    exact Sender.effects_framed calls _ hmem bytes rfl
  · intro timeoutMs calls bytes hmem
    exact Receiver.effects_framed calls _ hmem bytes rfl
  · intro packets hall passes later s h
    have hcuts := cuts_run hall h
    exact ⟨hcuts.sent_prefix, fun hdrains => hcuts.sent_eq hall (hdrains.line_nil h)⟩
  · intro arrivals passes s h
    have hkeeps := keeps_run h
    refine ⟨hkeeps, fun early later t hpasses hdrains hsilence => ?_⟩
    rw [hpasses, Transition.exec_append, Option.bind_eq_some_iff] at h
    obtain ⟨u, hu, hlast⟩ := h
    obtain ⟨v, hv, hnil⟩ := Transition.exec_cons_eq_some_iff.mp hlast
    cases hnil
    obtain ⟨hline, hcurrent⟩ := flushed hsilence hu (hdrains.line_nil hu) hv
    exact hkeeps.sent_flatten hline hcurrent

example : (Transition.exec Bridge.step (.start [(0, 1), (9, 13), (40, 1), (41, 13)])
    [0, 1, 9, 20, 40, 40, 45]).map Bridge.sent = some [[1, 13], [1, 13]] := by decide

end SerialBridge

end Voyager
