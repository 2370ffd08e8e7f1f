import Mathlib.Algebra.Ring.Nat
import Mathlib.Tactic.IntervalCases
import Voyager.Lora.Channel

/-!
# How long a transmission takes

`tx_started` tells the page the worst time until the result. The sender spends time on the
air, waiting for the acknowledgement, in the pause before a retry, and before each
transmission while it hears others on the channel. All times are in milliseconds, and time
spent on the radio's mutex is left out.
-/

namespace Voyager

namespace LoraProto

def TX_ATTEMPTS : UInt32 := 4
def TX_RETRY_GAP_MS : UInt32 := 10
def ACK_FRAME_LEN : ℕ := HEADER_LEN + 1
def BACKOFF_BASE_MS : UInt32 := 1000
def LORA_ACK_TIMEOUT_MS : UInt32 := 5000
def LBT_TRIES : ℕ := 12

/-- `airtime_ms`, in exact arithmetic where the source has doubles. -/
def airtimeMs (sf bwHz cr4 payloadLen : ℕ) : ℕ :=
  if sf < 6 ∨ sf > 12 ∨ bwHz = 0 ∨ cr4 < 5 ∨ cr4 > 8 then 0
  else
    let de := if 2 ^ sf * 1000 > 16 * bwHz then 1 else 0
    let num := 8 * payloadLen + 28 + 16 - 4 * sf
    let den := 4 * (sf - 2 * de)
    let n := (num + den - 1) / den
    (81 + 4 * (n * cr4)) * (2 ^ sf * 1000) / (4 * bwHz) + 1

def retryBackoffMaxMs (dataAirtimeMs ackAirtimeMs : UInt32) : UInt32 :=
  BACKOFF_BASE_MS + 4 * (dataAirtimeMs + ackAirtimeMs)

/-- `rnd` is any 32-bit random value. -/
def retryBackoffMs (rnd maxMs : UInt32) : UInt32 :=
  TX_RETRY_GAP_MS + if maxMs ≠ 0 then rnd % maxMs else 0

/-- `tx_expected_ms` under a config whose airtimes are `ms`. -/
def txExpectedMs (ms : ℕ → UInt32) (frameLen : ℕ) (ackTimeoutMs : UInt32) : UInt32 :=
  if frameLen > MAX_FRAME then 0
  else if ms frameLen = 0 ∨ ms ACK_FRAME_LEN = 0 then 0
  else
    TX_ATTEMPTS * (ms frameLen + ackTimeoutMs + ms ACK_FRAME_LEN) +
      MAX_RETRIES.toUInt32 * (TX_RETRY_GAP_MS + retryBackoffMaxMs (ms frameLen) (ms ACK_FRAME_LEN))

/-- No frame is on the air for longer than this, with any config that the device accepts. -/
def AIRTIME_LIMIT : ℕ := 300000

theorem airtimeMs_lt (sf cr4 : ℕ) {bwHz payloadLen : ℕ} (hbw : 7800 ≤ bwHz)
    (hlen : payloadLen ≤ MAX_FRAME) : airtimeMs sf bwHz cr4 payloadLen < AIRTIME_LIMIT := by
  have hlen : payloadLen ≤ 255 := hlen
  unfold airtimeMs AIRTIME_LIMIT
  split
  · decide
  · rename_i h
    have hsf : 6 ≤ sf ∧ sf ≤ 12 := by omega
    have hcr : cr4 ≤ 8 := by omega
    dsimp only
    set de := if 2 ^ sf * 1000 > 16 * bwHz then 1 else 0 with hde
    have hde : de ≤ 1 := by
      rw [hde]
      split <;> decide
    set n := (8 * payloadLen + 28 + 16 - 4 * sf + 4 * (sf - 2 * de) - 1) / (4 * (sf - 2 * de)) with hn
    -- the slowest frames: few bits a symbol, or slow symbols
    have hproduct : (81 + 4 * (n * cr4)) * (2 ^ sf * 1000) ≤ 7100000000 := by
      have hbits : n * cr4 ≤ n * 8 := Nat.mul_le_mul_left n hcr
      obtain ⟨hlo, hhi⟩ := hsf
      interval_cases sf <;> interval_cases de <;> omega
    have hle : (81 + 4 * (n * cr4)) * (2 ^ sf * 1000) / (4 * bwHz) ≤ 7100000000 / (4 * 7800) :=
      Nat.div_le_div hproduct (by omega) (by decide)
    omega

/-- The airtimes of frames under one config, as the code computes them. -/
structure Airtime where
  ms : ℕ → UInt32
  ms_lt : ∀ n ≤ MAX_FRAME, (ms n).toNat < AIRTIME_LIMIT

/-! ## The sender -/

/-- What the rest of the world does during one call of `send_with_retry`, by the number of
the attempt: whether the mutex can be taken before each check of the channel, the random
value after it, whether `beginPacket` succeeds, the values that come into `ack_queue` and
how long each is waited for, and the random value for the pause. -/
structure Outcomes where
  seq : Byte
  mutex : ℕ → ℕ → Bool
  lbtRnd : ℕ → ℕ → UInt32
  beginPacket : ℕ → Bool
  acks : ℕ → List (ℕ × UInt16)
  backoffRnd : ℕ → UInt32

/-- `take_radio_clear_channel` from its try `i` on: whether the mutex is taken, and the time
spent in delays. `busy i` is what the check of the channel says in that try. -/
def takeRadioClearChannel (lbt : Bool) (mutex busy : ℕ → Bool) (rnd : ℕ → UInt32) (i : ℕ) :
    Bool × ℕ :=
  if ¬ mutex i then (false, 0)
  else if ¬ lbt ∨ LBT_TRIES ≤ i then (true, 0)
  else if ¬ busy i then (true, 0)
  else
    let r := takeRadioClearChannel lbt mutex busy rnd (i + 1)
    (r.1, (20 + rnd i % 100).toNat + r.2)
termination_by LBT_TRIES - i

/-- `lora_tx_frame`: whether the frame was sent, and the time spent. -/
def loraTxFrame (air : Airtime) (frame : List Byte) (lbt : Bool) (mutex busy : ℕ → Bool)
    (rnd : ℕ → UInt32) (beginPacket : Bool) : Bool × ℕ :=
  let r := takeRadioClearChannel lbt mutex busy rnd 0
  if ¬ r.1 then (false, r.2)
  else if beginPacket then (true, r.2 + (air.ms frame.length).toNat)
  else (false, r.2)

/-- The loop that waits for the acknowledgement, `elapsed` after it began: what comes of the
attempt, and the time the loop takes in all. -/
def awaitAck (ackTimeout : ℕ) (t : TxRetry) (elapsed : ℕ) :
    List (ℕ × UInt16) → (TxAction × TxRetry) × ℕ
  | [] => (txOnTimeout t, max elapsed ackTimeout)
  | (wait, v) :: acks =>
      if elapsed ≥ ackTimeout ∨ wait > ackTimeout - elapsed then
        (txOnTimeout t, max elapsed ackTimeout)
      else
        let a := txOnAck t (wordHi v) (wordLo v)
        if a.1 = .wait then awaitAck ackTimeout a.2 (elapsed + wait) acks
        else (a, elapsed + wait)

/-- One round of the loop of `send_with_retry`, up to the pause. -/
def sendAttempt (air : Airtime) (message : List Byte) (busy : ℕ → ℕ → Bool) (env : Outcomes)
    (t : TxRetry) : (TxAction × TxRetry) × ℕ :=
  let attempt := t.attempts.toNat
  let ackTimeout := (LORA_ACK_TIMEOUT_MS + air.ms ACK_FRAME_LEN).toNat
  match framePacket T_LORA_MSG t.seq message MAX_FRAME with
  | none => (txOnTimeout t, 0)
  | some frame =>
      let sent := loraTxFrame air frame true (env.mutex attempt) (busy attempt) (env.lbtRnd attempt)
        (env.beginPacket attempt)
      if ¬ sent.1 then (txOnTimeout t, sent.2)
      else
        let r := awaitAck ackTimeout t 0 (env.acks attempt)
        (r.1, sent.2 + r.2)

/-- A retry is counted, and goes on as the attempts before it. -/
structure Retries (t : TxRetry) (a : TxAction × TxRetry) : Prop where
  le : a.1 = .retransmit → t.attempts ≤ MAX_RETRIES
  attempts : a.1 = .retransmit → a.2.attempts = t.attempts + 1
  fail : a.1 = .fail → MAX_RETRIES < t.attempts
  done : a.1 = .retransmit → a.2.done = t.done

theorem retries_next (t : TxRetry) : Retries t (txNextAttemptOrFail t) := by
  unfold txNextAttemptOrFail
  split
  · rename_i hlt
    exact ⟨nofun, nofun, fun _ => hlt, nofun⟩
  · rename_i hle
    exact ⟨fun _ => UInt8.not_lt.mp hle, fun _ => rfl, nofun, fun _ => rfl⟩

theorem retries_txOnTimeout (t : TxRetry) : Retries t (txOnTimeout t) := by
  unfold txOnTimeout
  split
  · exact ⟨nofun, nofun, nofun, nofun⟩
  · exact retries_next t

theorem txNextAttemptOrFail_ne_wait (t : TxRetry) : (txNextAttemptOrFail t).1 ≠ .wait := by
  unfold txNextAttemptOrFail
  split <;> simp

/-- An acknowledgement that is ignored changes nothing. -/
theorem txOnAck_of_wait {t : TxRetry} {ackSeq value : Byte}
    (h : (txOnAck t ackSeq value).1 = .wait) : (txOnAck t ackSeq value).2 = t := by
  unfold txOnAck at h ⊢
  by_cases hdone : t.done = true
  · rw [if_pos hdone]
  · rw [if_neg hdone] at h ⊢
    by_cases hseq : ackSeq ≠ t.seq
    · rw [if_pos hseq]
    · rw [if_neg hseq] at h ⊢
      by_cases hvalue : value = ACK_OK
      · rw [if_pos hvalue] at h
        cases h
      · rw [if_neg hvalue] at h
        exact absurd h (txNextAttemptOrFail_ne_wait t)

theorem retries_txOnAck (t : TxRetry) (ackSeq value : Byte) :
    Retries t (txOnAck t ackSeq value) := by
  unfold txOnAck
  split
  · exact ⟨nofun, nofun, nofun, nofun⟩
  · split
    · exact ⟨nofun, nofun, nofun, nofun⟩
    · split
      · exact ⟨nofun, nofun, nofun, nofun⟩
      · exact retries_next t

theorem retries_awaitAck (ackTimeout : ℕ) (t : TxRetry) (elapsed : ℕ) (acks : List (ℕ × UInt16)) :
    Retries t (awaitAck ackTimeout t elapsed acks).1 := by
  induction acks generalizing elapsed with
  | nil => exact retries_txOnTimeout t
  | cons ack acks ih =>
      obtain ⟨wait, v⟩ := ack
      unfold awaitAck
      split
      · exact retries_txOnTimeout t
      · dsimp only
        split
        · rename_i hwait
          rw [txOnAck_of_wait hwait]
          exact ih (elapsed + wait)
        · exact retries_txOnAck t _ _

theorem retries_sendAttempt (air : Airtime) (message : List Byte) (busy : ℕ → ℕ → Bool)
    (env : Outcomes) (t : TxRetry) : Retries t (sendAttempt air message busy env t).1 := by
  unfold sendAttempt
  dsimp only
  split
  · exact retries_txOnTimeout t
  · split
    · exact retries_txOnTimeout t
    · exact retries_awaitAck _ t 0 _

/-- The loop of `send_with_retry`: whether the packet was acknowledged, and the time spent. A
round never ends with `wait`. -/
def sendLoop (air : Airtime) (message : List Byte) (busy : ℕ → ℕ → Bool) (env : Outcomes)
    (t : TxRetry) : Bool × ℕ :=
  let r := sendAttempt air message busy env t
  if r.1.1 = .success then (true, r.2)
  else if _h : r.1.1 = .retransmit then
    let backoffMax := retryBackoffMaxMs (air.ms (HEADER_LEN + message.length)) (air.ms ACK_FRAME_LEN)
    let rest := sendLoop air message busy env r.1.2
    (rest.1, r.2 + (retryBackoffMs (env.backoffRnd t.attempts.toNat) backoffMax).toNat + rest.2)
  else (false, r.2)
termination_by MAX_RETRIES.toNat + 1 - t.attempts.toNat
decreasing_by
  have hretries := retries_sendAttempt air message busy env t
  have hle := UInt8.le_iff_toNat_le.mp (hretries.le _h)
  have hmax : MAX_RETRIES.toNat = 3 := rfl
  rw [hretries.attempts _h, UInt8.toNat_add]
  change _ - (t.attempts.toNat + 1) % 256 < _
  omega

/-- `send_with_retry`, of a `LORA_MSG`. -/
def sendWithRetry (air : Airtime) (message : List Byte) (busy : ℕ → ℕ → Bool) (env : Outcomes) :
    Bool × ℕ :=
  if message.length > MAX_PAYLOAD then (false, 0)
  else sendLoop air message busy env (txBegin env.seq)

/-! ## How long it can take -/

section Bounds

variable {air : Airtime} {message : List Byte} {busy : ℕ → ℕ → Bool} {env : Outcomes}
  {t : TxRetry}

/-- The wait for an acknowledgement. -/
def Airtime.ackWait (air : Airtime) : ℕ := (LORA_ACK_TIMEOUT_MS + air.ms ACK_FRAME_LEN).toNat

/-- The longest window for the pause before a retry. -/
def Airtime.backoffMax (air : Airtime) (message : List Byte) : ℕ :=
  (retryBackoffMaxMs (air.ms (HEADER_LEN + message.length)) (air.ms ACK_FRAME_LEN)).toNat

/-- The time of the frame on the air. -/
def Airtime.onAir (air : Airtime) (message : List Byte) : ℕ :=
  (air.ms (HEADER_LEN + message.length)).toNat

/-- The delays while the channel is busy, in one attempt. -/
def listenTime (busy : ℕ → ℕ → Bool) (env : Outcomes) (attempt : ℕ) : ℕ :=
  (takeRadioClearChannel true (env.mutex attempt) (busy attempt) (env.lbtRnd attempt) 0).2

theorem toNat_ackWait (air : Airtime) :
    air.ackWait = 5000 + (air.ms ACK_FRAME_LEN).toNat := by
  have hlt := air.ms_lt ACK_FRAME_LEN (by decide)
  have hlimit : AIRTIME_LIMIT = 300000 := rfl
  have htimeout : LORA_ACK_TIMEOUT_MS.toNat = 5000 := rfl
  rw [Airtime.ackWait, UInt32.toNat_add, htimeout, Nat.mod_eq_of_lt]
  omega

theorem toNat_backoffMax (air : Airtime) (hlen : message.length ≤ MAX_PAYLOAD) :
    air.backoffMax message =
      1000 + 4 * (air.onAir message + (air.ms ACK_FRAME_LEN).toNat) := by
  have hdata := air.ms_lt (HEADER_LEN + message.length) (Nat.add_le_add_left hlen _)
  have hack := air.ms_lt ACK_FRAME_LEN (by decide)
  have hlimit : AIRTIME_LIMIT = 300000 := rfl
  have hbase : BACKOFF_BASE_MS.toNat = 1000 := rfl
  have hfour : (4 : UInt32).toNat = 4 := rfl
  rw [Airtime.backoffMax, retryBackoffMaxMs, Airtime.onAir, UInt32.toNat_add, UInt32.toNat_mul,
    UInt32.toNat_add, hbase, hfour, Nat.mod_eq_of_lt (a := _ + _) (by omega)]
  omega

/-- What the page is told. -/
theorem toNat_txExpectedMs (air : Airtime) (hlen : message.length ≤ MAX_PAYLOAD)
    (hdata : air.ms (HEADER_LEN + message.length) ≠ 0) (hack : air.ms ACK_FRAME_LEN ≠ 0) :
    (txExpectedMs air.ms (HEADER_LEN + message.length) LORA_ACK_TIMEOUT_MS).toNat =
      4 * (air.onAir message + air.ackWait) + 3 * (10 + air.backoffMax message) := by
  have hmax := toNat_backoffMax air hlen
  have hwait := toNat_ackWait air
  have hdata' := air.ms_lt (HEADER_LEN + message.length) (Nat.add_le_add_left hlen _)
  have hack' := air.ms_lt ACK_FRAME_LEN (by decide)
  have hlimit : AIRTIME_LIMIT = 300000 := rfl
  have hframe : ¬ HEADER_LEN + message.length > MAX_FRAME :=
    Nat.not_lt.mpr (Nat.add_le_add_left hlen _)
  rw [Airtime.onAir] at hmax
  rw [Airtime.backoffMax] at hmax ⊢
  rw [txExpectedMs, if_neg hframe, if_neg (not_or.mpr ⟨hdata, hack⟩), Airtime.onAir, hwait]
  simp only [UInt32.toNat_add, UInt32.toNat_mul, hmax]
  have htimeout : LORA_ACK_TIMEOUT_MS.toNat = 5000 := rfl
  have hattempts : TX_ATTEMPTS.toNat = 4 := rfl
  have hretries : MAX_RETRIES.toUInt32.toNat = 3 := rfl
  have hgap : TX_RETRY_GAP_MS.toNat = 10 := rfl
  rw [htimeout, hattempts, hretries, hgap]
  omega

theorem awaitAck_le {ackTimeout elapsed : ℕ} (h : elapsed ≤ ackTimeout) (t : TxRetry)
    (acks : List (ℕ × UInt16)) : (awaitAck ackTimeout t elapsed acks).2 ≤ ackTimeout := by
  induction acks generalizing t elapsed with
  | nil => exact Nat.le_of_eq (max_eq_right h)
  | cons ack acks ih =>
      obtain ⟨wait, v⟩ := ack
      unfold awaitAck
      split
      · exact Nat.le_of_eq (max_eq_right h)
      · rename_i hin
        dsimp only
        split
        · exact ih (by omega) _
        · change elapsed + wait ≤ ackTimeout
          omega

theorem framePacket_message (seq : Byte) (hlen : message.length ≤ MAX_PAYLOAD) :
    ∃ frame, framePacket T_LORA_MSG seq message MAX_FRAME = some frame ∧
      frame.length = HEADER_LEN + message.length := by
  refine ⟨_, framePacket_eq_some_iff.mpr ⟨by decide, hlen, Nat.add_le_add_left hlen _, rfl⟩, ?_⟩
  simp only [List.length_cons, HEADER_LEN]
  omega

/-- An attempt takes the delays and, when its frame is sent, the airtime and the wait. -/
theorem sendAttempt_eq (hlen : message.length ≤ MAX_PAYLOAD) :
    sendAttempt air message busy env t =
      if (takeRadioClearChannel true (env.mutex t.attempts.toNat) (busy t.attempts.toNat)
          (env.lbtRnd t.attempts.toNat) 0).1 ∧ env.beginPacket t.attempts.toNat then
        ((awaitAck air.ackWait t 0 (env.acks t.attempts.toNat)).1,
          listenTime busy env t.attempts.toNat + air.onAir message +
            (awaitAck air.ackWait t 0 (env.acks t.attempts.toNat)).2)
      else (txOnTimeout t, listenTime busy env t.attempts.toNat) := by
  obtain ⟨frame, hframe, hlength⟩ := framePacket_message t.seq hlen
  unfold sendAttempt loraTxFrame listenTime
  dsimp only
  rw [hframe]
  simp only [hlength]
  cases (takeRadioClearChannel true (env.mutex t.attempts.toNat) (busy t.attempts.toNat)
      (env.lbtRnd t.attempts.toNat) 0).1 with
  | false => simp
  | true =>
      cases env.beginPacket t.attempts.toNat with
      | false => simp
      | true => rfl

theorem sendAttempt_le (air : Airtime) (busy : ℕ → ℕ → Bool) (env : Outcomes) (t : TxRetry)
    (hlen : message.length ≤ MAX_PAYLOAD) :
    (sendAttempt air message busy env t).2 ≤
      listenTime busy env t.attempts.toNat + (air.onAir message + air.ackWait) := by
  have hwait := awaitAck_le (Nat.zero_le air.ackWait) t (env.acks t.attempts.toNat)
  rw [sendAttempt_eq hlen]
  split
  · dsimp only
    omega
  · exact Nat.le_add_right _ _

theorem toNat_retryBackoffMs (air : Airtime) (hlen : message.length ≤ MAX_PAYLOAD)
    (rnd : UInt32) :
    (retryBackoffMs rnd (retryBackoffMaxMs (air.ms (HEADER_LEN + message.length))
      (air.ms ACK_FRAME_LEN))).toNat = 10 + rnd.toNat % air.backoffMax message := by
  have hmax := toNat_backoffMax air hlen
  have hdata := air.ms_lt (HEADER_LEN + message.length) (Nat.add_le_add_left hlen _)
  have hack := air.ms_lt ACK_FRAME_LEN (by decide)
  have hlimit : AIRTIME_LIMIT = 300000 := rfl
  have hmod := Nat.mod_lt rnd.toNat (y := air.backoffMax message) (by omega)
  rw [Airtime.backoffMax] at hmax hmod
  rw [Airtime.onAir] at hmax
  have hne : retryBackoffMaxMs (air.ms (HEADER_LEN + message.length)) (air.ms ACK_FRAME_LEN) ≠ 0 := by
    intro hzero
    rw [hzero] at hmax
    have hz : (0 : UInt32).toNat = 0 := rfl
    omega
  have hgap : TX_RETRY_GAP_MS.toNat = 10 := rfl
  rw [retryBackoffMs, if_pos hne, UInt32.toNat_add, UInt32.toNat_mod, hgap, Airtime.backoffMax,
    Nat.mod_eq_of_lt (by omega)]

theorem listenTime_eq_zero {attempt : ℕ} (h : busy attempt 0 = false) :
    listenTime busy env attempt = 0 := by
  unfold listenTime takeRadioClearChannel
  simp only [h]
  split <;> simp

theorem le_listenTime (env : Outcomes) {attempt : ℕ} (h : busy attempt 0 = true)
    (hmutex : env.mutex attempt 0 = true) : 20 ≤ listenTime busy env attempt := by
  unfold listenTime takeRadioClearChannel
  have hmod := Nat.mod_lt (env.lbtRnd attempt 0).toNat (y := 100) (by decide)
  have hdelay : (20 + env.lbtRnd attempt 0 % 100).toNat = 20 + (env.lbtRnd attempt 0).toNat % 100 := by
    have htwenty : (20 : UInt32).toNat = 20 := rfl
    have hhundred : (100 : UInt32).toNat = 100 := rfl
    rw [UInt32.toNat_add, UInt32.toNat_mod, htwenty, hhundred, Nat.mod_eq_of_lt]
    omega
  have htries : ¬ LBT_TRIES ≤ 0 := by decide
  simp only [h, hmutex, htries, not_true, if_false, or_self, hdelay]
  omega

theorem toNat_attempts_retry {a : TxAction × TxRetry} (h : Retries t a) (hr : a.1 = .retransmit) :
    t.attempts.toNat ≤ 3 ∧ a.2.attempts.toNat = t.attempts.toNat + 1 := by
  have hle : t.attempts.toNat ≤ 3 := UInt8.le_iff_toNat_le.mp (h.le hr)
  refine ⟨hle, ?_⟩
  rw [h.attempts hr, UInt8.toNat_add]
  change (t.attempts.toNat + 1) % 256 = _
  omega

/-- Where the channel is found clear, the rounds that are left take what is expected of them. -/
theorem sendLoop_le (hlen : message.length ≤ MAX_PAYLOAD)
    (hclear : ∀ a, 1 ≤ a → a ≤ 4 → busy a 0 = false) (n : ℕ) (hpos : 1 ≤ t.attempts.toNat)
    (hleft : t.attempts.toNat + n = 4) :
    (sendLoop air message busy env t).2 ≤
      (n + 1) * (air.onAir message + air.ackWait) + n * (10 + air.backoffMax message) := by
  induction n generalizing t with
  | zero =>
      have hround := sendAttempt_le air busy env t hlen
      rw [listenTime_eq_zero (hclear _ hpos (by omega))] at hround
      have hretries := retries_sendAttempt air message busy env t
      unfold sendLoop
      dsimp only
      split
      · dsimp only
        omega
      · split
        · rename_i hr
          have hle := (toNat_attempts_retry hretries hr).1
          omega
        · dsimp only
          omega
  | succ n ih =>
      have hround := sendAttempt_le air busy env t hlen
      rw [listenTime_eq_zero (hclear _ hpos (by omega))] at hround
      have hretries := retries_sendAttempt air message busy env t
      rw [Nat.succ_mul (n + 1), Nat.succ_mul n (10 + air.backoffMax message)]
      unfold sendLoop
      dsimp only
      split
      · dsimp only
        omega
      · split
        · rename_i hr
          have hnext := (toNat_attempts_retry hretries hr).2
          have hrest := ih (t := (sendAttempt air message busy env t).1.2) (by omega) (by omega)
          have hmax := toNat_backoffMax air hlen
          have hpause := Nat.mod_lt (env.backoffRnd t.attempts.toNat).toNat
            (y := air.backoffMax message) (by omega)
          dsimp only
          rw [toNat_retryBackoffMs air hlen]
          omega
        · dsimp only
          omega

/-! ## How long it does take -/

/-- Nobody answers, the mutex is free, and every pause is the longest. -/
def Outcomes.slowest (air : Airtime) (message : List Byte) : Outcomes where
  seq := 0
  mutex _ _ := true
  lbtRnd _ _ := 0
  beginPacket _ := true
  acks _ := []
  backoffRnd _ :=
    retryBackoffMaxMs (air.ms (HEADER_LEN + message.length)) (air.ms ACK_FRAME_LEN) - 1

theorem taken_slowest (air : Airtime) (message : List Byte) (busy rnd attempt) (i : ℕ) :
    (takeRadioClearChannel true ((Outcomes.slowest air message).mutex attempt) busy rnd i).1 =
      true := by
  induction h : LBT_TRIES - i generalizing i with
  | zero =>
      have hle : LBT_TRIES ≤ i := Nat.le_of_sub_eq_zero h
      unfold takeRadioClearChannel
      simp [hle, Outcomes.slowest]
  | succ n ih =>
      have hnext := ih (i + 1) (by omega)
      unfold takeRadioClearChannel
      rw [if_neg (by simp [Outcomes.slowest])]
      split
      · rfl
      · split
        · rfl
        · exact hnext

theorem sendAttempt_slowest (hlen : message.length ≤ MAX_PAYLOAD) :
    sendAttempt air message busy (.slowest air message) t =
      (txOnTimeout t, listenTime busy (.slowest air message) t.attempts.toNat +
        air.onAir message + air.ackWait) := by
  rw [sendAttempt_eq hlen, if_pos ⟨taken_slowest .., rfl⟩]
  rfl

theorem pause_slowest (air : Airtime) (hlen : message.length ≤ MAX_PAYLOAD) (attempt : ℕ) :
    (retryBackoffMs ((Outcomes.slowest air message).backoffRnd attempt)
      (retryBackoffMaxMs (air.ms (HEADER_LEN + message.length)) (air.ms ACK_FRAME_LEN))).toNat + 1 =
      10 + air.backoffMax message := by
  have hmax := toNat_backoffMax air hlen
  have hone : (1 : UInt32).toNat = 1 := rfl
  have hrnd : ((Outcomes.slowest air message).backoffRnd attempt).toNat =
      air.backoffMax message - 1 := by
    rw [Outcomes.slowest, UInt32.toNat_sub_of_le, hone, ← Airtime.backoffMax]
    rw [UInt32.le_iff_toNat_le, hone, ← Airtime.backoffMax]
    omega
  rw [toNat_retryBackoffMs air hlen, hrnd, Nat.mod_eq_of_lt (by omega)]
  omega

/-- The last of the slowest rounds. -/
theorem sendLoop_slowest_last (hlen : message.length ≤ MAX_PAYLOAD) (hdone : t.done = false)
    (hlast : t.attempts.toNat = 4) :
    (sendLoop air message busy (.slowest air message) t).2 =
      listenTime busy (.slowest air message) t.attempts.toNat + air.onAir message + air.ackWait := by
  have hfail : (txOnTimeout t).1 = .fail := by
    have hlt : t.attempts > MAX_RETRIES := by
      rw [gt_iff_lt, UInt8.lt_iff_toNat_lt, hlast]
      decide
    rw [txOnTimeout, hdone, txNextAttemptOrFail, if_pos hlt]
    rfl
  rw [sendLoop, sendAttempt_slowest hlen]
  simp [hfail]

/-- One of the others. -/
theorem sendLoop_slowest_retry (air : Airtime) (busy : ℕ → ℕ → Bool)
    (hlen : message.length ≤ MAX_PAYLOAD) (hdone : t.done = false) (hretry : t.attempts.toNat ≤ 3) :
    ∃ t' : TxRetry, t'.done = false ∧ t'.attempts.toNat = t.attempts.toNat + 1 ∧
      (sendLoop air message busy (.slowest air message) t).2 + 1 =
        listenTime busy (.slowest air message) t.attempts.toNat +
          (air.onAir message + air.ackWait) + (10 + air.backoffMax message) +
          (sendLoop air message busy (.slowest air message) t').2 := by
  have hagain : (txOnTimeout t).1 = .retransmit := by
    have hle : ¬ t.attempts > MAX_RETRIES := by
      rw [gt_iff_lt, UInt8.lt_iff_toNat_lt]
      exact Nat.not_lt.mpr hretry
    rw [txOnTimeout, hdone, txNextAttemptOrFail, if_neg hle]
    rfl
  have hretries := retries_txOnTimeout t
  refine ⟨(txOnTimeout t).2, (hretries.done hagain).trans hdone,
    (toNat_attempts_retry hretries hagain).2, ?_⟩
  have hpause := pause_slowest air hlen t.attempts.toNat
  rw [sendLoop, sendAttempt_slowest hlen]
  simp only [hagain, reduceCtorEq, if_false, dite_true]
  omega

/-- The slowest rounds take as long as expected, but for the missing millisecond of each
pause, and the delays of any one attempt on top. -/
theorem le_sendLoop_slowest (air : Airtime) (busy : ℕ → ℕ → Bool)
    (hlen : message.length ≤ MAX_PAYLOAD) (n : ℕ)
    (hdone : t.done = false) (hleft : t.attempts.toNat + n = 4) {a : ℕ}
    (hlo : t.attempts.toNat ≤ a) (hhi : a ≤ 4) :
    (n + 1) * (air.onAir message + air.ackWait) + n * (10 + air.backoffMax message) +
        listenTime busy (.slowest air message) a ≤
      (sendLoop air message busy (.slowest air message) t).2 + n := by
  induction n generalizing t a with
  | zero =>
      obtain rfl : a = t.attempts.toNat := by omega
      rw [sendLoop_slowest_last hlen hdone hleft]
      omega
  | succ n ih =>
      obtain ⟨t', hdone', hnext, hloop⟩ :=
        sendLoop_slowest_retry air busy hlen hdone (by omega)
      rw [Nat.succ_mul (n + 1), Nat.succ_mul n (10 + air.backoffMax message)]
      by_cases ha : a = t.attempts.toNat
      · subst ha
        have hrest := ih hdone' (by omega) (Nat.le_of_eq hnext) (by omega)
        omega
      · have hrest := ih (a := a) hdone' (by omega) (by omega) hhi
        omega

/-- A busy check in front of one of the slowest rounds makes them too long. -/
theorem expected_lt_sendTime (air : Airtime) {attempt : ℕ} (hlen : message.length ≤ MAX_PAYLOAD)
    (h1 : 1 ≤ attempt) (h4 : attempt ≤ 4) (hbusy : busy attempt 0 = true) :
    (txExpectedMs air.ms (HEADER_LEN + message.length) LORA_ACK_TIMEOUT_MS).toNat <
      (sendWithRetry air message busy (.slowest air message)).2 := by
  have hslowest := le_sendLoop_slowest air busy (t := txBegin 0) hlen 3 rfl rfl h1 h4
  have hlisten := le_listenTime (.slowest air message) hbusy rfl
  have hsend : (sendWithRetry air message busy (.slowest air message)).2 =
      (sendLoop air message busy (.slowest air message) (txBegin 0)).2 := by
    rw [sendWithRetry, if_neg (Nat.not_lt.mpr hlen)]
    rfl
  rw [hsend]
  by_cases hzero : air.ms (HEADER_LEN + message.length) = 0 ∨ air.ms ACK_FRAME_LEN = 0
  · have hframe : ¬ HEADER_LEN + message.length > MAX_FRAME :=
      Nat.not_lt.mpr (Nat.add_le_add_left hlen _)
    rw [txExpectedMs, if_neg hframe, if_pos hzero]
    change 0 < _
    omega
  · rw [not_or] at hzero
    rw [toNat_txExpectedMs air hlen hzero.1 hzero.2]
    omega

/-- No time is expected of a frame with no airtime, and the sender waits. -/
theorem airtime_ne_zero (hlen : message.length ≤ MAX_PAYLOAD)
    (h : (sendWithRetry air message busy (.slowest air message)).2 ≤
      (txExpectedMs air.ms (HEADER_LEN + message.length) LORA_ACK_TIMEOUT_MS).toNat) :
    air.ms (HEADER_LEN + message.length) ≠ 0 ∧ air.ms ACK_FRAME_LEN ≠ 0 := by
  rw [← not_or]
  intro hzero
  have hframe : ¬ HEADER_LEN + message.length > MAX_FRAME :=
    Nat.not_lt.mpr (Nat.add_le_add_left hlen _)
  have hslowest := le_sendLoop_slowest air busy (t := txBegin 0) hlen 3 rfl rfl (Nat.le_refl 1)
    (by decide)
  have hwait := toNat_ackWait air
  rw [txExpectedMs, if_neg hframe, if_pos hzero, sendWithRetry, if_neg (Nat.not_lt.mpr hlen)] at h
  change (sendLoop air message busy _ (txBegin 0)).2 ≤ 0 at h
  omega

/-- The page is told enough exactly when no check of the channel before a transmission finds
it busy, or when the message is too long to be sent at all. -/
theorem sendTime_le_expected_iff (air : Airtime) (message : List Byte) (busy : ℕ → ℕ → Bool) :
    (∀ env, (sendWithRetry air message busy env).2 ≤
        (txExpectedMs air.ms (HEADER_LEN + message.length) LORA_ACK_TIMEOUT_MS).toNat) ↔
      MAX_PAYLOAD < message.length ∨
        (air.ms (HEADER_LEN + message.length) ≠ 0 ∧ air.ms ACK_FRAME_LEN ≠ 0 ∧
          ∀ attempt, 1 ≤ attempt → attempt ≤ TX_ATTEMPTS.toNat → busy attempt 0 = false) := by
  by_cases hlong : MAX_PAYLOAD < message.length
  · refine iff_of_true (fun env => ?_) (.inl hlong)
    rw [sendWithRetry, if_pos hlong]
    exact Nat.zero_le _
  · have hlen := Nat.not_lt.mp hlong
    constructor
    · intro h
      have hair := airtime_ne_zero hlen (h _)
      refine .inr ⟨hair.1, hair.2, fun attempt h1 h4 => ?_⟩
      by_contra hbusy
      have hlt := expected_lt_sendTime air hlen h1 h4
        (Bool.eq_true_of_not_eq_false hbusy)
      exact Nat.not_lt.mpr (h _) hlt
    · rintro (h | ⟨hdata, hack, hclear⟩) env
      · exact absurd h hlong
      · rw [sendWithRetry, if_neg hlong, toNat_txExpectedMs air hlen hdata hack]
        exact sendLoop_le hlen hclear 3 (Nat.le_refl 1) rfl

end Bounds

/-- The airtimes of the default config: SF8, 500 kHz, 4/7. -/
def Airtime.default : Airtime where
  ms n := UInt32.ofNat (airtimeMs 8 500000 7 n)
  ms_lt n hn := by
    have hlt : airtimeMs 8 500000 7 n < AIRTIME_LIMIT := airtimeMs_lt 8 7 (by decide) hn
    rw [UInt32.toNat_ofNat']
    exact (Nat.mod_le _ _).trans_lt hlt

/-- With one busy check before the first transmission, and nobody who answers, the page is
told too little. -/
theorem sendTime_not_le_expected :
    ¬ ∀ (air : Airtime) (message : List Byte) (busy : ℕ → ℕ → Bool) (env : Outcomes),
      (sendWithRetry air message busy env).2 ≤
        (txExpectedMs air.ms (HEADER_LEN + message.length) LORA_ACK_TIMEOUT_MS).toNat := by
  intro h
  have hlen : ([0x68, 0x69] : List Byte).length ≤ MAX_PAYLOAD := by decide
  let busy : ℕ → ℕ → Bool := fun attempt i => attempt == 1 && i == 0
  have hbusy : busy 1 0 = true := rfl
  have hlt := expected_lt_sendTime .default hlen (Nat.le_refl 1) (by decide) hbusy
  exact Nat.not_lt.mpr (h _ _ _ _) hlt

end LoraProto

end Voyager
