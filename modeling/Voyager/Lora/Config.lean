import Mathlib.Data.List.TakeWhile
import Mathlib.Data.Rat.Init
import Mathlib.Order.Lattice
import Mathlib.Tactic.SplitIfs
import Voyager.Library.JsonNumbers
import Voyager.Lora.Receive

/-!
# The radio configuration as JSON

The WebSocket dispatcher checks a configuration with `core_lora_config_string_valid`, the
radio reads it with `config_from_text` and the file is written with `config_to_json`. The
first check wants integers, the second one takes a float that is an integer. The JSON
library is a parameter.
-/

namespace Voyager

namespace LoraProto

/-! ## Values of the JSON library -/

/-- A floating-point number. The two zeros are one, since no comparison tells them apart. -/
inductive Double
  | nan
  | infinity (negative : Bool)
  | finite (q : ℚ)
  deriving DecidableEq

/-- `(long)d`, which is undefined outside the range of a `long`. -/
def Double.toLong : Double → Option ℤ
  | finite q =>
      let x := q.num.tdiv q.den
      if -2 ^ 31 ≤ x ∧ x < 2 ^ 31 then some x else none
  | _ => none

inductive JsonVariant
  | null
  | boolean (b : Bool)
  | integer (n : ℤ)
  | float (d : Double)
  | string (s : List Byte)
  | array (items : List JsonVariant)
  | object (members : List (List Byte × JsonVariant))

namespace JsonVariant

/-- `v[key]`, which is null where `v` is no object or has no such member. -/
def get (v : JsonVariant) (key : List Byte) : JsonVariant :=
  match v with
  | object members => ((members.find? fun m => m.1 = key).map Prod.snd).getD null
  | _ => null

def isNull : JsonVariant → Bool
  | null => true
  | _ => false

def isObject : JsonVariant → Bool
  | object _ => true
  | _ => false

/-- `is<long>()`: neither a float nor a text, even one of an integer. -/
def isLong : JsonVariant → Bool
  | integer n => -2 ^ 31 ≤ n && n < 2 ^ 31
  | _ => false

/-- `as<long>()` of a value that `is<long>()`. -/
def asLong : JsonVariant → ℤ
  | integer n => n
  | _ => 0

/-- `is<double>()`: any number. -/
def isDouble : JsonVariant → Bool
  | integer _ => true
  | float _ => true
  | _ => false

/-- `as<double>()` of a number. An integer that is rounded here is far outside the range of a
`long`, and so is what it is rounded to. -/
def asDouble : JsonVariant → Double
  | integer n => .finite n
  | float d => d
  | _ => .finite 0

/-- The object with the numbers `ms`. -/
def numbers (ms : List JsonNumbers.Member) : JsonVariant :=
  object (ms.map fun m => (m.1, integer m.2))

end JsonVariant

/-- `deserializeJson`, which has no result for a text that is not JSON, and `serializeJson`. -/
structure JsonLibrary where
  deserializeJson : List Byte → Option JsonVariant
  serializeJson : JsonVariant → List Byte

/-! ## The configuration -/

structure LoraConfig where
  freq : ℤ
  txPower : ℤ
  spreadingFactor : ℤ
  /-- In Hz. -/
  signalBandwidth : ℤ
  codingRate4 : ℤ
  syncWord : ℤ
  deriving DecidableEq, Repr

def kBw : List ℤ :=
  [7800, 10400, 15600, 20800, 31250, 41700, 62500, 125000, 250000, 500000]

/-- `valid_bandwidth`. -/
def validBandwidth (bw : ℤ) : Bool := kBw.any fun v => v = bw

/-- The member `k` as an integer between `lo` and `hi`. -/
def num (v : JsonVariant) (k : List Byte) (lo hi : ℤ) : Option ℤ :=
  let f := v.get k
  if f.isNull || !(f.isLong || f.isDouble) then none
  else
    let d := f.asDouble
    match d.toLong with
    | none => none
    | some x =>
        -- integers only
        if d ≠ .finite x then none
        else if x < lo ∨ x > hi then none
        else some x

/-- The value, or the error that names the key. -/
def orFail (k : List Byte) : Option ℤ → Except (List Byte) ℤ
  | none => .error k
  | some x => .ok x

/-- `config_from_json`. The error is the first offending key. -/
def configFromJson (v : JsonVariant) : Except (List Byte) LoraConfig := do
  if !v.isObject then throw (ascii "object")
  let freq ← orFail (ascii "freq") (num v (ascii "freq") 410000000 525000000)
  let txp ← orFail (ascii "TxPower") (num v (ascii "TxPower") 2 20)
  let sf ← orFail (ascii "SpreadingFactor") (num v (ascii "SpreadingFactor") 6 12)
  let bw ← orFail (ascii "SignalBandwidth")
    ((num v (ascii "SignalBandwidth") 7800 500000).filter validBandwidth)
  let cr ← orFail (ascii "CodingRate4") (num v (ascii "CodingRate4") 5 8)
  let sw ← orFail (ascii "SyncWord") (num v (ascii "SyncWord") 0 255)
  return ⟨freq, txp, sf, bw, cr, sw⟩

/-- `config_from_text`, which may be given a null pointer. -/
def configFromText (json : JsonLibrary) (text : Option (List Byte)) :
    Except (List Byte) LoraConfig :=
  match text with
  | none => .error (ascii "json")
  | some text =>
      match json.deserializeJson text with
      | none => .error (ascii "json")
      | some doc => configFromJson doc

/-- The document that `config_to_json` fills. -/
def LoraConfig.toDoc (c : LoraConfig) : JsonVariant :=
  .object [(ascii "freq", .integer c.freq), (ascii "TxPower", .integer c.txPower),
    (ascii "SpreadingFactor", .integer c.spreadingFactor),
    (ascii "SignalBandwidth", .integer c.signalBandwidth),
    (ascii "CodingRate4", .integer c.codingRate4), (ascii "SyncWord", .integer c.syncWord)]

/-- `config_to_json` into a buffer of `cap` bytes, or into a null pointer. -/
def configToJson (json : JsonLibrary) (c : LoraConfig) (cap : Option ℕ) : Option (List Byte) :=
  match cap with
  | none => none
  | some cap =>
      let text := json.serializeJson c.toDoc
      if cap = 0 ∨ text.length + 1 > cap then none else some text

/-! ## The check of the dispatcher -/

def loraConfigKeys : List (List Byte) :=
  [ascii "freq", ascii "TxPower", ascii "SpreadingFactor", ascii "SignalBandwidth",
    ascii "CodingRate4", ascii "SyncWord"]

/-- `core_lora_config_valid` of an object. -/
def coreLoraConfigValid (o : JsonVariant) : Bool :=
  if o.isNull then false
  else if !loraConfigKeys.all fun k => (o.get k).isLong then false
  else
    let freq := (o.get (ascii "freq")).asLong
    let tx := (o.get (ascii "TxPower")).asLong
    let sf := (o.get (ascii "SpreadingFactor")).asLong
    let bw := (o.get (ascii "SignalBandwidth")).asLong
    let cr := (o.get (ascii "CodingRate4")).asLong
    let sw := (o.get (ascii "SyncWord")).asLong
    if freq < 410000000 ∨ freq > 525000000 then false
    else if tx < 2 ∨ tx > 20 then false
    else if sf < 6 ∨ sf > 12 then false
    else if cr < 5 ∨ cr > 8 then false
    else if sw < 0 ∨ sw > 255 then false
    else kBw.any fun b => b = bw

/-- `core_lora_config_string_valid`. -/
def coreLoraConfigStringValid (json : JsonLibrary) (text : List Byte) : Bool :=
  match json.deserializeJson text with
  | none => false
  | some cfg => cfg.isObject && coreLoraConfigValid cfg

/-! ## Saving -/

/-- What `save_lora_config` did: the text it wrote to `LORA_CONFIG_PATH`, the alert it showed and
what it returned. -/
structure Saved where
  file : Option (List Byte)
  alert : List Byte
  ok : Bool
  deriving DecidableEq, Repr

/-- `save_lora_config`; `written` and `applied` are what `write_file_atomic` and `apply_config`
return. -/
def saveLoraConfig (json : JsonLibrary) (value : List Byte) (written applied : Bool) : Saved :=
  match configFromText json (some (cString value)) with
  | .error err =>
      { file := none
        alert := ascii "Invalid LoRa config: " ++ err ++ ascii " missing or out of range"
        ok := false }
  | .ok c =>
      match configToJson json c (some 192) with
      | none => { file := none, alert := ascii "Failed to save LoRa config", ok := false }
      | some js =>
          if !written then
            { file := none, alert := ascii "Failed to save LoRa config", ok := false }
          else if !applied then
            { file := some js
              alert := ascii "LoRa config saved, radio busy: it applies after restart"
              ok := false }
          else
            { file := some js, alert := ascii "LoRa config saved successfully", ok := true }

/-- `read_config_file`; `file` is what `read_file` returns. -/
def readConfigFile (json : JsonLibrary) (file : Option (List Byte)) : Option LoraConfig :=
  match file with
  | none => none
  | some text =>
      if text.length > 1024 then none
      else (configFromText json (some (cString text))).toOption

/-! ## What is accepted -/

section Accepted

variable {v : JsonVariant} {c : LoraConfig}

/-- The ranges that both checks have. -/
structure LoraConfig.Valid (c : LoraConfig) : Prop where
  freq : 410000000 ≤ c.freq ∧ c.freq ≤ 525000000
  txPower : 2 ≤ c.txPower ∧ c.txPower ≤ 20
  spreadingFactor : 6 ≤ c.spreadingFactor ∧ c.spreadingFactor ≤ 12
  signalBandwidth : validBandwidth c.signalBandwidth = true
  codingRate4 : 5 ≤ c.codingRate4 ∧ c.codingRate4 ≤ 8
  syncWord : 0 ≤ c.syncWord ∧ c.syncWord ≤ 255

/-- The six members, read with `as<long>()`. -/
def JsonVariant.longs (v : JsonVariant) : LoraConfig where
  freq := (v.get (ascii "freq")).asLong
  txPower := (v.get (ascii "TxPower")).asLong
  spreadingFactor := (v.get (ascii "SpreadingFactor")).asLong
  signalBandwidth := (v.get (ascii "SignalBandwidth")).asLong
  codingRate4 := (v.get (ascii "CodingRate4")).asLong
  syncWord := (v.get (ascii "SyncWord")).asLong

theorem exists_of_isLong {f : JsonVariant} (h : f.isLong = true) :
    ∃ n : ℤ, f = .integer n ∧ -2 ^ 31 ≤ n ∧ n < 2 ^ 31 := by
  cases f with
  | integer n =>
      rw [JsonVariant.isLong, Bool.and_eq_true, decide_eq_true_eq, decide_eq_true_eq] at h
      exact ⟨n, rfl, h⟩
  | _ => exact absurd h Bool.false_ne_true

theorem toLong_intCast {n : ℤ} (hlo : -2 ^ 31 ≤ n) (hhi : n < 2 ^ 31) :
    (Double.finite n).toLong = some n := by
  have hquot : (n : ℚ).num.tdiv (n : ℚ).den = n := by
    rw [Rat.num_intCast, Rat.den_intCast, Nat.cast_one, Int.tdiv_one]
  simp only [Double.toLong]
  rw [hquot, if_pos ⟨hlo, hhi⟩]

/-- An integer in the range is read as it is. -/
theorem num_of_isLong {k : List Byte} {lo hi : ℤ} (h : (v.get k).isLong = true)
    (hlo : lo ≤ (v.get k).asLong) (hhi : (v.get k).asLong ≤ hi) :
    num v k lo hi = some (v.get k).asLong := by
  obtain ⟨n, hn, hmin, hmax⟩ := exists_of_isLong h
  rw [hn, JsonVariant.asLong] at hlo hhi
  rw [num, hn]
  simp only [JsonVariant.isNull, JsonVariant.isDouble, JsonVariant.asDouble, JsonVariant.asLong,
    toLong_intCast hmin hmax, Bool.or_true, Bool.not_true, Bool.or_false, Bool.false_eq_true,
    if_false, ne_eq, not_true_eq_false]
  rw [if_neg (by omega)]

theorem num_le {k : List Byte} {lo hi x : ℤ} (h : num v k lo hi = some x) : lo ≤ x ∧ x ≤ hi := by
  rw [num] at h
  split at h
  · cases h
  · dsimp only at h
    split at h
    · cases h
    · split_ifs at h
      cases h
      omega

theorem orFail_eq_ok {k : List Byte} {o : Option ℤ} {x : ℤ} :
    orFail k o = .ok x ↔ o = some x := by
  cases o with
  | none => constructor <;> intro h <;> cases h
  | some y => rw [orFail, Except.ok.injEq, Option.some.injEq]

theorem bind_eq_ok {α β : Type} {x : Except (List Byte) α} {f : α → Except (List Byte) β} {b : β} :
    (x >>= f) = .ok b ↔ ∃ a, x = .ok a ∧ f a = .ok b := by
  cases x with
  | error e => simp [bind, Except.bind]
  | ok a => simp [bind, Except.bind]

/-- The configuration is the one whose values are read, each within its range. -/
theorem configFromJson_eq_ok : configFromJson v = .ok c ↔
    v.isObject = true ∧ num v (ascii "freq") 410000000 525000000 = some c.freq ∧
      num v (ascii "TxPower") 2 20 = some c.txPower ∧
      num v (ascii "SpreadingFactor") 6 12 = some c.spreadingFactor ∧
      (num v (ascii "SignalBandwidth") 7800 500000).filter validBandwidth =
        some c.signalBandwidth ∧
      num v (ascii "CodingRate4") 5 8 = some c.codingRate4 ∧
      num v (ascii "SyncWord") 0 255 = some c.syncWord := by
  rw [configFromJson]
  cases hobj : v.isObject with
  | false => simp [bind, Except.bind, throw, throwThe, MonadExceptOf.throw]
  | true =>
      simp only [Bool.not_true, Bool.false_eq_true, if_false, bind_eq_ok, orFail_eq_ok]
      constructor
      · rintro ⟨freq, hfreq, txp, htxp, sf, hsf, bw, hbw, cr, hcr, sw, hsw, hc⟩
        cases hc
        exact ⟨trivial, hfreq, htxp, hsf, hbw, hcr, hsw⟩
      · rintro ⟨-, hfreq, htxp, hsf, hbw, hcr, hsw⟩
        exact ⟨_, hfreq, _, htxp, _, hsf, _, hbw, _, hcr, _, hsw, rfl⟩

theorem validBandwidth_le {bw : ℤ} (h : validBandwidth bw = true) : 7800 ≤ bw ∧ bw ≤ 500000 := by
  obtain ⟨v, hv, heq⟩ := List.any_eq_true.mp h
  have hall : ∀ v ∈ kBw, 7800 ≤ v ∧ v ≤ 500000 := by decide
  rw [← of_decide_eq_true heq]
  exact hall v hv

theorem valid_of_configFromJson (h : configFromJson v = .ok c) : c.Valid := by
  obtain ⟨-, hfreq, htx, hsf, hbw, hcr, hsw⟩ := configFromJson_eq_ok.mp h
  obtain ⟨-, hbw⟩ := Option.filter_eq_some_iff.mp hbw
  exact ⟨num_le hfreq, num_le htx, num_le hsf, hbw, num_le hcr, num_le hsw⟩

/-- The dispatcher takes the same ranges, of integers only. -/
theorem coreLoraConfigValid_iff : coreLoraConfigValid v = true ↔
    (∀ k ∈ loraConfigKeys, (v.get k).isLong = true) ∧ v.longs.Valid := by
  rw [coreLoraConfigValid]
  by_cases hnull : v.isNull = true
  · rw [if_pos hnull]
    constructor
    · intro h
      cases h
    · intro h
      cases v with
      | null => exact absurd (h.1 (ascii "freq") List.mem_cons_self) Bool.false_ne_true
      | _ => cases hnull
  · rw [if_neg hnull]
    by_cases hall : (loraConfigKeys.all fun k => (v.get k).isLong) = true
    · rw [hall, Bool.not_true, if_neg Bool.false_ne_true]
      constructor
      · intro h
        dsimp only at h
        split_ifs at h with hfreq htx hsf hcr hsw
        simp only [not_or, not_lt] at hfreq htx hsf hcr hsw
        exact ⟨List.all_eq_true.mp hall, hfreq, htx, hsf, h, hcr, hsw⟩
      · rintro ⟨-, hfreq, htx, hsf, hbw, hcr, hsw⟩
        simp only [JsonVariant.longs, ← not_lt] at hfreq htx hsf hcr hsw
        simp only [← not_or] at hfreq htx hsf hcr hsw
        dsimp only
        rw [if_neg hfreq, if_neg htx, if_neg hsf, if_neg hcr, if_neg hsw]
        exact hbw
    · rw [Bool.not_eq_true] at hall
      rw [hall, Bool.not_false, if_pos rfl]
      constructor
      · intro h
        cases h
      · intro h
        exact absurd (List.all_eq_true.mpr h.1) (by rw [hall]; exact Bool.false_ne_true)

/-- What the dispatcher accepts the radio reads, with the same values. -/
theorem configFromJson_of_valid (hobj : v.isObject = true) (h : coreLoraConfigValid v = true) :
    configFromJson v = .ok v.longs := by
  obtain ⟨hlong, hfreq, htx, hsf, hbw, hcr, hsw⟩ := coreLoraConfigValid_iff.mp h
  have hnum : ∀ k ∈ loraConfigKeys, ∀ lo hi : ℤ, lo ≤ (v.get k).asLong ∧ (v.get k).asLong ≤ hi →
      num v k lo hi = some (v.get k).asLong :=
    fun k hk lo hi hle => num_of_isLong (hlong k hk) hle.1 hle.2
  rw [configFromJson_eq_ok]
  refine ⟨hobj, hnum _ ?_ _ _ hfreq, hnum _ ?_ _ _ htx, hnum _ ?_ _ _ hsf, ?_, hnum _ ?_ _ _ hcr,
    hnum _ ?_ _ _ hsw⟩
  case refine_4 =>
    rw [hnum _ (by decide) _ _ (validBandwidth_le hbw)]
    exact Option.filter_eq_some_iff.mpr ⟨rfl, hbw⟩
  all_goals decide

end Accepted

/-! ## What is written -/

section Written

variable {json : JsonLibrary} {c : LoraConfig}

/-- Numbers that the library writes and reads exactly: their names have no control character and
differ from each other, and their values are those of a `long`. -/
structure Exact (ms : List JsonNumbers.Member) : Prop where
  names : ∀ m ∈ ms, ∀ b ∈ m.1, 0x20 ≤ b
  nodup : (ms.map Prod.fst).Nodup
  values : ∀ m ∈ ms, m.2 < 2 ^ 31

/-- What the JSON library promises: a text ends at its first zero byte, and an object of such
numbers is written without spaces and read back from that text. -/
structure JsonLibrary.Documented (json : JsonLibrary) : Prop where
  stops : ∀ text, json.deserializeJson (cString text) = json.deserializeJson text
  writes : ∀ ms, Exact ms → json.serializeJson (.numbers ms) = JsonNumbers.writeObject ms
  reads : ∀ ms, Exact ms →
    json.deserializeJson (JsonNumbers.writeObject ms) = some (.numbers ms)

/-- The members of `c` as natural numbers. -/
def LoraConfig.members (c : LoraConfig) : List JsonNumbers.Member :=
  [(ascii "freq", c.freq.toNat), (ascii "TxPower", c.txPower.toNat),
    (ascii "SpreadingFactor", c.spreadingFactor.toNat),
    (ascii "SignalBandwidth", c.signalBandwidth.toNat),
    (ascii "CodingRate4", c.codingRate4.toNat), (ascii "SyncWord", c.syncWord.toNat)]

theorem LoraConfig.Valid.toDoc_eq (h : c.Valid) : c.toDoc = .numbers c.members := by
  obtain ⟨hfreq, htx, hsf, hbw, hcr, hsw⟩ := h
  have hbw := validBandwidth_le hbw
  simp only [toDoc, JsonVariant.numbers, members, List.map_cons, List.map_nil]
  rw [Int.toNat_of_nonneg (by omega), Int.toNat_of_nonneg (by omega),
    Int.toNat_of_nonneg (by omega), Int.toNat_of_nonneg (by omega),
    Int.toNat_of_nonneg (by omega), Int.toNat_of_nonneg (by omega)]

theorem LoraConfig.Valid.exact (h : c.Valid) : Exact c.members := by
  obtain ⟨hfreq, htx, hsf, hbw, hcr, hsw⟩ := h
  have hbw := validBandwidth_le hbw
  have hnames : c.members.map Prod.fst = loraConfigKeys := rfl
  have hplain : ∀ k ∈ loraConfigKeys, ∀ b ∈ k, 0x20 ≤ b := by decide +kernel
  refine ⟨fun m hm => hplain m.1 (hnames ▸ List.mem_map_of_mem hm), ?_, ?_⟩
  · rw [hnames]
    decide
  · simp only [members, List.forall_mem_cons, List.not_mem_nil, false_implies, implies_true,
      and_true]
    omega

/-- The document of a valid configuration passes the check of the dispatcher, with the values of
the configuration. -/
theorem LoraConfig.Valid.toDoc_valid (h : c.Valid) : coreLoraConfigValid c.toDoc = true := by
  rw [coreLoraConfigValid_iff]
  refine ⟨?_, h⟩
  obtain ⟨hfreq, htx, hsf, hbw, hcr, hsw⟩ := h
  have hbw := validBandwidth_le hbw
  have hlong : ∀ n : ℤ, 0 ≤ n ∧ n ≤ 525000000 → (JsonVariant.integer n).isLong = true := by
    intro n hn
    simp only [JsonVariant.isLong, Bool.and_eq_true, decide_eq_true_eq]
    omega
  simp only [loraConfigKeys, List.forall_mem_cons, List.not_mem_nil, false_implies, implies_true,
    and_true]
  exact ⟨hlong _ (by omega), hlong _ (by omega), hlong _ (by omega), hlong _ (by omega),
    hlong _ (by omega), hlong _ (by omega)⟩

theorem configFromJson_toDoc (h : c.Valid) : configFromJson c.toDoc = .ok c :=
  configFromJson_of_valid rfl h.toDoc_valid

theorem JsonLibrary.Documented.read_toDoc (hjson : json.Documented) (h : c.Valid) :
    json.deserializeJson (json.serializeJson c.toDoc) = some c.toDoc := by
  rw [h.toDoc_eq, hjson.writes _ h.exact, hjson.reads _ h.exact]

theorem Exact.plain {ms : List JsonNumbers.Member} (h : Exact ms) : ∀ m ∈ ms, m.Plain := by
  intro m hm b hb hzero
  have hle := h.names m hm b hb
  rw [hzero] at hle
  exact absurd hle (by decide)

/-- The text is a string of C, and is short. -/
theorem JsonLibrary.Documented.length_toDoc (hjson : json.Documented) (h : c.Valid) :
    (json.serializeJson c.toDoc).length ≤ 168 := by
  rw [h.toDoc_eq, hjson.writes _ h.exact]
  have hplain := h.exact.plain
  obtain ⟨hfreq, htx, hsf, hbw, hcr, hsw⟩ := h
  have hbw := validBandwidth_le hbw
  simp only [LoraConfig.members, List.forall_mem_cons, List.not_mem_nil, false_implies,
    implies_true, and_true] at hplain
  obtain ⟨pfreq, ptx, psf, pbw, pcr, psw⟩ := hplain
  have lfreq := JsonNumbers.length_writeMember_le (k := 9) pfreq (by decide) (by dsimp only; omega)
  have ltx := JsonNumbers.length_writeMember_le (k := 2) ptx (by decide) (by dsimp only; omega)
  have lsf := JsonNumbers.length_writeMember_le (k := 2) psf (by decide) (by dsimp only; omega)
  have lbw := JsonNumbers.length_writeMember_le (k := 6) pbw (by decide) (by dsimp only; omega)
  have lcr := JsonNumbers.length_writeMember_le (k := 1) pcr (by decide) (by dsimp only; omega)
  have lsw := JsonNumbers.length_writeMember_le (k := 3) psw (by decide) (by dsimp only; omega)
  have hnames : loraConfigKeys.map List.length = [4, 7, 15, 15, 11, 8] := by decide
  simp only [loraConfigKeys, List.map_cons, List.map_nil, List.cons.injEq, and_true] at hnames
  simp only [LoraConfig.members, JsonNumbers.writeObject, JsonNumbers.writeRest, List.length_cons,
    List.length_append, List.length_nil]
  dsimp only at lfreq ltx lsf lbw lcr lsw
  omega

/-- A configuration that was read is written into the buffer of `save_lora_config`, and read back
from there. -/
theorem JsonLibrary.Documented.readBack (hjson : json.Documented) (h : c.Valid) :
    ∃ js, configToJson json c (some 192) = some js ∧ cString js = js ∧ js.length ≤ 168 ∧
      configFromText json (some js) = .ok c := by
  have hlen := hjson.length_toDoc h
  refine ⟨json.serializeJson c.toDoc, ?_, ?_, hlen, ?_⟩
  · simp only [configToJson]
    rw [if_neg (by omega)]
  · rw [h.toDoc_eq, hjson.writes _ h.exact]
    refine List.takeWhile_eq_self_iff.mpr fun b hb => ?_
    exact decide_eq_true (JsonNumbers.writeObject_ne_zero _ b hb)
  · simp only [configFromText, hjson.read_toDoc h]
    exact configFromJson_toDoc h

theorem valid_of_configFromText {text : Option (List Byte)} (h : configFromText json text = .ok c) :
    c.Valid := by
  unfold configFromText at h
  split at h
  · cases h
  · split at h
    · cases h
    · exact valid_of_configFromJson h

/-- What the dispatcher accepts the radio reads, with the values that were checked. -/
theorem JsonLibrary.Documented.accepted (hjson : json.Documented) {text : List Byte}
    (h : coreLoraConfigStringValid json text = true) :
    ∃ v, json.deserializeJson text = some v ∧
      configFromText json (some (cString text)) = .ok v.longs := by
  rw [coreLoraConfigStringValid] at h
  split at h
  · cases h
  · next v hv =>
      obtain ⟨hobj, hvalid⟩ := Bool.and_eq_true_iff.mp h
      refine ⟨v, hv, ?_⟩
      simp only [configFromText, hjson.stops, hv]
      exact configFromJson_of_valid hobj hvalid

/-- The file that is written holds the configuration that was given, and is read as it. -/
theorem JsonLibrary.Documented.saved (hjson : json.Documented) {value js : List Byte}
    {written applied : Bool} (h : (saveLoraConfig json value written applied).file = some js) :
    ∃ c, configFromText json (some (cString value)) = .ok c ∧
      readConfigFile json (some js) = some c := by
  rw [saveLoraConfig] at h
  split at h
  · cases h
  · next c hc =>
      obtain ⟨text, htext, hstr, hlen, hread⟩ := hjson.readBack (valid_of_configFromText hc)
      simp only [htext] at h
      have hjs : text = js := by
        split at h
        · cases h
        · split at h <;> exact Option.some.inj h
      subst hjs
      refine ⟨c, hc, ?_⟩
      simp only [readConfigFile]
      rw [if_neg (by omega), hstr, hread]
      rfl

end Written

end LoraProto

end Voyager
