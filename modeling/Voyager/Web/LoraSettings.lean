import Voyager.Kermit.Negotiation
import Voyager.Lora.Config

/-!
# The radio settings of the page

The page checks the settings with `validateLoraConfig` before it sends them as a JSON text.
The dispatcher and the radio then check them again, each in its own way.
-/

namespace Voyager

open LoraProto
open Kermit (JsString lit decimal strBytes)

namespace LoraSettings

/-! ## JavaScript values -/

/-- `Number` of a string, and the text of a number that is no small integer. -/
structure JsNumbers where
  ofString : JsString → Double
  toText : ℚ → JsString

inductive JsValue
  | number (d : Double)
  | string (s : JsString)
  /-- An object that is no array, with its properties. -/
  | object (get : JsString → JsValue)
  | array
  /-- A value of another type, or null. -/
  | other

/-- The characters that `trim` removes. -/
def isWhiteSpace (c : UInt16) : Bool :=
  (9 ≤ c && c ≤ 13) || c = 0x20 || c = 0xA0 || c = 0x1680 || (0x2000 ≤ c && c ≤ 0x200A) ||
    c = 0x2028 || c = 0x2029 || c = 0x202F || c = 0x205F || c = 0x3000 || c = 0xFEFF

def toNumber (numbers : JsNumbers) : JsValue → Double
  | .number d => d
  | .string s => if s.all isWhiteSpace then .nan else numbers.ofString s
  | _ => .nan

def isInt : Double → Bool
  | .finite q => (q.floor : ℚ) = q
  | _ => false

/-- `d < lo || d > hi`. -/
def outside (d : Double) (lo hi : ℕ) : Bool :=
  match d with
  | .nan => false
  | .infinity _ => true
  | .finite q => q < lo || hi < q

/-! ## The check -/

/-- The properties of a configuration, in the order in which they are written. -/
inductive Key
  | freq
  | txPower
  | spreadingFactor
  | signalBandwidth
  | codingRate4
  | syncWord
  deriving DecidableEq, Repr

def Key.name : Key → JsString
  | freq => lit "freq"
  | txPower => lit "TxPower"
  | spreadingFactor => lit "SpreadingFactor"
  | signalBandwidth => lit "SignalBandwidth"
  | codingRate4 => lit "CodingRate4"
  | syncWord => lit "SyncWord"

def Key.all : List Key :=
  [.freq, .txPower, .spreadingFactor, .signalBandwidth, .codingRate4, .syncWord]

def LORA_LIMITS : List (Key × ℕ × ℕ) :=
  [(.freq, 410000000, 525000000), (.txPower, 2, 20), (.spreadingFactor, 6, 12),
    (.codingRate4, 5, 8), (.syncWord, 0, 255)]

def LORA_BANDWIDTHS : List ℕ :=
  [7800, 10400, 15600, 20800, 31250, 41700, 62500, 125000, 250000, 500000]

structure Validated where
  ok : Bool
  errors : List JsString
  config : Option (Key → Double)

def limitError (c : Key → Double) (lim : Key × ℕ × ℕ) : Option JsString :=
  if !isInt (c lim.1) || outside (c lim.1) lim.2.1 lim.2.2 then
    some (lim.1.name ++ lit " must be an integer " ++ decimal lim.2.1 ++ lit "-" ++
      decimal lim.2.2)
  else none

def bandwidthError (c : Key → Double) : Option JsString :=
  if LORA_BANDWIDTHS.any fun bw => c .signalBandwidth = .finite bw then none
  else
    some (lit "SignalBandwidth must be one of " ++
      (lit ", ").intercalate (LORA_BANDWIDTHS.map decimal))

def validateLoraConfig (numbers : JsNumbers) (cfg : JsValue) : Validated :=
  match cfg with
  | .object get =>
      let c := fun k : Key => toNumber numbers (get k.name)
      let errors := LORA_LIMITS.filterMap (limitError c) ++ (bandwidthError c).toList
      { ok := errors.length = 0, errors, config := some c }
  | _ => { ok := false, errors := [lit "not an object"], config := none }

/-! ## The text -/

/-- A number as `JSON.stringify` writes it. -/
def numberText (numbers : JsNumbers) : Double → JsString
  | .finite q =>
      if (q.floor : ℚ) = q ∧ q.floor.natAbs ≤ 2 ^ 53 then
        (if q < 0 then lit "-" else []) ++ decimal q.floor.natAbs
      else numbers.toText q
  | _ => lit "null"

/-- `JSON.stringify` of a configuration. -/
def stringify (numbers : JsNumbers) (c : Key → Double) : JsString :=
  lit "\x7b" ++ (lit ",").intercalate
    (Key.all.map fun k => lit "\"" ++ k.name ++ lit "\":" ++ numberText numbers (c k)) ++
    lit "\x7d"

/-! ## Accepted settings -/

section Accepted

variable {numbers : JsNumbers} {cfg : JsValue} {c : Key → Double} {conf : LoraConfig}

/-- The properties that hold the values of `conf`. -/
def ofConfig (conf : LoraConfig) : Key → Double
  | .freq => .finite conf.freq
  | .txPower => .finite conf.txPower
  | .spreadingFactor => .finite conf.spreadingFactor
  | .signalBandwidth => .finite conf.signalBandwidth
  | .codingRate4 => .finite conf.codingRate4
  | .syncWord => .finite conf.syncWord

theorem eq_of_limitError {lim : Key × ℕ × ℕ} (h : limitError c lim = none) :
    ∃ n : ℤ, c lim.1 = .finite n ∧ lim.2.1 ≤ n ∧ n ≤ lim.2.2 := by
  rw [limitError] at h
  split at h
  · cases h
  · next hnot =>
      rw [Bool.or_eq_true, not_or, Bool.not_eq_true', Bool.not_eq_false] at hnot
      obtain ⟨hint, hout⟩ := hnot
      cases hd : c lim.1 with
      | nan =>
          rw [hd] at hint
          cases hint
      | infinity _ =>
          rw [hd] at hint
          cases hint
      | finite q =>
          rw [hd] at hint hout
          have hq : (q.floor : ℚ) = q := of_decide_eq_true hint
          simp only [outside, Bool.or_eq_true, decide_eq_true_eq, not_or, not_lt] at hout
          rw [← hq] at hout
          refine ⟨q.floor, by rw [hq], ?_, ?_⟩
          · exact_mod_cast hout.1
          · exact_mod_cast hout.2

theorem eq_of_bandwidthError (h : bandwidthError c = none) :
    ∃ bw : ℤ, c .signalBandwidth = .finite bw ∧ validBandwidth bw = true := by
  rw [bandwidthError] at h
  split at h
  · next hany =>
      obtain ⟨bw, hbw, heq⟩ := List.any_eq_true.mp hany
      have hall : ∀ bw ∈ LORA_BANDWIDTHS, validBandwidth bw = true := by decide
      refine ⟨bw, ?_, hall bw hbw⟩
      rw [of_decide_eq_true heq, Int.cast_natCast]
  · cases h

/-- Accepted settings are the values of a valid configuration. -/
theorem exists_config (h : (validateLoraConfig numbers cfg).ok = true) :
    ∃ conf, conf.Valid ∧ (validateLoraConfig numbers cfg).config = some (ofConfig conf) := by
  cases cfg with
  | object get =>
      have hnil := List.length_eq_zero_iff.mp (of_decide_eq_true h)
      obtain ⟨hlimits, hbw⟩ := List.append_eq_nil_iff.mp hnil
      obtain ⟨bw, hbw, hvalid⟩ := eq_of_bandwidthError (Option.toList_eq_nil_iff.mp hbw)
      have hlimit := fun lim hlim => eq_of_limitError (List.filterMap_eq_nil_iff.mp hlimits lim hlim)
      simp only [LORA_LIMITS, List.forall_mem_cons, List.not_mem_nil, false_implies, implies_true,
        and_true] at hlimit
      obtain ⟨⟨freq, hfreq, frange⟩, ⟨tx, htx, trange⟩, ⟨sf, hsf, srange⟩, ⟨cr, hcr, crange⟩,
        ⟨sw, hsw, wrange⟩⟩ := hlimit
      refine ⟨⟨freq, tx, sf, bw, cr, sw⟩, ⟨frange, trange, srange, hvalid, crange, wrange⟩, ?_⟩
      rw [validateLoraConfig, Option.some.injEq]
      funext k
      cases k with
      | freq => exact hfreq
      | txPower => exact htx
      | spreadingFactor => exact hsf
      | signalBandwidth => exact hbw
      | codingRate4 => exact hcr
      | syncWord => exact hsw
  | _ => cases h

theorem strBytes_decimal (n : ℕ) : strBytes (decimal n) = JsonNumbers.writeNat n := by
  rw [decimal, JsonNumbers.writeNat]
  split
  · rfl
  · rw [strBytes, List.map_map]
    refine List.map_congr_left fun d hd => ?_
    have hlt := Nat.digits_lt_base (by decide : 1 < 10) (List.mem_reverse.mp hd)
    have hall : ∀ d < 10, (UInt16.ofNat (d + 48)).toUInt8 = UInt8.ofNat (d + 48) := by decide
    exact hall d hlt

theorem strBytes_append (s t : JsString) : strBytes (s ++ t) = strBytes s ++ strBytes t :=
  List.map_append

/-- Small natural numbers are written in decimal. -/
theorem strBytes_numberText {n : ℤ} (hlo : 0 ≤ n) (hhi : n ≤ 2 ^ 53) :
    strBytes (numberText numbers (.finite n)) = JsonNumbers.writeNat n.toNat := by
  have hfloor : (n : ℚ).floor = n := Rat.floor_intCast n
  have hneg : ¬ (n : ℚ) < 0 := not_lt.mpr (by exact_mod_cast hlo)
  have habs : n.natAbs = n.toNat := by omega
  simp only [numberText, hfloor]
  rw [if_pos ⟨trivial, by omega⟩, if_neg hneg, List.nil_append, strBytes_decimal, habs]

theorem strBytes_member {k : Key} {n : ℤ} (hlo : 0 ≤ n) (hhi : n ≤ 2 ^ 53) :
    strBytes (lit "\"" ++ k.name ++ lit "\":" ++ numberText numbers (.finite n)) =
      JsonNumbers.writeMember (strBytes k.name, n.toNat) := by
  have hname : strBytes (lit "\"" ++ k.name ++ lit "\":") =
      FlatJson.writeString (strBytes k.name) ++ [0x3A] := by
    cases k <;> decide
  rw [strBytes_append, hname, strBytes_numberText hlo hhi, JsonNumbers.writeMember,
    List.append_assoc, List.singleton_append]

/-- Members with commas between them. -/
theorem strBytes_intercalate {ts : List JsString} {ms : List JsonNumbers.Member}
    (h : ts.map strBytes = ms.map JsonNumbers.writeMember) (t : JsString) :
    strBytes ((lit ",").intercalate (t :: ts) ++ lit "\x7d") =
      strBytes t ++ JsonNumbers.writeRest ms := by
  induction ms generalizing ts t with
  | nil =>
      rw [List.map_nil, List.map_eq_nil_iff] at h
      rw [h, strBytes_append, List.intercalate_singleton]
      rfl
  | cons m ms ih =>
      obtain ⟨t', ts', rfl, hm, hms⟩ := List.map_eq_cons_iff.mp h
      rw [List.intercalate_cons_cons, List.append_assoc, strBytes_append, ih hms, hm,
        strBytes_append, List.append_assoc]
      rfl

/-- The text that is sent is the text that the device writes. -/
theorem strBytes_stringify (h : conf.Valid) :
    strBytes (stringify numbers (ofConfig conf)) = JsonNumbers.writeObject conf.members := by
  obtain ⟨hfreq, htx, hsf, hbw, hcr, hsw⟩ := h
  have hbw := validBandwidth_le hbw
  have hmember : ∀ n : ℤ, 0 ≤ n ∧ n ≤ 525000000 → ∀ k : Key,
      strBytes (lit "\"" ++ k.name ++ lit "\":" ++ numberText numbers (.finite n)) =
        JsonNumbers.writeMember (strBytes k.name, n.toNat) :=
    fun n hn k => strBytes_member hn.1 (hn.2.trans (by decide))
  have htail : ((Key.all.tail.map fun k =>
      lit "\"" ++ k.name ++ lit "\":" ++ numberText numbers (ofConfig conf k)).map strBytes) =
        conf.members.tail.map JsonNumbers.writeMember := by
    simp only [Key.all, LoraConfig.members, List.tail_cons, List.map_cons, List.map_nil, ofConfig]
    rw [hmember conf.txPower (by omega), hmember conf.spreadingFactor (by omega),
      hmember conf.signalBandwidth (by omega), hmember conf.codingRate4 (by omega),
      hmember conf.syncWord (by omega)]
    rfl
  have hkeys : Key.all = .freq :: Key.all.tail := rfl
  rw [stringify, List.append_assoc, strBytes_append, hkeys, List.map_cons,
    strBytes_intercalate htail, ofConfig, hmember conf.freq (by omega)]
  rfl

end Accepted

/-! ## The chain of checks -/

variable {json : JsonLibrary}

/-- What the page accepts the dispatcher accepts, what the dispatcher accepts the radio reads,
and what the radio reads is written to the file and read back from it, always with the same
values. -/
theorem lora_config_chain (hjson : json.Documented) (numbers : JsNumbers) :
    (∀ cfg, (validateLoraConfig numbers cfg).ok = true →
      ∃ conf, (validateLoraConfig numbers cfg).config = some (ofConfig conf) ∧
        coreLoraConfigStringValid json (strBytes (stringify numbers (ofConfig conf))) = true ∧
        configFromText json (some (cString (strBytes (stringify numbers (ofConfig conf))))) =
          .ok conf) ∧
    (∀ text, coreLoraConfigStringValid json text = true →
      ∃ v, json.deserializeJson text = some v ∧
        configFromText json (some (cString text)) = .ok v.longs) ∧
    ∀ text c, configFromText json text = .ok c →
      ∃ js, configToJson json c (some 192) = some js ∧
        configFromText json (some (cString js)) = .ok c := by
  refine ⟨fun cfg h => ?_, fun text h => hjson.accepted h, fun text c h => ?_⟩
  · obtain ⟨conf, hvalid, hconfig⟩ := exists_config h
    have hread : json.deserializeJson (strBytes (stringify numbers (ofConfig conf))) =
        some conf.toDoc := by
      rw [strBytes_stringify hvalid, hjson.reads _ hvalid.exact, hvalid.toDoc_eq]
    refine ⟨conf, hconfig, ?_, ?_⟩
    · simp only [coreLoraConfigStringValid, hread]
      exact hvalid.toDoc_valid
    · simp only [configFromText, hjson.stops, hread]
      exact configFromJson_toDoc hvalid
  · obtain ⟨js, hjs, hstr, -, hread⟩ := hjson.readBack (valid_of_configFromText h)
    refine ⟨js, hjs, ?_⟩
    rw [hstr]
    exact hread

/-- The members of an object of natural numbers. -/
def naturals : JsonVariant → List JsonNumbers.Member
  | .object members => members.map fun m => (m.1, m.2.asLong.toNat)
  | _ => []

/-- A library that knows objects of natural numbers only. -/
def compactJson : JsonLibrary where
  deserializeJson text := (JsonNumbers.readObject (cString text)).map .numbers
  serializeJson v := JsonNumbers.writeObject (naturals v)

theorem compactJson_documented : compactJson.Documented where
  stops text := by
    have hstr : cString (cString text) = cString text := by simp [cString, List.takeWhile_takeWhile]
    simp only [compactJson, hstr]
  writes ms _ := by
    have hms : naturals (.numbers ms) = ms := by
      rw [JsonVariant.numbers, naturals, List.map_map]
      exact List.map_id' ms
    simp only [compactJson, hms]
  reads ms hms := by
    have hstr : cString (JsonNumbers.writeObject ms) = JsonNumbers.writeObject ms :=
      List.takeWhile_eq_self_iff.mpr fun b hb =>
        decide_eq_true (JsonNumbers.writeObject_ne_zero ms b hb)
    simp only [compactJson, hstr]
    rw [JsonNumbers.readObject_writeObject hms.plain, Option.map_some]

/-- Settings for a long range. -/
def longRange : LoraConfig where
  freq := 433920000
  txPower := 17
  spreadingFactor := 12
  signalBandwidth := 62500
  codingRate4 := 8
  syncWord := 18

/-- They are read from the form of the page. -/
def longRangeForm : JsValue :=
  .object fun name =>
    (Key.all.find? fun k => decide (k.name = name)).elim .other fun k =>
      .number (ofConfig longRange k)

theorem lora_config_chain_longRange :
    ∃ conf js, ofConfig conf = ofConfig longRange ∧
      coreLoraConfigStringValid compactJson
        (strBytes (stringify ⟨fun _ => .nan, fun _ => []⟩ (ofConfig longRange))) = true ∧
      (∃ v, v.longs = conf ∧ compactJson.deserializeJson
        (strBytes (stringify ⟨fun _ => .nan, fun _ => []⟩ (ofConfig longRange))) = some v) ∧
      configToJson compactJson conf (some 192) = some js ∧
      configFromText compactJson (some (cString js)) = .ok conf := by
  obtain ⟨hpage, hdispatcher, hfile⟩ :=
    lora_config_chain compactJson_documented ⟨fun _ => .nan, fun _ => []⟩
  obtain ⟨conf, hconfig, haccepted, hradio⟩ := hpage longRangeForm (by decide +kernel)
  have hform : (validateLoraConfig ⟨fun _ => .nan, fun _ => []⟩ longRangeForm).config =
      some (ofConfig longRange) :=
    congrArg some (funext fun k => by cases k <;> rfl)
  have hsame : ofConfig conf = ofConfig longRange := Option.some.inj (hconfig.symm.trans hform)
  obtain ⟨v, hv, hlongs⟩ := hdispatcher _ haccepted
  obtain ⟨js, hjs, hback⟩ := hfile _ conf hradio
  rw [hradio, Except.ok.injEq] at hlongs
  rw [hsame] at haccepted hv
  exact ⟨conf, js, hsame, haccepted, ⟨v, hlongs.symm, hv⟩, hjs, hback⟩

end LoraSettings

end Voyager
