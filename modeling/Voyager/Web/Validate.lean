import Mathlib.Data.List.GetD
import Mathlib.Data.List.TakeWhile
import Voyager.Basic

/-!
# Which paths are never served

The first handler of the web server refuses a path that leads to the saved passwords under
`/config` or that climbs out of the directory it names. A path is a C string, the list of
its characters before the terminating zero; the server has decoded it and cut off the query,
so a question mark is a character like any other.
-/

namespace Voyager

namespace Web

namespace Validate

def SLASH : Byte := 0x2F
def BACKSLASH : Byte := 0x5C
def QUESTION : Byte := 0x3F
def DOT : Byte := 0x2E

/-- `"config"`. -/
def CONFIG : List Byte := [0x63, 0x6F, 0x6E, 0x66, 0x69, 0x67]

def asciiLower (c : Byte) : Byte := if c ≥ 0x41 ∧ c ≤ 0x5A then c - 0x41 + 0x61 else c

/-- `ieq_n`: the first `n` characters are equal up to case. -/
def ieqN (a b : List Byte) (n : ℕ) : Bool :=
  (List.range n).all fun i => asciiLower (byteAt a i) == asciiLower (byteAt b i)

def isSlash (c : Byte) : Bool := c = SLASH || c = BACKSLASH

/-- A character the inner loop of `path_is_blocked` moves over. -/
def inSegment (c : Byte) : Bool := !isSlash c && c ≠ QUESTION

/-- The segment that the loop body finds from `p` on. -/
def segmentAt (p : List Byte) : List Byte := (p.dropWhile isSlash).takeWhile inSegment

/-- Where the body leaves `p`. -/
def afterSegment (p : List Byte) : List Byte := (p.dropWhile isSlash).dropWhile inSegment

theorem segmentAt_append_afterSegment (p : List Byte) :
    segmentAt p ++ afterSegment p = p.dropWhile isSlash :=
  List.takeWhile_append_dropWhile

theorem segmentAt_ne_nil {p : List Byte} (hp : p.dropWhile isSlash ≠ [])
    (hquery : (afterSegment p).head? ≠ some QUESTION) : segmentAt p ≠ [] := by
  intro hnil
  have hafter := segmentAt_append_afterSegment p
  have hslash := List.head?_dropWhile_not isSlash p
  have hstop := List.head?_dropWhile_not inSegment (p.dropWhile isSlash)
  rw [hnil, List.nil_append] at hafter
  rw [← afterSegment, hafter] at hstop
  rw [hafter] at hquery
  obtain ⟨c, rest, hcons⟩ := List.exists_cons_of_ne_nil hp
  simp [hcons, inSegment] at hslash hstop hquery
  exact hquery (hstop hslash)

theorem length_afterSegment_lt {p : List Byte} (h : segmentAt p ≠ []) :
    (afterSegment p).length < p.length := by
  have hle := (List.dropWhile_suffix (l := p) isSlash).length_le
  have hpos := List.length_pos_of_ne_nil h
  rw [← segmentAt_append_afterSegment, List.length_append] at hle
  omega

/-- The loop of `path_is_blocked` from the character at `p` on. -/
def pathLoop (firstReal : Bool) (p : List Byte) : Bool :=
  if _hp : p.dropWhile isSlash = [] then false
  else if _hdot : segmentAt p = [DOT] then pathLoop firstReal (afterSegment p)
  else if segmentAt p = [DOT, DOT] then true
  else if firstReal && (segmentAt p).length == 6 && ieqN (segmentAt p) CONFIG 6 then true
  else if _hquery : (afterSegment p).head? = some QUESTION then false
  else pathLoop false (afterSegment p)
termination_by p.length
decreasing_by
  · exact length_afterSegment_lt (_hdot ▸ List.cons_ne_nil DOT [])
  · exact length_afterSegment_lt (segmentAt_ne_nil _hp _hquery)

/-- `path_is_blocked`; `none` is the null pointer. -/
def pathIsBlocked : Option (List Byte) → Bool
  | none => true
  | some url => pathLoop true url

/-! ## What the check is for -/

/-- The parts of a path between its slashes and backslashes. -/
def segments (path : List Byte) : List (List Byte) := path.splitOnP isSlash

/-- The parts that name a file or a directory, or climb. -/
def realSegments (path : List Byte) : List (List Byte) :=
  (segments path).filter fun s => s ≠ [] && s ≠ [DOT]

/-- Some part climbs. -/
def HasDotDot (path : List Byte) : Prop := [DOT, DOT] ∈ segments path

/-- The first real part is `config`, in any case. -/
def UnderConfig (path : List Byte) : Prop :=
  (realSegments path).head?.map (List.map asciiLower) = some CONFIG

instance (path : List Byte) : Decidable (HasDotDot path) :=
  inferInstanceAs (Decidable (_ ∈ _))

instance (path : List Byte) : Decidable (UnderConfig path) :=
  inferInstanceAs (Decidable (_ = _))

/-- The part of a path that the check looks at. -/
def beforeQuestion (path : List Byte) : List Byte := path.takeWhile fun c => c ≠ QUESTION

theorem hasDotDot_iff {path : List Byte} : HasDotDot path ↔ [DOT, DOT] ∈ realSegments path := by
  simp [HasDotDot, realSegments]

theorem realSegments_nil : realSegments [] = [] := by
  simp [realSegments, segments]

theorem realSegments_slash_cons {c : Byte} (hc : isSlash c = true) (path : List Byte) :
    realSegments (c :: path) = realSegments path := by
  rw [realSegments, segments, List.splitOnP_cons_eq_if_modifyHead, if_pos hc]
  simp [realSegments, segments]

/-- The parts of a path that starts with the part `s`. -/
theorem realSegments_append {s rest : List Byte} (hs : ∀ c ∈ s, isSlash c = false)
    (hrest : ∀ c ∈ rest.head?, isSlash c = true) :
    realSegments (s ++ rest) =
      (if s = [] ∨ s = [DOT] then [] else [s]) ++ realSegments rest := by
  cases rest with
  | nil =>
      rw [List.append_nil, realSegments_nil, List.append_nil, realSegments, segments,
        List.splitOnP_eq_singleton hs]
      by_cases hreal : s = [] ∨ s = [DOT]
      · rcases hreal with rfl | rfl <;> simp
      · rw [if_neg hreal]
        rw [not_or] at hreal
        simp [hreal]
  | cons c rest =>
      have hc := hrest c rfl
      rw [realSegments_slash_cons hc, realSegments, segments,
        List.splitOnP_append_cons_of_forall_mem hs c hc]
      by_cases hreal : s = [] ∨ s = [DOT]
      · rw [if_pos hreal]
        rcases hreal with rfl | rfl <;> simp [realSegments, segments]
      · rw [if_neg hreal]
        rw [not_or] at hreal
        simp [hreal, realSegments, segments]

theorem beforeQuestion_append {s : List Byte} (hs : ∀ c ∈ s, c ≠ QUESTION) (rest : List Byte) :
    beforeQuestion (s ++ rest) = s ++ beforeQuestion rest :=
  List.takeWhile_append_of_pos (by simpa using hs)

theorem realSegments_dropWhile_isSlash (p : List Byte) :
    realSegments (beforeQuestion (p.dropWhile isSlash)) = realSegments (beforeQuestion p) := by
  induction p with
  | nil => rfl
  | cons c p ih =>
      by_cases hc : isSlash c = true
      · have hne : c ≠ QUESTION := by
          rintro rfl
          exact absurd hc (by decide)
        have hbefore : beforeQuestion (c :: p) = c :: beforeQuestion p := by
          simp [beforeQuestion, hne]
        rw [List.dropWhile_cons_of_pos hc, ih, hbefore, realSegments_slash_cons hc]
      · rw [List.dropWhile_cons_of_neg hc]

/-- `ieq_n` on two strings of the length it is given. -/
theorem ieqN_iff {a b : List Byte} {n : ℕ} (ha : a.length = n) (hb : b.length = n) :
    ieqN a b n = true ↔ a.map asciiLower = b.map asciiLower := by
  rw [ieqN, List.all_eq_true]
  constructor
  · intro h
    refine List.ext_getElem (by simp [ha, hb]) fun i hi hi' => ?_
    rw [List.length_map] at hi hi'
    have hequal := h i (List.mem_range.mpr (ha ▸ hi))
    rw [beq_iff_eq, byteAt, byteAt, List.getD_eq_getElem _ _ hi, List.getD_eq_getElem _ _ hi']
      at hequal
    rw [List.getElem_map, List.getElem_map, hequal]
  · intro h i hi
    have hlt := List.mem_range.mp hi
    have hequal := congrArg (fun l => l[i]?) h
    rw [beq_iff_eq, byteAt, byteAt, List.getD_eq_getElem _ _ (ha ▸ hlt),
      List.getD_eq_getElem _ _ (hb ▸ hlt)]
    simpa [List.getElem?_eq_getElem, ha, hb, hlt] using hequal

/-- The check of the first real segment against `config`. -/
theorem isConfig_iff (firstReal : Bool) (s : List Byte) :
    (firstReal && s.length == 6 && ieqN s CONFIG 6) = true ↔
      firstReal = true ∧ s.map asciiLower = CONFIG := by
  have hconfig : CONFIG.map asciiLower = CONFIG := by decide
  rw [Bool.and_assoc, Bool.and_eq_true, Bool.and_eq_true, beq_iff_eq]
  refine and_congr_right fun _ => ?_
  constructor
  · rintro ⟨hlen, hequal⟩
    rw [(ieqN_iff hlen rfl).mp hequal, hconfig]
  · intro hmap
    have hlen : s.length = 6 := by
      have hlength := congrArg List.length hmap
      rwa [List.length_map] at hlength
    exact ⟨hlen, (ieqN_iff hlen rfl).mpr (hmap.trans hconfig.symm)⟩

/-- The real segments from `p` on are the one the body finds, if it is real, and those
after it. -/
theorem realSegments_eq_segmentAt (p : List Byte) :
    realSegments (beforeQuestion p) =
      (if segmentAt p = [] ∨ segmentAt p = [DOT] then [] else [segmentAt p]) ++
        realSegments (beforeQuestion (afterSegment p)) := by
  have hin : ∀ c ∈ segmentAt p, inSegment c = true := fun c hc => List.mem_takeWhile_imp hc
  have hslash : ∀ c ∈ segmentAt p, isSlash c = false := by
    intro c hc
    simpa using (Bool.and_eq_true_iff.mp (hin c hc)).1
  have hquestion : ∀ c ∈ segmentAt p, c ≠ QUESTION := by
    intro c hc
    simpa using (Bool.and_eq_true_iff.mp (hin c hc)).2
  have hstop : ∀ c ∈ (beforeQuestion (afterSegment p)).head?, isSlash c = true := by
    intro c hc
    have hafter := List.head?_dropWhile_not inSegment (p.dropWhile isSlash)
    rw [← afterSegment] at hafter
    revert hc hafter
    cases afterSegment p with
    | nil => simp [beforeQuestion]
    | cons d rest =>
        by_cases hd : d = QUESTION
        · simp [beforeQuestion, hd]
        · simp [beforeQuestion, inSegment, hd]
          rintro rfl
          exact id
  rw [← realSegments_dropWhile_isSlash, ← segmentAt_append_afterSegment,
    beforeQuestion_append hquestion, realSegments_append hslash hstop]

theorem beforeQuestion_of_head? {p : List Byte} (h : p.head? = some QUESTION) :
    beforeQuestion p = [] := by
  obtain ⟨rest, rfl⟩ := List.head?_eq_some_iff.mp h
  simp [beforeQuestion]

/-- The loop looks at every part before the first question mark. -/
theorem pathLoop_eq_true_iff (firstReal : Bool) (p : List Byte) :
    pathLoop firstReal p = true ↔
      HasDotDot (beforeQuestion p) ∨ firstReal = true ∧ UnderConfig (beforeQuestion p) := by
  rw [hasDotDot_iff, UnderConfig]
  induction firstReal, p using pathLoop.induct with
  | case1 firstReal p hp =>
      have hnone : realSegments (beforeQuestion p) = [] := by
        rw [← realSegments_dropWhile_isSlash, hp]
        exact realSegments_nil
      rw [pathLoop, dif_pos hp, hnone]
      simp
  | case2 firstReal p hp hdot ih =>
      rw [pathLoop, dif_neg hp, dif_pos hdot, ih, realSegments_eq_segmentAt p, if_pos (.inr hdot)]
      rfl
  | case3 firstReal p hp hdot hdotdot =>
      rw [pathLoop, dif_neg hp, dif_neg hdot, if_pos hdotdot, realSegments_eq_segmentAt p, hdotdot]
      simp
  | case4 firstReal p hp hdot hdotdot hconfig =>
      obtain ⟨hfirst, hmap⟩ := (isConfig_iff firstReal _).mp hconfig
      have hreal : ¬ (segmentAt p = [] ∨ segmentAt p = [DOT]) := by
        rintro (h | h)
        · rw [h] at hmap
          exact absurd hmap (by decide)
        · exact hdot h
      rw [pathLoop, dif_neg hp, dif_neg hdot, if_neg hdotdot, if_pos hconfig,
        realSegments_eq_segmentAt p, if_neg hreal]
      simp [hfirst, hmap]
  | case5 firstReal p hp hdot hdotdot hconfig hquery =>
      have hlast : realSegments (beforeQuestion (afterSegment p)) = [] := by
        rw [beforeQuestion_of_head? hquery]
        exact realSegments_nil
      rw [pathLoop, dif_neg hp, dif_neg hdot, if_neg hdotdot, if_neg hconfig, dif_pos hquery,
        realSegments_eq_segmentAt p, hlast, List.append_nil]
      rw [isConfig_iff] at hconfig
      by_cases hreal : segmentAt p = [] ∨ segmentAt p = [DOT]
      · simp [if_pos hreal]
      · simpa [if_neg hreal, Ne.symm hdotdot] using hconfig
  | case6 firstReal p hp hdot hdotdot hconfig hquery ih =>
      have hreal : ¬ (segmentAt p = [] ∨ segmentAt p = [DOT]) :=
        not_or.mpr ⟨segmentAt_ne_nil hp hquery, hdot⟩
      rw [pathLoop, dif_neg hp, dif_neg hdot, if_neg hdotdot, if_neg hconfig, dif_neg hquery, ih,
        realSegments_eq_segmentAt p, if_neg hreal]
      rw [isConfig_iff] at hconfig
      simp [Ne.symm hdotdot, hconfig]

/-- What is promised of the check. -/
structure Protects (url : List Byte) : Prop where
  climbing : HasDotDot url → pathIsBlocked (some url) = true
  config : UnderConfig url → pathIsBlocked (some url) = true
  others : QUESTION ∉ url → ¬ HasDotDot url → ¬ UnderConfig url → pathIsBlocked (some url) = false

theorem beforeQuestion_of_not_mem {url : List Byte} (h : QUESTION ∉ url) :
    beforeQuestion url = url := by
  refine List.takeWhile_eq_self_iff.mpr fun c hc => ?_
  have hne : c ≠ QUESTION := fun heq => h (heq ▸ hc)
  simpa using hne

/-- Cutting a path at its first question mark cuts one of its parts, and drops the later
ones. -/
theorem segments_beforeQuestion (url : List Byte) :
    ∃ front part cut after, segments (beforeQuestion url) = front ++ [part] ∧
      segments url = front ++ (part ++ cut) :: after ∧
        (cut = [] ∧ after = [] ∨ QUESTION ∈ cut) := by
  induction url with
  | nil => exact ⟨[], [], [], [], rfl, rfl, .inl ⟨rfl, rfl⟩⟩
  | cons c url ih =>
      obtain ⟨front, part, cut, after, hbefore, hurl, hcut⟩ := ih
      by_cases hquestion : c = QUESTION
      · subst hquestion
        have hparts : segments (QUESTION :: url) = (segments url).modifyHead (List.cons QUESTION) := by
          rw [segments, List.splitOnP_cons_eq_if_modifyHead, if_neg (by decide), segments]
        obtain ⟨first, rest, hfirst⟩ :=
          List.exists_cons_of_ne_nil (List.splitOnP_ne_nil isSlash url)
        have hfirst : segments url = first :: rest := hfirst
        refine ⟨[], [], QUESTION :: first, rest, ?_, ?_, .inr List.mem_cons_self⟩
        · simp [beforeQuestion, segments]
        · rw [hparts, hfirst]
          rfl
      · have hcons : beforeQuestion (c :: url) = c :: beforeQuestion url := by
          simp [beforeQuestion, hquestion]
        rw [hcons, segments, segments, List.splitOnP_cons_eq_if_modifyHead,
          List.splitOnP_cons_eq_if_modifyHead, ← segments, ← segments, hbefore, hurl]
        by_cases hslash : isSlash c = true
        · rw [if_pos hslash, if_pos hslash]
          exact ⟨[] :: front, part, cut, after, rfl, rfl, hcut⟩
        · rw [if_neg hslash, if_neg hslash]
          cases front with
          | nil => exact ⟨[], c :: part, cut, after, rfl, rfl, hcut⟩
          | cons first front => exact ⟨(c :: first) :: front, part, cut, after, rfl, rfl, hcut⟩

/-- `config` has no question mark in it, so it is found whatever follows. -/
theorem underConfig_beforeQuestion {url : List Byte} (h : UnderConfig url) :
    UnderConfig (beforeQuestion url) := by
  obtain ⟨front, part, cut, after, hbefore, hurl, hcut⟩ := segments_beforeQuestion url
  rw [UnderConfig, realSegments, hurl, List.filter_append] at h
  rw [UnderConfig, realSegments, hbefore, List.filter_append]
  cases hfront : front.filter fun s => s ≠ [] && s ≠ [DOT] with
  | cons s rest =>
      rw [hfront] at h
      exact h
  | nil =>
      rw [hfront] at h
      rcases hcut with ⟨rfl, rfl⟩ | hmem
      · rwa [List.append_nil] at h
      · -- the first real part would be the one with the question mark
        have hreal : part ++ cut ≠ [] ∧ part ++ cut ≠ [DOT] := by
          have hin : QUESTION ∈ part ++ cut := List.mem_append_right part hmem
          constructor
          · exact List.ne_nil_of_mem hin
          · intro hdot
            rw [hdot, List.mem_singleton] at hin
            exact absurd hin (by decide)
        have hmap : (part ++ cut).map asciiLower = CONFIG := by simpa [hreal] using h
        have hconfig : asciiLower QUESTION ∈ CONFIG :=
          hmap ▸ List.mem_map_of_mem (List.mem_append_right part hmem)
        exact absurd hconfig (by decide)

/-- The check keeps its promise unless a part climbs and the check stops before it: at a
question mark, with no climbing part and no `config` in front. -/
theorem protects_iff (url : List Byte) :
    Protects url ↔
      (HasDotDot url → HasDotDot (beforeQuestion url) ∨ UnderConfig (beforeQuestion url)) := by
  have hblocked := pathLoop_eq_true_iff true url
  simp only [true_and] at hblocked
  constructor
  · intro h hdotdot
    exact hblocked.mp (h.climbing hdotdot)
  · intro h
    constructor
    · intro hdotdot
      exact hblocked.mpr (h hdotdot)
    · intro hconfig
      exact hblocked.mpr (.inr (underConfig_beforeQuestion hconfig))
    · intro hquestion hdotdot hconfig
      rw [pathIsBlocked, Bool.eq_false_iff]
      intro htrue
      rw [hblocked, beforeQuestion_of_not_mem hquestion] at htrue
      exact htrue.elim hdotdot hconfig

/-- `/?/../config/`: the loop stops at the question mark, and the rest climbs out. -/
theorem not_protects_question : ¬ ∀ url, Protects url := by
  intro h
  set url : List Byte :=
    [SLASH, QUESTION, SLASH, DOT, DOT, SLASH, 0x63, 0x6F, 0x6E, 0x66, 0x69, 0x67, SLASH]
  have hblocked := (h url).climbing (by decide)
  rw [pathIsBlocked, pathLoop_eq_true_iff] at hblocked
  exact absurd hblocked (by decide)

end Validate

end Web

end Voyager
