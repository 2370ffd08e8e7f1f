import Mathlib.Data.List.DropRight
import Mathlib.Data.List.FinRange
import Mathlib.Data.List.GetD
import Mathlib.Logic.Function.Basic
import Voyager.Basic
import Voyager.Library.SlotRing
import Voyager.Library.Transition

/-!
# Sessions

A browser that has signed in carries a random token in a cookie. The device keeps the
last `AUTH_MAX_SESSIONS` tokens in a ring, forgets all of them when the password is set
or removed, and one of them when it is revoked. Several tasks do this at the same time,
and one that makes a session looks for a password some time before it puts the token in.

`log` is the history of what the calls did, the oldest first; the theorem reads off it
which cookies are accepted.
-/

namespace Voyager

namespace Web

namespace Sessions

def PASSWORD_MIN_LEN : ℕ := 8
def PASSWORD_MAX_LEN : ℕ := 63
def SESSION_HEX_LEN : ℕ := 32
abbrev AUTH_MAX_SESSIONS : ℕ := 4

instance : NeZero AUTH_MAX_SESSIONS := ⟨Nat.succ_ne_zero 3⟩

/-- `"vsid"`. -/
def AUTH_SESSION_COOKIE : List Byte := [118, 115, 105, 100]

/-! ## Strings

A C string is the list of its characters before the terminating zero. -/

/-- `password_valid`. -/
def passwordValid : Option (List Byte) → Bool
  | none => false
  | some p => PASSWORD_MIN_LEN ≤ p.length && p.length ≤ PASSWORD_MAX_LEN

def isLowerHex (c : Byte) : Bool := (48 ≤ c && c ≤ 57) || (97 ≤ c && c ≤ 102)

/-- `is_session_token`. -/
def isSessionToken (t : List Byte) : Bool := t.length == SESSION_HEX_LEN && t.all isLowerHex

/-- A string that can be a token: what a session is known by. -/
structure SessionToken where
  chars : List Byte
  valid : isSessionToken chars = true
  deriving DecidableEq

/-- `ct_equal`. -/
def ctEqual (a b : List Byte) (n : ℕ) : Bool :=
  (List.range n).foldl (fun d i => d ||| (byteAt a i ^^^ byteAt b i)) 0 == 0

def isCookieSeparator (c : Byte) : Bool := c = 32 || c = 59 || c = 9

/-- A name or a value of the header without the blanks after it. -/
def trimRight (s : List Byte) : List Byte := s.rdropWhile (· = 32)

/-- The end of a name. -/
def endsKey (c : Byte) : Bool := c = 61 || c = 59

theorem length_dropWhile_le {p : Byte → Bool} (s : List Byte) :
    (s.dropWhile p).length ≤ s.length :=
  (List.dropWhile_suffix p).length_le

/-- The loop of `cookie_get` moves on when it finds a name without a value. -/
theorem length_rest_lt {header rest cs : List Byte} {c d : Byte}
    (hp : header.dropWhile isCookieSeparator = c :: cs)
    (hrest : (c :: cs).dropWhile (fun c => !endsKey c) = d :: rest) (hvalue : d ≠ 61) :
    (d :: rest).length < header.length := by
  have hlength : (c :: cs).length ≤ header.length := hp ▸ length_dropWhile_le header
  have hsep : isCookieSeparator c = false := by
    have hhead := List.head_dropWhile_not isCookieSeparator (l := header) (by simp [hp])
    simpa [hp] using hhead
  have hkey : endsKey c = false := by
    by_contra hends
    rw [Bool.not_eq_false] at hends
    rw [List.dropWhile_cons_of_neg (by simp [hends]), List.cons.injEq] at hrest
    simp only [isCookieSeparator, endsKey, Bool.or_eq_false_iff, Bool.or_eq_true,
      decide_eq_false_iff_not, decide_eq_true_eq] at hsep hends
    rcases hends with rfl | rfl
    · exact hvalue hrest.1.symm
    · exact hsep.1.2 rfl
  rw [← hrest, List.dropWhile_cons_of_pos (by simp [hkey])]
  have hle := length_dropWhile_le (p := fun c => !endsKey c) cs
  rw [List.length_cons] at hlength
  omega

/-- `cookie_get`: the value of the cookie `name`, when it fits. -/
def cookieGet (name : List Byte) (outSize : ℕ) (header : List Byte) : Option (List Byte) :=
  match hp : header.dropWhile isCookieSeparator with
  | [] => none
  | c :: cs =>
      let key := (c :: cs).takeWhile fun c => !endsKey c
      match hrest : (c :: cs).dropWhile fun c => !endsKey c with
      | [] => none
      | d :: rest =>
          if hd : d ≠ 61 then cookieGet name outSize (d :: rest)
          else
            let value := trimRight (rest.takeWhile fun c => !decide (c = 59))
            if trimRight key = name then
              if value.length + 1 > outSize then none else some value
            else cookieGet name outSize (rest.dropWhile fun c => !decide (c = 59))
termination_by header.length
decreasing_by
  · exact length_rest_lt hp hrest hd
  · have hheader : (c :: cs).length ≤ header.length := hp ▸ length_dropWhile_le header
    have hvalue : (d :: rest).length ≤ (c :: cs).length := hrest ▸ length_dropWhile_le (c :: cs)
    have hdrop := length_dropWhile_le (p := fun c => !decide (c = 59)) rest
    rw [List.length_cons] at hvalue
    exact Nat.lt_of_le_of_lt hdrop (Nat.lt_of_lt_of_le hvalue hheader)

/-! ## The calls -/

/-- The token that `auth_session_create` makes of four random words. -/
def tokenChars (words : Fin 4 → UInt32) : List Byte :=
  (List.finRange 4).flatMap fun w =>
    (List.range 8).map fun i => hexDigit ((words w >>> UInt32.ofNat (4 * i)) &&& 0xF).toNat

theorem isLowerHex_hexDigit (n : UInt32) : isLowerHex (hexDigit (n &&& 0xF).toNat) = true := by
  have hall : ∀ k < 16, isLowerHex (hexDigit k) = true := by decide
  refine hall _ ?_
  rw [UInt32.toNat_and]
  exact Nat.lt_succ_of_le Nat.and_le_right

theorem isSessionToken_tokenChars (words : Fin 4 → UInt32) :
    isSessionToken (tokenChars words) = true := by
  rw [isSessionToken, Bool.and_eq_true, beq_iff_eq, List.all_eq_true]
  constructor
  · simp [tokenChars, List.finRange_succ, SESSION_HEX_LEN]
  · intro c hc
    obtain ⟨w, -, hw⟩ := List.mem_flatMap.mp hc
    obtain ⟨i, -, rfl⟩ := List.mem_map.mp hw
    exact isLowerHex_hexDigit _

def sessionToken (words : Fin 4 → UInt32) : SessionToken :=
  ⟨tokenChars words, isSessionToken_tokenChars words⟩

/-- What the calls share. `ha1` is the digest of the password, empty when none is set. -/
structure Auth where
  nvs : Option (List Byte)
  ha1 : List Byte
  sessions : SlotRing SessionToken AUTH_MAX_SESSIONS

/-- `auth_init`. -/
def authInit (nvs : Option (List Byte)) : Auth where
  nvs := nvs
  ha1 := (nvs.filter fun v => v.length = 32).getD []
  sessions := .empty

namespace Auth

variable (auth : Auth)

/-- `auth_is_set`. -/
def isSet : Bool := auth.ha1 ≠ []

/-- The loop of `session_valid` and of `auth_session_revoke`: the slot has this token. -/
def matchesSlot (token : List Byte) (i : Fin AUTH_MAX_SESSIONS) : Bool :=
  (auth.sessions.slots i).any fun t => ctEqual t.chars token 32

/-- `session_valid`. -/
def sessionValid (token : List Byte) : Bool :=
  isSessionToken token && (List.finRange AUTH_MAX_SESSIONS).any (auth.matchesSlot token)

/-- `auth_session_revoke`. -/
def sessionRevoke : Option (List Byte) → Auth
  | none => auth
  | some token =>
      if token.length ≠ 32 then auth
      else
        { auth with
          sessions.slots := fun i =>
            if auth.matchesSlot token i then none else auth.sessions.slots i }

/-- `auth_check`, for the headers `Cookie` and `Authorization`; `authenticate` is the
server's check of the digest against the stored one. -/
def check (cookie authz : Option (List Byte)) (authenticate : List Byte → Bool) : Bool :=
  if ¬ auth.isSet then false
  else if (cookie.bind (cookieGet AUTH_SESSION_COOKIE 40)).any auth.sessionValid then true
  else
    match authz with
    | none => false
    | some v =>
        -- `"Digest"`, in any case of the letters
        v.length ≥ 7 &&
          (v.take 6).map (fun c => if 65 ≤ c ∧ c ≤ 90 then c + 32 else c) ==
            [100, 105, 103, 101, 115, 116] &&
          authenticate auth.ha1

end Auth

/-! ## Tasks -/

/-- What the server's digest of a password is: the hex digits of an MD5. -/
structure Ha1 where
  chars : List Byte
  length_eq : chars.length = 32

/-- Where a task stands in a call. -/
inductive Task
  | idle
  /-- `auth_session_create` has seen a password. -/
  | creating
  /-- `auth_set` has stored the new digest in the flash. -/
  | setting (ha1 : Ha1)
  /-- `auth_clear` has removed the stored digest. -/
  | clearing

/-- What a call has done. -/
inductive Event
  | passwordSet
  | passwordCleared
  | inserted (t : SessionToken)
  | revoked (t : SessionToken)
  deriving DecidableEq

structure State (τ : Type*) where
  auth : Auth
  tasks : τ → Task
  log : List Event

inductive Action (τ : Type*)
  | sessionCreate (t : τ)
  /-- The random words have been drawn. -/
  | sessionInsert (t : τ) (words : Fin 4 → UInt32)
  /-- `nvsOk`: the flash took the digest. -/
  | set (t : τ) (password : Option (List Byte)) (nvsOk : Bool)
  | setCommit (t : τ)
  | clear (t : τ) (nvsOk : Bool)
  | clearCommit (t : τ)
  | sessionRevoke (token : Option (List Byte))

/-- After `auth_init`. -/
def boot (τ : Type*) (nvs : Option (List Byte)) : State τ :=
  { auth := authInit nvs, tasks := fun _ => .idle, log := [] }

/-- The event of a revocation; other strings than tokens revoke nothing. -/
def revokedEvent (token : Option (List Byte)) : List Event :=
  match token with
  | some chars => if h : isSessionToken chars = true then [.revoked ⟨chars, h⟩] else []
  | none => []

namespace State

variable {τ : Type*} [DecidableEq τ] (digest : List Byte → Ha1)

def goto (s : State τ) (t : τ) (p : Task) : State τ :=
  { s with tasks := Function.update s.tasks t p }

def step (s : State τ) : Action τ → Option (State τ)
  | .sessionCreate t =>
      match s.tasks t with
      | .idle => some (if s.auth.isSet then s.goto t .creating else s)
      | _ => none
  | .sessionInsert t words =>
      match s.tasks t with
      | .creating =>
          some { s.goto t .idle with
            auth.sessions := s.auth.sessions.push (sessionToken words)
            log := s.log ++ [.inserted (sessionToken words)] }
      | _ => none
  | .set t password nvsOk =>
      match s.tasks t with
      | .idle =>
          if passwordValid password && nvsOk then
            let ha1 := digest (password.getD [])
            some { s.goto t (.setting ha1) with auth.nvs := some ha1.chars }
          else some s
      | _ => none
  | .setCommit t =>
      match s.tasks t with
      | .setting ha1 =>
          some { s.goto t .idle with
            auth := { s.auth with ha1 := ha1.chars, sessions := .empty }
            log := s.log ++ [.passwordSet] }
      | _ => none
  | .clear t nvsOk =>
      match s.tasks t with
      | .idle =>
          some { s.goto t .clearing with auth.nvs := if nvsOk then none else s.auth.nvs }
      | _ => none
  | .clearCommit t =>
      match s.tasks t with
      | .clearing =>
          some { s.goto t .idle with
            auth := { s.auth with ha1 := [], sessions := .empty }
            log := s.log ++ [.passwordCleared] }
      | _ => none
  | .sessionRevoke token =>
      some { s with auth := s.auth.sessionRevoke token, log := s.log ++ revokedEvent token }

end State

/-! ## What the history says -/

/-- A password is set, by the last call that set or removed one. -/
def passwordSet (atBoot : Bool) (log : List Event) : Bool :=
  log.foldl
    (fun set e => if e = .passwordSet then true else if e = .passwordCleared then false else set)
    atBoot

def Event.isInserted : Event → Bool
  | .inserted _ => true
  | _ => false

/-- The token was put in after the last call that set or removed the password, it was not
revoked since, and fewer than `AUTH_MAX_SESSIONS` tokens were put in after it. -/
def Live (token : List Byte) (log : List Event) : Prop :=
  ∃ earlier t later, log = earlier ++ .inserted t :: later ∧ t.chars = token ∧
    .passwordSet ∉ later ∧ .passwordCleared ∉ later ∧ .revoked t ∉ later ∧
    later.countP Event.isInserted < AUTH_MAX_SESSIONS

/-- What an event does to the ring of tokens. -/
def Event.op : Event → SlotRing.Op SessionToken
  | .passwordSet | .passwordCleared => .clear
  | .inserted t => .push t
  | .revoked t => .erase t

/-! ## Comparing tokens -/

theorem foldl_or_eq_zero_iff (f : ℕ → Byte) (n : ℕ) :
    (List.range n).foldl (fun d i => d ||| f i) 0 = 0 ↔ ∀ i < n, f i = 0 := by
  induction n with
  | zero => simp
  | succ n ih =>
      rw [List.range_succ, List.foldl_append, List.foldl_cons, List.foldl_nil,
        UInt8.or_eq_zero_iff, ih]
      constructor
      · rintro ⟨hbefore, hlast⟩ i hi
        rcases Nat.lt_succ_iff_lt_or_eq.mp hi with hi | rfl
        · exact hbefore i hi
        · exact hlast
      · exact fun h => ⟨fun i hi => h i (Nat.lt_succ_of_lt hi), h n (Nat.lt_succ_self n)⟩

/-- The comparison in constant time is equality, on strings of the length it is given. -/
theorem ctEqual_iff {a b : List Byte} {n : ℕ} (ha : a.length = n) (hb : b.length = n) :
    ctEqual a b n = true ↔ a = b := by
  rw [ctEqual, beq_iff_eq, foldl_or_eq_zero_iff]
  constructor
  · intro h
    refine List.ext_getElem (ha.trans hb.symm) fun i hia hib => ?_
    have hi := UInt8.xor_eq_zero_iff.mp (h i (ha ▸ hia))
    rwa [byteAt, byteAt, List.getD_eq_getElem _ _ hia, List.getD_eq_getElem _ _ hib] at hi
  · rintro rfl i -
    exact UInt8.xor_self

theorem SessionToken.length_chars (t : SessionToken) : t.chars.length = 32 := by
  have h := t.valid
  rw [isSessionToken, Bool.and_eq_true, beq_iff_eq] at h
  exact h.1

theorem SessionToken.ctEqual_iff (t u : SessionToken) :
    ctEqual t.chars u.chars 32 = true ↔ t = u := by
  rw [Sessions.ctEqual_iff t.length_chars u.length_chars]
  constructor
  · intro h
    cases t
    cases u
    cases h
    rfl
  · rintro rfl
    rfl

section Auth

variable {auth : Auth} {t : SessionToken} {token : List Byte}

theorem matchesSlot_iff {i : Fin AUTH_MAX_SESSIONS} :
    auth.matchesSlot t.chars i = true ↔ auth.sessions.slots i = some t := by
  rw [Auth.matchesSlot, Option.any_eq_true]
  constructor
  · rintro ⟨u, hu, heq⟩
    rw [hu, (u.ctEqual_iff t).mp heq]
  · intro h
    exact ⟨t, h, (t.ctEqual_iff t).mpr rfl⟩

theorem sessionValid_iff :
    auth.sessionValid token = true ↔
      ∃ t : SessionToken, t.chars = token ∧ ∃ i, auth.sessions.slots i = some t := by
  rw [Auth.sessionValid, Bool.and_eq_true, List.any_eq_true]
  constructor
  · rintro ⟨hvalid, i, -, hi⟩
    exact ⟨⟨token, hvalid⟩, rfl, i, matchesSlot_iff.mp hi⟩
  · rintro ⟨t, rfl, i, hi⟩
    exact ⟨t.valid, i, List.mem_finRange i, matchesSlot_iff.mpr hi⟩

/-- A revocation erases the token from the ring. -/
theorem sessionRevoke_token (auth : Auth) (t : SessionToken) :
    auth.sessionRevoke (some t.chars) = { auth with sessions := auth.sessions.erase t } := by
  have hslots : ∀ i, (if auth.matchesSlot t.chars i then none else auth.sessions.slots i) =
      if auth.sessions.slots i = some t then none else auth.sessions.slots i := by
    intro i
    exact if_congr matchesSlot_iff rfl rfl
  rw [Auth.sessionRevoke, if_neg (by simp [t.length_chars]), SlotRing.erase, funext hslots]

/-- No slot holds a string that is no token. -/
theorem sessionRevoke_of_not_token (h : isSessionToken token = false) :
    auth.sessionRevoke (some token) = auth := by
  rw [Auth.sessionRevoke]
  split
  · rfl
  · rename_i hlength
    have hnone : ∀ i, auth.matchesSlot token i = false := by
      intro i
      rw [Auth.matchesSlot, ← Bool.not_eq_true, Option.any_eq_true]
      rintro ⟨u, -, heq⟩
      have hsame := (ctEqual_iff u.length_chars (not_not.mp hlength)).mp heq
      rw [← hsame, u.valid] at h
      cases h
    have hslots : (fun i => if auth.matchesSlot token i then none else auth.sessions.slots i) =
        auth.sessions.slots := by
      funext i
      rw [hnone i, if_neg Bool.false_ne_true]
    rw [hslots]

end Auth

/-! ## Every run -/

theorem passwordSet_append (atBoot : Bool) (log log' : List Event) :
    passwordSet atBoot (log ++ log') = passwordSet (passwordSet atBoot log) log' :=
  List.foldl_append

theorem passwordSet_revokedEvent (atBoot : Bool) (token : Option (List Byte)) :
    passwordSet atBoot (revokedEvent token) = atBoot := by
  unfold revokedEvent
  split
  · split
    · rfl
    · rfl
  · rfl

/-- The state is what the history makes of it. -/
structure Inv {τ : Type*} (atBoot : Bool) (s : State τ) : Prop where
  sessions : s.auth.sessions = SlotRing.replay (s.log.map Event.op)
  isSet : s.auth.isSet = passwordSet atBoot s.log

section Runs

variable {τ : Type*} [DecidableEq τ] {digest : List Byte → Ha1} {atBoot : Bool} {s s' : State τ}
  {a : Action τ}

omit [DecidableEq τ] in
/-- An event that is appended does to the ring what its operation does. -/
theorem Inv.sessions_append (h : Inv atBoot s) (e : Event) :
    SlotRing.replay ((s.log ++ [e]).map Event.op) = s.auth.sessions.apply e.op := by
  rw [List.map_append, List.map_singleton, SlotRing.replay_append_singleton, h.sessions]

omit [DecidableEq τ] in
theorem Inv.revoke (h : Inv atBoot s) (token : Option (List Byte)) :
    Inv atBoot
      { s with auth := s.auth.sessionRevoke token, log := s.log ++ revokedEvent token } := by
  have hset : passwordSet atBoot (s.log ++ revokedEvent token) = passwordSet atBoot s.log := by
    rw [passwordSet_append, passwordSet_revokedEvent]
  cases token with
  | none =>
      rw [revokedEvent, List.append_nil]
      exact ⟨h.sessions, h.isSet⟩
  | some chars =>
      by_cases hvalid : isSessionToken chars = true
      · have hevent : revokedEvent (some chars) = [.revoked ⟨chars, hvalid⟩] := dif_pos hvalid
        have hrevoke := sessionRevoke_token s.auth ⟨chars, hvalid⟩
        dsimp only at hrevoke
        rw [hrevoke]
        constructor
        · rw [hevent, h.sessions_append]
          rfl
        · exact h.isSet.trans hset.symm
      · have hevent : revokedEvent (some chars) = [] := dif_neg hvalid
        rw [sessionRevoke_of_not_token (Bool.not_eq_true _ ▸ hvalid), hevent, List.append_nil]
        exact ⟨h.sessions, h.isSet⟩

theorem Inv.step (h : Inv atBoot s) (hstep : s.step digest a = some s') : Inv atBoot s' := by
  cases a with
  | sessionCreate t =>
      rw [State.step] at hstep
      split at hstep
      · split at hstep
        · cases hstep
          exact ⟨h.sessions, h.isSet⟩
        · cases hstep
          exact h
      · cases hstep
  | sessionInsert t words =>
      rw [State.step] at hstep
      split at hstep
      · cases hstep
        constructor
        · exact (h.sessions_append (.inserted (sessionToken words))).symm
        · rw [passwordSet_append]
          exact h.isSet
      · cases hstep
  | set t password nvsOk =>
      rw [State.step] at hstep
      split at hstep
      · split at hstep
        · cases hstep
          exact ⟨h.sessions, h.isSet⟩
        · cases hstep
          exact h
      · cases hstep
  | setCommit t =>
      rw [State.step] at hstep
      split at hstep
      · rename_i ha1 _
        cases hstep
        have hne : ha1.chars ≠ [] := List.ne_nil_of_length_pos (ha1.length_eq ▸ Nat.succ_pos 31)
        constructor
        · exact (h.sessions_append .passwordSet).symm
        · rw [passwordSet_append]
          exact decide_eq_true hne
      · cases hstep
  | clear t nvsOk =>
      rw [State.step] at hstep
      split at hstep
      · cases hstep
        exact ⟨h.sessions, h.isSet⟩
      · cases hstep
  | clearCommit t =>
      rw [State.step] at hstep
      split at hstep
      · cases hstep
        constructor
        · exact (h.sessions_append .passwordCleared).symm
        · rw [passwordSet_append]
          rfl
      · cases hstep
  | sessionRevoke token =>
      cases hstep
      exact h.revoke token

omit [DecidableEq τ] in
theorem inv_boot (nvs : Option (List Byte)) : Inv (authInit nvs).isSet (boot τ nvs) :=
  ⟨rfl, rfl⟩

theorem inv_run {nvs : Option (List Byte)} {as : List (Action τ)}
    (hrun : Transition.exec (State.step digest) (boot τ nvs) as = some s) :
    Inv (authInit nvs).isSet s :=
  Transition.exec_invariant (fun _ _ _ h hstep => Inv.step h hstep) (inv_boot nvs) hrun

end Runs

/-! ## Which cookies are accepted -/

theorem survives_map_op {t : SessionToken} {log : List Event} :
    SlotRing.Survives AUTH_MAX_SESSIONS t (log.map Event.op) ↔
      .passwordSet ∉ log ∧ .passwordCleared ∉ log ∧ .revoked t ∉ log ∧
        log.countP Event.isInserted < AUTH_MAX_SESSIONS := by
  have hcount : (log.map Event.op).countP SlotRing.Op.isPush = log.countP Event.isInserted := by
    rw [List.countP_map]
    refine List.countP_congr fun e _ => ?_
    cases e with
    | passwordSet | passwordCleared | inserted | revoked => rfl
  have hclear : SlotRing.Op.clear ∈ log.map Event.op ↔
      .passwordSet ∈ log ∨ .passwordCleared ∈ log := by
    rw [List.mem_map]
    constructor
    · rintro ⟨e, he, hop⟩
      cases e with
      | passwordSet => exact .inl he
      | passwordCleared => exact .inr he
      | inserted u => cases hop
      | revoked u => cases hop
    · rintro (h | h)
      · exact ⟨_, h, rfl⟩
      · exact ⟨_, h, rfl⟩
  have herase : SlotRing.Op.erase t ∈ log.map Event.op ↔ .revoked t ∈ log := by
    rw [List.mem_map]
    constructor
    · rintro ⟨e, he, hop⟩
      cases e with
      | revoked u =>
          cases hop
          exact he
      | passwordSet => cases hop
      | passwordCleared => cases hop
      | inserted u => cases hop
    · exact fun h => ⟨_, h, rfl⟩
  constructor
  · rintro ⟨hnone, hkept, hfew⟩
    rw [hclear, not_or] at hnone
    exact ⟨hnone.1, hnone.2, mt herase.mpr hkept, hcount ▸ hfew⟩
  · rintro ⟨hset, hcleared, hkept, hfew⟩
    exact ⟨mt hclear.mp (not_or.mpr ⟨hset, hcleared⟩), mt herase.mp hkept, hcount.symm ▸ hfew⟩

/-- The ring that the history makes holds the tokens that are live. -/
theorem live_iff {token : List Byte} {log : List Event} :
    Live token log ↔ ∃ t : SessionToken, t.chars = token ∧
      ∃ i : Fin AUTH_MAX_SESSIONS, (SlotRing.replay (log.map Event.op)).slots i = some t := by
  constructor
  · rintro ⟨earlier, t, later, rfl, rfl, hsurvives⟩
    refine ⟨t, rfl, SlotRing.exists_slots_replay_iff.mpr
      ⟨earlier.map Event.op, later.map Event.op, ?_, survives_map_op.mpr hsurvives⟩⟩
    rw [List.map_append, List.map_cons]
    rfl
  · rintro ⟨t, rfl, hi⟩
    obtain ⟨before, after, hsplit, hsurvives⟩ := SlotRing.exists_slots_replay_iff.mp hi
    obtain ⟨earlier, rest, rfl, rfl, hrest⟩ := List.map_eq_append_iff.mp hsplit
    obtain ⟨e, later, rfl, hop, rfl⟩ := List.map_eq_cons_iff.mp hrest
    cases e with
    | inserted u =>
        cases hop
        exact ⟨earlier, t, later, rfl, rfl, survives_map_op.mp hsurvives⟩
    | passwordSet => cases hop
    | passwordCleared => cases hop
    | revoked u => cases hop

/-- In every run a cookie is accepted exactly when a password is set and the history says
that its token is live. -/
theorem cookie_accepted_iff {τ : Type*} [DecidableEq τ] (digest : List Byte → Ha1)
    (nvs : Option (List Byte)) (as : List (Action τ)) (s : State τ)
    (hrun : Transition.exec (State.step digest) (boot τ nvs) as = some s)
    (header token : List Byte) (hcookie : cookieGet AUTH_SESSION_COOKIE 40 header = some token)
    (authenticate : List Byte → Bool) :
    s.auth.check (some header) none authenticate = true ↔
      passwordSet (authInit nvs).isSet s.log = true ∧ Live token s.log := by
  have hinv := inv_run hrun
  have hcheck : s.auth.check (some header) none authenticate =
      (s.auth.isSet && s.auth.sessionValid token) := by
    rw [Auth.check, Option.bind_some, hcookie]
    cases s.auth.isSet with
    | false => rfl
    | true =>
        cases hvalid : s.auth.sessionValid token with
        | false => simp [hvalid]
        | true => simp [hvalid]
  rw [hcheck, Bool.and_eq_true, sessionValid_iff, hinv.sessions, hinv.isSet, live_iff]

/-- A password is set and a session is made. -/
def signInRun : List (Action Unit) :=
  [.set () (some [112, 97, 115, 115, 119, 111, 114, 100]) true, .setCommit (), .sessionCreate (),
    .sessionInsert () fun _ => 0]

theorem cookie_accepted_iff_signIn :
    ∃ s, Transition.exec (State.step fun _ => ⟨List.replicate 32 48, rfl⟩) (boot Unit none)
        signInRun = some s ∧
      (s.auth.check (some ([118, 115, 105, 100, 61] ++ List.replicate 32 48)) none fun _ => false) =
        true := by
  have hsome : ((Transition.exec (State.step fun _ => ⟨List.replicate 32 48, rfl⟩)
      (boot Unit none) signInRun).map State.log) =
        some [.passwordSet, .inserted (sessionToken fun _ => 0)] := by decide
  obtain ⟨s, hrun, hlog⟩ := Option.map_eq_some_iff.mp hsome
  have hcookie : cookieGet AUTH_SESSION_COOKIE 40
      ([118, 115, 105, 100, 61] ++ List.replicate 32 48) = some (List.replicate 32 48) := by
    rw [cookieGet]
    decide
  refine ⟨s, hrun, (cookie_accepted_iff _ none signInRun s hrun _ _ hcookie _).mpr ?_⟩
  rw [hlog]
  refine ⟨rfl, [.passwordSet], sessionToken fun _ => 0, [], rfl, by decide, ?_⟩
  decide

end Sessions

end Web

end Voyager
