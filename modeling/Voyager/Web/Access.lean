import Mathlib.Data.List.Basic
import Voyager.Web.Routes

/-!
# Who may do what

What the web server does for a request is allowed to whoever sent it, in every run: requests
come on several connections, their bodies later than their headers, and the password and the
state of the file system change in between. A request that is not signed in leaves nothing
behind once there is a password.
-/

namespace Voyager

namespace Web

namespace Routes

open LoraProto (LORA_MAX_PAYLOAD)
open Payload Sessions Validate

/-! ## The origin -/

def lower (s : List Byte) : List Byte := s.map asciiLower

theorem asciiLower_eq_zero : ∀ c : Byte, asciiLower c = 0 → c = 0 :=
  forall_byte (by decide +kernel)

theorem asciiLower_eq_slash : ∀ c : Byte, asciiLower c = SLASH ↔ c = SLASH :=
  forall_byte (by decide +kernel)

theorem ieqN_take (a b : List Byte) (n : ℕ) : ieqN (a.take n) b n = ieqN a b n := by
  rw [ieqN, ieqN, Bool.eq_iff_iff, List.all_eq_true, List.all_eq_true]
  refine forall₂_congr fun i hi => ?_
  have hlt := List.mem_range.mp hi
  have hbyte : byteAt (a.take n) i = byteAt a i := by
    simp [byteAt, List.getD_eq_getElem?_getD, List.getElem?_take_of_lt hlt]
  rw [hbyte]

/-- `ieq_n` against a string without a zero looks at the beginning of the other one. -/
theorem ieqN_prefix_iff {a b : List Byte} {n : ℕ} (hb : b.length = n) (hzero : 0 ∉ b) :
    ieqN a b n = true ↔ lower (a.take n) = lower b := by
  rcases Nat.lt_or_ge a.length n with hlt | hle
  · have hne : lower (a.take n) ≠ lower b := by
      intro heq
      have hlength := congrArg List.length heq
      simp only [lower, List.length_map, List.length_take] at hlength
      omega
    refine iff_of_false ?_ hne
    intro h
    have hat := List.all_eq_true.mp h a.length (List.mem_range.mpr hlt)
    rw [beq_iff_eq, byteAt, List.getD_eq_default _ _ (le_refl _), byteAt,
      List.getD_eq_getElem _ _ (hb ▸ hlt)] at hat
    have hlow : asciiLower 0 = 0 := by decide
    exact hzero (asciiLower_eq_zero _ (hat.symm.trans hlow) ▸ List.getElem_mem _)
  · rw [← ieqN_take]
    exact ieqN_iff (by simp [hle]) hb

theorem lower_append (a b : List Byte) : lower (a ++ b) = lower a ++ lower b :=
  List.map_append

theorem getLast?_lower (a : List Byte) :
    (lower a).getLast? = some SLASH ↔ a.getLast? = some SLASH := by
  rw [lower, List.getLast?_map]
  cases a.getLast? with
  | none => simp
  | some c => simp [asciiLower_eq_slash]

theorem byteAt_append_length (a : List Byte) (c : Byte) : byteAt (a ++ [c]) a.length = c := by
  simp [byteAt]

theorem beq_length_ieqN_iff (a host : List Byte) {n : ℕ} (hn : n ≤ a.length) :
    (n == host.length && ieqN a host n) = true ↔ lower (a.take n) = lower host := by
  rw [Bool.and_eq_true, beq_iff_eq]
  constructor
  · rintro ⟨rfl, h⟩
    rw [← ieqN_take] at h
    exact (ieqN_iff (by simp [hn]) rfl).mp h
  · intro h
    have hlength := congrArg List.length h
    simp only [lower, List.length_map, List.length_take, Nat.min_eq_left hn] at hlength
    refine ⟨hlength, ?_⟩
    rw [← ieqN_take]
    exact (ieqN_iff (by simp [hn]) hlength.symm).mpr h

theorem sameHost_iff (a host : List Byte) :
    sameHost a host = true ↔
      (lower a = lower host ∧ host.getLast? ≠ some SLASH) ∨ lower a = lower host ++ [SLASH] := by
  have hslash : lower [SLASH] = [SLASH] := by decide
  rcases List.eq_nil_or_concat' a with rfl | ⟨b, c, rfl⟩
  · rw [sameHost, if_neg (by simp), beq_length_ieqN_iff _ _ (le_refl _)]
    cases host with
    | nil => simp [lower]
    | cons d host => simp [lower]
  · rw [sameHost, List.length_append, List.length_singleton, Nat.add_sub_cancel,
      byteAt_append_length]
    by_cases hc : c = SLASH
    · subst hc
      rw [if_pos ⟨Nat.succ_pos _, rfl⟩, beq_length_ieqN_iff _ _ (by simp), List.take_left,
        lower_append, hslash, List.append_left_inj]
      refine ⟨Or.inr, ?_⟩
      rintro (⟨heq, hhost⟩ | h)
      · exact absurd ((getLast?_lower host).mp (heq ▸ by simp)) hhost
      · exact h
    · have hlast : (lower (b ++ [c])).getLast? ≠ some SLASH := by
        rw [ne_eq, getLast?_lower]
        simpa using hc
      rw [if_neg fun h => hc h.2, beq_length_ieqN_iff _ _ (by simp),
        List.take_of_length_le (by simp)]
      constructor
      · intro heq
        exact .inl ⟨heq, fun h => hlast (heq ▸ (getLast?_lower host).mpr h)⟩
      · rintro (⟨heq, -⟩ | heq)
        · exact heq
        · exact absurd (heq ▸ by simp) hlast

/-- The origin names the scheme and the host, in any case of the letters; one slash may follow,
which is never read as part of the host. -/
def SameOrigin (o host : List Byte) : Prop :=
  ∃ scheme ∈ [ascii "http://", ascii "https://"],
    (lower o = scheme ++ lower host ∧ host.getLast? ≠ some SLASH) ∨
      lower o = scheme ++ lower host ++ [SLASH]

theorem matchesScheme_iff (o : List Byte) {scheme : List Byte} {n : ℕ} (hscheme : lower scheme = scheme)
    (hn : scheme.length = n) (hzero : 0 ∉ scheme) :
    (ieqN o scheme n && o.length > n) = true ↔
      lower o = scheme ++ lower (o.drop n) ∧ o.drop n ≠ [] := by
  rw [Bool.and_eq_true, ieqN_prefix_iff hn hzero, hscheme, decide_eq_true_eq, ne_eq,
    List.drop_eq_nil_iff, not_le]
  refine and_congr_left fun _ => ?_
  conv_rhs => rw [← List.take_append_drop n o, lower_append, List.take_append_drop]
  rw [List.append_left_inj]

theorem originHost_iff {o a : List Byte} :
    originHost o = some a ↔
      a ≠ [] ∧ ∃ scheme ∈ [ascii "http://", ascii "https://"],
        lower o = scheme ++ lower a ∧ o.drop scheme.length = a := by
  have hscheme : lower (ascii "http://") = ascii "http://" ∧ 0 ∉ ascii "http://" := by decide
  have hscheme' : lower (ascii "https://") = ascii "https://" ∧ 0 ∉ ascii "https://" := by decide
  have hlen : (ascii "http://").length = 7 := by decide
  have hlen' : (ascii "https://").length = 8 := by decide
  have hhttp := matchesScheme_iff o hscheme.1 hlen hscheme.2
  have hhttps := matchesScheme_iff o hscheme'.1 hlen' hscheme'.2
  have hlength : (ascii "http://").length = 7 ∧ (ascii "https://").length = 8 := by decide
  rw [originHost]
  constructor
  · intro h
    split_ifs at h with h1 h2
    · obtain ⟨heq, hne⟩ := hhttp.mp h1
      cases h
      exact ⟨hne, _, List.mem_cons_self, heq, by rw [hlength.1]⟩
    · obtain ⟨heq, hne⟩ := hhttps.mp h2
      cases h
      exact ⟨hne, _, List.mem_cons_of_mem _ List.mem_cons_self, heq, by rw [hlength.2]⟩
  · rintro ⟨hne, scheme, hmem, heq, hdrop⟩
    rcases List.mem_cons.mp hmem with rfl | hmem
    · rw [hlength.1] at hdrop
      subst hdrop
      rw [if_pos (hhttp.mpr ⟨heq, hne⟩)]
    · rw [List.mem_singleton] at hmem
      subst hmem
      rw [hlength.2] at hdrop
      subst hdrop
      rw [if_neg, if_pos (hhttps.mpr ⟨heq, hne⟩)]
      -- the fifth character is a colon or an `s`
      intro h
      have hsame := congrArg (fun l => l[4]?) ((hhttp.mp h).1.symm.trans heq)
      simp [ascii] at hsame

theorem originAllowed_iff (origin : Option (List Byte)) (host : List Byte) :
    originAllowed origin host = true ↔
      origin = none ∨ origin = some [] ∨
        ∃ o, origin = some o ∧ host ≠ [] ∧ SameOrigin o host := by
  cases origin with
  | none => simp [originAllowed]
  | some o =>
      rw [originAllowed]
      by_cases ho : o = []
      · simp [ho]
      · by_cases hhost : host = []
        · simp [ho, hhost]
        · rw [if_neg ho, if_neg hhost, Option.any_eq_true]
          simp only [reduceCtorEq, Option.some.injEq, ho, false_or]
          constructor
          · rintro ⟨a, ha, hsame⟩
            obtain ⟨-, scheme, hscheme, heq, -⟩ := originHost_iff.mp ha
            refine ⟨o, rfl, hhost, scheme, hscheme, ?_⟩
            rw [heq, List.append_assoc, List.append_right_inj, List.append_right_inj]
            exact (sameHost_iff a host).mp hsame
          · rintro ⟨_, rfl, -, scheme, hscheme, hsame⟩
            obtain ⟨tail, htail, hend⟩ : ∃ tail, lower o = scheme ++ tail ∧
                ((tail = lower host ∧ host.getLast? ≠ some SLASH) ∨
                  tail = lower host ++ [SLASH]) := by
              rcases hsame with ⟨heq, hlast⟩ | heq
              · exact ⟨_, heq, .inl ⟨rfl, hlast⟩⟩
              · exact ⟨_, by rw [heq, List.append_assoc], .inr rfl⟩
            have hlower : lower (o.drop scheme.length) = tail := by
              rw [lower, List.map_drop, ← lower, htail, List.drop_left]
            have hne : tail ≠ [] := by
              rcases hend with ⟨rfl, -⟩ | rfl
              · simpa [lower] using hhost
              · simp
            refine ⟨_, originHost_iff.mpr ⟨?_, scheme, hscheme, hlower ▸ htail, rfl⟩, ?_⟩
            · intro hnil
              exact hne (by rw [← hlower, hnil, lower, List.map_nil])
            · rw [sameHost_iff, hlower]
              exact hend

/-! ## The handler that takes a request -/

namespace Site

variable {lib : Library} {s : Site} {r : Request} {env : Env}

theorem canHandle_handlerFor (lib : Library) (s : Site) (r : Request) :
    s.canHandle lib r (s.handlerFor lib r) = true := by
  rw [handlerFor]
  cases hfind : handlers.find? (s.canHandle lib r) with
  | none => rfl
  | some h => exact List.find?_some hfind

/-- A request that one of the first handlers takes goes to one of them. -/
theorem handlerFor_mem (as : List Handler) {bs : List Handler} (hhandlers : handlers = as ++ bs)
    (htakes : ∃ h ∈ as, s.canHandle lib r h = true) : s.handlerFor lib r ∈ as := by
  obtain ⟨h, hfind⟩ := Option.isSome_iff_exists.mp (List.find?_isSome.mpr htakes)
  rw [handlerFor, hhandlers, List.find?_append, hfind]
  exact List.mem_of_find?_eq_some hfind

theorem preGateTakes_eq_false (lib : Library) (hne : s.handlerFor lib r ≠ .preGate) :
    s.preGateTakes r = false := by
  rw [← Bool.not_eq_true]
  intro htakes
  have hmem : s.handlerFor lib r ∈ [Handler.preGate] :=
    handlerFor_mem _ rfl ⟨_, List.mem_singleton_self _, htakes⟩
  exact hne (List.mem_singleton.mp hmem)

theorem streamGate_eq_false
    (hne : s.handlerFor lib r = .rawEvents ∨ s.handlerFor lib r = .webSocket) :
    s.canHandle lib r .streamGate = false := by
  rw [← Bool.not_eq_true]
  intro htakes
  have hmem : s.handlerFor lib r ∈ [Handler.preGate, .setupGate, .streamGate] :=
    handlerFor_mem _ rfl ⟨_, by simp, htakes⟩
  rcases hne with h | h <;> simp [h] at hmem

end Site

/-- What the library is relied on for: a route takes its own path and else only paths below it,
a stream takes a GET of its own path, and a file is looked for only in a GET. -/
structure Library.Documented (lib : Library) : Prop where
  matches_self (uri : List Byte) : lib.routeMatches uri uri = true
  matches_only {uri url : List Byte} :
    lib.routeMatches uri url = true → url = uri ∨ uri ++ [SLASH] <+: url
  events_only {uri : List Byte} {r : Request} :
    lib.takesEvents uri r = true → r.method = .get ∧ r.url = uri
  webSocket_only {uri : List Byte} {r : Request} :
    lib.takesWebSocket uri r = true → r.method = .get ∧ r.url = uri
  asksFiles_only {r : Request} : lib.asksFiles r = true → r.method = .get

/-- A library that serves one file. -/
def pathLibrary : Library where
  routeMatches uri url := url = uri || (uri ++ [SLASH]).isPrefixOf url
  takesEvents uri r := r.method = .get && r.url = uri && r.connection = .events
  takesWebSocket uri r := r.method = .get && r.url = uri && r.connection = .webSocket
  asksFiles r := r.method = .get && r.connection = .plain
  fileFor url := if url = ascii "/" then some (ascii "/index.html") else none
  json := flatJson
  deserialize _ := none
  digest _ := ⟨List.replicate 32 0x30, List.length_replicate⟩

theorem pathLibrary_documented : pathLibrary.Documented where
  matches_self uri := by simp [pathLibrary]
  matches_only h := by simpa [pathLibrary] using h
  events_only h := by
    simp only [pathLibrary, Bool.and_eq_true, decide_eq_true_eq] at h
    exact h.1
  webSocket_only h := by
    simp only [pathLibrary, Bool.and_eq_true, decide_eq_true_eq] at h
    exact h.1
  asksFiles_only h := by
    simp only [pathLibrary, Bool.and_eq_true, decide_eq_true_eq] at h
    exact h.1

/-! ## What is allowed -/

/-- A path that the check lets through: up to its first question mark it neither climbs nor leads
to the saved passwords. -/
def Servable (url : List Byte) : Prop :=
  ¬ HasDotDot (beforeQuestion url) ∧ ¬ UnderConfig (beforeQuestion url)

theorem servable_of_not_blocked {url : List Byte} (h : pathIsBlocked (some url) = false) :
    Servable url := by
  rw [← Bool.not_eq_true, pathIsBlocked, pathLoop_eq_true_iff, not_or] at h
  exact ⟨h.1, fun hconfig => h.2 ⟨rfl, hconfig⟩⟩

/-- What a request may do that was `seen` when its headers came and runs `now`. -/
def Permitted (lib : Library) (seen now : Site) (r : Request) : Effect → Prop
  | .setPassword password =>
      Site.originOk r = true ∧ r.password = some password ∧
        passwordValid (some password) = true ∧ (now.auth.isSet = true → now.authCheck r = true)
  | .createSession _ => now.authCheck r = true
  | .revokeSession token =>
      Site.originOk r = true ∧ r.cookie.bind (cookieGet AUTH_SESSION_COOKIE 40) = some token
  | .queueTx payload =>
      Site.originOk r = true ∧ now.authCheck r = true ∧
        lib.json.measureJson payload ≤ LORA_MAX_PAYLOAD
  | .spawn _ => Site.originOk r = true ∧ now.authCheck r = true
  | .upload _ => Site.originOk r = true ∧ now.authCheck r = true
  | .openStream => Site.originOk r = true ∧ seen.authCheck r = true
  | .readConfig name =>
      now.authCheck r = true ∧ isAllowedConfigName name = true ∧ now.fsOffline = false
  | .lookUp url => r.method = .get ∧ (url = r.url ∧ Servable r.url ∨ url = ascii "/index.html")
  | .sendFile path =>
      r.method = .get ∧
        (lib.fileFor r.url = some path ∧ Servable r.url ∨ path = ascii "/index.html")

/-- What a reply may show. -/
def Disclosable (lib : Library) (now : Site) (r : Request) : Body → Prop
  | .config name _ =>
      now.authCheck r = true ∧ isAllowedConfigName name = true ∧ isWifiConfigName name = false
  | .wifiConfig doc =>
      now.authCheck r = true ∧ ascii "wifi_pass" ∉ doc ∧ ascii "ap_pass" ∉ doc
  | .session _ => now.authCheck r = true
  | .updateForm => now.authCheck r = true
  | .setupPage => now.auth.isSet = false
  | .file path => lib.fileFor r.url = some path ∧ Servable r.url ∨ path = ascii "/index.html"
  | _ => True

/-- All of what a handler leaves is allowed. -/
def Allowed (lib : Library) (seen now : Site) (r : Request) (result : Site.Result) : Prop :=
  (∀ e ∈ result.2.1, Permitted lib seen now r e) ∧ Disclosable lib now r result.1.body

namespace Site

variable {lib : Library} {seen s : Site} {r : Request} {env : Env}

theorem isSet_of_authCheck (h : s.authCheck r = true) : s.auth.isSet = true := by
  rw [← Bool.not_eq_false]
  intro hset
  simp [authCheck, Auth.check, hset] at h

theorem allowed_refuse {reply : Reply} (h : Disclosable lib s r reply.body) :
    Allowed lib seen s r (s.refuse reply) :=
  ⟨fun _ he => absurd he List.not_mem_nil, h⟩

theorem allowed_sendError (code : ℕ) (err : String) :
    Allowed lib seen s r (s.refuse (sendError code err)) :=
  allowed_refuse trivial

theorem allowed_one {reply : Reply} {e : Effect} {s' : Site} (h : Permitted lib seen s r e)
    (hbody : Disclosable lib s r reply.body) : Allowed lib seen s r (reply, [e], s') :=
  ⟨fun _ he => List.mem_singleton.mp he ▸ h, hbody⟩

/-- `guard` answers itself, or the request is signed in and comes from the page. -/
theorem guard_cases (stateChanging : Bool) :
    (∃ reply, s.guard r stateChanging = some reply ∧ ∀ lib, Disclosable lib s r reply.body) ∨
      (s.guard r stateChanging = none ∧ s.authCheck r = true ∧
        (stateChanging = true → originOk r = true)) := by
  simp only [guard, authRequire]
  split_ifs with horigin hset hcheck
  · exact .inl ⟨_, rfl, fun _ => trivial⟩
  · exact .inl ⟨_, rfl, fun _ => trivial⟩
  · refine .inr ⟨rfl, hcheck, fun hchanging => ?_⟩
    simpa [hchanging] using horigin
  · exact .inl ⟨_, rfl, fun _ => trivial⟩

theorem allowed_guarded {stateChanging : Bool} {result : Result}
    (h : s.authCheck r = true → (stateChanging = true → originOk r = true) →
      Allowed lib seen s r result) :
    Allowed lib seen s r (s.guarded r stateChanging result) := by
  rw [guarded]
  rcases guard_cases (s := s) (r := r) stateChanging with
    ⟨reply, hguard, hreply⟩ | ⟨hguard, hcheck, horigin⟩
  · rw [hguard]
    exact allowed_refuse (hreply lib)
  · rw [hguard]
    exact h hcheck horigin

theorem allowed_setPassword (horigin : originOk r = true)
    (hcheck : s.auth.isSet = true → s.authCheck r = true) :
    Allowed lib seen s r (s.setPassword lib r env) := by
  rw [setPassword]
  cases hpassword : r.password with
  | none => exact allowed_sendError _ _
  | some password =>
      simp only []
      split_ifs with hvalid hnvs
      · exact allowed_sendError _ _
      · exact allowed_sendError _ _
      · rw [Bool.not_eq_false] at hvalid
        exact allowed_one ⟨horigin, hpassword, hvalid, hcheck⟩ trivial

theorem allowed_loraTransmit (hcheck : s.authCheck r = true) (horigin : originOk r = true) :
    Allowed lib seen s r (s.loraTransmit lib r env) := by
  rw [loraTransmit]
  set name := getUsername env.username env.mac
  cases hdata : r.data with
  | none => exact allowed_sendError _ _
  | some text =>
      simp only [checkLoraTransmit]
      split_ifs with hnil hlong hwrapped hobject
      · exact allowed_sendError _ _
      · exact allowed_sendError _ _
      · exact allowed_sendError _ _
      · exact allowed_sendError _ _
      · simp only [enqueueTx]
        split_ifs with hheap hroom
        · exact allowed_sendError _ _
        · exact allowed_sendError _ _
        · exact allowed_one ⟨horigin, hcheck, not_lt.mp hwrapped⟩ trivial

theorem not_mem_redacted {doc : Option JsonObject} {doc' : JsonObject}
    (h : redactWifiConfig doc = some doc') :
    ascii "wifi_pass" ∉ doc' ∧ ascii "ap_pass" ∉ doc' := by
  obtain ⟨d, -, rfl⟩ := Option.map_eq_some_iff.mp h
  simp [AList.mem_erase]

theorem allowed_apiConfig (hcheck : s.authCheck r = true) :
    Allowed lib seen s r (s.apiConfig lib r env) := by
  rw [apiConfig]
  cases hname : r.name with
  | none => exact allowed_sendError _ _
  | some name =>
      simp only []
      by_cases hallowed : isAllowedConfigName name = false
      · rw [if_pos hallowed]
        exact allowed_sendError _ _
      · by_cases hoffline : s.fsOffline = true
        · rw [if_neg hallowed, if_pos hoffline]
          exact allowed_sendError _ _
        · rw [if_neg hallowed, if_neg hoffline]
          rw [Bool.not_eq_false] at hallowed
          rw [Bool.not_eq_true] at hoffline
          have hread : Permitted lib seen s r (.readConfig name) := ⟨hcheck, hallowed, hoffline⟩
          cases hcontent : env.content with
          | none => exact allowed_one hread trivial
          | some raw =>
              simp only []
              split_ifs with hwifi
              · exact allowed_one hread ⟨hcheck, hallowed, hwifi⟩
              · cases hdoc : (lib.deserialize raw).bind redactWifiConfig with
                | none => exact allowed_one hread trivial
                | some doc =>
                    obtain ⟨d, -, hd⟩ := Option.bind_eq_some_iff.mp hdoc
                    exact allowed_one hread ⟨hcheck, not_mem_redacted hd⟩

theorem allowed_upload {cmd : Cmd} : Allowed lib seen s r (s.runUpload r env cmd) := by
  rw [runUpload]
  split_ifs with hfile horigin hset hcheck
  · exact allowed_guarded fun _ _ => allowed_sendError _ _
  · exact allowed_sendError _ _
  · exact allowed_sendError _ _
  · exact allowed_refuse trivial
  · rw [Bool.not_eq_false] at hcheck
    exact allowed_one ⟨by simpa using horigin, hcheck⟩ trivial

theorem allowed_notFound : Allowed lib seen s r (s.runNotFound r env) := by
  rw [runNotFound]
  split_ifs with hasset hget hindex
  · exact allowed_refuse trivial
  · have hmethod : r.method = .get := by
      rw [Bool.and_eq_true, decide_eq_true_eq] at hget
      exact hget.1
    refine ⟨fun e he => ?_, .inr rfl⟩
    rcases List.mem_cons.mp he with rfl | he
    · exact ⟨hmethod, .inr rfl⟩
    · cases List.mem_singleton.mp he
      exact ⟨hmethod, .inr rfl⟩
  · rw [Bool.and_eq_true, decide_eq_true_eq] at hget
    exact allowed_one ⟨hget.1, .inr rfl⟩ trivial
  · exact allowed_refuse trivial
  · exact allowed_refuse trivial

/-- A stream is opened for whoever passed its gate. -/
theorem allowed_openStream {code : ℕ} (hlib : lib.Documented)
    (h : seen.handlerFor lib r = .rawEvents ∨ seen.handlerFor lib r = .webSocket) :
    Allowed lib seen s r ({ code, body := .stream }, [.openStream], s) := by
  have hgate := streamGate_eq_false h
  have htakes := canHandle_handlerFor lib seen r
  have hpassed : seen.gateCheck r = true := by
    rcases h with h | h
    · rw [h, canHandle, Bool.and_eq_true] at htakes
      obtain ⟨hmethod, hurl⟩ := hlib.events_only htakes.2
      simpa [canHandle, htakes.1, hmethod, hurl] using hgate
    · rw [h, canHandle, Bool.and_eq_true] at htakes
      obtain ⟨hmethod, hurl⟩ := hlib.webSocket_only htakes.2
      simpa [canHandle, htakes.1, hmethod, hurl] using hgate
  rw [gateCheck, Bool.and_eq_true, Bool.and_eq_true] at hpassed
  exact allowed_one ⟨hpassed.1.1, hpassed.2⟩ trivial

theorem allowed_files (hlib : lib.Documented) (h : seen.handlerFor lib r = .files) :
    Allowed lib seen s r (s.run lib r env .files) := by
  have htakes := canHandle_handlerFor lib seen r
  rw [h, canHandle, Bool.and_eq_true, Bool.and_eq_true] at htakes
  rw [run]
  cases hfile : lib.fileFor r.url with
  | none => exact allowed_refuse trivial
  | some path =>
      have hservable : Servable r.url := servable_of_not_blocked (by simpa using htakes.1.1)
      exact allowed_one ⟨hlib.asksFiles_only htakes.1.2, .inl ⟨hfile, hservable⟩⟩
        (.inl ⟨hfile, hservable⟩)

/-- What the handler of a request leaves is allowed. -/
theorem run_allowed (hlib : lib.Documented) {h : Handler} (hseen : seen.handlerFor lib r = h) :
    Allowed lib seen s r (s.run lib r env h) := by
  cases h with
  | preGate =>
      rw [run, runPreGate]
      split_ifs <;> exact allowed_sendError _ _
  | setupGate => exact allowed_refuse trivial
  | streamGate =>
      rw [run, runStreamGate]
      split_ifs <;> exact allowed_refuse trivial
  | rawEvents => exact allowed_openStream hlib (.inl hseen)
  | webSocket => exact allowed_openStream hlib (.inr hseen)
  | authStatus => exact allowed_refuse trivial
  | authSetup =>
      rw [run, runAuthSetup]
      split_ifs with horigin hset
      · exact allowed_sendError _ _
      · exact allowed_sendError _ _
      · exact allowed_setPassword (by simpa using horigin) fun h => absurd h hset
  | authChange =>
      exact allowed_guarded fun hcheck horigin => allowed_setPassword (horigin rfl) fun _ => hcheck
  | sessionGet =>
      refine allowed_guarded fun hcheck _ => ?_
      rw [sendSessionCookie, if_neg (by simp [isSet_of_authCheck hcheck])]
      exact allowed_one hcheck hcheck
  | sessionDelete =>
      rw [run, runSessionDelete]
      split_ifs with horigin
      · exact allowed_sendError _ _
      · cases htoken : r.cookie.bind (cookieGet AUTH_SESSION_COOKIE 40) with
        | none => exact allowed_refuse trivial
        | some token => exact allowed_one ⟨by simpa using horigin, htoken⟩ trivial
  | setup =>
      rw [run]
      split_ifs with hset
      · exact allowed_refuse trivial
      · exact allowed_refuse (Bool.eq_false_iff.mpr hset)
  | hostname => exact allowed_refuse trivial
  | username => exact allowed_refuse trivial
  | loraTransmit =>
      exact allowed_guarded fun hcheck horigin => allowed_loraTransmit hcheck (horigin rfl)
  | apiConfig => exact allowed_guarded fun hcheck _ => allowed_apiConfig hcheck
  | restart | reset =>
      refine allowed_guarded fun hcheck horigin => ?_
      rw [replyAndSpawn]
      split_ifs
      · exact allowed_sendError _ _
      · exact allowed_one ⟨horigin rfl, hcheck⟩ trivial
  | update => exact allowed_guarded fun hcheck _ => allowed_refuse hcheck
  | upload cmd => exact allowed_upload
  | files => exact allowed_files hlib hseen
  | notFound => exact allowed_notFound

theorem effects_eq_nil_of_preGate : (s.run lib r env .preGate).2.1 = [] := rfl

theorem looksUp_iff :
    s.looksUp lib r = true ↔
      (s.handlerFor lib r = .files ∨ s.handlerFor lib r = .notFound) ∧
        pathIsBlocked (some r.url) = false ∧ lib.asksFiles r = true := by
  simp [looksUp, Bool.and_eq_true, and_assoc]

end Site

/-! ## Every run -/

namespace Server

variable {lib : Library}

/-- The handler of a request that waits is the one that was found when its headers came. -/
def Attached (lib : Library) (v : Server) : Prop :=
  ∀ id p, v.pending id = some p → p.seen.handlerFor lib p.request = p.handler

theorem attached_boot (site : Site) : Attached lib (boot site) :=
  fun _ _ hp => absurd hp (Option.some_ne_none _).symm

theorem Attached.update {v : Server} (h : Attached lib v) {site : Site} {id : ℕ}
    {p : Option Pending}
    (hp : ∀ q, p = some q → q.seen.handlerFor lib q.request = q.handler) :
    Attached lib { site, pending := Function.update v.pending id p } := by
  intro i q hq
  rcases eq_or_ne i id with rfl | hne
  · exact hp q (by simpa using hq)
  · exact h i q (by simpa [hne] using hq)

theorem Attached.step {v : Server} (h : Attached lib v) (a : Action) :
    Attached lib (v.step lib a).1 := by
  cases a with
  | attach id r =>
      refine h.update fun q hq => ?_
      cases hq
      rfl
  | handle id env =>
      rw [Server.step]
      cases hp : v.pending id with
      | none => exact h
      | some p => exact h.update fun _ hq => absurd hq (Option.some_ne_none _).symm
  | authClear nvsOk => exact h
  | fsOffline offline => exact h

/-- What holds of everything that one action does holds of everything that is done. -/
theorem forall_served {P : Served → Prop}
    (hstep : ∀ v a, Attached lib v → ∀ o ∈ (step lib v a).2, P o) (site : Site)
    (as : List Action) : ∀ o ∈ (Mealy.run (step lib) (boot site) as).2, P o := by
  have hboot : Attached lib (boot site) ∧ ∀ o ∈ ([] : List Served), P o :=
    ⟨attached_boot site, fun _ ho => absurd ho List.not_mem_nil⟩
  exact (Mealy.run_log_invariant (fun v log => Attached lib v ∧ ∀ o ∈ log, P o)
    (fun v log a h => ⟨h.1.step a, fun o ho =>
      (List.mem_append.mp ho).elim (h.2 o) (hstep v a h.1 o)⟩) hboot as).2

/-- What has been done for a request is allowed. -/
def ServedAllowed (lib : Library) (o : Served) : Prop :=
  (∀ e ∈ o.effects, o.seen.preGateTakes o.request = false ∧
    Permitted lib o.seen o.now o.request e) ∧
  ∀ reply, o.reply = some reply → Disclosable lib o.now o.request reply.body

theorem step_allowed (hlib : lib.Documented) {v : Server} (h : Attached lib v) (a : Action) :
    ∀ o ∈ (v.step lib a).2, ServedAllowed lib o := by
  intro o ho
  cases a with
  | attach id r =>
      cases List.mem_singleton.mp ho
      refine ⟨fun e he => ?_, fun reply hreply => absurd hreply (Option.some_ne_none _).symm⟩
      by_cases hlooks : v.site.looksUp lib r = true
      · rw [if_pos hlooks, List.mem_singleton] at he
        obtain ⟨hhandler, hblocked, hasks⟩ := Site.looksUp_iff.mp hlooks
        have hget : r.method = .get ∧
            (r.url = r.url ∧ Servable r.url ∨ r.url = ascii "/index.html") :=
          ⟨hlib.asksFiles_only hasks, .inl ⟨rfl, servable_of_not_blocked hblocked⟩⟩
        subst he
        refine ⟨Site.preGateTakes_eq_false lib fun hpre => ?_, hget⟩
        rcases hhandler with hfiles | hnot
        · exact absurd (hfiles.symm.trans hpre) (by decide)
        · exact absurd (hnot.symm.trans hpre) (by decide)
      · rw [if_neg hlooks] at he
        exact absurd he List.not_mem_nil
  | handle id env =>
      rw [Server.step] at ho
      cases hp : v.pending id with
      | none =>
          rw [hp] at ho
          exact absurd ho List.not_mem_nil
      | some p =>
          rw [hp] at ho
          cases List.mem_singleton.mp ho
          have hhandler := h id p hp
          obtain ⟨heffects, hbody⟩ : Allowed lib p.seen v.site p.request (v.site.run lib p.request env p.handler) :=
            Site.run_allowed hlib hhandler
          refine ⟨fun e he => ⟨?_, heffects e he⟩, fun reply hreply => ?_⟩
          · refine Site.preGateTakes_eq_false lib fun hpre => ?_
            rw [hhandler] at hpre
            simp only [hpre, Site.effects_eq_nil_of_preGate, List.not_mem_nil] at he
          · cases hreply
            exact hbody
  | authClear nvsOk => exact absurd ho List.not_mem_nil
  | fsOffline offline => exact absurd ho List.not_mem_nil

theorem served_allowed (hlib : lib.Documented) (site : Site) (as : List Action) :
    ∀ o ∈ (Mealy.run (step lib) (boot site) as).2, ServedAllowed lib o :=
  forall_served (fun _ a h => step_allowed hlib h a) site as

/-- A board with a password, and requests of a stranger. -/
def lockedSite (offline : Bool) : Site :=
  { auth := authInit (some (List.replicate 32 0x30)), fsOffline := offline, streams := true }

def strangeRequest (method : Method) (url : String) : Request :=
  { method, url := ascii url, connection := .plain, origin := none, host := ascii "voyager.local",
    cookie := none, authz := none, authenticate := fun _ => false, transferEncoding := false,
    contentLength := 0, password := some (ascii "password"), data := none, name := none,
    file := false }

def quietEnv : Env :=
  { username := [], mac := someMac, hostname := ascii "voyager", nvsOk := true, words := fun _ => 0,
    heap := true, queueRoom := true, txId := 1, queued := 0, taskOk := true, upload := .html 200,
    content := none, index := true }

theorem served_allowed_change :
    let served := (Mealy.run (step pathLibrary) (boot (lockedSite false))
      [.attach 0 (strangeRequest .post "/api/auth/change"), .handle 0 quietEnv]).2
    served.length = 2 ∧ ∀ o ∈ served, ServedAllowed pathLibrary o := by
  intro served
  have hlength : served.length = 2 := by
    simp only [served, Mealy.run, step, boot, Function.update]
    simp
  exact ⟨hlength, served_allowed pathLibrary_documented _ _⟩

end Server

/-! ## Strangers

Once there is a password, a request that is not signed in changes nothing that is shared. -/

namespace Site

variable {lib : Library} {s : Site} {r : Request} {env : Env}

theorem guarded_of_stranger {stateChanging : Bool} {result : Result}
    (hcheck : s.authCheck r = false) : (s.guarded r stateChanging result).2.2 = s := by
  rw [guarded]
  rcases guard_cases (s := s) (r := r) stateChanging with ⟨reply, hguard, -⟩ | ⟨-, hpassed, -⟩
  · rw [hguard]
    rfl
  · rw [hcheck] at hpassed
    cases hpassed

/-- The cookie of a stranger is in no slot, so that revoking it does nothing. -/
theorem sessionRevoke_of_stranger (hset : s.auth.isSet = true) (hcheck : s.authCheck r = false)
    {token : List Byte} (htoken : r.cookie.bind (cookieGet AUTH_SESSION_COOKIE 40) = some token) :
    s.auth.sessionRevoke (some token) = s.auth := by
  have hinvalid : s.auth.sessionValid token = false := by
    rw [← Bool.not_eq_true]
    intro hvalid
    simp [authCheck, Auth.check, hset, htoken, hvalid] at hcheck
  cases hchars : isSessionToken token with
  | false => exact sessionRevoke_of_not_token hchars
  | true =>
      have hslots : ∀ i, s.auth.sessions.slots i ≠ some ⟨token, hchars⟩ := by
        intro i hi
        exact Bool.false_ne_true (hinvalid.symm.trans (sessionValid_iff.mpr ⟨_, rfl, i, hi⟩))
      have herase := sessionRevoke_token s.auth ⟨token, hchars⟩
      simp only [SlotRing.erase, hslots, if_false] at herase
      exact herase

theorem run_of_stranger (hset : s.auth.isSet = true) (hcheck : s.authCheck r = false)
    (h : Handler) : (s.run lib r env h).2.2 = s := by
  cases h with
  | authSetup =>
      rw [run, runAuthSetup]
      split_ifs <;> rfl
  | authChange | sessionGet | loraTransmit | apiConfig | restart | reset | update =>
      exact guarded_of_stranger hcheck
  | sessionDelete =>
      rw [run, runSessionDelete]
      split_ifs
      · rfl
      · cases htoken : r.cookie.bind (cookieGet AUTH_SESSION_COOKIE 40) with
        | none => rfl
        | some token => simp only [sessionRevoke_of_stranger hset hcheck htoken]
  | upload cmd =>
      rw [run, runUpload]
      split_ifs
      · exact guarded_of_stranger hcheck
      all_goals rfl
  | files =>
      rw [run]
      cases lib.fileFor r.url <;> rfl
  | notFound =>
      rw [run, runNotFound]
      split_ifs <;> rfl
  | _ => rfl

end Site

namespace Server

variable {lib : Library}

/-- A request of a stranger: when its handler ran there was a password, and it was not signed
in. -/
def Stranger (o : Served) : Prop :=
  o.reply ≠ none → o.now.auth.isSet = true ∧ o.now.authCheck o.request = false

/-- Two servers that differ in what waits under these numbers. -/
def SameBut (ids : ℕ → Bool) (v w : Server) : Prop :=
  v.site = w.site ∧ ∀ id, ids id = false → v.pending id = w.pending id

theorem SameBut.update {ids : ℕ → Bool} {v w : Server} (h : SameBut ids v w) (site : Site)
    (id : ℕ) (p : Option Pending) :
    SameBut ids { site, pending := Function.update v.pending id p }
      { site, pending := Function.update w.pending id p } := by
  refine ⟨rfl, fun i hi => ?_⟩
  rcases eq_or_ne i id with rfl | hne
  · simp
  · simp [hne, h.2 i hi]

theorem SameBut.drop {ids : ℕ → Bool} {v w : Server} (h : SameBut ids v w) {id : ℕ}
    (hid : ids id = true) (p : Option Pending) :
    SameBut ids { v with pending := Function.update v.pending id p } w := by
  refine ⟨h.1, fun i hi => ?_⟩
  have hne : i ≠ id := fun heq => Bool.false_ne_true (hi.symm.trans (heq ▸ hid))
  simp [hne, h.2 i hi]

/-- An action of another request does the same to both. -/
theorem SameBut.step {ids : ℕ → Bool} {v w : Server} (h : SameBut ids v w) {a : Action}
    (ha : a.isOf ids = false) :
    SameBut ids (v.step lib a).1 (w.step lib a).1 ∧
      (w.step lib a).2 = (v.step lib a).2.filter fun o => !ids o.id := by
  cases a with
  | attach id r =>
      have hid : ids id = false := ha
      simp only [Server.step, ← h.1]
      exact ⟨h.update _ _ _, by simp [hid]⟩
  | handle id env =>
      have hid : ids id = false := ha
      simp only [Server.step, ← h.2 id hid, ← h.1]
      cases hp : v.pending id with
      | none => exact ⟨h, rfl⟩
      | some p => exact ⟨h.update _ _ _, by simp [hid]⟩
  | authClear nvsOk =>
      simp only [Server.step, ← h.1]
      exact ⟨⟨rfl, h.2⟩, rfl⟩
  | fsOffline offline =>
      simp only [Server.step, ← h.1]
      exact ⟨⟨rfl, h.2⟩, rfl⟩

/-- An action of a stranger changes what waits under its number, and nothing else. -/
theorem SameBut.stranger {ids : ℕ → Bool} {v w : Server} (h : SameBut ids v w) {a : Action}
    (ha : a.isOf ids = true) (hall : ∀ o ∈ (v.step lib a).2, ids o.id = true → Stranger o) :
    SameBut ids (v.step lib a).1 w ∧
      ((v.step lib a).2.filter fun o => !ids o.id) = [] := by
  cases a with
  | attach id r =>
      have hid : ids id = true := ha
      simp only [Server.step]
      exact ⟨h.drop hid _, by simp [hid]⟩
  | handle id env =>
      have hid : ids id = true := ha
      simp only [Server.step] at hall ⊢
      cases hp : v.pending id with
      | none => exact ⟨h, rfl⟩
      | some p =>
          rw [hp] at hall
          obtain ⟨hset, hcheck⟩ := hall _ (List.mem_singleton_self _) hid (Option.some_ne_none _)
          simp only [Site.run_of_stranger hset hcheck]
          exact ⟨h.drop hid _, by simp [hid]⟩
  | authClear nvsOk => cases ha
  | fsOffline offline => cases ha

/-- The requests of strangers can be taken out of a run: what is shared at the end is the same,
and so is what has been done for every other request. -/
theorem strangers_leave_no_trace (lib : Library) (site : Site) (ids : ℕ → Bool)
    (as : List Action)
    (hall : ∀ o ∈ (Mealy.run (step lib) (boot site) as).2, ids o.id = true → Stranger o) :
    (Mealy.run (step lib) (boot site) (as.filter fun a => !a.isOf ids)).1.site =
        (Mealy.run (step lib) (boot site) as).1.site ∧
      (Mealy.run (step lib) (boot site) (as.filter fun a => !a.isOf ids)).2 =
        (Mealy.run (step lib) (boot site) as).2.filter fun o => !ids o.id := by
  have hboot : SameBut ids (boot site) (boot site) := ⟨rfl, fun _ _ => rfl⟩
  have hrun := Mealy.run_filter (step lib) (SameBut ids) (fun a => !a.isOf ids)
    (fun o => !ids o.id) (fun o => ids o.id = true → Stranger o)
    (fun v w a h ha _ => h.step (by simpa using ha))
    (fun v w a h ha hok => h.stranger (by simpa using ha) hok) hboot hall
  exact ⟨hrun.1.1.symm, hrun.2⟩

/-- A stranger asks for a new password while another request comes in. -/
theorem strangers_leave_no_trace_change :
    let as : List Action := [.attach 0 (strangeRequest .post "/api/auth/change"),
      .attach 1 (strangeRequest .get "/hostname"), .handle 0 quietEnv, .handle 1 quietEnv]
    (Mealy.run (step pathLibrary) (boot (lockedSite false)) (as.filter fun a =>
        !a.isOf fun id => id == 0)).1.site =
      (Mealy.run (step pathLibrary) (boot (lockedSite false)) as).1.site := by
  intro as
  refine (strangers_leave_no_trace pathLibrary (lockedSite false) (fun id => id == 0) as ?_).1
  intro o ho hid hreply
  simp only [as, Mealy.run, step, boot, Function.update] at ho
  simp at ho
  rcases ho with rfl | rfl | rfl | rfl
  · exact absurd rfl hreply
  · exact absurd rfl hreply
  · exact ⟨by decide, by decide⟩
  · exact absurd hid (by decide)

end Server

/-! ## A file system that is being overwritten -/

theorem urlPath_append_drop (url : List Byte) : ∃ rest, url = urlPath url ++ rest :=
  ⟨_, List.takeWhile_append_dropWhile.symm⟩

theorem urlPath_urlPath (url : List Byte) : urlPath (urlPath url) = urlPath url := by
  refine List.takeWhile_eq_self_iff.mpr fun c hc => ?_
  simpa [urlPath] using List.mem_takeWhile_imp hc

theorem head?_urlPath (url : List Byte) :
    (urlPath url).head? = some SLASH ↔ url.head? = some SLASH := by
  cases url with
  | nil => simp [urlPath]
  | cons c url =>
      have hne : SLASH ≠ QUESTION := by decide
      by_cases hc : c = QUESTION
      · simp [urlPath, hc, hne.symm]
      · simp [urlPath, hc]

theorem ieqN_drop_append {p rest b : List Byte} {k n : ℕ} (h : k + n ≤ p.length) :
    ieqN ((p ++ rest).drop k) b n = ieqN (p.drop k) b n := by
  rw [← ieqN_take, List.drop_append_of_le_length (by omega),
    List.take_append_of_le_length (by rw [List.length_drop]; omega), ieqN_take]

/-- `is_page_request` looks at the path before the query only. -/
theorem isPageRequest_urlPath (url : List Byte) :
    isPageRequest (urlPath url) = isPageRequest url := by
  obtain ⟨rest, hurl⟩ := urlPath_append_drop url
  have hprefix : ∀ k n b, k + n ≤ (urlPath url).length →
      ieqN ((urlPath url).drop k) b n = ieqN (url.drop k) b n := by
    intro k n b hle
    conv_rhs => rw [hurl]
    exact (ieqN_drop_append hle).symm
  have hupdate : ((urlPath url).length == 7 && ieqN (urlPath url) (ascii "/update") 7) =
      ((urlPath url).length == 7 && ieqN url (ascii "/update") 7) := by
    cases h7 : (urlPath url).length == 7 with
    | false => rfl
    | true => exact hprefix 0 7 _ (by rw [beq_iff_eq] at h7; omega)
  have hhtml : (decide ((urlPath url).length > 5) &&
      ieqN ((urlPath url).drop ((urlPath url).length - 5)) (ascii ".html") 5) =
      (decide ((urlPath url).length > 5) &&
        ieqN (url.drop ((urlPath url).length - 5)) (ascii ".html") 5) := by
    cases h5 : decide ((urlPath url).length > 5) with
    | false => rfl
    | true => exact hprefix _ 5 _ (by rw [decide_eq_true_eq] at h5; omega)
  rw [isPageRequest, isPageRequest, urlPath_urlPath]
  by_cases hhead : url.head? = some SLASH
  · rw [if_neg (not_not.mpr ((head?_urlPath url).mpr hhead)), if_neg (not_not.mpr hhead)]
    simp only [hupdate, hhtml]
  · rw [if_pos ((head?_urlPath url).not.mpr hhead), if_pos hhead]

theorem isPageRequest_of_allowed {url : List Byte} (h : allowedWhileFsOffline url = true) :
    isPageRequest url = true ↔ urlPath url = ascii "/update" := by
  have hall : ∀ p ∈ offlinePaths, isPageRequest p = true ↔ p = ascii "/update" := by decide
  rw [← isPageRequest_urlPath]
  exact hall _ (by simpa [allowedWhileFsOffline] using h)

theorem pathIsBlocked_of_allowed {url : List Byte} (h : allowedWhileFsOffline url = true) :
    pathIsBlocked (some url) = false := by
  have hall : ∀ p ∈ offlinePaths, ¬ HasDotDot p ∧ ¬ UnderConfig p := by decide
  obtain ⟨hdots, hconfig⟩ := hall _ (by simpa [allowedWhileFsOffline] using h)
  rw [← Bool.not_eq_true, pathIsBlocked, pathLoop_eq_true_iff]
  rintro (hbefore | ⟨-, hbefore⟩)
  · exact hdots hbefore
  · exact hconfig hbefore

namespace Site

variable {lib : Library} {s : Site} {r : Request}

/-- While the file system is offline it is asked for a file when a GET gets through the first
gate and no route answers it. -/
def OfflineLookUp (lib : Library) (s : Site) (r : Request) : Prop :=
  lib.asksFiles r = true ∧ r.transferEncoding = false ∧
    (r.contentLength ≤ API_MAX_BODY ∨ isOtaUrl r.url = true) ∧
    allowedWhileFsOffline r.url = true ∧
    r.url ∉ [ascii "/update", ascii "/hostname", ascii "/api/auth/status"] ∧
    (s.auth.isSet = true ∨ urlPath r.url ≠ ascii "/update")

theorem handlerFor_eq_files_or_notFound_iff :
    s.handlerFor lib r = .files ∨ s.handlerFor lib r = .notFound ↔
      ∀ h ∈ handlers.dropLast, s.canHandle lib r h = false := by
  have hhandlers : handlers = handlers.dropLast ++ [.files] := rfl
  constructor
  · intro h h' hmem
    rw [← Bool.not_eq_true]
    intro htakes
    have hfirst := handlerFor_mem _ hhandlers ⟨h', hmem, htakes⟩
    rcases h with h | h <;> rw [h] at hfirst <;> exact absurd hfirst (by decide)
  · intro hnone
    rw [handlerFor, hhandlers, List.find?_append,
      List.find?_eq_none.mpr fun h hmem => by simp [hnone h hmem], Option.none_or]
    cases hfiles : s.canHandle lib r .files with
    | false => simp [List.find?, hfiles]
    | true => simp [List.find?, hfiles]

/-- A route that answers while the file system is offline takes only its own path. -/
theorem routeMatches_of_allowed (hlib : lib.Documented)
    (hallowed : allowedWhileFsOffline r.url = true) {uri : List Byte} (hquestion : QUESTION ∉ uri)
    (hbelow : ∀ p ∈ offlinePaths, ¬ uri ++ [SLASH] <+: p) :
    lib.routeMatches uri r.url = true ↔ r.url = uri := by
  refine ⟨fun h => ?_, fun h => h ▸ hlib.matches_self uri⟩
  refine (hlib.matches_only h).resolve_right fun hprefix => ?_
  obtain ⟨rest, hrest⟩ := hprefix
  have hpath : urlPath r.url = uri ++ [SLASH] ++ urlPath rest := by
    have hall : ∀ c ∈ uri ++ [SLASH], decide (c ≠ QUESTION) = true := by
      intro c hc
      rw [decide_eq_true_eq]
      rintro rfl
      rcases List.mem_append.mp hc with hc | hc
      · exact hquestion hc
      · exact absurd (List.mem_singleton.mp hc) (by decide)
    rw [← hrest, urlPath, List.takeWhile_append_of_pos hall, ← urlPath]
  exact hbelow (urlPath r.url) (by simpa [allowedWhileFsOffline] using hallowed)
    (hpath ▸ List.prefix_append _ _)

/-- What a GET that the first gate may let through is, for the routes. -/
structure OfflineGet (lib : Library) (r : Request) : Prop where
  documented : lib.Documented
  method_eq : r.method = .get
  allowed : allowedWhileFsOffline r.url = true

variable (hr : OfflineGet lib r)
include hr

theorem OfflineGet.url_ne {uri : List Byte} (huri : urlPath uri ∉ offlinePaths) : r.url ≠ uri :=
  fun heq => huri (heq ▸ by simpa [allowedWhileFsOffline] using hr.allowed)

theorem OfflineGet.route_post (uri : String) : route lib r .post uri = false := by
  simp [route, hr.method_eq]

theorem OfflineGet.route_get {uri : String} (hquestion : QUESTION ∉ ascii uri)
    (hbelow : ∀ p ∈ offlinePaths, ¬ ascii uri ++ [SLASH] <+: p) :
    route lib r .get uri = false ↔ r.url ≠ ascii uri := by
  rw [ne_eq, ← routeMatches_of_allowed hr.documented hr.allowed hquestion hbelow]
  simp [route, hr.method_eq]

/-- A route of another path takes nothing. -/
theorem OfflineGet.route_other {uri : String} (hquestion : QUESTION ∉ ascii uri)
    (hbelow : ∀ p ∈ offlinePaths, ¬ ascii uri ++ [SLASH] <+: p)
    (huri : urlPath (ascii uri) ∉ offlinePaths) : route lib r .get uri = false :=
  (hr.route_get hquestion hbelow).mpr (hr.url_ne huri)

theorem OfflineGet.preGate (hoffline : s.fsOffline = true) :
    s.preGateTakes r = false ↔
      r.transferEncoding = false ∧
        (r.contentLength ≤ API_MAX_BODY ∨ isOtaUrl r.url = true) := by
  simp only [preGateTakes, pathIsBlocked_of_allowed hr.allowed, hoffline, hr.allowed,
    Bool.or_eq_false_iff, Bool.not_true, Bool.and_false, Bool.and_eq_false_iff,
    decide_eq_false_iff_not, not_lt, Bool.not_eq_false', and_true, true_and]

theorem OfflineGet.setupGate :
    s.canHandle lib r .setupGate = false ↔
      s.auth.isSet = true ∨ urlPath r.url ≠ ascii "/update" := by
  have hpage := isPageRequest_of_allowed hr.allowed
  rw [ne_eq, ← hpage, canHandle]
  cases s.auth.isSet <;> cases isPageRequest r.url <;> simp [hr.method_eq]

/-- The streams have other paths. -/
theorem OfflineGet.streams :
    s.canHandle lib r .streamGate = false ∧ s.canHandle lib r .rawEvents = false ∧
      s.canHandle lib r .webSocket = false := by
  have hws : r.url ≠ ascii "/ws" := hr.url_ne (by decide)
  have hevents : r.url ≠ ascii "/rawEvents" := hr.url_ne (by decide)
  refine ⟨by simp [canHandle, hws, hevents], ?_, ?_⟩
  · rw [canHandle, Bool.and_eq_false_iff, ← Bool.not_eq_true (lib.takesEvents _ _)]
    exact .inr fun h => hevents (hr.documented.events_only h).2
  · rw [canHandle, Bool.and_eq_false_iff, ← Bool.not_eq_true (lib.takesWebSocket _ _)]
    exact .inr fun h => hws (hr.documented.webSocket_only h).2

omit hr

theorem looksUp_offline_iff (hlib : lib.Documented) (hoffline : s.fsOffline = true) :
    s.looksUp lib r = true ↔ OfflineLookUp lib s r := by
  rw [looksUp_iff, handlerFor_eq_files_or_notFound_iff, OfflineLookUp]
  constructor
  · rintro ⟨hnone, -, hasks⟩
    have hpre : s.preGateTakes r = false := hnone .preGate (by decide)
    have hallowed : allowedWhileFsOffline r.url = true := by
      simp only [preGateTakes, hoffline, Bool.or_eq_false_iff, Bool.true_and] at hpre
      simpa using hpre.1.2
    have hr : OfflineGet lib r := ⟨hlib, hlib.asksFiles_only hasks, hallowed⟩
    obtain ⟨hchunked, hlength⟩ := (hr.preGate hoffline).mp hpre
    refine ⟨hasks, hchunked, hlength, hallowed, ?_, hr.setupGate.mp (hnone .setupGate (by decide))⟩
    have hupdate := (hr.route_get (by decide) (by decide)).mp (hnone .update (by decide))
    have hhostname := (hr.route_get (by decide) (by decide)).mp (hnone .hostname (by decide))
    have hstatus := (hr.route_get (by decide) (by decide)).mp (hnone .authStatus (by decide))
    simp [hupdate, hhostname, hstatus]
  · rintro ⟨hasks, hchunked, hlength, hallowed, hurl, hset⟩
    have hr : OfflineGet lib r := ⟨hlib, hlib.asksFiles_only hasks, hallowed⟩
    obtain ⟨hgate, hevents, hsocket⟩ := hr.streams (s := s)
    simp only [List.mem_cons, List.not_mem_nil, or_false, not_or] at hurl
    refine ⟨fun h hmem => ?_, pathIsBlocked_of_allowed hallowed, hasks⟩
    cases h with
    | preGate => exact (hr.preGate hoffline).mpr ⟨hchunked, hlength⟩
    | setupGate => exact hr.setupGate.mpr hset
    | streamGate => exact hgate
    | rawEvents => exact hevents
    | webSocket => exact hsocket
    | authStatus => exact (hr.route_get (by decide) (by decide)).mpr hurl.2.2
    | hostname => exact (hr.route_get (by decide) (by decide)).mpr hurl.2.1
    | update => exact (hr.route_get (by decide) (by decide)).mpr hurl.1
    | sessionGet | setup | username | apiConfig =>
        exact hr.route_other (by decide) (by decide) (by decide)
    | authSetup | authChange | loraTransmit | restart | reset => exact hr.route_post _
    | sessionDelete => simp [canHandle, route, hr.method_eq]
    | upload cmd => cases cmd <;> exact hr.route_post _
    | files | notFound => exact absurd hmem (by decide)

variable {env : Env}

theorem mem_effects_of_guarded {stateChanging : Bool} {result : Result} {e : Effect}
    (he : e ∈ (s.guarded r stateChanging result).2.1) : e ∈ result.2.1 := by
  rw [guarded] at he
  cases hguard : s.guard r stateChanging with
  | some reply =>
      rw [hguard] at he
      exact absurd he List.not_mem_nil
  | none =>
      rw [hguard] at he
      exact he

theorem setPassword_effects {e : Effect} (he : e ∈ (s.setPassword lib r env).2.1) :
    e.touchesFs = false := by
  rw [setPassword] at he
  cases hpassword : r.password with
  | none => simp [hpassword, refuse] at he
  | some password =>
      rw [hpassword] at he
      simp only [refuse] at he
      split_ifs at he <;> simp_all [Effect.touchesFs]

theorem loraTransmit_effects {e : Effect} (he : e ∈ (s.loraTransmit lib r env).2.1) :
    e.touchesFs = false := by
  simp only [loraTransmit, enqueueTx, refuse] at he
  split at he
  any_goals exact absurd he List.not_mem_nil
  split_ifs at he <;> simp_all [Effect.touchesFs]

theorem apiConfig_effects (hoffline : s.fsOffline = true) : (s.apiConfig lib r env).2.1 = [] := by
  rw [apiConfig]
  cases r.name with
  | none => rfl
  | some name =>
      simp only [hoffline, if_true]
      split_ifs <;> rfl

/-- While the file system is offline a handler reads it only to send a file that was found. -/
theorem eq_files_of_touchesFs {h : Handler} (hoffline : s.fsOffline = true) {e : Effect}
    (he : e ∈ (s.run lib r env h).2.1) (htouches : e.touchesFs = true) : h = .files := by
  by_contra hne
  refine Bool.false_ne_true (Eq.trans ?_ htouches)
  symm
  cases h with
  | files => exact absurd rfl hne
  | preGate | setupGate | streamGate | authStatus | setup | hostname | username =>
      exact absurd he List.not_mem_nil
  | rawEvents | webSocket =>
      cases List.mem_singleton.mp he
      rfl
  | authSetup =>
      rw [run, runAuthSetup] at he
      split_ifs at he
      · exact absurd he List.not_mem_nil
      · exact absurd he List.not_mem_nil
      · exact setPassword_effects he
  | authChange => exact setPassword_effects (mem_effects_of_guarded he)
  | sessionGet =>
      have hsent := mem_effects_of_guarded he
      rw [sendSessionCookie] at hsent
      split_ifs at hsent
      · exact absurd hsent List.not_mem_nil
      · cases List.mem_singleton.mp hsent
        rfl
  | sessionDelete =>
      rw [run, runSessionDelete] at he
      split_ifs at he
      · exact absurd he List.not_mem_nil
      · cases htoken : r.cookie.bind (cookieGet AUTH_SESSION_COOKIE 40) with
        | none =>
            rw [htoken] at he
            exact absurd he List.not_mem_nil
        | some token =>
            rw [htoken] at he
            cases List.mem_singleton.mp he
            rfl
  | loraTransmit => exact loraTransmit_effects (mem_effects_of_guarded he)
  | apiConfig =>
      have hread := mem_effects_of_guarded he
      rw [apiConfig_effects hoffline] at hread
      exact absurd hread List.not_mem_nil
  | restart | reset =>
      have hspawned := mem_effects_of_guarded he
      rw [replyAndSpawn] at hspawned
      split_ifs at hspawned
      · exact absurd hspawned List.not_mem_nil
      · cases List.mem_singleton.mp hspawned
        rfl
  | update => exact absurd (mem_effects_of_guarded he) List.not_mem_nil
  | upload cmd =>
      rw [run, runUpload] at he
      split_ifs at he
      · exact absurd (mem_effects_of_guarded he) List.not_mem_nil
      · exact absurd he List.not_mem_nil
      · exact absurd he List.not_mem_nil
      · exact absurd he List.not_mem_nil
      · cases List.mem_singleton.mp he
        rfl
  | notFound =>
      rw [run, runNotFound] at he
      simp only [hoffline, Bool.not_true, Bool.and_false, Bool.false_eq_true, if_false] at he
      split_ifs at he <;> exact absurd he List.not_mem_nil

theorem touchesFs_iff_files {seen : Site} {h : Handler} (hseen : seen.handlerFor lib r = h)
    (hoffline : s.fsOffline = true) :
    (∃ e ∈ (s.run lib r env h).2.1, e.touchesFs = true) ↔ h = .files := by
  constructor
  · rintro ⟨e, he, htouches⟩
    exact eq_files_of_touchesFs hoffline he htouches
  · rintro rfl
    have htakes := canHandle_handlerFor lib seen r
    rw [hseen, canHandle, Bool.and_eq_true] at htakes
    obtain ⟨path, hpath⟩ := Option.isSome_iff_exists.mp htakes.2
    rw [run, hpath]
    exact ⟨_, List.mem_singleton_self _, rfl⟩

end Site

namespace Server

variable {lib : Library}

/-- When what has been done for a request reads the file system, if that is offline. -/
def ReadsOffline (lib : Library) (o : Served) : Prop :=
  (o.reply = none ∧ Site.OfflineLookUp lib o.now o.request) ∨
    (o.reply ≠ none ∧ o.handler = .files)

theorem step_offline (hlib : lib.Documented) {v : Server} (h : Attached lib v) (a : Action) :
    ∀ o ∈ (v.step lib a).2, o.now.fsOffline = true →
      ((∃ e ∈ o.effects, e.touchesFs = true) ↔ ReadsOffline lib o) := by
  intro o ho hoffline
  cases a with
  | attach id r =>
      cases List.mem_singleton.mp ho
      simp only [ReadsOffline, ← Site.looksUp_offline_iff hlib hoffline]
      by_cases hlooks : v.site.looksUp lib r = true
      · simp [hlooks, Effect.touchesFs]
      · simp [hlooks]
  | handle id env =>
      rw [Server.step] at ho
      cases hp : v.pending id with
      | none =>
          rw [hp] at ho
          exact absurd ho List.not_mem_nil
      | some p =>
          rw [hp] at ho
          cases List.mem_singleton.mp ho
          simp only [ReadsOffline, Site.touchesFs_iff_files (h id p hp) hoffline]
          simp
  | authClear nvsOk => exact absurd ho List.not_mem_nil
  | fsOffline offline => exact absurd ho List.not_mem_nil

/-- While a file system image is being written the server asks the file system for a file in
exactly the cases of `OfflineLookUp`, and otherwise only sends on what it had found. -/
theorem offline_reads (hlib : lib.Documented) (site : Site) (as : List Action) :
    ∀ o ∈ (Mealy.run (step lib) (boot site) as).2, o.now.fsOffline = true →
      ((∃ e ∈ o.effects, e.touchesFs = true) ↔ ReadsOffline lib o) :=
  forall_served (fun _ a h => step_offline hlib h a) site as

theorem offline_reads_littlefs :
    ∃ o ∈ (Mealy.run (step pathLibrary) (boot (lockedSite true))
      [.attach 0 (strangeRequest .get "/update_littlefs")]).2,
      ∃ e ∈ o.effects, e.touchesFs = true := by
  refine ⟨_, List.mem_singleton_self _, ?_⟩
  refine (offline_reads pathLibrary_documented (lockedSite true)
    [.attach 0 (strangeRequest .get "/update_littlefs")] _ (List.mem_singleton_self _) rfl).mpr ?_
  exact .inl ⟨rfl, by decide, rfl, by decide, by decide, by decide, by decide⟩

end Server

end Routes

end Web

end Voyager
