import Mathlib.Data.List.AList
import Voyager.Library.Mealy
import Voyager.Web.Ota
import Voyager.Web.Payload
import Voyager.Web.Sessions
import Voyager.Web.Validate

/-!
# The routes of the web server

A request is attached to the first handler that takes it: two gates, the gate of the streams,
the routes, the files, and at last the handler for what nobody takes. The handler runs when the
whole request is there, and other requests run in between. What a handler does to the board is
a list of effects. How the server library compares a route with a path, what it takes for a
stream, and which file it looks for, are parameters.
-/

namespace Voyager

namespace Web

namespace Routes

open LoraProto (LORA_MAX_PAYLOAD)
open Payload Sessions Validate

/-! ## The checks of a request -/

/-- A URL up to its query. -/
def urlPath (url : List Byte) : List Byte := url.takeWhile (· ≠ QUESTION)

/-- `is_page_request`. -/
def isPageRequest (url : List Byte) : Bool :=
  if url.head? ≠ some SLASH then false
  else
    let n := (urlPath url).length
    n == 1 || (n == 7 && ieqN url (ascii "/update") 7) ||
      (n > 5 && ieqN (url.drop (n - 5)) (ascii ".html") 5)

/-- The loop of `is_missing_asset` over the dots behind the first character of the segment that
begins at `seg`. -/
def lastDot (url : List Byte) (n seg : ℕ) : ℕ → Bool
  | 0 => false
  | i + 1 =>
      if i + 1 > seg + 1 then
        if byteAt url i = DOT then
          if i = n - 1 then false else !(n - i == 5 && ieqN (url.drop i) (ascii ".html") 5)
        else lastDot url n seg i
      else false

/-- `is_missing_asset`. -/
def isMissingAsset (url : List Byte) : Bool :=
  let n := (urlPath url).length
  let seg := n - ((urlPath url).reverse.takeWhile fun c => !isSlash c).length
  lastDot url n seg n

/-- The paths that `allowed_while_fs_offline` compares with. -/
def offlinePaths : List (List Byte) :=
  [ascii "/update", ascii "/update_flash", ascii "/update_littlefs", ascii "/hostname",
    ascii "/api/auth/status"]

/-- `allowed_while_fs_offline`. -/
def allowedWhileFsOffline (url : List Byte) : Bool := offlinePaths.contains (urlPath url)

/-- What follows `http://` or `https://`. -/
def originHost (o : List Byte) : Option (List Byte) :=
  if ieqN o (ascii "http://") 7 && o.length > 7 then some (o.drop 7)
  else if ieqN o (ascii "https://") 8 && o.length > 8 then some (o.drop 8)
  else none

/-- The end of `origin_allowed`: the two hosts agree, but for one slash. -/
def sameHost (a host : List Byte) : Bool :=
  let alen := if a.length > 0 ∧ byteAt a (a.length - 1) = SLASH then a.length - 1 else a.length
  alen == host.length && ieqN a host alen

/-- `origin_allowed`. -/
def originAllowed (origin : Option (List Byte)) (host : List Byte) : Bool :=
  match origin with
  | none => true
  | some o =>
      if o = [] then true
      else if host = [] then false
      else (originHost o).any fun a => sameHost a host

/-- `is_allowed_config_name`. -/
def isAllowedConfigName (name : List Byte) : Bool :=
  [ascii "lora_config.json", ascii "long_lora_config.json", ascii "short_lora_config.json",
    ascii "config_list.json", ascii "lora_serial.json", ascii "wifi_config.json"].contains name

def isWifiConfigName (name : List Byte) : Bool := name == ascii "wifi_config.json"

/-- A JSON object, with the text of each value. -/
abbrev JsonObject := AList fun _ : List Byte => List Byte

/-- `redact_wifi_config`; `none` is a document that is no object. -/
def redactWifiConfig (doc : Option JsonObject) : Option JsonObject :=
  doc.map fun doc => (doc.erase (ascii "wifi_pass")).erase (ascii "ap_pass")

/-! ## Requests and replies -/

inductive Method where
  | get
  | post
  | delete
  | other
  deriving DecidableEq, Repr

/-- What a request wants its connection to become. -/
inductive Connection where
  | plain
  | webSocket
  | events
  deriving DecidableEq, Repr

structure Request where
  method : Method
  /-- The decoded path. -/
  url : List Byte
  connection : Connection
  origin : Option (List Byte)
  host : List Byte
  cookie : Option (List Byte)
  authz : Option (List Byte)
  /-- The digest of the request goes with this stored one. -/
  authenticate : List Byte → Bool
  transferEncoding : Bool
  contentLength : ℕ
  /-- The parameters `password`, `data` and `name`. -/
  password : Option (List Byte)
  data : Option (List Byte)
  name : Option (List Byte)
  /-- The body has a part with a file, and there was memory for its state. -/
  file : Bool

/-- What the rest of the board tells a handler. -/
structure Env where
  username : List Byte
  mac : List Byte
  hostname : List Byte
  /-- The flash takes a digest. -/
  nvsOk : Bool
  /-- The random words of a session. -/
  words : Fin 4 → UInt32
  /-- There is memory for an item, and room for it in the queue. -/
  heap : Bool
  queueRoom : Bool
  txId : UInt32
  queued : ℕ
  /-- A task is created. -/
  taskOk : Bool
  /-- What becomes of an upload that was let in. -/
  upload : Web.Reply
  /-- What `read_file` gets. -/
  content : Option (List Byte)
  /-- `LittleFS.exists("/index.html")`. -/
  index : Bool

inductive Body where
  | error (err : String)
  /-- A challenge for a digest. -/
  | challenge
  | authStatus (set : Bool)
  | ok
  /-- With a cookie for the session. -/
  | session (t : SessionToken)
  /-- With a cookie that is over. -/
  | signedOut
  | setupPage
  | updateForm
  | upload (reply : Web.Reply)
  | text (s : List Byte)
  | accepted (id : UInt32) (queued : ℕ)
  | config (name content : List Byte)
  | wifiConfig (doc : JsonObject)
  | file (path : List Byte)
  | redirect (location : String)
  | stream
  | empty

structure Reply where
  code : ℕ
  body : Body

def sendError (code : ℕ) (err : String) : Reply := { code, body := .error err }

inductive Spawn where
  | restart
  | resetDevice
  deriving DecidableEq, Repr

/-- What a request does to the board, or takes from it. -/
inductive Effect where
  | setPassword (password : List Byte)
  | createSession (t : SessionToken)
  | revokeSession (token : List Byte)
  | queueTx (payload : List FlatJson.Member)
  | spawn (task : Spawn)
  /-- An upload is let in. -/
  | upload (cmd : Cmd)
  | openStream
  /-- A file under `/config` is read. -/
  | readConfig (name : List Byte)
  /-- The file system is asked for the file of a path. -/
  | lookUp (url : List Byte)
  /-- A file that was found is sent. -/
  | sendFile (path : List Byte)

/-- The effect reads the file system. -/
def Effect.touchesFs : Effect → Bool
  | .readConfig _ | .lookUp _ | .sendFile _ => true
  | _ => false

/-- What the handlers share with the other tasks. `streams` says that the socket and the events
were started. -/
structure Site where
  auth : Auth
  fsOffline : Bool
  streams : Bool

/-- The server library, the JSON library and the digest. -/
structure Library where
  /-- A route takes a path. -/
  routeMatches : List Byte → List Byte → Bool
  takesEvents : List Byte → Request → Bool
  takesWebSocket : List Byte → Request → Bool
  /-- The handler of the files looks for the file of a request. -/
  asksFiles : Request → Bool
  fileFor : List Byte → Option (List Byte)
  json : JsonLibrary
  deserialize : List Byte → Option (Option JsonObject)
  digest : List Byte → Ha1

/-- The handlers; the one of an upload is the same for both partitions. -/
inductive Handler where
  | preGate
  | setupGate
  | streamGate
  | rawEvents
  | webSocket
  | authStatus
  | authSetup
  | authChange
  | sessionGet
  | sessionDelete
  | setup
  | hostname
  | username
  | loraTransmit
  | apiConfig
  | restart
  | reset
  | update
  | upload (cmd : Cmd)
  | files
  | notFound
  deriving DecidableEq, Repr

/-! ## Which handler takes a request -/

def API_MAX_BODY : ℕ := 2048

/-- `is_ota_url`. -/
def isOtaUrl (url : List Byte) : Bool :=
  url == ascii "/update_flash" || url == ascii "/update_littlefs"

namespace Site

variable (lib : Library) (s : Site) (r : Request) (env : Env)

/-- `origin_ok`. -/
def originOk : Bool := originAllowed r.origin r.host

def authCheck : Bool := s.auth.check r.cookie r.authz r.authenticate

/-- `gate_check` is `GATE_OK`. -/
def gateCheck : Bool := originOk r && s.auth.isSet && s.authCheck r

def preGateTakes : Bool :=
  pathIsBlocked (some r.url) || r.transferEncoding ||
    (s.fsOffline && !allowedWhileFsOffline r.url) ||
    (r.contentLength > API_MAX_BODY && !isOtaUrl r.url)

/-- A route for one method. -/
def route (method : Method) (uri : String) : Bool :=
  r.method = method && lib.routeMatches (ascii uri) r.url

/-- `filter` and `canHandle`. -/
def canHandle : Handler → Bool
  | .preGate => s.preGateTakes r
  | .setupGate => r.method = .get && isPageRequest r.url && !s.auth.isSet
  | .streamGate =>
      s.streams && r.method = .get && (r.url == ascii "/ws" || r.url == ascii "/rawEvents") &&
        !s.gateCheck r
  | .rawEvents => s.streams && lib.takesEvents (ascii "/rawEvents") r
  | .webSocket => s.streams && lib.takesWebSocket (ascii "/ws") r
  | .authStatus => route lib r .get "/api/auth/status"
  | .authSetup => route lib r .post "/api/auth/setup"
  | .authChange => route lib r .post "/api/auth/change"
  | .sessionGet => route lib r .get "/api/session"
  | .sessionDelete => route lib r .delete "/api/session"
  | .setup => route lib r .get "/setup"
  | .hostname => route lib r .get "/hostname"
  | .username => route lib r .get "/username"
  | .loraTransmit => route lib r .post "/lora_transmit"
  | .apiConfig => route lib r .get "/api/config"
  | .restart => route lib r .post "/restart"
  | .reset => route lib r .post "/reset"
  | .update => route lib r .get "/update"
  | .upload .flash => route lib r .post "/update_flash"
  | .upload .spiffs => route lib r .post "/update_littlefs"
  | .files =>
      !pathIsBlocked (some r.url) && lib.asksFiles r && (lib.fileFor r.url).isSome
  | .notFound => true

/-- The handlers, in the order in which `define_api` registers them. -/
def handlers : List Handler :=
  [.preGate, .setupGate, .streamGate, .rawEvents, .webSocket, .authStatus, .authSetup, .authChange,
    .sessionGet, .sessionDelete, .setup, .hostname, .username, .loraTransmit, .apiConfig, .restart,
    .reset, .update, .upload .flash, .upload .spiffs] ++ [.files]

/-- The handler that takes the request. -/
def handlerFor : Handler := (handlers.find? (s.canHandle lib r)).getD .notFound

/-- The search for a handler has come to the files, and asks for one. -/
def looksUp : Bool :=
  (s.handlerFor lib r = .files || s.handlerFor lib r = .notFound) &&
    !pathIsBlocked (some r.url) && lib.asksFiles r

/-! ## What the handlers do -/

/-- What a handler leaves: the reply, the effects and what is shared after it. -/
abbrev Result := Reply × List Effect × Site

def refuse (reply : Reply) : Result := (reply, [], s)

/-- `auth_require`: the reply, when it refuses. -/
def authRequire : Option Reply :=
  if s.auth.isSet = false then some (sendError 403 "setup_required")
  else if s.authCheck r then none
  else some { code := 401, body := .challenge }

/-- `guard`. -/
def guard (stateChanging : Bool) : Option Reply :=
  if stateChanging && !originOk r then some (sendError 403 "origin") else s.authRequire r

/-- A handler that begins with `guard`. -/
def guarded (stateChanging : Bool) (result : Result) : Result :=
  match s.guard r stateChanging with
  | some reply => s.refuse reply
  | none => result

/-- `PreGate::handleRequest`. -/
def runPreGate : Reply :=
  if pathIsBlocked (some r.url) then sendError 403 "forbidden"
  else if r.transferEncoding then sendError 411 "length_required"
  else if s.fsOffline && !allowedWhileFsOffline r.url then sendError 503 "fs_updating"
  else sendError 413 "too_large"

/-- `StreamGate::handleRequest`. -/
def runStreamGate : Reply :=
  if !originOk r then sendError 403 "origin"
  else if s.auth.isSet = false then sendError 403 "setup_required"
  else if s.authCheck r = false then { code := 401, body := .challenge }
  else { code := 500, body := .empty }

/-- `auth_set` has stored the digest of a password. -/
def withPassword (password : List Byte) : Site :=
  { s with auth :=
    { nvs := some (lib.digest password).chars, ha1 := (lib.digest password).chars,
      sessions := .empty } }

/-- The end of `/api/auth/setup` and of `/api/auth/change`. -/
def setPassword : Result :=
  match r.password with
  | none => s.refuse (sendError 400 "password_length")
  | some password =>
      if passwordValid (some password) = false then s.refuse (sendError 400 "password_length")
      else if env.nvsOk = false then s.refuse (sendError 500 "nvs_write")
      else ({ code := 200, body := .ok }, [.setPassword password], s.withPassword lib password)

def runAuthSetup : Result :=
  if !originOk r then s.refuse (sendError 403 "origin")
  else if s.auth.isSet then s.refuse (sendError 409 "already_set")
  else s.setPassword lib r env

def runAuthChange : Result := s.guarded r true (s.setPassword lib r env)

/-- `send_session_cookie`. -/
def sendSessionCookie : Result :=
  if s.auth.isSet = false then s.refuse (sendError 403 "setup_required")
  else
    let t := sessionToken env.words
    ({ code := 200, body := .session t }, [.createSession t],
      { s with auth := { s.auth with sessions := s.auth.sessions.push t } })

def runSessionGet : Result := s.guarded r false (s.sendSessionCookie env)

def runSessionDelete : Result :=
  if !originOk r then s.refuse (sendError 403 "origin")
  else
    match r.cookie.bind (cookieGet AUTH_SESSION_COOKIE 40) with
    | none => s.refuse { code := 200, body := .signedOut }
    | some token =>
        ({ code := 200, body := .signedOut }, [.revokeSession token],
          { s with auth := s.auth.sessionRevoke (some token) })

/-- `enqueue_tx`. -/
def enqueueTx (payload : List FlatJson.Member) : Result :=
  if env.heap = false then s.refuse (sendError 503 "no_memory")
  else if env.queueRoom = false then s.refuse (sendError 503 "queue_full")
  else ({ code := 202, body := .accepted env.txId env.queued }, [.queueTx payload], s)

/-- `handle_lora_transmit`, behind its guard. -/
def loraTransmit : Result :=
  let name := getUsername env.username env.mac
  match (checkLoraTransmit lib.json r.data (some name) (some env.mac) LORA_MAX_PAYLOAD).1 with
  | .missing => s.refuse (sendError 400 "missing_data")
  | .badJson => s.refuse (sendError 400 "bad_json")
  | .tooLarge => s.refuse (sendError 413 "too_large")
  | .ok => s.enqueueTx env (fillLoraMsg (some name) (some env.mac) r.data)

def runLoraTransmit : Result := s.guarded r true (s.loraTransmit lib r env)

/-- `handle_api_config`, behind its guard. `read_file` refuses while the file system is
offline. -/
def apiConfig : Result :=
  match r.name with
  | none => s.refuse (sendError 400 "bad_name")
  | some name =>
      if isAllowedConfigName name = false then s.refuse (sendError 400 "bad_name")
      else if s.fsOffline then s.refuse (sendError 404 "not_found")
      else
        match env.content with
        | none => (sendError 404 "not_found", [.readConfig name], s)
        | some raw =>
            if isWifiConfigName name = false then
              ({ code := 200, body := .config name raw }, [.readConfig name], s)
            else
              match (lib.deserialize raw).bind redactWifiConfig with
              | none => (sendError 500 "parse_failed", [.readConfig name], s)
              | some doc => ({ code := 200, body := .wifiConfig doc }, [.readConfig name], s)

def runApiConfig : Result := s.guarded r false (s.apiConfig lib r env)

/-- `reply_and_spawn`. -/
def replyAndSpawn (task : Spawn) (msg : String) : Result :=
  if env.taskOk = false then s.refuse (sendError 500 "task_create")
  else ({ code := 200, body := .text (ascii msg) }, [.spawn task], s)

/-- `ota_upload` up to the checks of `ota_admit`, and `ota_request`. -/
def runUpload (cmd : Cmd) : Result :=
  if r.file = false then s.guarded r true (s.refuse (sendError 400 "missing_update_file"))
  else if !originOk r then s.refuse (sendError 403 "origin")
  else if s.auth.isSet = false then s.refuse (sendError 403 "setup_required")
  else if s.authCheck r = false then s.refuse { code := 401, body := .challenge }
  else ({ code := 200, body := .upload env.upload }, [.upload cmd], s)

/-- The handler for what nobody takes. -/
def runNotFound : Result :=
  if r.method = .get && isMissingAsset r.url then s.refuse { code := 404, body := .empty }
  else if r.method = .get && !s.fsOffline then
    if env.index then
      ({ code := 200, body := .file (ascii "/index.html") },
        [.lookUp (ascii "/index.html"), .sendFile (ascii "/index.html")], s)
    else
      ({ code := 302, body := .redirect "/update" }, [.lookUp (ascii "/index.html")], s)
  else if r.method = .get then s.refuse { code := 302, body := .redirect "/update" }
  else s.refuse { code := 404, body := .empty }

/-- `handleRequest`. -/
def run : Handler → Result
  | .preGate => s.refuse (s.runPreGate r)
  | .setupGate => s.refuse { code := 302, body := .redirect "/setup" }
  | .streamGate => s.refuse (s.runStreamGate r)
  | .rawEvents => ({ code := 200, body := .stream }, [.openStream], s)
  | .webSocket => ({ code := 101, body := .stream }, [.openStream], s)
  | .authStatus => s.refuse { code := 200, body := .authStatus s.auth.isSet }
  | .authSetup => s.runAuthSetup lib r env
  | .authChange => s.runAuthChange lib r env
  | .sessionGet => s.runSessionGet r env
  | .sessionDelete => s.runSessionDelete r
  | .setup =>
      s.refuse (if s.auth.isSet then { code := 302, body := .redirect "/" }
        else { code := 200, body := .setupPage })
  | .hostname => s.refuse { code := 200, body := .text env.hostname }
  | .username => s.refuse { code := 200, body := .text (getUsername env.username env.mac) }
  | .loraTransmit => s.runLoraTransmit lib r env
  | .apiConfig => s.runApiConfig lib r env
  | .restart => s.guarded r true (s.replyAndSpawn env .restart "Restarting device")
  | .reset => s.guarded r true (s.replyAndSpawn env .resetDevice "Resetting device")
  | .update => s.guarded r false (s.refuse { code := 200, body := .updateForm })
  | .upload cmd => s.runUpload r env cmd
  | .files =>
      match lib.fileFor r.url with
      | some path => ({ code := 200, body := .file path }, [.sendFile path], s)
      | none => s.refuse { code := 404, body := .empty }
  | .notFound => s.runNotFound r env

end Site

/-! ## The server

Requests come on several connections. The handler of a request is chosen when its headers are
there, and runs when all of it is. -/

/-- A request whose body is still to come. `seen` is history: what the search for its handler
saw. -/
structure Pending where
  request : Request
  handler : Handler
  seen : Site

structure Server where
  site : Site
  pending : ℕ → Option Pending

inductive Action where
  /-- The headers of a request are there. -/
  | attach (id : ℕ) (r : Request)
  /-- The whole request is there. -/
  | handle (id : ℕ) (env : Env)
  /-- `auth_clear`, which `reset_device` calls. -/
  | authClear (nvsOk : Bool)
  /-- An upload begins to overwrite the file system, or ends. -/
  | fsOffline (offline : Bool)

/-- The action belongs to a request with one of these numbers. -/
def Action.isOf (ids : ℕ → Bool) : Action → Bool
  | .attach id _ => ids id
  | .handle id _ => ids id
  | .authClear _ => false
  | .fsOffline _ => false

/-- What has been done for a request: in the first part the file system may have been asked, in
the second the handler has run. `now` is what it saw. -/
structure Served where
  id : ℕ
  request : Request
  handler : Handler
  seen : Site
  now : Site
  reply : Option Reply
  effects : List Effect

namespace Server

variable (lib : Library)

def step (v : Server) : Action → Server × List Served
  | .attach id r =>
      let h := v.site.handlerFor lib r
      ({ v with pending := Function.update v.pending id (some ⟨r, h, v.site⟩) },
        [⟨id, r, h, v.site, v.site, none,
          if v.site.looksUp lib r then [.lookUp r.url] else []⟩])
  | .handle id env =>
      match v.pending id with
      | none => (v, [])
      | some p =>
          let result := v.site.run lib p.request env p.handler
          ({ site := result.2.2, pending := Function.update v.pending id none },
            [⟨id, p.request, p.handler, p.seen, v.site, some result.1, result.2.1⟩])
  | .authClear nvsOk =>
      ({ v with site.auth :=
        { nvs := if nvsOk then none else v.site.auth.nvs, ha1 := [], sessions := .empty } }, [])
  | .fsOffline offline => ({ v with site.fsOffline := offline }, [])

def boot (site : Site) : Server := { site, pending := fun _ => none }

end Server

end Routes

end Web

end Voyager
