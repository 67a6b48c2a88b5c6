import VmServer.Library.Routing
import VmServer.Auth.Manager

/-!
# The routes of the server and what their handlers call

Serving a request is described by the calls it makes to the other components
and the answers it writes, in order. The routing tables and the middleware
around each handler are those of `buildHandler`.

## Implementation notes

Each `SessionFromRequest` of one request may find the manager in another
state, at another time. What the called components answer, what the body
holds and what the checks of the settings say are parts of the world. The
headers that `securityHeaders` sets and the lines that `logRequests` writes
are left out.
-/

namespace VmServer.HttpServer

open Auth Routing

/-- The parts of a request that the handlers look at. A header is what `Get` returns, which is
empty when the header is absent. -/
structure Request where
  target : Target
  path : String
  requestURI : String
  host : String
  secFetchSite : String
  origin : String
  cookie : Option String
  /-- The value of `mode` in the query. -/
  mode : String
  /-- The value of `name` in the path. -/
  name : String
  /-- The value of `next` in the query or the form. -/
  next : String

/-- The operations of `vm.Manager` behind `vmAction`. -/
inductive VmAction
  | start | shutdown | reset | pause | resume | forceStop
  deriving DecidableEq, Repr

/-- The calls a handler makes and the answers it writes. -/
inductive Call
  | vm (op : VmAction)
  | saveSnapshot (name : String)
  | loadSnapshot (name : String)
  | deleteSnapshot (name : String)
  | listSnapshots
  | createDisk
  | updateConfig
  /-- An assignment to the configuration. -/
  | setConfig
  | saveConfig
  | startTunnel
  | startTailnet
  | acquire (sess : Session)
  | take (sess : Session)
  | release (sessionID : String)
  | addViewer (d : Int)
  | bridge (viewOnly : Bool)
  | login
  | logout
  | redirect (url : String)
  | answer (code : Nat)
  | refuse (code : Nat) (text : String)
  deriving DecidableEq, Repr

/-- The handlers that are registered. -/
inductive Endpoint
  | static | root | loginPage | login | logout | healthz | console | setupPage | vnc
  | status | me | takeControl | releaseControl | vmAction (op : VmAction)
  | listSnapshots | createSnapshot | restoreSnapshot | deleteSnapshot
  | setup | eject | tunnel | tunnelLog | tailscale | users | password
  deriving DecidableEq, Repr

/-- `url.Parse`, `strings.EqualFold`, `url.QueryEscape`, and the websocket upgrader, which
refuses what its `CheckOrigin` refuses. -/
structure Net where
  parseHost : String → Option String
  equalFold : String → String → Bool
  queryEscape : String → String
  upgrade : (Request → Bool) → Request → Bool
  upgrade_checks : ∀ {checkOrigin r}, upgrade checkOrigin r = true → checkOrigin r = true

/-- Everything outside the handlers. -/
structure World where
  opts : Options
  net : Net
  /-- The session manager at each check of the request's session. -/
  auth : Nat → Manager
  /-- The clock at each check. -/
  now : Nat → Int
  /-- The status and text that `writeErr` gives for a call that fails. -/
  fails : Call → Option (Nat × String)
  formParsed : Bool
  decoded : Bool
  /-- The name in the body of a snapshot request. -/
  snapshotName : String
  /-- What the checks of a settings request say. -/
  rejected : Option (Nat × String)
  diskExists : Bool
  wantsStart : Bool
  vncCredentials : Bool
  acquired : Bool

structure Context where
  request : Request
  session : Option Session := none
  /-- The number of session checks made so far. -/
  checks : Nat := 0

/-- A call together with the handler that makes it; the middleware answers for itself. -/
structure Event where
  endpoint : Option Endpoint
  call : Call
  deriving DecidableEq

variable (w : World)

/-- `SessionFromRequest` at the next check. -/
def Context.sessionFromRequest (c : Context) : Option Session :=
  ((w.auth c.checks).sessionFromRequest w.opts c.request.cookie (w.now c.checks)).2

/-- Whether a path begins with the text, as `strings.HasPrefix`. -/
def underPath (path text : String) : Bool := text.toList.isPrefixOf path.toList

/-! ## Middleware -/

def requireAuth (next : Handler Context Event) : Handler Context Event :=
  behind (fun c =>
    match c.sessionFromRequest w with
    | none =>
        .error ⟨none,
          if underPath c.request.path "/api/" || underPath c.request.path "/ws/" then
            .refuse 401 "not logged in"
          else .redirect ("/login?next=" ++ w.net.queryEscape c.request.requestURI)⟩
    | some sess => .ok { c with session := some sess, checks := c.checks + 1 }) next

def requireAdmin (next : Handler Context Event) : Handler Context Event :=
  requireAuth w (behind (fun c =>
    if c.session.any (·.admin) then .ok c else .error ⟨none, .refuse 403 "admin only"⟩) next)

def originMatchesHost (origin host : String) : Bool :=
  match w.net.parseHost origin with
  | none => false
  | some h => w.net.equalFold h host

def sameOrigin (r : Request) : Bool := r.origin = "" || originMatchesHost w r.origin r.host

/-- Rejects state-changing API calls that did not originate from this site. -/
def csrfGuard (next : Handler Context Event) : Handler Context Event :=
  behind (fun c =>
    let r := c.request
    if r.target.method ≠ "GET" ∧ r.target.method ≠ "HEAD" then
      if r.secFetchSite ≠ "" ∧ r.secFetchSite ≠ "same-origin" ∧ r.secFetchSite ≠ "none" then
        .error ⟨none, .refuse 403 "cross-site request blocked"⟩
      else if r.origin ≠ "" ∧ ¬ originMatchesHost w r.origin r.host then
        .error ⟨none, .refuse 403 "origin mismatch"⟩
      else .ok c
    else .ok c) next

/-! ## Handlers -/

/-- The call, and then what follows it when it succeeds. -/
def attempt (call : Call) (rest : List Call) : List Call :=
  call :: match w.fails call with
    | some (code, text) => [.refuse code text]
    | none => rest

/-- The rest of a handler that reads a JSON body. -/
def decoding (rest : List Call) : List Call :=
  if w.decoded then rest else [.refuse 400 "invalid json"]

/-- The rest of a handler after the checks of its settings. -/
def checking (rest : List Call) : List Call :=
  match w.rejected with
  | some (code, text) => [.refuse code text]
  | none => rest

/-- The session that the middleware has put into the context. -/
def withSession (c : Context) (rest : Session → List Call) : List Call :=
  match c.session with
  | none => []
  | some sess => rest sess

/-- Where to go after a login: a path of this site. -/
def safeNext (next : String) : String :=
  if next = "" ∨ ¬ underPath next "/" ∨ underPath next "//" then "/console"
  else
    match w.net.parseHost next with
    | none => "/console"
    | some h => if h = "" then next else "/console"

def handleRoot (c : Context) : List Call :=
  if (c.sessionFromRequest w).isSome then [.redirect "/console"] else [.redirect "/login"]

def handleLoginPage (c : Context) : List Call :=
  if (c.sessionFromRequest w).isSome then [.redirect (safeNext w c.request.next)]
  else [.answer 200]

def handleLogin (c : Context) : List Call :=
  if w.formParsed then attempt w .login [.redirect (safeNext w c.request.next)]
  else [.refuse 400 "bad form"]

def handleLogout (c : Context) : List Call :=
  (match c.sessionFromRequest w with
    | some sess => [.release sess.id]
    | none => []) ++ [.logout, .redirect "/login"]

def handleVNC (c : Context) : List Call :=
  withSession c fun sess =>
    if ¬ w.vncCredentials then [.refuse 409 "vm is not running"]
    else if ¬ w.net.upgrade (sameOrigin w) c.request then []
    else
      let wantControl : Bool := c.request.mode ≠ "view"
      let viewOnly := !(wantControl && w.acquired)
      (if wantControl then [.acquire sess] else []) ++
        if viewOnly then [.addViewer 1, .bridge true, .addViewer (-1)]
        else [.bridge false, .release sess.id]

def apiTakeControl (c : Context) : List Call :=
  withSession c fun sess => [.take sess, .answer 200]

def apiReleaseControl (c : Context) : List Call :=
  withSession c fun sess => [.release sess.id, .answer 200]

def vmAction (op : VmAction) : List Call := attempt w (.vm op) [.answer 200]

def apiListSnapshots : List Call := attempt w .listSnapshots [.answer 200]

def apiCreateSnapshot : List Call :=
  decoding w (attempt w (.saveSnapshot w.snapshotName) [.answer 200])

def apiRestoreSnapshot (c : Context) : List Call :=
  attempt w (.loadSnapshot c.request.name) [.answer 200]

def apiDeleteSnapshot (c : Context) : List Call :=
  attempt w (.deleteSnapshot c.request.name) [.answer 200]

def apiSetup : List Call :=
  let stored := attempt w .saveConfig
    (if w.wantsStart then attempt w (.vm .start) [.answer 200] else [.answer 200])
  decoding w (checking w (.setConfig :: .updateConfig ::
    if w.diskExists then stored else attempt w .createDisk stored))

def apiEject : List Call :=
  .setConfig :: .updateConfig :: attempt w .saveConfig [.answer 200]

def apiTunnel : List Call :=
  decoding w (checking w (.setConfig :: attempt w .saveConfig [.startTunnel, .answer 200]))

def apiTailscale : List Call :=
  decoding w (checking w (.setConfig :: attempt w .saveConfig [.startTailnet, .answer 200]))

def apiAddUser : List Call :=
  decoding w (checking w (.setConfig :: attempt w .saveConfig [.answer 200]))

def apiChangePassword : List Call :=
  checking w (.setConfig :: attempt w .saveConfig [.answer 200])

/-- What the handler of an endpoint calls. -/
def Endpoint.calls (c : Context) : Endpoint → List Call
  | .static => [.answer 200]
  | .root => handleRoot w c
  | .loginPage => handleLoginPage w c
  | .login => handleLogin w c
  | .logout => handleLogout w c
  | .healthz => [.answer 200]
  | .console => [.answer 200]
  | .setupPage => [.answer 200]
  | .vnc => handleVNC w c
  | .status => [.answer 200]
  | .me => [.answer 200]
  | .takeControl => apiTakeControl c
  | .releaseControl => apiReleaseControl c
  | .vmAction op => HttpServer.vmAction w op
  | .listSnapshots => apiListSnapshots w
  | .createSnapshot => apiCreateSnapshot w
  | .restoreSnapshot => apiRestoreSnapshot w c
  | .deleteSnapshot => apiDeleteSnapshot w c
  | .setup => apiSetup w
  | .eject => apiEject w
  | .tunnel => apiTunnel w
  | .tunnelLog => [.answer 200]
  | .tailscale => apiTailscale w
  | .users => apiAddUser w
  | .password => apiChangePassword w

def run (e : Endpoint) : Handler Context Event := fun c =>
  (e.calls w c).map (⟨some e, ·⟩)

/-! ## Routing tables -/

/-- `GET` on a path without wildcards. -/
def get (path : List String) : Pattern := ⟨some "GET", path.map .lit⟩

/-- `POST` on a path without wildcards. -/
def post (path : List String) : Pattern := ⟨some "POST", path.map .lit⟩

def api : List (Pattern × Handler Context Event) :=
  [ (get ["api", "status"], run w .status),
    (get ["api", "me"], run w .me),
    (post ["api", "control", "take"], run w .takeControl),
    (post ["api", "control", "release"], run w .releaseControl),
    (post ["api", "vm", "start"], run w (.vmAction .start)),
    (post ["api", "vm", "shutdown"], run w (.vmAction .shutdown)),
    (post ["api", "vm", "reset"], run w (.vmAction .reset)),
    (post ["api", "vm", "pause"], run w (.vmAction .pause)),
    (post ["api", "vm", "resume"], run w (.vmAction .resume)),
    (post ["api", "vm", "forcestop"], run w (.vmAction .forceStop)),
    (get ["api", "snapshots"], run w .listSnapshots),
    (post ["api", "snapshots"], run w .createSnapshot),
    (⟨some "POST", [.lit "api", .lit "snapshots", .wild "name", .lit "restore"]⟩,
      run w .restoreSnapshot),
    (⟨some "DELETE", [.lit "api", .lit "snapshots", .wild "name"]⟩, run w .deleteSnapshot),
    (post ["api", "setup"], requireAdmin w (run w .setup)),
    (post ["api", "vm", "eject"], requireAdmin w (run w .eject)),
    (post ["api", "tunnel"], requireAdmin w (run w .tunnel)),
    (get ["api", "tunnel", "log"], requireAdmin w (run w .tunnelLog)),
    (post ["api", "tailscale"], requireAdmin w (run w .tailscale)),
    (post ["api", "users"], requireAdmin w (run w .users)),
    (post ["api", "password"], run w .password) ]

def target (c : Context) : Target := c.request.target

def routes : List (Pattern × Handler Context Event) :=
  [ (⟨some "GET", [.lit "static", .rest]⟩, run w .static),
    (get [""], run w .root),
    (get ["login"], run w .loginPage),
    (post ["login"], run w .login),
    (post ["logout"], run w .logout),
    (get ["healthz"], run w .healthz),
    (get ["console"], requireAuth w (run w .console)),
    (get ["setup"], requireAdmin w (run w .setupPage)),
    (get ["ws", "vnc"], requireAuth w (run w .vnc)),
    (⟨none, [.lit "api", .rest]⟩, requireAuth w (csrfGuard w (mux target (api w)))) ]

/-- Everything that serving the request calls. -/
def buildHandler (r : Request) : List Event := mux target (routes w) { request := r }

end VmServer.HttpServer
