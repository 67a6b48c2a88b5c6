import VmServer.Library.TransitionSystem
import VmServer.Config.Sections

/-!
# The settings requests

Each of the six handlers checks its request, assigns the new configuration,
and then saves it. The handler holds the lock of the configuration from the
assignment to its answer, so requests take effect one after another.

## Implementation notes

What the file system, the yaml library, `bcrypt` and the VM manager answer to
a request comes with the request. `Save` writes a temporary file and renames
it, so the configuration file changes only when all of its steps succeed.
-/

namespace VmServer.HttpServer

open Config TransitionSystem

structure SetupBody where
  isoPath : String
  virtioISOPath : String
  diskInterface : String
  ramMB : Int
  cpus : Int
  diskGB : Int
  accel : String
  clipboardSync : Option Bool
  start : Bool
  deriving DecidableEq, Repr

structure TunnelBody where
  enabled : Option Bool
  mode : String
  token : String
  hostname : String
  autoDownload : Option Bool
  deriving DecidableEq, Repr

structure TailscaleBody where
  enabled : Option Bool
  hostname : String
  funnel : Option Bool
  authKey : String
  controlURL : Option String
  deriving DecidableEq, Repr

structure UserBody where
  username : String
  password : String
  admin : Bool
  deriving DecidableEq, Repr

/-- A settings request; a body that is not valid JSON is missing. -/
inductive SettingsRequest
  | setup (body : Option SetupBody)
  | eject
  | tunnel (body : Option TunnelBody)
  | tailscale (body : Option TailscaleBody)
  | addUser (body : Option UserBody)
  /-- With the user name of the session. -/
  | changePassword (username : String) (password : Option String)

/-- The errors of the steps of `Save`, where they fail. -/
structure SaveSteps where
  marshal : Option String := none
  mkdirAll : Option String := none
  writeFile : Option String := none
  rename : Option String := none
  deriving DecidableEq, Repr

/-- The error of the first step that fails. -/
def SaveSteps.error (f : SaveSteps) : Option String :=
  f.marshal <|> f.mkdirAll <|> f.writeFile <|> f.rename

/-- What the rest of the host answers while a request is served. -/
structure Answers where
  lower : Lower
  /-- The state of the VM is running or starting. -/
  busy : Bool
  isFile : String → Bool
  diskExists : String → Bool
  createDisk : Int → Option String
  hashPassword : String → Except String String
  save : SaveSteps
  /-- The status and text of the error of `vm.Start`. -/
  start : Option (Nat × String)

/-- The configuration in memory, the VM manager's copy of its VM section, the content of
`config.yaml`, and the path it is saved to. -/
structure Settings where
  cfg : Config
  vm : VM
  file : Config
  path : String
  deriving DecidableEq

/-- A response, and whether `Save` had succeeded before it. -/
structure Reply where
  code : Nat
  error : String
  saved : Bool
  deriving DecidableEq, Repr

def Reply.ok : Reply := ⟨200, "", true⟩

/-- An error before anything was saved. -/
def refused (code : Nat) (error : String) : Reply := ⟨code, error, false⟩

/-! ## The checks -/

def SetupBody.apply (body : SetupBody) (c : VM) : VM :=
  { c with
    isoPath := body.isoPath
    virtioISOPath := body.virtioISOPath
    diskInterface := if body.diskInterface ≠ "" then body.diskInterface else c.diskInterface
    ramMB := if 0 < body.ramMB then body.ramMB else c.ramMB
    cpus := if 0 < body.cpus then body.cpus else c.cpus
    accel := if body.accel ≠ "" then body.accel else c.accel
    clipboardSync := body.clipboardSync <|> c.clipboardSync }

/-- The medium that is asked for and is not a file on the server. -/
def SetupBody.missing (body : SetupBody) (isFile : String → Bool) : Option String :=
  [body.isoPath, body.virtioISOPath].find? fun p => p ≠ "" && !isFile p

def checkSetup (cfg : Config) (a : Answers) : Option SetupBody → Except Reply Config
  | none => .error (refused 400 "invalid json")
  | some body =>
      if a.busy then .error (refused 409 "stop the VM before changing its settings")
      else
        match body.missing a.isFile with
        | some p => .error (refused 400 ("file not found on server: " ++ p))
        | none =>
            match validateVM (body.apply cfg.vm) with
            | .error text => .error (refused 400 text)
            | .ok vm => .ok { cfg with vm }

/-- Detaches the installation media. -/
def ejected (cfg : Config) : Config :=
  { cfg with vm := { cfg.vm with isoPath := "", virtioISOPath := "" } }

/-- An empty token in the request keeps the stored one. -/
def TunnelBody.apply (body : TunnelBody) (t : Tunnel) : Tunnel :=
  { t with
    enabled := body.enabled.getD t.enabled
    mode := if body.mode ≠ "" then body.mode else t.mode
    token := if body.token ≠ "" then trimSpace body.token else t.token
    hostname := trimSpace body.hostname
    autoDownload := body.autoDownload.getD t.autoDownload }

def checkTunnel (cfg : Config) : Option TunnelBody → Except Reply Config
  | none => .error (refused 400 "invalid json")
  | some body =>
      match validateTunnel (body.apply cfg.tunnel) with
      | .error text => .error (refused 400 text)
      | .ok tunnel => .ok { cfg with tunnel }

def TailscaleBody.apply (body : TailscaleBody) (t : Tailscale) : Tailscale where
  enabled := body.enabled.getD t.enabled
  hostname := if body.hostname ≠ "" then body.hostname else t.hostname
  funnel := body.funnel.getD t.funnel
  authKey := if body.authKey ≠ "" then trimSpace body.authKey else t.authKey
  controlURL := (body.controlURL.map trimSpace).getD t.controlURL

def checkTailscale (cfg : Config) (a : Answers) : Option TailscaleBody → Except Reply Config
  | none => .error (refused 400 "invalid json")
  | some body =>
      match validateTailscale a.lower (body.apply cfg.tailscale) with
      | .error text => .error (refused 400 text)
      | .ok tailscale => .ok { cfg with tailscale }

def checkAddUser (cfg : Config) (a : Answers) : Option UserBody → Except Reply Config
  | none => .error (refused 400 "invalid json")
  | some body =>
      let username := trimSpace body.username
      if username = "" ∨ body.password.utf8ByteSize < 8 then
        .error (refused 400 "username required and password must be at least 8 characters")
      else
        match a.hashPassword body.password with
        | .error text => .error (refused 500 text)
        | .ok hash =>
            if (cfg.findUser username).isSome then
              .ok (cfg.modifyUser username fun u =>
                { u with passwordHash := hash, admin := body.admin })
            else .ok { cfg with users := cfg.users ++ [⟨username, hash, body.admin⟩] }

def checkChangePassword (cfg : Config) (a : Answers) (username : String) :
    Option String → Except Reply Config
  | none => .error (refused 400 "password must be at least 8 characters")
  | some password =>
      if password.utf8ByteSize < 8 then
        .error (refused 400 "password must be at least 8 characters")
      else
        match a.hashPassword password with
        | .error text => .error (refused 500 text)
        | .ok hash =>
            if (cfg.findUser username).isNone then .error (refused 404 "user not found")
            else .ok (cfg.modifyUser username fun u => { u with passwordHash := hash })

/-- The configuration that a request asks for, if it passes its checks. -/
def SettingsRequest.check (cfg : Config) (a : Answers) : SettingsRequest → Except Reply Config
  | .setup body => checkSetup cfg a body
  | .eject => .ok (ejected cfg)
  | .tunnel body => checkTunnel cfg body
  | .tailscale body => checkTailscale cfg a body
  | .addUser body => checkAddUser cfg a body
  | .changePassword username password => checkChangePassword cfg a username password

/-! ## What an accepted request has made -/

section Accepted

variable {c d : Config} {a : Answers}

theorem checkSetup_ok {body : Option SetupBody} (h : checkSetup c a body = .ok d) :
    ∃ request vm, body = some request ∧ validateVM (request.apply c.vm) = .ok vm ∧
      d = { c with vm } := by
  unfold checkSetup at h
  split at h
  · cases h
  · split at h
    · cases h
    · split at h
      · cases h
      · split at h
        · cases h
        · rename_i vm valid
          exact ⟨_, vm, rfl, valid, (Except.ok.inj h).symm⟩

theorem checkTunnel_ok {body : Option TunnelBody} (h : checkTunnel c body = .ok d) :
    ∃ request tunnel, body = some request ∧
      validateTunnel (request.apply c.tunnel) = .ok tunnel ∧ d = { c with tunnel } := by
  unfold checkTunnel at h
  split at h
  · cases h
  · split at h
    · cases h
    · rename_i tunnel valid
      exact ⟨_, tunnel, rfl, valid, (Except.ok.inj h).symm⟩

theorem checkTailscale_ok {body : Option TailscaleBody} (h : checkTailscale c a body = .ok d) :
    ∃ request tailscale, body = some request ∧
      validateTailscale a.lower (request.apply c.tailscale) = .ok tailscale ∧
        d = { c with tailscale } := by
  unfold checkTailscale at h
  split at h
  · cases h
  · split at h
    · cases h
    · rename_i tailscale valid
      exact ⟨_, tailscale, rfl, valid, (Except.ok.inj h).symm⟩

theorem checkAddUser_ok {body : Option UserBody} (h : checkAddUser c a body = .ok d) :
    ∃ users, d = { c with users } := by
  unfold checkAddUser at h
  split at h
  · cases h
  · dsimp only at h
    split at h
    · cases h
    · split at h
      · cases h
      · split at h
        · exact ⟨_, (Except.ok.inj h).symm⟩
        · exact ⟨_, (Except.ok.inj h).symm⟩

theorem checkChangePassword_ok {username : String} {password : Option String}
    (h : checkChangePassword c a username password = .ok d) :
    ∃ hash, d = c.modifyUser username fun u => { u with passwordHash := hash } := by
  unfold checkChangePassword at h
  split at h
  · cases h
  · split at h
    · cases h
    · split at h
      · cases h
      · split at h
        · cases h
        · exact ⟨_, (Except.ok.inj h).symm⟩

end Accepted

/-! ## The handlers -/

namespace Settings

/-- The error of `Save`, if it fails. -/
def saveError (s : Settings) (f : SaveSteps) : Option String :=
  if s.path = "" then some "config has no path" else f.error

/-- Saves the configuration in memory and then answers. -/
def save (s : Settings) (f : SaveSteps) (reply : Reply) : Settings × Reply :=
  match s.saveError f with
  | some text => (s, refused 500 text)
  | none => ({ s with file := s.cfg }, reply)

/-- `vm.UpdateConfig` with the VM section in memory. -/
def updateConfig (s : Settings) : Settings := { s with vm := s.cfg.vm }

/-- The size of a new disk, 40 GB unless the request asks for another one. -/
def diskSize (body : Option SetupBody) : Int :=
  let size := body.elim 0 (·.diskGB)
  if size ≤ 0 then 40 else size

/-- The response once the configuration is saved, after the start that was asked for. -/
def setupReply (a : Answers) (body : Option SetupBody) : Reply :=
  match if body.any (·.start) then a.start else none with
  | none => .ok
  | some (code, text) => ⟨code, text, true⟩

/-- The configuration is assigned before the disk is created and before it is saved. -/
def apiSetup (s : Settings) (a : Answers) (body : Option SetupBody) : Settings × Reply :=
  match checkSetup s.cfg a body with
  | .error reply => (s, reply)
  | .ok cfg =>
      let s := { s with cfg }.updateConfig
      if a.diskExists cfg.vm.diskPath then s.save a.save (setupReply a body)
      else
        match a.createDisk (diskSize body) with
        | some text => (s, refused 500 text)
        | none => s.save a.save (setupReply a body)

def apiEject (s : Settings) (a : Answers) : Settings × Reply :=
  { s with cfg := ejected s.cfg }.updateConfig.save a.save .ok

/-- What the other four handlers do with the outcome of their checks. -/
def store (s : Settings) (f : SaveSteps) : Except Reply Config → Settings × Reply
  | .error reply => (s, reply)
  | .ok cfg => { s with cfg }.save f .ok

def apiTunnel (s : Settings) (a : Answers) (body : Option TunnelBody) : Settings × Reply :=
  s.store a.save (checkTunnel s.cfg body)

def apiTailscale (s : Settings) (a : Answers) (body : Option TailscaleBody) : Settings × Reply :=
  s.store a.save (checkTailscale s.cfg a body)

def apiAddUser (s : Settings) (a : Answers) (body : Option UserBody) : Settings × Reply :=
  s.store a.save (checkAddUser s.cfg a body)

def apiChangePassword (s : Settings) (a : Answers) (username : String)
    (password : Option String) : Settings × Reply :=
  s.store a.save (checkChangePassword s.cfg a username password)

def respond (s : Settings) (r : SettingsRequest) (a : Answers) : Settings × Reply :=
  match r with
  | .setup body => s.apiSetup a body
  | .eject => s.apiEject a
  | .tunnel body => s.apiTunnel a body
  | .tailscale body => s.apiTailscale a body
  | .addUser body => s.apiAddUser a body
  | .changePassword username password => s.apiChangePassword a username password

end Settings

/-! ## What a request can do -/

/-- The error of the step that fails between the assignment of the configuration and the end
of `Save`. -/
def SettingsRequest.failure (r : SettingsRequest) (s : Settings) (a : Answers) (cfg : Config) :
    Option String :=
  match r with
  | .setup body =>
      if a.diskExists cfg.vm.diskPath then s.saveError a.save
      else a.createDisk (Settings.diskSize body) <|> s.saveError a.save
  | _ => s.saveError a.save

/-- The requests after which the VM manager is told the VM section. -/
def SettingsRequest.tells : SettingsRequest → Bool
  | .setup _ => true
  | .eject => true
  | _ => false

namespace Settings

variable {s : Settings} {r : SettingsRequest} {a : Answers}

/-- The state once the configuration has been assigned. -/
def assigned (s : Settings) (r : SettingsRequest) (cfg : Config) : Settings :=
  { s with cfg, vm := if r.tells then cfg.vm else s.vm }

/-- A request is refused by its checks, fails after the assignment, or is saved. -/
inductive Outcome (s : Settings) (r : SettingsRequest) (a : Answers) : Settings × Reply → Prop
  | refused {reply : Reply} (checked : r.check s.cfg a = .error reply) : Outcome s r a (s, reply)
  | failed {cfg : Config} {text : String} (checked : r.check s.cfg a = .ok cfg)
      (failure : r.failure s a cfg = some text) :
      Outcome s r a (s.assigned r cfg, refused 500 text)
  | saved {cfg : Config} {reply : Reply} (checked : r.check s.cfg a = .ok cfg)
      (success : r.failure s a cfg = none) (kept : reply.saved = true) :
      Outcome s r a ({ s.assigned r cfg with file := cfg }, reply)

/-- Saving what has been assigned, when no other step can fail. -/
theorem outcome_save {cfg : Config} {reply : Reply} (checked : r.check s.cfg a = .ok cfg)
    (only : r.failure s a cfg = s.saveError a.save) (kept : reply.saved = true) :
    Outcome s r a ((s.assigned r cfg).save a.save reply) := by
  unfold save
  have same : (s.assigned r cfg).saveError a.save = s.saveError a.save := rfl
  rw [same]
  cases error : s.saveError a.save with
  | some text => exact .failed checked (only.trans error)
  | none => exact .saved checked (only.trans error) kept

theorem outcome_store {checked : Except Reply Config} (h : r.check s.cfg a = checked)
    (quiet : r.tells = false) (only : ∀ cfg, r.failure s a cfg = s.saveError a.save) :
    Outcome s r a (s.store a.save checked) := by
  cases checked with
  | error reply => exact .refused h
  | ok cfg =>
      have assigned : s.assigned r cfg = { s with cfg } := by simp [assigned, quiet]
      simp only [store, ← assigned]
      exact outcome_save h (only cfg) rfl

theorem setupReply_saved (body : Option SetupBody) : (setupReply a body).saved = true := by
  unfold setupReply
  split <;> rfl

theorem outcome_apiSetup (s : Settings) (a : Answers) (body : Option SetupBody) :
    Outcome s (.setup body) a (s.apiSetup a body) := by
  unfold apiSetup
  cases checked : checkSetup s.cfg a body with
  | error reply => exact .refused checked
  | ok cfg =>
      have kept := setupReply_saved (a := a) body
      dsimp only
      split
      · rename_i there
        exact outcome_save checked (if_pos there) kept
      · rename_i new
        have failure : SettingsRequest.failure (.setup body) s a cfg =
            (a.createDisk (diskSize body) <|> s.saveError a.save) := if_neg new
        cases created : a.createDisk (diskSize body) with
        | some text => exact .failed checked (failure.trans (by rw [created]; rfl))
        | none => exact outcome_save checked (failure.trans (by rw [created]; rfl)) kept

theorem respond_outcome (s : Settings) (r : SettingsRequest) (a : Answers) :
    Outcome s r a (s.respond r a) := by
  cases r with
  | setup body => exact outcome_apiSetup s a body
  | eject => exact outcome_save (r := .eject) rfl rfl rfl
  | tunnel body => exact outcome_store rfl rfl fun _ => rfl
  | tailscale body => exact outcome_store rfl rfl fun _ => rfl
  | addUser body => exact outcome_store rfl rfl fun _ => rfl
  | changePassword username password => exact outcome_store rfl rfl fun _ => rfl

end Settings

end VmServer.HttpServer
