import VmServer.Config.Sections

/-!
# Reading and writing `config.yaml`

`Load` decodes the file over the defaults and validates the result, `Save`
encodes the configuration. A field that is missing from the file keeps its
default, and `omitempty` fields are missing when they are zero.

## Implementation notes

`Document` is what the file says field by field. The yaml library between a
document and the text of the file is a parameter that reads back what it has
written. A missing `clipboard_sync` is a nil pointer on both sides.
-/

namespace VmServer.Config

structure TLSDocument where
  mode : Option String
  certFile : Option String
  keyFile : Option String
  deriving DecidableEq

structure AuthDocument where
  sessionTTLMinutes : Option Int
  idleTimeoutMinutes : Option Int
  maxLoginAttempts : Option Int
  loginWindowMinutes : Option Int
  deriving DecidableEq

structure VMDocument where
  qemuDir : Option String
  diskPath : Option String
  diskInterface : Option String
  isoPath : Option String
  virtioISOPath : Option String
  ramMB : Option Int
  cpus : Option Int
  vncPort : Option Int
  qmpPort : Option Int
  accel : Option String
  clipboardSync : Option Bool
  autoStart : Option Bool
  restartOnCrash : Option Bool
  extraArgs : Option (List String)
  deriving DecidableEq

structure TunnelDocument where
  enabled : Option Bool
  mode : Option String
  token : Option String
  hostname : Option String
  binaryPath : Option String
  autoDownload : Option Bool
  deriving DecidableEq

structure TailscaleDocument where
  enabled : Option Bool
  hostname : Option String
  funnel : Option Bool
  authKey : Option String
  controlURL : Option String
  deriving DecidableEq

structure Document where
  listenAddr : Option String
  dataDir : Option String
  tls : TLSDocument
  auth : AuthDocument
  vm : VMDocument
  tunnel : TunnelDocument
  tailscale : TailscaleDocument
  users : Option (List User)
  deriving DecidableEq

/-- The tag `omitempty`. -/
def omitEmpty {α : Type*} [DecidableEq α] (zero a : α) : Option α :=
  if a = zero then none else some a

theorem omitEmpty_getD {α : Type*} [DecidableEq α] (zero a : α) :
    (omitEmpty zero a).getD zero = a := by
  unfold omitEmpty
  split
  · rename_i h
    exact h.symm
  · rfl

/-- The fields `yaml.Marshal` emits. -/
def emit (c : Config) : Document where
  listenAddr := some c.listenAddr
  dataDir := some c.dataDir
  tls := {
    mode := some c.tls.mode
    certFile := omitEmpty "" c.tls.certFile
    keyFile := omitEmpty "" c.tls.keyFile }
  auth := {
    sessionTTLMinutes := some c.auth.sessionTTLMinutes
    idleTimeoutMinutes := some c.auth.idleTimeoutMinutes
    maxLoginAttempts := some c.auth.maxLoginAttempts
    loginWindowMinutes := some c.auth.loginWindowMinutes }
  vm := {
    qemuDir := some c.vm.qemuDir
    diskPath := some c.vm.diskPath
    diskInterface := some c.vm.diskInterface
    isoPath := omitEmpty "" c.vm.isoPath
    virtioISOPath := omitEmpty "" c.vm.virtioISOPath
    ramMB := some c.vm.ramMB
    cpus := some c.vm.cpus
    vncPort := some c.vm.vncPort
    qmpPort := some c.vm.qmpPort
    accel := some c.vm.accel
    clipboardSync := c.vm.clipboardSync
    autoStart := some c.vm.autoStart
    restartOnCrash := some c.vm.restartOnCrash
    extraArgs := omitEmpty [] c.vm.extraArgs }
  tunnel := {
    enabled := some c.tunnel.enabled
    mode := some c.tunnel.mode
    token := omitEmpty "" c.tunnel.token
    hostname := omitEmpty "" c.tunnel.hostname
    binaryPath := omitEmpty "" c.tunnel.binaryPath
    autoDownload := some c.tunnel.autoDownload }
  tailscale := {
    enabled := some c.tailscale.enabled
    hostname := some c.tailscale.hostname
    funnel := some c.tailscale.funnel
    authKey := omitEmpty "" c.tailscale.authKey
    controlURL := omitEmpty "" c.tailscale.controlURL }
  users := some c.users

namespace Document

/-- What `yaml.Unmarshal` makes of a configuration that is there already. -/
def unmarshalInto (d : Document) (c : Config) : Config where
  listenAddr := d.listenAddr.getD c.listenAddr
  dataDir := d.dataDir.getD c.dataDir
  tls := {
    mode := d.tls.mode.getD c.tls.mode
    certFile := d.tls.certFile.getD c.tls.certFile
    keyFile := d.tls.keyFile.getD c.tls.keyFile }
  auth := {
    sessionTTLMinutes := d.auth.sessionTTLMinutes.getD c.auth.sessionTTLMinutes
    idleTimeoutMinutes := d.auth.idleTimeoutMinutes.getD c.auth.idleTimeoutMinutes
    maxLoginAttempts := d.auth.maxLoginAttempts.getD c.auth.maxLoginAttempts
    loginWindowMinutes := d.auth.loginWindowMinutes.getD c.auth.loginWindowMinutes }
  vm := {
    qemuDir := d.vm.qemuDir.getD c.vm.qemuDir
    diskPath := d.vm.diskPath.getD c.vm.diskPath
    diskInterface := d.vm.diskInterface.getD c.vm.diskInterface
    isoPath := d.vm.isoPath.getD c.vm.isoPath
    virtioISOPath := d.vm.virtioISOPath.getD c.vm.virtioISOPath
    ramMB := d.vm.ramMB.getD c.vm.ramMB
    cpus := d.vm.cpus.getD c.vm.cpus
    vncPort := d.vm.vncPort.getD c.vm.vncPort
    qmpPort := d.vm.qmpPort.getD c.vm.qmpPort
    accel := d.vm.accel.getD c.vm.accel
    clipboardSync := d.vm.clipboardSync <|> c.vm.clipboardSync
    autoStart := d.vm.autoStart.getD c.vm.autoStart
    restartOnCrash := d.vm.restartOnCrash.getD c.vm.restartOnCrash
    extraArgs := d.vm.extraArgs.getD c.vm.extraArgs }
  tunnel := {
    enabled := d.tunnel.enabled.getD c.tunnel.enabled
    mode := d.tunnel.mode.getD c.tunnel.mode
    token := d.tunnel.token.getD c.tunnel.token
    hostname := d.tunnel.hostname.getD c.tunnel.hostname
    binaryPath := d.tunnel.binaryPath.getD c.tunnel.binaryPath
    autoDownload := d.tunnel.autoDownload.getD c.tunnel.autoDownload }
  tailscale := {
    enabled := d.tailscale.enabled.getD c.tailscale.enabled
    hostname := d.tailscale.hostname.getD c.tailscale.hostname
    funnel := d.tailscale.funnel.getD c.tailscale.funnel
    authKey := d.tailscale.authKey.getD c.tailscale.authKey
    controlURL := d.tailscale.controlURL.getD c.tailscale.controlURL }
  users := d.users.getD c.users

end Document

/-- The yaml library: it reads back the documents of configurations that it has written. -/
structure Yaml (Text : Type*) where
  marshal : Document → Text
  unmarshal : Text → Except String Document
  inverts : ∀ c : Config, unmarshal (marshal (emit c)) = .ok (emit c)

/-- Documents that are stored as they are. -/
def Yaml.plain : Yaml Document := ⟨id, .ok, fun _ => rfl⟩

/-- The check of the section `tls`. -/
def TLS.check (t : TLS) : Option String :=
  if t.mode = "self-signed" ∨ t.mode = "off" then none
  else if t.mode = "files" then
    if t.certFile = "" ∨ t.keyFile = "" then
      some "tls.cert_file and tls.key_file are required when tls.mode is files"
    else none
  else some ("unknown tls.mode " ++ quote t.mode)

/-- Limits that are not positive get their defaults. -/
def AuthLimits.normalise (a : AuthLimits) : AuthLimits where
  sessionTTLMinutes := if a.sessionTTLMinutes ≤ 0 then 12 * 60 else a.sessionTTLMinutes
  idleTimeoutMinutes := if a.idleTimeoutMinutes ≤ 0 then 60 else a.idleTimeoutMinutes
  maxLoginAttempts := if a.maxLoginAttempts ≤ 0 then 8 else a.maxLoginAttempts
  loginWindowMinutes := if a.loginWindowMinutes ≤ 0 then 15 else a.loginWindowMinutes

/-- Checks a configuration and returns it in normal form. -/
def validate (lower : Lower) (c : Config) : Except String Config :=
  if c.listenAddr = "" then .error "listen_addr is required"
  else
    match c.tls.check with
    | some text => .error text
    | none => do
        let vm ← validateVM c.vm
        let tunnel ← validateTunnel c.tunnel
        let tailscale ← validateTailscale lower c.tailscale
        return { c with vm, tunnel, tailscale, auth := c.auth.normalise }

/-- The file is named by its path; the two default paths are joined from its directory. -/
def load {Text : Type*} (yaml : Yaml Text) (lower : Lower) (path dataDir diskPath : String)
    (raw : Text) : Except String Config :=
  match yaml.unmarshal raw with
  | .error text => .error ("parse " ++ path ++ ": " ++ text)
  | .ok document => validate lower (document.unmarshalInto (default dataDir diskPath))

/-- What `Save` writes. -/
def saved {Text : Type*} (yaml : Yaml Text) (c : Config) : Text := yaml.marshal (emit c)

/-- The omitted fields are the ones whose default is zero, so nothing is lost. -/
theorem emit_unmarshalInto_default (c : Config) (dataDir diskPath : String) :
    (emit c).unmarshalInto (default dataDir diskPath) = c := by
  have pointer : (c.vm.clipboardSync <|> none) = c.vm.clipboardSync := by
    cases c.vm.clipboardSync <;> rfl
  simp only [emit, Document.unmarshalInto, default, Option.getD_some, omitEmpty_getD, pointer]

end VmServer.Config
