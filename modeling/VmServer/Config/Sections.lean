import Mathlib.Data.List.Basic

/-!
# The configuration and the checks of its sections

The sections hold what `config.yaml` does. `ValidateVM`, `ValidateTunnel` and
`ValidateTailscale` check a section and return it in normal form.

## Implementation notes

Modes and accelerators are text, as a request may carry any text for them. A
hostname is lower-cased rune by rune; of `unicode.ToLower` only its values on
ASCII are known here. The `%q` of an error text takes all characters beyond
Latin-1 for printable ones.
-/

namespace VmServer.Config

structure TLS where
  mode : String
  certFile : String
  keyFile : String
  deriving DecidableEq, Repr

structure User where
  username : String
  passwordHash : String
  admin : Bool
  deriving DecidableEq, Repr

structure VM where
  qemuDir : String
  diskPath : String
  diskInterface : String
  isoPath : String
  virtioISOPath : String
  ramMB : Int
  cpus : Int
  vncPort : Int
  qmpPort : Int
  accel : String
  clipboardSync : Option Bool
  autoStart : Bool
  restartOnCrash : Bool
  extraArgs : List String
  deriving DecidableEq, Repr

/-- The section `auth`. -/
structure AuthLimits where
  sessionTTLMinutes : Int
  idleTimeoutMinutes : Int
  maxLoginAttempts : Int
  loginWindowMinutes : Int
  deriving DecidableEq, Repr

structure Tunnel where
  enabled : Bool
  mode : String
  token : String
  hostname : String
  binaryPath : String
  autoDownload : Bool
  deriving DecidableEq, Repr

structure Tailscale where
  enabled : Bool
  hostname : String
  funnel : Bool
  authKey : String
  controlURL : String
  deriving DecidableEq, Repr

end VmServer.Config

namespace VmServer

open Config in
/-- Everything that is written to `config.yaml`. -/
structure Config where
  listenAddr : String
  dataDir : String
  tls : TLS
  auth : AuthLimits
  vm : VM
  tunnel : Tunnel
  tailscale : Tailscale
  users : List User
  deriving DecidableEq, Repr

namespace Config

/-- `Default`, with the two paths it joins from the base directory. -/
def default (dataDir diskPath : String) : Config where
  listenAddr := "0.0.0.0:8443"
  dataDir := dataDir
  tls := { mode := "self-signed", certFile := "", keyFile := "" }
  auth := {
    sessionTTLMinutes := 12 * 60
    idleTimeoutMinutes := 60
    maxLoginAttempts := 8
    loginWindowMinutes := 15 }
  vm := {
    qemuDir := ""
    diskPath := diskPath
    diskInterface := "sata"
    isoPath := ""
    virtioISOPath := ""
    ramMB := 4096
    cpus := 2
    vncPort := 5900
    qmpPort := 4444
    accel := "auto"
    clipboardSync := none
    autoStart := true
    restartOnCrash := false
    extraArgs := [] }
  tunnel := {
    enabled := false
    mode := "quick"
    token := ""
    hostname := ""
    binaryPath := ""
    autoDownload := true }
  tailscale := {
    enabled := false
    hostname := "vmserver"
    funnel := false
    authKey := ""
    controlURL := "" }
  users := []

/-- `unicode.ToLower`, which is known on ASCII. -/
structure Lower where
  rune : Char → Char
  ascii : ∀ c, c.val < 128 → rune c = c.toLower

/-- The lower-casing of ASCII alone. -/
def Lower.onASCII : Lower := ⟨Char.toLower, fun _ _ => rfl⟩

/-- `unicode.IsSpace`. -/
def isSpace (c : Char) : Bool :=
  c ∈ ['\t', '\n', '\x0b', '\x0c', '\r', ' ', '\u0085', '\u00a0', '\u1680', '\u2028', '\u2029',
    '\u202f', '\u205f', '\u3000'] || ('\u2000' ≤ c && c ≤ '\u200a')

/-- `strings.TrimSpace`. -/
def trimSpace (s : String) : String :=
  String.ofList ((s.toList.dropWhile isSpace).reverse.dropWhile isSpace).reverse

/-- `strings.ToLower`. -/
def toLower (lower : Lower) (s : String) : String := String.ofList (s.toList.map lower.rune)

/-- `strconv.IsPrint`. -/
def isPrint (c : Char) : Bool :=
  (' ' ≤ c && c ≤ '~') || ('\u00a1' ≤ c && c ≠ '\u00ad')

/-- The escape sequence of a character in `strconv.Quote`. -/
def escapeRune (c : Char) : List Char :=
  if c = '\x22' ∨ c = '\\' then ['\\', c]
  else if isPrint c then [c]
  else
    match c with
    | '\x07' => ['\\', 'a']
    | '\x08' => ['\\', 'b']
    | '\x0c' => ['\\', 'f']
    | '\n' => ['\\', 'n']
    | '\r' => ['\\', 'r']
    | '\t' => ['\\', 't']
    | '\x0b' => ['\\', 'v']
    | c =>
        let digits := Nat.toDigits 16 c.toNat
        if c < '\u0080' then '\\' :: 'x' :: digits.leftpad 2 '0'
        else '\\' :: 'u' :: digits.leftpad 4 '0'

/-- `strconv.Quote`, which is `%q`. -/
def quote (s : String) : String :=
  String.ofList ('\x22' :: s.toList.flatMap escapeRune ++ ['\x22'])

/-- Checks the VM section and fills in its defaults. -/
def validateVM (c : VM) : Except String VM :=
  if c.ramMB < 512 then .error "vm.ram_mb must be at least 512"
  else if c.cpus < 1 then .error "vm.cpus must be at least 1"
  else if c.vncPort < 5900 ∨ 5999 < c.vncPort then
    .error "vm.vnc_port must be between 5900 and 5999"
  else if c.qmpPort ≤ 0 ∨ c.vncPort = c.qmpPort then
    .error "vm.qmp_port must be a positive port distinct from vm.vnc_port"
  else if c.diskInterface ≠ "" ∧ c.diskInterface ≠ "sata" ∧ c.diskInterface ≠ "virtio" then
    .error ("vm.disk_interface must be sata or virtio, got " ++ quote c.diskInterface)
  else if c.accel ∉ ["", "auto", "whpx", "kvm", "hvf", "tcg"] then
    .error ("vm.accel must be auto, whpx, kvm, hvf or tcg, got " ++ quote c.accel)
  else
    .ok { c with diskInterface := if c.diskInterface = "" then "sata" else c.diskInterface,
                 accel := if c.accel = "" then "auto" else c.accel }

/-- Checks the tunnel section and fills in its default mode. -/
def validateTunnel (t : Tunnel) : Except String Tunnel :=
  if t.mode = "" ∨ t.mode = "quick" then .ok { t with mode := "quick" }
  else if t.mode = "named" then
    if t.enabled ∧ t.token = "" then .error "tunnel.token is required when tunnel.mode is named"
    else .ok t
  else .error ("tunnel.mode must be quick or named, got " ++ quote t.mode)

/-- The runes of a hostname: letters, digits, and hyphens that are not at its ends. -/
def hostnameRunes (hostname : String) : Bool :=
  hostname.toList.zipIdx.all fun (r, i) =>
    ('a' ≤ r && r ≤ 'z') || ('0' ≤ r && r ≤ '9') ||
      (r = '-' && (0 < i && i < hostname.utf8ByteSize - 1))

/-- Checks the Tailscale section and brings its hostname into normal form. -/
def validateTailscale (lower : Lower) (t : Tailscale) : Except String Tailscale :=
  let trimmed := toLower lower (trimSpace t.hostname)
  let hostname := if trimmed = "" then "vmserver" else trimmed
  if 63 < hostname.utf8ByteSize then .error "tailscale.hostname must be at most 63 characters"
  else if ¬ hostnameRunes hostname then
    .error "tailscale.hostname may only contain lowercase letters, digits and inner hyphens"
  else .ok { t with hostname }

def findUser (c : Config) (username : String) : Option User :=
  c.users.find? (·.username = username)

/-- Changes the user that `FindUser` points to. -/
def modifyUser (c : Config) (username : String) (f : User → User) : Config :=
  { c with users := c.users.modify (c.users.findIdx (·.username = username)) f }

/-- The sections of a new configuration pass their own checks unchanged. -/
theorem default_valid (dataDir diskPath : String) :
    validateVM (default dataDir diskPath).vm = .ok (default dataDir diskPath).vm ∧
      validateTunnel (default dataDir diskPath).tunnel = .ok (default dataDir diskPath).tunnel ∧
      validateTailscale .onASCII (default dataDir diskPath).tailscale =
        .ok (default dataDir diskPath).tailscale := by
  have tailscale : validateTailscale .onASCII (default "" "").tailscale =
      .ok (default "" "").tailscale := by decide
  exact ⟨rfl, rfl, tailscale⟩

end Config

end VmServer
