import VmServer.HttpServer.Reload

/-!
# The flags of one run and the file they leave

`-share`, `-tailscale` and `-funnel` change the sections that are handed to
the tunnel managers at the start, which are copies. `-listen` changes the
configuration itself, which every later `Save` writes as a whole.

The run with flags is compared with the run without them. A request does the
same in both, up to the listen address, which no request reads or writes.
-/

namespace VmServer.HttpServer

open Config TransitionSystem

/-- The flags that are for one run only. -/
structure Flags where
  listen : String
  share : Bool
  tailscale : Bool
  funnel : Bool

/-- A run without flags. -/
def Flags.none : Flags := ⟨"", false, false, false⟩

/-- What the file system and `bcrypt` answer to the start. -/
structure StartSteps where
  /-- The error of `MkdirAll` for the data directory. -/
  dataDir : Option String
  hashPassword : Except String String
  save : SaveSteps

/-- A running server and the sections its tunnel managers have been started with. -/
structure Running (Text : Type*) where
  installation : Installation Text
  tunnel : Option Tunnel
  tailscale : Option Tailscale

/-- The configuration with another listen address. -/
def overridden (addr : String) (c : Config) : Config := { c with listenAddr := addr }

/-- The flag `-listen`. -/
def Flags.override (flags : Flags) (c : Config) : Config :=
  if flags.listen ≠ "" then overridden flags.listen c else c

/-- The flag `-share`, on a copy of the section. -/
def Flags.tunnelConfig (flags : Flags) (t : Tunnel) : Tunnel :=
  if flags.share then { t with enabled := true, mode := "quick" } else t

/-- The flags `-tailscale` and `-funnel`, on a copy of the section. -/
def Flags.tailscaleConfig (flags : Flags) (t : Tailscale) : Tailscale :=
  if flags.tailscale ∨ flags.funnel then
    { t with enabled := true, funnel := t.funnel || flags.funnel }
  else t

/-- A request that carries none of what the flags set. -/
def SettingsRequest.Neutral : SettingsRequest → Prop
  | .tunnel body => ∀ b, body = some b → b.enabled = .none ∧ b.mode = ""
  | .tailscale body => ∀ b, body = some b → b.enabled = .none ∧ b.funnel = .none
  | _ => True

/-- The file of an installation before a run. -/
def fileOf {Text : Type*} : Option Text → File Text
  | some text => .given text
  | .none => .missing

namespace Base

variable {Text : Type*} (b : Base Text)

/-- `bootstrapAdmin`, without which a server with no users does not come up. -/
def bootstrapAdmin (s : Installation Text) (steps : StartSteps) : Option (Installation Text) :=
  match steps.hashPassword with
  | .error _ => none
  | .ok hash =>
      if b.path = "" ∨ steps.save.error.isSome then none
      else some (b.store s steps.save (.ok (bootstrapped s.cfg hash)))

/-- The configuration as `main` hands it to the server. -/
def prepare (text : Option Text) (flags : Flags) (steps : StartSteps) :
    Option (Installation Text) :=
  match b.start (fileOf text) with
  | none => none
  | some s =>
      let s := { s with cfg := flags.override s.cfg }
      if steps.dataDir.isSome then none
      else if text.isNone ∨ s.cfg.users = [] then b.bootstrapAdmin s steps
      else some s

/-- `run` up to the moment when the server and its tunnels have been started. -/
def run (text : Option Text) (flags : Flags) (steps : StartSteps) : Option (Running Text) :=
  (b.prepare text flags steps).map fun s =>
    let tunCfg := flags.tunnelConfig s.cfg.tunnel
    let tsCfg := flags.tailscaleConfig s.cfg.tailscale
    { installation := s
      tunnel := if tunCfg.enabled then some tunCfg else none
      tailscale := if tsCfg.enabled then some tsCfg else none }

/-- A settings request; the two tunnel requests start their manager anew when they have saved. -/
def serve (s : Running Text) (r : SettingsRequest) (a : Answers) : Running Text :=
  let i := s.installation
  let (t, reply) := Settings.respond ⟨i.cfg, i.vm, i.cfg, b.path⟩ r a
  { installation := b.request i r a
    tunnel := match r with
      | .tunnel _ => if reply.saved then some t.cfg.tunnel else s.tunnel
      | _ => s.tunnel
    tailscale := match r with
      | .tailscale _ => if reply.saved then some t.cfg.tailscale else s.tailscale
      | _ => s.tailscale }

/-- The file after a run with these flags and requests. -/
def persisted (text : Option Text) (flags : Flags) (steps : StartSteps)
    (requests : List (SettingsRequest × Answers)) : File Text :=
  match b.run text flags steps with
  | none => fileOf text
  | some s => (requests.foldl (fun s q => b.serve s q.1 q.2) s).installation.file

end Base

/-! ## A request does not look at the listen address -/

section Requests

variable (addr : String) (c : Config) (a : Answers)

theorem checkSetup_overridden (body : Option SetupBody) :
    checkSetup (overridden addr c) a body = (checkSetup c a body).map (overridden addr) := by
  cases body with
  | none => rfl
  | some body =>
      simp only [checkSetup, overridden]
      split
      · rfl
      · split
        · rfl
        · cases validateVM (body.apply c.vm) <;> rfl

theorem checkTunnel_overridden (body : Option TunnelBody) :
    checkTunnel (overridden addr c) body = (checkTunnel c body).map (overridden addr) := by
  cases body with
  | none => rfl
  | some body =>
      simp only [checkTunnel, overridden]
      cases validateTunnel (body.apply c.tunnel) <;> rfl

theorem checkTailscale_overridden (body : Option TailscaleBody) :
    checkTailscale (overridden addr c) a body =
      (checkTailscale c a body).map (overridden addr) := by
  cases body with
  | none => rfl
  | some body =>
      have same : (overridden addr c).tailscale = c.tailscale := rfl
      unfold checkTailscale
      simp only [same]
      cases validateTailscale a.lower (body.apply c.tailscale) <;> rfl

theorem checkAddUser_overridden (body : Option UserBody) :
    checkAddUser (overridden addr c) a body = (checkAddUser c a body).map (overridden addr) := by
  cases body with
  | none => rfl
  | some body =>
      have same (name : String) : (overridden addr c).findUser name = c.findUser name := rfl
      simp only [checkAddUser, same]
      split
      · rfl
      · split
        · rfl
        · split <;> rfl

theorem checkChangePassword_overridden (username : String) (password : Option String) :
    checkChangePassword (overridden addr c) a username password =
      (checkChangePassword c a username password).map (overridden addr) := by
  cases password with
  | none => rfl
  | some password =>
      have same (name : String) : (overridden addr c).findUser name = c.findUser name := rfl
      simp only [checkChangePassword, same]
      split
      · rfl
      · split
        · rfl
        · split <;> rfl

/-- The checks pass on the listen address they find. -/
theorem check_overridden (r : SettingsRequest) :
    r.check (overridden addr c) a = (r.check c a).map (overridden addr) := by
  cases r with
  | setup body => exact checkSetup_overridden addr c a body
  | eject => rfl
  | tunnel body => exact checkTunnel_overridden addr c body
  | tailscale body => exact checkTailscale_overridden addr c a body
  | addUser body => exact checkAddUser_overridden addr c a body
  | changePassword username password =>
      exact checkChangePassword_overridden addr c a username password

end Requests

namespace Settings

variable (addr : String) (s : Settings) (a : Answers)

/-- The state of the handlers with another listen address, in memory and in what they save. -/
def overridden (s : Settings) : Settings :=
  { s with cfg := HttpServer.overridden addr s.cfg, file := HttpServer.overridden addr s.file }

theorem save_overridden (f : SaveSteps) (reply : Reply) :
    (s.overridden addr).save f reply =
      ((s.save f reply).1.overridden addr, (s.save f reply).2) := by
  have same : (s.overridden addr).saveError f = s.saveError f := rfl
  simp only [save, same]
  split <;> rfl

theorem store_overridden (f : SaveSteps) (checked : Except Reply Config) :
    (s.overridden addr).store f (checked.map (HttpServer.overridden addr)) =
      ((s.store f checked).1.overridden addr, (s.store f checked).2) := by
  cases checked with
  | error reply => rfl
  | ok cfg => exact save_overridden addr { s with cfg } f .ok

theorem apiSetup_overridden (body : Option SetupBody) :
    (s.overridden addr).apiSetup a body =
      ((s.apiSetup a body).1.overridden addr, (s.apiSetup a body).2) := by
  have checked : checkSetup (s.overridden addr).cfg a body = _ :=
    checkSetup_overridden addr s.cfg a body
  simp only [apiSetup, checked]
  cases checkSetup s.cfg a body with
  | error reply => rfl
  | ok cfg =>
      have assigned : ({ s.overridden addr with cfg := HttpServer.overridden addr cfg } :
          Settings).updateConfig = ({ s with cfg } : Settings).updateConfig.overridden addr := rfl
      have disk : (HttpServer.overridden addr cfg).vm.diskPath = cfg.vm.diskPath := rfl
      simp only [Except.map, assigned, disk, save_overridden]
      split
      · rfl
      · split <;> rfl

/-- A request answers the same and does the same, up to the listen address. -/
theorem respond_overridden (r : SettingsRequest) :
    (s.overridden addr).respond r a =
      ((s.respond r a).1.overridden addr, (s.respond r a).2) := by
  have checked := check_overridden addr s.cfg a r
  cases r with
  | setup body => exact apiSetup_overridden addr s a body
  | eject => exact save_overridden addr { s with cfg := ejected s.cfg }.updateConfig a.save .ok
  | tunnel body =>
      exact (congrArg ((s.overridden addr).store a.save) checked).trans
        (store_overridden addr s a.save _)
  | tailscale body =>
      exact (congrArg ((s.overridden addr).store a.save) checked).trans
        (store_overridden addr s a.save _)
  | addUser body =>
      exact (congrArg ((s.overridden addr).store a.save) checked).trans
        (store_overridden addr s a.save _)
  | changePassword username password =>
      exact (congrArg ((s.overridden addr).store a.save) checked).trans
        (store_overridden addr s a.save _)

end Settings

/-! ## The two runs -/

section Runs

variable {Text : Type*}

/-- The file with another listen address, if it has been saved. -/
def File.overridden (addr : String) : File Text → File Text
  | .written c => .written (HttpServer.overridden addr c)
  | f => f

def Installation.overridden (addr : String) (s : Installation Text) : Installation Text where
  cfg := HttpServer.overridden addr s.cfg
  vm := s.vm
  file := s.file.overridden addr

variable (b : Base Text) (addr : String) (text : Option Text) (flags : Flags) (steps : StartSteps)

theorem request_eq {s : Installation Text} {r : SettingsRequest} {a : Answers} {t : Settings}
    {reply : Reply} (h : Settings.respond ⟨s.cfg, s.vm, s.cfg, b.path⟩ r a = (t, reply)) :
    b.request s r a = ⟨t.cfg, t.vm, if reply.saved then .written t.file else s.file⟩ := by
  unfold Base.request
  rw [h]

theorem request_overridden (s : Installation Text) (r : SettingsRequest) (a : Answers) :
    b.request (s.overridden addr) r a = (b.request s r a).overridden addr := by
  have same := Settings.respond_overridden addr ⟨s.cfg, s.vm, s.cfg, b.path⟩ a r
  obtain ⟨⟨t, reply⟩, answer⟩ : ∃ x, Settings.respond ⟨s.cfg, s.vm, s.cfg, b.path⟩ r a = x :=
    ⟨_, rfl⟩
  rw [answer] at same
  rw [request_eq b answer, request_eq b same]
  dsimp only [Installation.overridden]
  congr 1
  split <;> rfl

/-- The installation after a list of requests. -/
def Base.requests (s : Installation Text) (requests : List (SettingsRequest × Answers)) :
    Installation Text :=
  requests.foldl (fun s q => b.request s q.1 q.2) s

theorem requests_overridden (s : Installation Text)
    (requests : List (SettingsRequest × Answers)) :
    b.requests (s.overridden addr) requests = (b.requests s requests).overridden addr :=
  List.foldl_hom (Installation.overridden addr) fun s q => request_overridden b addr s q.1 q.2

/-- What the tunnel managers run with has no part in what the requests do. -/
theorem installation_serve (s : Running Text) (requests : List (SettingsRequest × Answers)) :
    (requests.foldl (fun s q => b.serve s q.1 q.2) s).installation =
      b.requests s.installation requests :=
  (List.foldl_hom Running.installation fun _ _ => rfl).symm

theorem persisted_eq (requests : List (SettingsRequest × Answers)) :
    b.persisted text flags steps requests =
      ((b.prepare text flags steps).map fun s => (b.requests s requests).file).getD
        (fileOf text) := by
  unfold Base.persisted Base.run
  cases b.prepare text flags steps with
  | none => rfl
  | some s => exact congrArg Installation.file (installation_serve b _ requests)

theorem overridden_fileOf : (fileOf text).overridden addr = fileOf text := by
  cases text <;> rfl

theorem bootstrapAdmin_overridden (s : Installation Text) :
    b.bootstrapAdmin (s.overridden addr) steps =
      (b.bootstrapAdmin s steps).map (Installation.overridden addr) := by
  unfold Base.bootstrapAdmin
  split
  · rfl
  · rename_i hash _
    by_cases fails : b.path = "" ∨ steps.save.error.isSome
    · simp only [if_pos fails, Option.map_none]
    · simp only [if_neg fails, Base.store, Option.map_some]
      rfl

/-- With `-listen` the server comes up as without it, up to the listen address. -/
theorem prepare_overridden (given : flags.listen ≠ "") :
    b.prepare text flags steps =
      (b.prepare text .none steps).map (Installation.overridden flags.listen) := by
  unfold Base.prepare
  cases started : b.start (fileOf text) with
  | none => rfl
  | some s =>
      have file : s.file.overridden flags.listen = s.file := by
        rw [Base.start_file started, overridden_fileOf]
      have same : ({ s with cfg := flags.override s.cfg } : Installation Text) =
          s.overridden flags.listen := by
        simp only [Flags.override, if_pos given, Installation.overridden, file]
      have users : (flags.override s.cfg).users = s.cfg.users :=
        congrArg (fun i => i.cfg.users) same
      have none : Flags.none.override s.cfg = s.cfg := rfl
      simp only [same, users, none]
      split
      · rfl
      · split
        · exact bootstrapAdmin_overridden b flags.listen steps s
        · rfl

/-- Flags that leave the loaded listen address alone do not change how the server comes up. -/
theorem prepare_same (alone : flags.listen = "" ∨
    ∀ s, b.start (fileOf text) = some s → s.cfg.listenAddr = flags.listen) :
    b.prepare text flags steps = b.prepare text .none steps := by
  unfold Base.prepare
  cases started : b.start (fileOf text) with
  | none => rfl
  | some s =>
      have same : flags.override s.cfg = Flags.none.override s.cfg := by
        change flags.override s.cfg = s.cfg
        unfold Flags.override
        split
        · rename_i given
          rw [overridden, ← alone.resolve_left given s started]
        · rfl
      simp only [same]

theorem persisted_same (requests : List (SettingsRequest × Answers))
    (same : b.prepare text flags steps = b.prepare text .none steps) :
    b.persisted text flags steps requests = b.persisted text .none steps requests := by
  rw [persisted_eq, persisted_eq, same]

/-- A run with `-listen` leaves the file of a run without it, up to the listen address. -/
theorem persisted_overridden (given : flags.listen ≠ "")
    (requests : List (SettingsRequest × Answers)) :
    b.persisted text flags steps requests =
      (b.persisted text .none steps requests).overridden flags.listen := by
  rw [persisted_eq, persisted_eq, prepare_overridden b text flags steps given]
  cases b.prepare text .none steps with
  | none => exact (overridden_fileOf flags.listen text).symm
  | some s => exact congrArg Installation.file (requests_overridden b flags.listen s requests)

/-- The server comes up with the listen address that has been loaded. -/
theorem listenAddr_prepare {s₀ s : Installation Text} (loaded : b.start (fileOf text) = some s₀)
    (up : b.prepare text .none steps = some s) : s.cfg.listenAddr = s₀.cfg.listenAddr := by
  simp only [Base.prepare, loaded] at up
  split at up
  · cases up
  · split at up
    · unfold Base.bootstrapAdmin at up
      split at up
      · cases up
      · split at up
        · cases up
        · rename_i fails
          obtain rfl := Option.some.inj up
          simp only [Base.store, if_neg fails]
          rfl
    · exact Option.some.inj up ▸ rfl

/-- The file names the listen address it was saved with. -/
theorem saved_listenAddr {yaml : Yaml Text} {c d : Config}
    (same : Config.saved yaml c = Config.saved yaml d) : c.listenAddr = d.listenAddr := by
  have read : yaml.unmarshal (Config.saved yaml c) = yaml.unmarshal (Config.saved yaml d) :=
    congrArg yaml.unmarshal same
  have documents := Except.ok.inj ((yaml.inverts c).symm.trans (read.trans (yaml.inverts d)))
  exact Option.some.inj (congrArg Document.listenAddr documents)

/-- No `-listen`, or the server does not come up, or it has been given the address that was
loaded. -/
def Base.Hides : Prop :=
  flags.listen = "" ∨ b.prepare text .none steps = none ∨
    ∀ s, b.start (fileOf text) = some s → s.cfg.listenAddr = flags.listen

theorem persisted_of_hides (hides : b.Hides text flags steps)
    (requests : List (SettingsRequest × Answers)) :
    b.persisted text flags steps requests = b.persisted text .none steps requests := by
  rcases hides with absent | down | same
  · exact persisted_same b text flags steps requests (prepare_same b text flags steps (.inl absent))
  · apply persisted_same
    by_cases absent : flags.listen = ""
    · exact prepare_same b text flags steps (.inl absent)
    · rw [prepare_overridden b text flags steps absent, down]
      rfl
  · exact persisted_same b text flags steps requests (prepare_same b text flags steps (.inr same))

/-- A request that only saves. -/
def saveOnly : SettingsRequest × Answers :=
  (.eject, ⟨.onASCII, false, fun _ => true, fun _ => true, fun _ => none, .ok, {}, none⟩)

/-- The file after it. -/
theorem persisted_saveOnly {s : Installation Text} (named : b.path ≠ "")
    (up : b.prepare text .none steps = some s) :
    b.persisted text .none steps [saveOnly] = .written (ejected s.cfg) := by
  let after : Settings := ⟨ejected s.cfg, (ejected s.cfg).vm, ejected s.cfg, b.path⟩
  have noError : Settings.saveError { after with file := s.cfg } {} = none := if_neg named
  have answer : Settings.respond ⟨s.cfg, s.vm, s.cfg, b.path⟩ saveOnly.1 saveOnly.2 =
      (after, .ok) := by
    change Settings.save { after with file := s.cfg } {} .ok = _
    rw [Settings.save, noError]
  rw [persisted_eq, up]
  exact congrArg Installation.file (request_eq b answer)

end Runs

/-- The flags of one run leave the file as a run without them leaves it, whatever is requested,
exactly when `-listen` is not among them, or changes nothing, or the server does not come up.
The other three flags make no difference at all. -/
theorem flags_leave_file_iff {Text : Type*} (b : Base Text) (text : Option Text) (flags : Flags)
    (steps : StartSteps) (named : b.path ≠ "") :
    ((∀ requests : List (SettingsRequest × Answers), (∀ q ∈ requests, q.1.Neutral) →
        (b.persisted text flags steps requests).text b.yaml =
          (b.persisted text .none steps requests).text b.yaml) ↔ b.Hides text flags steps) ∧
      (b.Hides text flags steps → ∀ requests,
        b.persisted text flags steps requests = b.persisted text .none steps requests) := by
  refine ⟨⟨fun equal => ?_, fun hides requests _ =>
    congrArg (File.text b.yaml) (persisted_of_hides b text flags steps hides requests)⟩,
    persisted_of_hides b text flags steps⟩
  by_contra shown
  obtain ⟨given, up, s₀, loaded, other⟩ : flags.listen ≠ "" ∧
      b.prepare text .none steps ≠ none ∧
        ∃ s, b.start (fileOf text) = some s ∧ s.cfg.listenAddr ≠ flags.listen := by
    simpa only [Base.Hides, not_or, not_forall, exists_prop] using shown
  obtain ⟨s, up⟩ := Option.ne_none_iff_exists'.mp up
  have same := equal [saveOnly] fun q hq => List.mem_singleton.mp hq ▸ trivial
  rw [persisted_overridden b text flags steps given,
    persisted_saveOnly b text steps named up] at same
  have address := saved_listenAddr (Option.some.inj same)
  exact other ((listenAddr_prepare b text steps loaded up).symm.trans address.symm)

/-- A start at which nothing fails. -/
def smoothStart : StartSteps := ⟨none, .ok "hash", {}⟩

/-- A run in which the media are ejected writes the address of `-listen` into the file. -/
theorem listen_reaches_file :
    (∀ q ∈ [saveOnly], q.1.Neutral) ∧
      (plainBase.persisted (some (Config.emit firstConfig)) ⟨"127.0.0.1:9000", false, false, false⟩
          smoothStart [saveOnly]).text plainBase.yaml ≠
        (plainBase.persisted (some (Config.emit firstConfig)) .none smoothStart [saveOnly]).text
          plainBase.yaml := by
  refine ⟨fun q hq => List.mem_singleton.mp hq ▸ trivial, fun same => ?_⟩
  have address := congrArg (Option.map Document.listenAddr) same
  revert address
  decide

/-- The three other flags, with the address that has been loaded. -/
theorem sharing_leaves_file :
    plainBase.persisted (some (Config.emit firstConfig)) ⟨"0.0.0.0:8443", true, true, true⟩
        smoothStart [saveOnly] =
      plainBase.persisted (some (Config.emit firstConfig)) .none smoothStart [saveOnly] := by
  refine (flags_leave_file_iff plainBase (some (Config.emit firstConfig))
    ⟨"0.0.0.0:8443", true, true, true⟩ smoothStart (by decide)).2 (.inr (.inr ?_)) [saveOnly]
  intro s started
  obtain rfl := Option.some.inj started
  rfl

end VmServer.HttpServer
