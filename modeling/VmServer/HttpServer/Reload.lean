import VmServer.Config.RoundTrip
import VmServer.HttpServer.Settings

/-!
# The server can start from every file it has written

The configuration is changed by the flags and commands of `main`, by the
bootstrap of the first administrator and by the settings requests. Each of
them leaves a configuration that validation accepts unchanged, so the file
that `Save` writes is accepted by the next `Load` and says the same.
-/

namespace VmServer.HttpServer

open Config TransitionSystem

/-- `config.yaml`: missing, as it was found, or as `Save` has written it last. -/
inductive File (Text : Type*)
  | missing
  | given (text : Text)
  | written (c : Config)

/-- What `main` and the libraries around it supply. -/
structure Base (Text : Type*) where
  yaml : Yaml Text
  lower : Lower
  path : String
  /-- The default data directory and disk path, joined from the base directory. -/
  dataDir : String
  diskPath : String

structure Installation (Text : Type*) where
  cfg : Config
  /-- The VM manager's copy of the VM section. -/
  vm : VM
  file : File Text

inductive AdminEvent
  /-- The flag `-listen`. -/
  | listen (addr : String)
  | bootstrapAdmin (hash : Except String String) (save : SaveSteps)
  /-- The flag `-add-user`. -/
  | addUser (spec : String) (hash : String → Except String String) (save : SaveSteps)
  /-- The flag `-reset-admin-password`. -/
  | resetAdmin (hash : Except String String) (save : SaveSteps)
  | request (r : SettingsRequest) (a : Answers)
  | restart

/-- `strings.Cut` at a colon. -/
def cutColon (cs : List Char) : List Char × Option (List Char) :=
  (cs.takeWhile (· ≠ ':'), (cs.dropWhile (· ≠ ':')).tail?)

/-- `strings.SplitN(spec, ":", 3)`. -/
def splitSpec (spec : String) : List String :=
  match cutColon spec.toList with
  | (a, none) => [.ofList a]
  | (a, some rest) =>
      match cutColon rest with
      | (b, none) => [.ofList a, .ofList b]
      | (b, some c) => [.ofList a, .ofList b, .ofList c]

/-- The configuration `bootstrapAdmin` saves. -/
def bootstrapped (cfg : Config) (hash : String) : Config :=
  { cfg with users := [⟨"admin", hash, true⟩] }

def addUserCmd (cfg : Config) (spec : String) (hashPassword : String → Except String String) :
    Except String Config :=
  match splitSpec spec with
  | username :: password :: rest =>
      if username = "" ∨ password.utf8ByteSize < 8 then
        .error "--add-user expects user:password[:admin]; password must be at least 8 characters"
      else
        match hashPassword password with
        | .error text => .error text
        | .ok hash =>
            let admin : Bool := rest = ["admin"]
            if (cfg.findUser username).isSome then
              .ok (cfg.modifyUser username fun u => { u with passwordHash := hash, admin })
            else .ok { cfg with users := cfg.users ++ [⟨username, hash, admin⟩] }
  | _ => .error "--add-user expects user:password[:admin]; password must be at least 8 characters"

/-- The first administrator in the list gets a new password. -/
def resetAdmin (cfg : Config) (hash : Except String String) : Except String Config :=
  if cfg.users.any (·.admin) then
    hash.map fun h =>
      { cfg with users := cfg.users.modify (cfg.users.findIdx (·.admin))
                            fun u => { u with passwordHash := h } }
  else .error "no admin user found"

variable {Text : Type*}

/-- The text of the file, if there is one. -/
def File.text (yaml : Yaml Text) : File Text → Option Text
  | .missing => none
  | .given text => some text
  | .written c => some (Config.saved yaml c)

namespace Base

variable (b : Base Text)

def load (text : Text) : Except String Config :=
  Config.load b.yaml b.lower b.path b.dataDir b.diskPath text

/-- `main` up to the flags: without a file it goes on with the defaults. -/
def start (file : File Text) : Option (Installation Text) :=
  match file.text b.yaml with
  | none =>
      let cfg := Config.default b.dataDir b.diskPath
      some ⟨cfg, cfg.vm, file⟩
  | some text =>
      match b.load text with
      | .ok cfg => some ⟨cfg, cfg.vm, file⟩
      | .error _ => none

/-- Assigns a configuration and saves it. -/
def store (s : Installation Text) (save : SaveSteps) : Except String Config → Installation Text
  | .error _ => s
  | .ok cfg =>
      if b.path = "" ∨ save.error.isSome then { s with cfg }
      else { s with cfg, file := .written cfg }

/-- A settings request; the file changes when the handler has saved. -/
def request (s : Installation Text) (r : SettingsRequest) (a : Answers) : Installation Text :=
  let (t, reply) := Settings.respond ⟨s.cfg, s.vm, s.cfg, b.path⟩ r a
  { cfg := t.cfg, vm := t.vm, file := if reply.saved then .written t.file else s.file }

def next (s : Installation Text) : AdminEvent → Option (Installation Text)
  | .listen addr =>
      if addr = "" then none else some { s with cfg := { s.cfg with listenAddr := addr } }
  | .bootstrapAdmin hash save => some (b.store s save (hash.map (bootstrapped s.cfg)))
  | .addUser spec hash save => some (b.store s save (addUserCmd s.cfg spec hash))
  | .resetAdmin hash save => some (b.store s save (resetAdmin s.cfg hash))
  | .request r a => some (b.request s r a)
  | .restart => b.start s.file

/-- The program from its first start on, without a file or with any file that it accepts. -/
def system : System (Installation Text) AdminEvent where
  initial := {s | b.start .missing = some s ∨ ∃ text, b.start (.given text) = some s}
  next := b.next

/-- What is saved now, and what was saved last, is read back as it was written. -/
structure ReadsBack (s : Installation Text) : Prop where
  now : b.load (Config.saved b.yaml s.cfg) = .ok s.cfg
  unchanged : Config.validate b.lower s.cfg = .ok s.cfg
  last : ∀ c, s.file = .written c → b.load (Config.saved b.yaml c) = .ok c ∧
    Config.validate b.lower c = .ok c
  starts : ∀ c, s.file = .written c → b.next s .restart = some ⟨c, c.vm, s.file⟩

end Base

/-- A start does not touch the file. -/
theorem Base.start_file {b : Base Text} {file : File Text} {s : Installation Text}
    (h : b.start file = some s) : s.file = file := by
  unfold Base.start at h
  split at h
  · exact Option.some.inj h ▸ rfl
  · split at h
    · exact Option.some.inj h ▸ rfl
    · cases h

/-- The configuration and the last one saved are normal. -/
structure Installation.Sound (s : Installation Text) : Prop where
  cfg : Normal s.cfg
  file : ∀ c, s.file = .written c → Normal c

theorem normal_users {c : Config} (h : Normal c) (users : List User) : Normal { c with users } :=
  ⟨h.listenAddr, h.tls, h.vm, h.tunnel, h.tailscale, h.auth⟩

/-- The media are not looked at by the check of the VM section. -/
theorem validateVM_media {c : VM} (h : validateVM c = .ok c) (iso virtio : String) :
    validateVM { c with isoPath := iso, virtioISOPath := virtio } =
      .ok { c with isoPath := iso, virtioISOPath := virtio } := by
  unfold validateVM at h ⊢
  iterate 6
    split at h
    · cases h
  rename_i ram cpus vnc qmp disk accel
  rw [if_neg ram, if_neg cpus, if_neg vnc, if_neg qmp, if_neg disk, if_neg accel]
  have same := Except.ok.inj h
  have disk_same := congrArg VM.diskInterface same
  have accel_same := congrArg VM.accel same
  exact congrArg Except.ok (by simp_all)

/-- What a request asks for is normal if the configuration was. -/
theorem normal_of_check {r : SettingsRequest} {a : Answers} {c d : Config} (h : Normal c)
    (checked : r.check c a = .ok d) : Normal d := by
  cases r with
  | setup body =>
      obtain ⟨_, vm, -, valid, rfl⟩ := checkSetup_ok checked
      exact ⟨h.listenAddr, h.tls, validateVM_idem valid, h.tunnel, h.tailscale, h.auth⟩
  | eject =>
      obtain rfl := Except.ok.inj checked
      exact ⟨h.listenAddr, h.tls, validateVM_media h.vm "" "", h.tunnel, h.tailscale, h.auth⟩
  | tunnel body =>
      obtain ⟨_, tunnel, -, valid, rfl⟩ := checkTunnel_ok checked
      exact ⟨h.listenAddr, h.tls, h.vm, validateTunnel_idem valid, h.tailscale, h.auth⟩
  | tailscale body =>
      simp only [SettingsRequest.check] at checked
      obtain ⟨_, tailscale, -, valid, rfl⟩ := checkTailscale_ok checked
      exact ⟨h.listenAddr, h.tls, h.vm, h.tunnel, fun lower => validateTailscale_idem lower valid,
        h.auth⟩
  | addUser body =>
      obtain ⟨users, rfl⟩ := checkAddUser_ok checked
      exact normal_users h users
  | changePassword username password =>
      obtain ⟨hash, rfl⟩ := checkChangePassword_ok checked
      exact normal_users h _

theorem normal_addUserCmd {c d : Config} {spec : String} {hash : String → Except String String}
    (h : Normal c) (added : addUserCmd c spec hash = .ok d) : Normal d := by
  unfold addUserCmd at added
  split at added
  · split at added
    · cases added
    · split at added
      · cases added
      · dsimp only at added
        split at added
        · exact Except.ok.inj added ▸ normal_users h _
        · exact Except.ok.inj added ▸ normal_users h _
  · cases added

theorem normal_resetAdmin {c d : Config} {hash : Except String String} (h : Normal c)
    (reset : resetAdmin c hash = .ok d) : Normal d := by
  unfold resetAdmin at reset
  split at reset
  · cases hash with
    | error text => cases reset
    | ok hash => exact Except.ok.inj reset ▸ normal_users h _
  · cases reset

namespace Installation.Sound

variable {b : Base Text} {s t : Installation Text}

theorem start {file : File Text} (h : ∀ c, file = .written c → Normal c)
    (ht : b.start file = some t) : t.Sound := by
  unfold Base.start at ht
  split at ht
  · obtain rfl := Option.some.inj ht
    exact ⟨normal_default b.dataDir b.diskPath, h⟩
  · split at ht
    case h_1 text _ _ cfg loaded =>
      obtain rfl := Option.some.inj ht
      refine ⟨?_, h⟩
      unfold Base.load Config.load at loaded
      split at loaded
      · cases loaded
      · exact normal_of_validate loaded
    case h_2 => cases ht

theorem store (h : s.Sound) (save : SaveSteps) {outcome : Except String Config}
    (normal : ∀ c, outcome = .ok c → Normal c) : (b.store s save outcome).Sound := by
  cases outcome with
  | error text => exact h
  | ok cfg =>
      have now := normal cfg rfl
      simp only [Base.store]
      split
      · exact ⟨now, h.file⟩
      · exact ⟨now, fun c same => File.written.inj same ▸ now⟩

theorem request (h : s.Sound) (r : SettingsRequest) (a : Answers) : (b.request s r a).Sound := by
  have outcome := Settings.respond_outcome ⟨s.cfg, s.vm, s.cfg, b.path⟩ r a
  unfold Base.request
  generalize Settings.respond ⟨s.cfg, s.vm, s.cfg, b.path⟩ r a = answer at outcome
  cases outcome with
  | @refused reply checked =>
      refine ⟨h.cfg, fun c same => ?_⟩
      dsimp only at same
      split at same
      · exact File.written.inj same ▸ h.cfg
      · exact h.file c same
  | failed checked failure =>
      exact ⟨normal_of_check h.cfg checked, h.file⟩
  | saved checked success kept =>
      have now := normal_of_check h.cfg checked
      refine ⟨now, fun c same => ?_⟩
      simp only [kept, if_true] at same
      exact File.written.inj same ▸ now

theorem next (h : s.Sound) {e : AdminEvent} (ht : b.next s e = some t) : t.Sound := by
  cases e with
  | listen addr =>
      simp only [Base.next] at ht
      split at ht
      · cases ht
      · rename_i named
        obtain rfl := Option.some.inj ht
        exact ⟨⟨named, h.cfg.tls, h.cfg.vm, h.cfg.tunnel, h.cfg.tailscale, h.cfg.auth⟩, h.file⟩
  | bootstrapAdmin hash save =>
      refine Option.some.inj ht ▸ h.store save fun c same => ?_
      cases hash with
      | error text => cases same
      | ok hash => exact Except.ok.inj same ▸ normal_users h.cfg _
  | addUser spec hash save =>
      exact Option.some.inj ht ▸ h.store save fun c same => normal_addUserCmd h.cfg same
  | resetAdmin hash save =>
      exact Option.some.inj ht ▸ h.store save fun c same => normal_resetAdmin h.cfg same
  | request r a => exact Option.some.inj ht ▸ h.request r a
  | restart => exact start h.file ht

theorem readsBack (h : s.Sound) : b.ReadsBack s where
  now := h.cfg.load_saved b.yaml b.lower b.path b.dataDir b.diskPath
  unchanged := h.cfg.validate b.lower
  last c same :=
    ⟨(h.file c same).load_saved b.yaml b.lower b.path b.dataDir b.diskPath,
      (h.file c same).validate b.lower⟩
  starts c same := by
    have loaded : b.load (Config.saved b.yaml c) = .ok c :=
      (h.file c same).load_saved b.yaml b.lower b.path b.dataDir b.diskPath
    simp [Base.next, Base.start, same, File.text, loaded]

end Installation.Sound

theorem always_sound (b : Base Text) (x : Execution b.system) :
    x.Always Installation.Sound := by
  refine x.run.invariant ?_ ?_
  · rintro s (missing | ⟨text, given⟩)
    · exact Installation.Sound.start (fun c same => by cases same) missing
    · exact Installation.Sound.start (fun c same => by cases same) given
  · intro s e t h ht
    exact h.next ht

/-- Whatever the administrators and the settings requests do, the file that `Save` writes is
accepted by `Load` and yields the configuration that was saved, and validation changes nothing. -/
theorem reads_back (b : Base Text) (x : Execution b.system) : x.Always b.ReadsBack :=
  (always_sound b x).mono fun _ h => h.readsBack

/-- A base directory whose file holds the document itself. -/
def plainBase : Base Document :=
  ⟨.plain, .onASCII, "config.yaml", "data", "vm/win10.qcow2"⟩

/-- The configuration after the first start of a server. -/
def firstConfig : Config := bootstrapped (.default "data" "vm/win10.qcow2") "hash"

/-- The first start, with the bootstrap of the administrator and the next start. -/
theorem reads_back_bootstrap : ∃ x : Execution plainBase.system,
    x.history.map Prod.snd = [.bootstrapAdmin (.ok "hash") {}, .restart] ∧
      x.Always plainBase.ReadsBack := by
  obtain ⟨x, _, events⟩ := Execution.of_exec (M := plainBase.system) (.inl rfl)
    (rfl : exec plainBase.system _ [.bootstrapAdmin (.ok "hash") {}, .restart] = some _)
  exact ⟨x, events, reads_back plainBase x⟩

end VmServer.HttpServer
