import VmServer.HttpServer.UserList
import VmServer.Library.Contributions

/-!
# The last administrator

No operation removes a user, and only the upsert of `apiAddUser` and
`addUserCmd` writes an admin flag that is already there. It writes the flag it
was given, also into the entry of the only administrator, whoever asks for it.
All other operations keep the flags.
-/

namespace VmServer.HttpServer

open Config TransitionSystem

/-- Someone in the user list is an administrator. -/
def HasAdmin (cfg : Config) : Prop := ∃ u ∈ cfg.users, u.admin = true

/-- The entry that an operation writes, if its arguments are accepted. -/
inductive Upserts : AdminEvent → User → Prop
  | ofRequest {body : UserBody} {a : Answers} {hash : String}
      (named : trimSpace body.username ≠ "") (long : 8 ≤ body.password.utf8ByteSize)
      (hashed : a.hashPassword body.password = .ok hash) :
      Upserts (.request (.addUser (some body)) a) ⟨trimSpace body.username, hash, body.admin⟩
  | ofCommand {spec username password hash : String} {rest : List String}
      {hashPassword : String → Except String String} {save : SaveSteps}
      (pieces : splitSpec spec = username :: password :: rest) (named : username ≠ "")
      (long : 8 ≤ password.utf8ByteSize) (hashed : hashPassword password = .ok hash) :
      Upserts (.addUser spec hashPassword save) ⟨username, hash, rest = ["admin"]⟩

/-- The operation writes the entry of an administrator, or another administrator is left. -/
def KeepsAdmin (cfg : Config) (e : AdminEvent) : Prop :=
  ∀ u, Upserts e u →
    u.admin = true ∨ ∃ v ∈ Keyed.others User.username u.username cfg.users, v.admin = true

/-- The server with an administrator, found in its file or made by `bootstrapAdmin`. -/
def Base.administration {Text : Type*} (b : Base Text) : System (Installation Text) AdminEvent where
  initial := {s | (s ∈ b.system.initial ∧ HasAdmin s.cfg) ∨
    ∃ s₀ ∈ b.system.initial, s₀.cfg.users = [] ∧ b.path ≠ "" ∧
      ∃ hash save, SaveSteps.error save = none ∧
        b.next s₀ (.bootstrapAdmin (.ok hash) save) = some s}
  next := b.next

/-! ## What an operation does to the flags -/

section Flags

variable {c d : Config}

theorem hasAdmin_iff : HasAdmin c ↔ true ∈ c.users.map User.admin := by
  simp [HasAdmin]

/-- The upsert leaves an administrator exactly if it writes one or leaves another one alone. -/
theorem hasAdmin_withUser {u : User} : HasAdmin (withUser c u) ↔
    u.admin = true ∨ ∃ v ∈ Keyed.others User.username u.username c.users, v.admin = true := by
  constructor
  · rintro ⟨v, hv, admin⟩
    rcases Keyed.mem_put.mp hv with rfl | other
    · exact .inl admin
    · exact .inr ⟨v, other, admin⟩
  · rintro (admin | ⟨v, other, admin⟩)
    · exact ⟨u, Keyed.mem_put.mpr (.inl rfl), admin⟩
    · exact ⟨v, Keyed.mem_put.mpr (.inr other), admin⟩

/-- A new password keeps the flags. -/
theorem flags_newPassword {l : List User} {i : Nat} {hash : String} :
    (l.modify i fun u => { u with passwordHash := hash }).map User.admin = l.map User.admin := by
  have keep (u : User) : User.admin { u with passwordHash := hash } = u.admin := rfl
  exact Contributions.map_modify keep i

theorem flags_resetAdmin {hash : Except String String} (h : resetAdmin c hash = .ok d) :
    d.users.map User.admin = c.users.map User.admin := by
  unfold resetAdmin at h
  split at h
  · cases hash with
    | error text => cases h
    | ok hash => exact Except.ok.inj h ▸ flags_newPassword
  · cases h

/-- Only the request for a new user can change a flag. -/
theorem flags_of_check {r : SettingsRequest} {a : Answers} (h : r.check c a = .ok d)
    (other : ∀ body, r ≠ .addUser body) : d.users.map User.admin = c.users.map User.admin := by
  cases r with
  | setup body =>
      obtain ⟨_, _, -, -, rfl⟩ := checkSetup_ok h
      rfl
  | eject => exact Except.ok.inj h ▸ rfl
  | tunnel body =>
      obtain ⟨_, _, -, -, rfl⟩ := checkTunnel_ok h
      rfl
  | tailscale body =>
      simp only [SettingsRequest.check] at h
      obtain ⟨_, _, -, -, rfl⟩ := checkTailscale_ok h
      rfl
  | addUser body => exact absurd rfl (other body)
  | changePassword username password =>
      obtain ⟨hash, rfl⟩ := checkChangePassword_ok h
      exact flags_newPassword

/-- As long as there is an administrator, `-reset-admin-password` finds one. -/
theorem resetAdmin_available (hash : String) :
    (∃ d, resetAdmin c (.ok hash) = .ok d) ↔ HasAdmin c := by
  unfold resetAdmin
  split
  · rename_i found
    exact iff_of_true ⟨_, rfl⟩ (by simpa [HasAdmin] using found)
  · rename_i none
    constructor
    · rintro ⟨d, reset⟩
      cases reset
    · rintro ⟨u, hu, admin⟩
      exact absurd (List.any_eq_true.mpr ⟨u, hu, admin⟩) none

end Flags

namespace Base

variable {Text : Type*} {b : Base Text} {s t : Installation Text}

/-- The file is as it was, or what is in memory has been written. -/
def FileFollows (s t : Installation Text) : Prop := t.file = s.file ∨ t.file = .written t.cfg

/-- A command leaves in memory what it has made, if it made something. -/
theorem store_cfg (b : Base Text) (s : Installation Text) (save : SaveSteps)
    (made : Except String Config) :
    (b.store s save made).cfg = made.toOption.getD s.cfg ∧
      FileFollows s (b.store s save made) := by
  cases made with
  | error text => exact ⟨rfl, .inl rfl⟩
  | ok d =>
      simp only [store]
      split
      · exact ⟨rfl, .inl rfl⟩
      · exact ⟨rfl, .inr rfl⟩

/-- A request leaves in memory what its checks have made, if they made something. -/
theorem request_cfg (b : Base Text) (s : Installation Text) (r : SettingsRequest) (a : Answers) :
    (b.request s r a).cfg = (r.check s.cfg a).toOption.getD s.cfg ∧
      FileFollows s (b.request s r a) := by
  have outcome := Settings.respond_outcome ⟨s.cfg, s.vm, s.cfg, b.path⟩ r a
  unfold request
  generalize Settings.respond ⟨s.cfg, s.vm, s.cfg, b.path⟩ r a = answer at outcome
  cases outcome with
  | refused checked =>
      refine ⟨by simp [checked, Except.toOption], ?_⟩
      dsimp only [FileFollows]
      split
      · exact .inr rfl
      · exact .inl rfl
  | failed checked failure => exact ⟨by simp [checked, Except.toOption]; rfl, .inl rfl⟩
  | saved checked success kept =>
      refine ⟨by simp [checked, Except.toOption]; rfl, .inr ?_⟩
      simp only [kept, if_true]
      rfl

end Base

/-! ## Runs -/

section Steps

variable {c : Config} {e : AdminEvent}

theorem Upserts.check {body : Option UserBody} {a : Answers} {u : User}
    (h : Upserts (.request (.addUser body) a) u) : checkAddUser c a body = .ok (withUser c u) := by
  cases h with
  | ofRequest named long hashed => exact checkAddUser_eq_ok.mpr ⟨named, long, _, hashed, rfl⟩

theorem upserts_of_check {body : Option UserBody} {a : Answers} {d : Config}
    (h : checkAddUser c a body = .ok d) :
    ∃ u, Upserts (.request (.addUser body) a) u ∧ d = withUser c u := by
  cases body with
  | none => cases h
  | some body =>
      obtain ⟨named, long, hash, hashed, made⟩ := checkAddUser_eq_ok.mp h
      exact ⟨_, .ofRequest named long hashed, made⟩

theorem Upserts.command {spec : String} {hashPassword : String → Except String String}
    {save : SaveSteps} {u : User} (h : Upserts (.addUser spec hashPassword save) u) :
    addUserCmd c spec hashPassword = .ok (withUser c u) := by
  cases h with
  | ofCommand pieces named long hashed =>
      exact addUserCmd_eq_ok.mpr ⟨_, _, _, pieces, named, long, _, hashed, rfl⟩

theorem upserts_of_command {spec : String} {hashPassword : String → Except String String}
    {save : SaveSteps} {d : Config} (h : addUserCmd c spec hashPassword = .ok d) :
    ∃ u, Upserts (.addUser spec hashPassword save) u ∧ d = withUser c u := by
  obtain ⟨_, _, _, pieces, named, long, hash, hashed, made⟩ := addUserCmd_eq_ok.mp h
  exact ⟨_, .ofCommand pieces named long hashed, made⟩

/-- An operation that can upsert leaves an administrator exactly if it keeps one. -/
theorem hasAdmin_upsert {ε : Type*} {made : Except ε Config} (had : HasAdmin c)
    (accepted : ∀ u, Upserts e u → made = .ok (withUser c u))
    (written : ∀ d, made = .ok d → ∃ u, Upserts e u ∧ d = withUser c u) :
    HasAdmin (made.toOption.getD c) ↔ KeepsAdmin c e := by
  constructor
  · intro has u upserts
    rw [accepted u upserts] at has
    exact hasAdmin_withUser.mp has
  · intro keeps
    cases made with
    | error text => exact had
    | ok d =>
        obtain ⟨u, upserts, rfl⟩ := written d rfl
        exact hasAdmin_withUser.mpr (keeps u upserts)

/-- An operation that keeps the flags and cannot upsert leaves an administrator. -/
theorem hasAdmin_keep {ε : Type*} {made : Except ε Config} (had : HasAdmin c)
    (flags : ∀ d, made = .ok d → d.users.map User.admin = c.users.map User.admin)
    (never : ∀ u, ¬ Upserts e u) : HasAdmin (made.toOption.getD c) ↔ KeepsAdmin c e := by
  refine iff_of_true ?_ fun u upserts => absurd upserts (never u)
  cases made with
  | error text => exact had
  | ok d => exact hasAdmin_iff.mpr (flags d rfl ▸ hasAdmin_iff.mp had)

variable {Text : Type*} {b : Base Text} {s t : Installation Text}

/-- What every step but a restart does to the last administrator and to the file. -/
theorem hasAdmin_next (had : HasAdmin s.cfg) (h : b.next s e = some t) (running : e ≠ .restart) :
    (HasAdmin t.cfg ↔ KeepsAdmin s.cfg e) ∧ Base.FileFollows s t := by
  cases e with
  | restart => exact absurd rfl running
  | listen addr =>
      simp only [Base.next] at h
      split at h
      · cases h
      · obtain rfl := Option.some.inj h
        exact ⟨iff_of_true had fun u upserts => (by cases upserts), .inl rfl⟩
  | bootstrapAdmin hash save =>
      obtain rfl := Option.some.inj h
      obtain ⟨made, file⟩ := b.store_cfg s save (hash.map (bootstrapped s.cfg))
      refine ⟨iff_of_true ?_ fun u upserts => (by cases upserts), file⟩
      rw [made]
      cases hash with
      | error text => exact had
      | ok hash => exact ⟨_, List.mem_singleton.mpr rfl, rfl⟩
  | addUser spec hash save =>
      obtain rfl := Option.some.inj h
      obtain ⟨made, file⟩ := b.store_cfg s save (addUserCmd s.cfg spec hash)
      exact ⟨made ▸ hasAdmin_upsert had (fun u => Upserts.command) fun d => upserts_of_command,
        file⟩
  | resetAdmin hash save =>
      obtain rfl := Option.some.inj h
      obtain ⟨made, file⟩ := b.store_cfg s save (resetAdmin s.cfg hash)
      refine ⟨made ▸ hasAdmin_keep had (fun d => flags_resetAdmin) ?_, file⟩
      intro u upserts
      cases upserts
  | request r a =>
      obtain rfl := Option.some.inj h
      obtain ⟨made, file⟩ := b.request_cfg s r a
      refine ⟨?_, file⟩
      rw [made]
      by_cases adds : ∃ body, r = .addUser body
      · obtain ⟨body, rfl⟩ := adds
        exact hasAdmin_upsert had (fun u => Upserts.check) fun d => upserts_of_check
      · have other : ∀ body, r ≠ .addUser body := fun body same => adds ⟨body, same⟩
        refine hasAdmin_keep had (fun d checked => flags_of_check checked other) ?_
        intro u upserts
        cases upserts with
        | ofRequest => exact other _ rfl

/-- The next start finds an administrator in the file. -/
def Base.AdminOnFile (b : Base Text) (s : Installation Text) : Prop :=
  s.Sound ∧ ∀ t, b.start s.file = some t → HasAdmin t.cfg

/-- What is in memory with an administrator is found by the next start if it is written. -/
theorem adminOnFile_of_written (sound : s.Sound) (had : HasAdmin s.cfg)
    (written : s.file = .written s.cfg) : b.AdminOnFile s := by
  refine ⟨sound, fun t started => ?_⟩
  have again : b.next s .restart = some ⟨s.cfg, s.cfg.vm, s.file⟩ :=
    sound.readsBack.starts _ written
  obtain rfl := Option.some.inj (again.symm.trans started)
  exact had

theorem adminOnFile_next (onFile : b.AdminOnFile s) (had : HasAdmin t.cfg)
    (follows : Base.FileFollows s t) (sound : t.Sound) : b.AdminOnFile t := by
  rcases follows with same | written
  · exact ⟨sound, fun u started => onFile.2 u (same ▸ started)⟩
  · exact adminOnFile_of_written sound had written

/-- The start of a server with an administrator. -/
theorem administration_initial (h : s ∈ b.administration.initial) :
    b.AdminOnFile s ∧ HasAdmin s.cfg := by
  rcases h with ⟨initial, had⟩ | ⟨s₀, initial, -, named, hash, save, saved, first⟩
  · have sound := (always_sound b ⟨[], s, .start initial⟩).2
    have again : b.start s.file = some s := by
      rcases initial with missing | ⟨text, given⟩
      · exact (Base.start_file missing).symm ▸ missing
      · exact (Base.start_file given).symm ▸ given
    refine ⟨⟨sound, fun t started => ?_⟩, had⟩
    obtain rfl := Option.some.inj (again.symm.trans started)
    exact had
  · have sound := (always_sound b ⟨[], s₀, .start initial⟩).2.next first
    have kept : ¬ (b.path = "" ∨ save.error.isSome) := by simp [named, saved]
    have stored : b.next s₀ (.bootstrapAdmin (.ok hash) save) =
        some { s₀ with cfg := bootstrapped s₀.cfg hash,
                       file := .written (bootstrapped s₀.cfg hash) } := by
      simp only [Base.next, Base.store, Except.map, if_neg kept]
    obtain rfl := Option.some.inj (stored.symm.trans first)
    have had : HasAdmin (bootstrapped s₀.cfg hash) := ⟨_, List.mem_singleton.mpr rfl, rfl⟩
    exact ⟨adminOnFile_of_written sound had rfl, had⟩

end Steps

/-- The user list has an administrator throughout a run exactly when no accepted `apiAddUser` or
`-add-user` writes an entry without the flag while no other entry has it. With an administrator
in the list, `-reset-admin-password` finds one. -/
theorem always_has_admin_iff {Text : Type*} (b : Base Text) (x : Execution b.administration) :
    (x.Always (fun s => HasAdmin s.cfg) ↔ x.Meets fun s e => KeepsAdmin s.cfg e) ∧
      ∀ cfg hash, (∃ d, resetAdmin cfg (.ok hash) = .ok d) ↔ HasAdmin cfg := by
  refine ⟨?_, fun cfg hash => resetAdmin_available hash⟩
  apply x.run.always_iff (I := b.AdminOnFile)
  · intro s h
    exact administration_initial h
  · intro s e t onFile had had' h
    have sound := onFile.1.next h
    by_cases restarts : e = .restart
    · subst restarts
      exact adminOnFile_next onFile had' (.inl (Base.start_file h)) sound
    · exact adminOnFile_next onFile had' (hasAdmin_next had h restarts).2 sound
  · intro s e t onFile had h
    by_cases restarts : e = .restart
    · subst restarts
      exact iff_of_true (onFile.2 t h) fun u upserts => (by cases upserts)
    · exact (hasAdmin_next had h restarts).1

/-- The configuration after the only administrator has added themselves without the flag. -/
def demotedConfig : Config := { firstConfig with users := [⟨"admin", "password1", false⟩] }

/-- `bootstrapAdmin` and one request of the administrator. -/
theorem last_admin_demoted :
    ∃ x : Execution plainBase.administration, ¬ x.Always fun s => HasAdmin s.cfg := by
  let a : Answers := ⟨.onASCII, false, fun _ => true, fun _ => true, fun _ => none, .ok, {}, none⟩
  let fresh : Config := .default "data" "vm/win10.qcow2"
  have first : (⟨firstConfig, fresh.vm, .written firstConfig⟩ : Installation Document) ∈
      plainBase.administration.initial :=
    .inr ⟨⟨fresh, fresh.vm, .missing⟩, .inl rfl, rfl, by decide, "hash", {}, rfl, rfl⟩
  have demotes : exec plainBase.administration ⟨firstConfig, fresh.vm, .written firstConfig⟩
      [.request (.addUser (some ⟨"admin", "password1", false⟩)) a] =
        some ⟨demotedConfig, fresh.vm, .written demotedConfig⟩ := by rfl
  refine Execution.exists_not_always first demotes ?_
  rintro ⟨u, hu, admin⟩
  obtain rfl := List.mem_singleton.mp hu
  cases admin

end VmServer.HttpServer
