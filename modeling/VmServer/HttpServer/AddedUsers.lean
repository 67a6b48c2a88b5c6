import VmServer.HttpServer.Accounts
import VmServer.HttpServer.UserList

/-!
# Logging in as a user who has been added

`apiAddUser` and the flag `-add-user` write the same entry into the user list,
but they do not read their arguments alike. `handleLogin` trims the user name
and takes the password as it is. So does `apiAddUser`; `addUserCmd` keeps the
blanks around the user name, under which no login looks, and cuts the
password at its first colon.
-/

namespace VmServer.HttpServer

open Auth Config TransitionSystem

/-! ## The specification of `-add-user` -/

/-- `user:password`, or `user:password:admin` for an administrator. -/
def specification (username password : String) (admin : Bool) : String :=
  username ++ ":" ++ password ++ if admin then ":admin" else ""

theorem cutColon_append {a : List Char} (plain : ':' ∉ a) (rest : List Char) :
    cutColon (a ++ ':' :: rest) = (a, some rest) := by
  have apart : ∀ c ∈ a, decide (c ≠ ':') = true := fun c hc =>
    decide_eq_true fun same => plain (same ▸ hc)
  rw [cutColon, List.takeWhile_append_of_pos apart, List.dropWhile_append_of_pos apart]
  simp

theorem cutColon_of_plain {a : List Char} (plain : ':' ∉ a) : cutColon a = (a, none) := by
  have apart : ∀ c ∈ a, decide (c ≠ ':') = true := fun c hc =>
    decide_eq_true fun same => plain (same ▸ hc)
  rw [cutColon, List.takeWhile_eq_self_iff.mpr apart, List.dropWhile_eq_nil_iff.mpr apart]
  rfl

theorem splitSpec_two {a b : String} (ha : ':' ∉ a.toList) (hb : ':' ∉ b.toList) :
    splitSpec (a ++ ":" ++ b) = [a, b] := by
  have text : (a ++ ":" ++ b).toList = a.toList ++ ':' :: b.toList := by simp
  simp [splitSpec, text, cutColon_append ha, cutColon_of_plain hb]

theorem splitSpec_three {a b : String} (ha : ':' ∉ a.toList) (hb : ':' ∉ b.toList) (c : String) :
    splitSpec (a ++ ":" ++ (b ++ ":" ++ c)) = [a, b, c] := by
  have text : (a ++ ":" ++ (b ++ ":" ++ c)).toList =
      a.toList ++ ':' :: (b.toList ++ ':' :: c.toList) := by simp
  simp [splitSpec, text, cutColon_append ha, cutColon_append hb]

/-- A string with a colon, cut at the first one. -/
theorem exists_cut {s : String} (colon : ':' ∈ s.toList) :
    ∃ before after : String, s = before ++ ":" ++ after ∧ ':' ∉ before.toList := by
  obtain ⟨before, after, split, apart⟩ := List.eq_append_cons_of_mem colon
  refine ⟨.ofList before, .ofList after, ?_, by simpa using apart⟩
  apply String.toList_injective
  simp [split]

/-- The password and the flag are read back exactly when the password has no colon. -/
theorem splitSpec_specification {username : String} (plain : ':' ∉ username.toList)
    (password : String) (admin : Bool) :
    ∃ piece rest, splitSpec (specification username password admin) = username :: piece :: rest ∧
      (piece = password ↔ ':' ∉ password.toList) ∧
      (':' ∉ password.toList → decide (rest = ["admin"]) = admin) := by
  by_cases colon : ':' ∈ password.toList
  · obtain ⟨before, after, rfl, apart⟩ := exists_cut colon
    have shorter : before ≠ before ++ ":" ++ after := fun same =>
      apart (by rw [same]; exact colon)
    have whole : specification username (before ++ ":" ++ after) admin = username ++ ":" ++
        (before ++ ":" ++ (after ++ if admin then ":admin" else "")) := by
      simp only [specification, String.append_assoc]
    exact ⟨before, [after ++ if admin then ":admin" else ""],
      whole ▸ splitSpec_three plain apart _, ⟨fun same => absurd same shorter,
        fun none => absurd colon none⟩, fun none => absurd colon none⟩
  · cases admin with
    | false =>
        have whole : specification username password false = username ++ ":" ++ password := by
          simp [specification]
        exact ⟨password, [], whole ▸ splitSpec_two plain colon, ⟨fun _ => colon, fun _ => rfl⟩,
          fun _ => rfl⟩
    | true =>
        have whole : specification username password true =
            username ++ ":" ++ (password ++ ":" ++ "admin") := by
          simp [specification, String.append_assoc]
        exact ⟨password, ["admin"], whole ▸ splitSpec_three plain colon _,
          ⟨fun _ => colon, fun _ => rfl⟩, fun _ => rfl⟩

/-! ## The login -/

/-- `handleLogin` for a form; no other call comes in between. -/
def Login.handleLogin (opts : Options) (bcrypt : String → String → Bool) (cfg : Config)
    (m : Manager) (ip : String) (now : Int) (username password : String)
    (random : Except String SessionID) :
    Manager × Except LoginError (Session × Cookie) :=
  m.login opts (credentials cfg bcrypt) ip now (trimSpace username) password random

/-- From an address that is not locked out, the form opens a session with the flag. -/
def LogsIn (bcrypt : String → String → Bool) (cfg : Config) (username password : String)
    (admin : Bool) : Prop :=
  ∀ (opts : Options) (m : Manager) (ip : String) (now : Int) (id : SessionID),
    (m.lockedOut opts ip now).2 = false →
      ∃ m' sess cookie,
        Login.handleLogin opts bcrypt cfg m ip now username password (.ok id) =
          (m', .ok (sess, cookie)) ∧
        m'.sessions id.val = some sess ∧ sess.username = trimSpace username ∧ sess.admin = admin

/-- There is an entry under the trimmed name that takes the password and has the flag. -/
def Accepts (bcrypt : String → String → Bool) (cfg : Config) (username password : String)
    (admin : Bool) : Prop :=
  ∃ u, cfg.findUser (trimSpace username) = some u ∧ bcrypt u.passwordHash password = true ∧
    u.admin = admin

section Login

variable {bcrypt : String → String → Bool} {cfg : Config} {username password : String}
  {admin : Bool}

/-- An address that is not locked out gets to the password comparison. -/
theorem handleLogin_of_free {opts : Options} {m : Manager} {ip : String} {now : Int}
    (free : (m.lockedOut opts ip now).2 = false) (random : Except String SessionID) :
    Login.handleLogin opts bcrypt cfg m ip now username password random =
      (m.lockedOut opts ip now).1.record opts ip now (trimSpace username)
        (Manager.credentialsOK (credentials cfg bcrypt) (trimSpace username) password) random := by
  unfold Login.handleLogin Manager.login
  generalize m.lockedOut opts ip now = checked at free
  obtain ⟨m, locked⟩ := checked
  obtain rfl : locked = false := free
  rfl

theorem credentialsOK_eq_some :
    Manager.credentialsOK (credentials cfg bcrypt) (trimSpace username) password = some admin ↔
      Accepts bcrypt cfg username password admin := by
  cases found : cfg.findUser (trimSpace username) with
  | none => simp [Manager.credentialsOK, credentials, Accepts, found]
  | some u =>
      cases compared : bcrypt u.passwordHash password with
      | true => simp [Manager.credentialsOK, credentials, Accepts, found, compared]
      | false => simp [Manager.credentialsOK, credentials, Accepts, found, compared]

/-- Whether a login succeeds is decided by the entry alone. -/
theorem logsIn_iff :
    LogsIn bcrypt cfg username password admin ↔ Accepts bcrypt cfg username password admin := by
  rw [← credentialsOK_eq_some]
  constructor
  · intro logs
    have free : (Manager.new.lockedOut defaultOptions "" 0).2 = false := by decide
    obtain ⟨m', sess, cookie, login, -, -, flag⟩ := logs defaultOptions .new "" 0 sampleID free
    rw [handleLogin_of_free free] at login
    cases checked :
        Manager.credentialsOK (credentials cfg bcrypt) (trimSpace username) password with
    | none => simp [Manager.record, checked] at login
    | some found =>
        rw [checked] at login
        have opened := Except.ok.inj (congrArg Prod.snd login)
        have same := congrArg (fun p => p.1.admin) opened
        exact congrArg some (same.trans flag)
  · intro checked opts m ip now id free
    have opened := congrArg (Manager.record opts (m.lockedOut opts ip now).1 ip now
      (trimSpace username) · (.ok id)) checked
    exact ⟨_, _, _, (handleLogin_of_free free _).trans opened, Function.update_self .., rfl, rfl⟩

end Login

/-! ## Adding and logging in -/

/-- A comparison accepts exactly the password a hash was made from. -/
def Faithful (bcrypt : String → String → Bool) (hashPassword : String → Except String String) :
    Prop :=
  ∀ password hash, hashPassword password = .ok hash → ∀ q, bcrypt hash q = true ↔ q = password

/-- The form logs in with the flag, and all other entries are as they were. -/
structure Added (bcrypt : String → String → Bool) (before after : Config)
    (entry username password : String) (admin : Bool) : Prop where
  logsIn : LogsIn bcrypt after username password admin
  others : after.users.filter (·.username ≠ entry) = before.users.filter (·.username ≠ entry)

/-- The command `-add-user` ends without an error. -/
def Base.AcceptsCmd {Text : Type*} (b : Base Text) (cfg : Config) (spec : String)
    (hashPassword : String → Except String String) (save : SaveSteps) : Prop :=
  (∃ d, addUserCmd cfg spec hashPassword = .ok d) ∧ b.path ≠ "" ∧ save.error = none

section Adding

variable {bcrypt : String → String → Bool} {cfg : Config} {username password hash : String}
  {admin : Bool}

/-- A login under a trimmed name asks the entry that was put there. -/
theorem accepts_withUser {flag : Bool}
    (trimmed : trimSpace username = username) :
    Accepts bcrypt (withUser cfg ⟨username, hash, flag⟩) username password admin ↔
      bcrypt hash password = true ∧ flag = admin := by
  simp only [Accepts, trimmed, findUser_withUser, Option.some.injEq, exists_eq_left']

/-- A login under a name with blanks around it asks the entry of another user. -/
theorem accepts_withUser_of_ne {flag : Bool}
    (blanks : trimSpace username ≠ username) :
    Accepts bcrypt (withUser cfg ⟨username, hash, flag⟩) username password admin ↔
      Accepts bcrypt cfg username password admin := by
  simp only [Accepts, findUser_withUser_of_ne blanks]

theorem code_of_checkAddUser_error {a : Answers} {body : Option UserBody} {reply : Reply}
    (h : checkAddUser cfg a body = .error reply) : reply.code ≠ 200 := by
  unfold checkAddUser at h
  split at h
  · simp [← Except.error.inj h, refused]
  · dsimp only at h
    split at h
    · simp [← Except.error.inj h, refused]
    · split at h
      · simp [← Except.error.inj h, refused]
      · split at h
        · cases h
        · cases h

/-- After a successful `apiAddUser` the checks had passed and their outcome is in memory. -/
theorem apiAddUser_ok {s : Settings} {a : Answers} {body : Option UserBody}
    (ok : (s.apiAddUser a body).2.code = 200) :
    ∃ request, body = some request ∧
      checkAddUser s.cfg a (some request) = .ok (s.apiAddUser a body).1.cfg := by
  have outcome := Settings.respond_outcome s (.addUser body) a
  change Settings.Outcome s (.addUser body) a (s.apiAddUser a body) at outcome
  generalize s.apiAddUser a body = answer at ok outcome
  cases outcome with
  | refused checked => exact absurd ok (code_of_checkAddUser_error checked)
  | failed checked failure => cases ok
  | saved checked success kept =>
      cases body with
      | none => cases checked
      | some request => exact ⟨request, rfl, checked⟩

/-- After an accepted command, the next start goes on with what the command has written. -/
theorem restart_addUser {Text : Type*} {b : Base Text} {s t : Installation Text} {spec : String}
    {hashPassword : String → Except String String} {save : SaveSteps} (sound : s.Sound)
    (accepted : b.AcceptsCmd s.cfg spec hashPassword save)
    (run : exec b.system s [.addUser spec hashPassword save, .restart] = some t) :
    addUserCmd s.cfg spec hashPassword = .ok t.cfg := by
  obtain ⟨⟨d, added⟩, named, saved⟩ := accepted
  have kept : ¬ (b.path = "" ∨ save.error.isSome) := by simp [named, saved]
  have written : b.next s (.addUser spec hashPassword save) =
      some { s with cfg := d, file := .written d } := by
    simp only [Base.next, Base.store, added, if_neg kept]
  have sound' := sound.next written
  have started : b.next _ .restart = some _ := sound'.readsBack.starts d rfl
  simp only [exec, List.foldlM_cons, List.foldlM_nil, Base.system, written, Option.bind_eq_bind,
    Option.bind_some, started] at run
  obtain rfl := Option.some.inj run
  exact added

end Adding

/-- A user added through `apiAddUser` can always log in with what was given. A user added by an
accepted `-add-user` can, from the next start on, exactly when no blank surrounds the name and no
colon is in the password, or when the name without its blanks belongs to another user who could
log in like this before. -/
theorem added_user_logs_in_iff {Text : Type*} (b : Base Text) (bcrypt : String → String → Bool) :
    (∀ (s : Settings) (a : Answers) (body : Option UserBody), Faithful bcrypt a.hashPassword →
      (s.apiAddUser a body).2.code = 200 →
        ∃ request, body = some request ∧
          Added bcrypt s.cfg (s.apiAddUser a body).1.cfg (trimSpace request.username)
            request.username request.password request.admin) ∧
    ∀ (x : Execution b.system) (username password : String) (admin : Bool)
      (hashPassword : String → Except String String) (save : SaveSteps) (t : Installation Text),
      ':' ∉ username.toList → Faithful bcrypt hashPassword →
      b.AcceptsCmd x.final.cfg (specification username password admin) hashPassword save →
      exec b.system x.final
          [.addUser (specification username password admin) hashPassword save, .restart] = some t →
        (Added bcrypt x.final.cfg t.cfg username username password admin ↔
          (trimSpace username = username ∧ ':' ∉ password.toList) ∨
          (trimSpace username ≠ username ∧
            Accepts bcrypt x.final.cfg username password admin)) := by
  refine ⟨fun s a body faithful ok => ?_, ?_⟩
  · obtain ⟨request, rfl, checked⟩ := apiAddUser_ok ok
    obtain ⟨-, -, hash, hashed, after⟩ := checkAddUser_eq_ok.mp checked
    have accepts : Accepts bcrypt (s.apiAddUser a (some request)).1.cfg request.username
        request.password request.admin := by
      rw [after]
      exact ⟨_, findUser_withUser, (faithful _ _ hashed _).mpr rfl, rfl⟩
    refine ⟨request, rfl, logsIn_iff.mpr accepts, ?_⟩
    rw [after]
    exact others_withUser
  · intro x username password admin hashPassword save t plain faithful accepted run
    have sound := (always_sound b x).2
    obtain ⟨username', piece', rest', pieces', -, -, hash, hashed, after⟩ :=
      addUserCmd_eq_ok.mp (restart_addUser sound accepted run)
    obtain ⟨piece, rest, pieces, whole, flag⟩ := splitSpec_specification plain password admin
    obtain ⟨rfl, rfl, rfl⟩ := by simpa using pieces.symm.trans pieces'
    have logs : Added bcrypt x.final.cfg t.cfg username username password admin ↔
        Accepts bcrypt t.cfg username password admin :=
      ⟨fun added => logsIn_iff.mp added.logsIn,
        fun accepts => ⟨logsIn_iff.mpr accepts, after ▸ others_withUser⟩⟩
    rw [logs, after]
    by_cases trimmed : trimSpace username = username
    · have same : bcrypt hash password = true ↔ ':' ∉ password.toList :=
        (faithful _ _ hashed password).trans (eq_comm.trans whole)
      simp only [accepts_withUser trimmed, same, trimmed, true_and, ne_eq, not_true_eq_false,
        false_and, or_false, and_iff_left_iff_imp]
      exact flag
    · simp only [accepts_withUser_of_ne trimmed, trimmed, false_and, ne_eq, not_false_eq_true,
        true_and, false_or]

/-- A hash that is the password itself. -/
theorem faithful_plain : Faithful (fun hash q => hash = q) .ok := by
  intro password hash hashed q
  obtain rfl := Except.ok.inj hashed
  simp [eq_comm]

/-- The administrator has added one more user. -/
def secondConfig (username password : String) (admin : Bool) : Config :=
  { firstConfig with users := [⟨"admin", "hash", true⟩, ⟨username, password, admin⟩] }

theorem exists_firstConfig : ∃ x : Execution plainBase.system,
    x.final = ⟨firstConfig, firstConfig.vm, .written firstConfig⟩ := by
  obtain ⟨x, final, -⟩ := Execution.of_exec (M := plainBase.system) (.inl rfl)
    (rfl : exec plainBase.system _ [.bootstrapAdmin (.ok "hash") {}] = some _)
  exact ⟨x, final.trans rfl⟩

/-- Whoever is named with a blank is saved and cannot log in. -/
theorem blank_username_cannot_log_in :
    ∃ (x : Execution plainBase.system) (t : Installation Document),
      ':' ∉ " bob".toList ∧ Faithful (fun hash q => hash = q) .ok ∧
        plainBase.AcceptsCmd x.final.cfg (specification " bob" "password1" false) .ok {} ∧
        exec plainBase.system x.final
          [.addUser (specification " bob" "password1" false) .ok {}, .restart] = some t ∧
        ¬ Added (fun hash q => hash = q) x.final.cfg t.cfg " bob" " bob" "password1" false := by
  obtain ⟨x, final⟩ := exists_firstConfig
  let after := secondConfig " bob" "password1" false
  refine ⟨x, ⟨after, after.vm, .written after⟩, by decide, faithful_plain, ?_⟩
  rw [final]
  refine ⟨⟨⟨after, by rfl⟩, by decide, rfl⟩, by rfl, fun added => ?_⟩
  obtain ⟨u, found, -⟩ := logsIn_iff.mp added.logsIn
  have none : after.findUser (trimSpace " bob") = none := by decide
  cases found.symm.trans none

theorem added_users_log_in :
    (∃ (s : Settings) (a : Answers) (request : UserBody),
      Added (fun hash q => hash = q) s.cfg (s.apiAddUser a (some request)).1.cfg "bob" " bob "
        "password1" true) ∧
    ∃ (x : Execution plainBase.system) (t : Installation Document),
      Added (fun hash q => hash = q) x.final.cfg t.cfg "bob" "bob" "password1" true := by
  constructor
  · let s : Settings := ⟨firstConfig, firstConfig.vm, firstConfig, "config.yaml"⟩
    let a : Answers :=
      ⟨.onASCII, false, fun _ => true, fun _ => true, fun _ => none, .ok, {}, none⟩
    let request : UserBody := ⟨" bob ", "password1", true⟩
    obtain ⟨request', same, added⟩ := (added_user_logs_in_iff plainBase (fun hash q => hash = q)).1
      s a (some request) faithful_plain (by decide)
    obtain rfl := Option.some.inj same
    have trimmed : trimSpace " bob " = "bob" := by decide
    exact ⟨s, a, request, trimmed ▸ added⟩
  · obtain ⟨x, final⟩ := exists_firstConfig
    let after := secondConfig "bob" "password1" true
    have accepted :
        plainBase.AcceptsCmd x.final.cfg (specification "bob" "password1" true) .ok {} :=
      ⟨⟨after, by rw [final]; rfl⟩, by decide, rfl⟩
    have run : exec plainBase.system x.final
        [.addUser (specification "bob" "password1" true) .ok {}, .restart] =
          some ⟨after, after.vm, .written after⟩ := by rw [final]; rfl
    exact ⟨x, _, ((added_user_logs_in_iff plainBase (fun hash q => hash = q)).2 x "bob" "password1"
      true .ok {} _ (by decide) faithful_plain accepted run).mpr (.inl (by decide))⟩

end VmServer.HttpServer
