import VmServer.Auth.Validity
import VmServer.HttpServer.Accounts
import VmServer.HttpServer.UserList

/-!
# Where an admin right comes from

A session has the admin flag that the user had when the login looked the user
up. Users are never removed, and only `apiAddUser` changes their flag. A right
is therefore as old as its login: the user still exists, with the flag that
the last `apiAddUser` since that lookup has set. The right stays for as long as
the session does, whatever happens to the user's flag.
-/

namespace VmServer.HttpServer

open Auth Config TransitionSystem

/-- The flag that the event gives to a user through `apiAddUser`, if it does. -/
def setsAdmin (username : String) (s : Accounts) : AccountEvent → Option Bool
  | .act k a =>
      match s.jobs[k]? with
      | some (.addUser (some body)) =>
          match checkAddUser s.settings.cfg a (some body) with
          | .ok _ => if trimSpace body.username = username then some body.admin else none
          | .error _ => none
      | _ => none
  | _ => none

/-- The flag of a user who was an administrator, after the events of a run. -/
def lastAdmin (username : String) (hist : List (Accounts × AccountEvent)) : Bool :=
  hist.foldl (fun admin p => (setsAdmin username p.1 p.2).getD admin) true

/-- The login call has found the user, an administrator, with this password, and since then the
user has the flag that was set last. -/
def Granted (bcrypt : String → String → Bool) (hist : List (Accounts × AccountEvent))
    (s : Accounts) (i : Nat) (username : String) : Prop :=
  ∃ before s₀ after c u₀ u, hist = before ++ (s₀, .compare i) :: after ∧
    s₀.calls[i]? = some c ∧ c.username = username ∧
    s₀.settings.cfg.findUser username = some u₀ ∧ u₀.admin = true ∧
    bcrypt u₀.passwordHash c.password = true ∧
    s.settings.cfg.findUser username = some u ∧ u.admin = lastAdmin username after

/-- The step gives this token to no new session. -/
def NotGiven (id : String) (_ : Accounts) (e : AccountEvent) : Prop :=
  ∀ i key, e = .record i (.ok key) → key.val ≠ id

/-! ## The user list -/

/-- A stored check changes the configuration to what was checked, whether or not it is saved. -/
theorem store_cfg (s : Settings) (f : SaveSteps) (checked : Except Reply Config) :
    (s.store f checked).1.cfg = checked.toOption.getD s.cfg := by
  cases checked with
  | error reply => rfl
  | ok cfg =>
      simp only [Settings.store, Settings.save]
      split <;> rfl

section Requests

variable {c d : Config} {a : Answers} {name : String} {u : User}

/-- `apiAddUser` keeps every user and sets the flag of the one it is for. -/
theorem findUser_checkAddUser {body : UserBody} (found : c.findUser name = some u)
    (h : checkAddUser c a (some body) = .ok d) :
    ∃ v, d.findUser name = some v ∧
      v.admin = if trimSpace body.username = name then body.admin else u.admin := by
  obtain ⟨-, -, hash, -, rfl⟩ := checkAddUser_eq_ok.mp h
  by_cases same : trimSpace body.username = name
  · subst same
    exact ⟨_, findUser_withUser, (if_pos rfl).symm⟩
  · exact ⟨u, (findUser_withUser_of_ne (Ne.symm same)).trans found, (if_neg same).symm⟩

/-- `apiChangePassword` keeps every user and every flag. -/
theorem findUser_checkChangePassword {username : String} {password : Option String}
    (found : c.findUser name = some u) (h : checkChangePassword c a username password = .ok d) :
    ∃ v, d.findUser name = some v ∧ v.admin = u.admin := by
  obtain ⟨hash, rfl⟩ := checkChangePassword_ok h
  refine ⟨_, findUser_modifyUser found fun _ => rfl, ?_⟩
  split <;> rfl

end Requests

namespace Accounts

variable {opts : Options} {bcrypt : String → String → Bool} {s t : Accounts} {e : AccountEvent}

theorem check_settings {i : Nat} {c : Auth.Call} (h : s.check opts i c = some t) :
    t.settings = s.settings := by
  unfold check at h
  split at h
  · exact Option.some.inj h ▸ rfl
  · exact Option.some.inj h ▸ rfl
  · cases h

theorem request_settings (route : AccountRoute) (cookie : Option String) :
    (s.request opts route cookie).settings = s.settings := by
  cases route with
  | addUser body =>
      simp only [request]
      split <;> rfl
  | changePassword password =>
      simp only [request]
      split <;> rfl
  | other => rfl

/-- Only the handlers behind the guards change the configuration. -/
theorem next_settings (h : s.next opts bcrypt e = some t) (other : ∀ k a, e ≠ .act k a) :
    t.settings = s.settings := by
  cases e with
  | check i =>
      obtain ⟨c, _, h⟩ := Option.bind_eq_some_iff.mp h
      exact check_settings h
  | compare i =>
      obtain ⟨c, _, h⟩ := Option.bind_eq_some_iff.mp h
      unfold compare at h
      split at h
      · exact Option.some.inj h ▸ rfl
      · cases h
  | record i random =>
      obtain ⟨c, _, h⟩ := Option.bind_eq_some_iff.mp h
      unfold record at h
      split at h
      · exact Option.some.inj h ▸ rfl
      · cases h
  | request route cookie => exact Option.some.inj h ▸ request_settings route cookie
  | act k a => exact absurd rfl (other k a)
  | reap now =>
      simp only [next] at h
      split at h
      · exact Option.some.inj h ▸ rfl
      · cases h
  | advance d => exact Option.some.inj h ▸ rfl
  | login ip username password => exact Option.some.inj h ▸ rfl
  | touch id => exact Option.some.inj h ▸ rfl
  | logout cookie => exact Option.some.inj h ▸ rfl

/-- A user stays, with the flag an `apiAddUser` for it sets. -/
theorem findUser_next {name : String} {u : User} (h : s.next opts bcrypt e = some t)
    (found : s.settings.cfg.findUser name = some u) :
    ∃ v, t.settings.cfg.findUser name = some v ∧ v.admin = (setsAdmin name s e).getD u.admin := by
  by_cases acts : ∃ k a, e = .act k a
  · obtain ⟨k, a, rfl⟩ := acts
    obtain ⟨job, pending, h⟩ := Option.bind_eq_some_iff.mp h
    cases job with
    | done => cases h
    | changePassword username password =>
        obtain rfl := Option.some.inj h
        simp only [setsAdmin, pending, Settings.apiChangePassword, store_cfg]
        cases checked : checkChangePassword s.settings.cfg a username password with
        | error reply => exact ⟨u, found, rfl⟩
        | ok d => exact findUser_checkChangePassword found checked
    | addUser body =>
        obtain rfl := Option.some.inj h
        cases body with
        | none => exact ⟨u, found, by simp [setsAdmin, pending]⟩
        | some body =>
            simp only [setsAdmin, pending, Settings.apiAddUser, store_cfg]
            cases checked : checkAddUser s.settings.cfg a (some body) with
            | error reply => exact ⟨u, found, rfl⟩
            | ok d =>
                obtain ⟨v, hv, flag⟩ := findUser_checkAddUser found checked
                refine ⟨v, hv, flag.trans ?_⟩
                by_cases same : trimSpace body.username = name
                · simp [same]
                · simp [same]
  · have same : t.settings = s.settings := next_settings h fun k a hk => acts ⟨k, a, hk⟩
    refine ⟨u, same ▸ found, ?_⟩
    cases e with
    | act k a => exact absurd ⟨k, a, rfl⟩ acts
    | _ => rfl

end Accounts

/-! ## Sessions and the logins that opened them -/

/-- Every session of the second manager is one of the first, seen again perhaps. -/
def Inherits (m m' : Manager) : Prop :=
  ∀ id x, m'.sessions id = some x →
    ∃ y, m.sessions id = some y ∧ x.id = y.id ∧ x.username = y.username ∧ x.admin = y.admin

section Inheritance

variable {opts : Options} {m : Manager}

theorem Inherits.refl (m : Manager) : Inherits m m :=
  fun _ x h => ⟨x, h, rfl, rfl, rfl⟩

theorem inherits_drop (id : String) : Inherits m (m.drop id) := by
  intro key x h
  by_cases same : key = id
  · simp [same] at h
  · exact ⟨x, by simpa [same] using h, rfl, rfl, rfl⟩

theorem inherits_see (id : String) (now : Int) : Inherits m (m.see id now) := by
  intro key x h
  by_cases same : key = id
  · subst same
    obtain ⟨y, hy, rfl⟩ : ∃ y, m.sessions key = some y ∧ { y with lastSeen := now } = x := by
      simpa using h
    exact ⟨y, hy, rfl, rfl, rfl⟩
  · exact ⟨x, by simpa [same] using h, rfl, rfl, rfl⟩

theorem inherits_reap (now : Int) : Inherits m (m.reap opts now) :=
  fun _ x h => ⟨x, (Option.filter_eq_some_iff.mp h).1, rfl, rfl, rfl⟩

theorem inherits_touch (id : String) (now : Int) : Inherits m (m.touch id now) := by
  rcases Manager.touch_eq m id now with same | marked
  · rw [same]
    exact Inherits.refl m
  · rw [marked]
    exact inherits_see id now

theorem inherits_logout (cookie : Option String) : Inherits m (m.logout opts cookie).1 := by
  cases cookie with
  | none => exact Inherits.refl m
  | some id => exact inherits_drop id

theorem inherits_sessionFromRequest (cookie : Option String) (now : Int) :
    Inherits m (m.sessionFromRequest opts cookie now).1 := by
  obtain same | ⟨key, _, _, _, dropped⟩ | ⟨key, marked⟩ :=
    Manager.sessionFromRequest_manager opts m cookie now
  · rw [same]
    exact Inherits.refl m
  · rw [dropped]
    exact inherits_drop key
  · rw [marked]
    exact inherits_see key now

/-- A session that `record` adds is the one it returns, under the token that was drawn, for the
user and with the flag it was given. -/
theorem record_new {ip username id : String} {now : Int} {ok : Option Bool}
    {random : Except String SessionID} {x : Session}
    (h : (m.record opts ip now username ok random).1.sessions id = some x) :
    m.sessions id = some x ∨
      ∃ cookie key, random = .ok key ∧ key.val = id ∧
        (m.record opts ip now username ok random).2 = .ok (x, cookie) ∧
          x.username = username ∧ ok = some x.admin := by
  cases ok with
  | none => exact .inl h
  | some flag =>
      cases random with
      | error text => exact .inl h
      | ok key =>
          by_cases new : id = key.val
          · have stored : Manager.newSession key ip now username flag = x := by
              simpa [Manager.record, Manager.add, Manager.newSession, new] using h
            subst stored
            exact .inr ⟨_, key, rfl, new.symm, rfl, rfl, rfl⟩
          · have old : (m.setAttempts ip none).sessions id = some x := by
              simpa [Manager.record, Manager.add, Manager.newSession, Function.update_of_ne new]
                using h
            exact .inl old

end Inheritance

namespace Accounts

variable {opts : Options} {s t : Accounts}

theorem requireAdmin_eq_some {cookie : Option String} {sess : Session} :
    (s.requireAdmin opts cookie).2 = some sess ↔
      (s.requireAuth opts cookie).2 = some sess ∧ sess.admin = true := by
  unfold requireAdmin
  split
  · rename_i none
    simp [none]
  · rename_i auth found some
    by_cases admin : found.admin = true
    · simp only [some, admin, if_true]
      constructor
      · rintro ⟨rfl⟩
        exact ⟨rfl, admin⟩
      · exact And.left
    · simp only [some, admin, Bool.false_eq_true, if_false]
      constructor
      · rintro ⟨⟩
      · rintro ⟨⟨rfl⟩, yes⟩
        exact absurd yes admin

theorem request_auth (route : AccountRoute) (cookie : Option String) :
    (s.request opts route cookie).calls = s.calls ∧
      Inherits s.auth (s.request opts route cookie).auth := by
  have seen : Inherits s.auth (s.requireAuth opts cookie).1 :=
    inherits_sessionFromRequest cookie s.clock
  have same : (s.requireAdmin opts cookie).1 = (s.requireAuth opts cookie).1 := by
    unfold requireAdmin
    split <;> rename_i h <;> rw [h]
  cases route with
  | addUser body =>
      rw [← same] at seen
      simp only [request]
      split <;> rename_i h <;> rw [h] at seen <;> exact ⟨rfl, seen⟩
  | changePassword password =>
      simp only [request]
      split <;> rename_i h <;> rw [h] at seen <;> exact ⟨rfl, seen⟩
  | other =>
      rw [← same] at seen
      exact ⟨rfl, seen⟩

theorem act_auth {k : Nat} {a : Answers} {job : AccountJob} (h : s.act k a job = some t) :
    t.calls = s.calls ∧ t.auth = s.auth := by
  cases job with
  | addUser body => exact Option.some.inj h ▸ ⟨rfl, rfl⟩
  | changePassword username password => exact Option.some.inj h ▸ ⟨rfl, rfl⟩
  | done => cases h

end Accounts

/-- The login call has returned this session. -/
def Opened (s : Accounts) (i : Nat) (x : Session) : Prop :=
  ∃ c y cookie, s.calls[i]? = some c ∧ c.phase = .finished (.ok (y, cookie)) ∧ y.id = x.id ∧
    c.username = x.username

/-- Where the admin flags in calls and sessions come from. -/
structure Traceable (bcrypt : String → String → Bool) (hist : List (Accounts × AccountEvent))
    (s : Accounts) : Prop where
  calls : ∀ (i : Nat) (c : Auth.Call), s.calls[i]? = some c → c.phase = .compared (some true) →
    Granted bcrypt hist s i c.username
  sessions : ∀ id x, s.auth.sessions id = some x → x.admin = true →
    ∃ i, Opened s i x ∧ Granted bcrypt hist s i x.username

section Trace

variable {opts : Options} {bcrypt : String → String → Bool} {s t : Accounts} {e : AccountEvent}
  {hist : List (Accounts × AccountEvent)}

/-- A right goes with the user through every step. -/
theorem Granted.next {i : Nat} {username : String} (h : Granted bcrypt hist s i username)
    (step : s.next opts bcrypt e = some t) : Granted bcrypt (hist ++ [(s, e)]) t i username := by
  obtain ⟨before, s₀, after, c, u₀, u, rfl, called, named, found₀, admin₀, compared, found,
    flag⟩ := h
  obtain ⟨v, hv, now⟩ := Accounts.findUser_next step found
  refine ⟨before, s₀, after ++ [(s, e)], c, u₀, v, by simp, called, named, found₀, admin₀, compared,
    hv, ?_⟩
  rw [now, flag, lastAdmin, lastAdmin, List.foldl_append]
  rfl

/-- The call that a step has moved is in a phase after `called`, and returned calls stay. -/
theorem Opened.set {i j : Nat} {c c' : Auth.Call} {x : Session} (h : Opened s i x)
    (found : s.calls[j]? = some c) (open_ : ∀ r, c.phase ≠ .finished r)
    (calls : t.calls = s.calls.set j c') : Opened t i x := by
  obtain ⟨d, y, cookie, hd, at_, rest⟩ := h
  refine ⟨d, y, cookie, ?_, at_, rest⟩
  have ne : j ≠ i := by
    rintro rfl
    obtain rfl : c = d := Option.some.inj (found.symm.trans hd)
    exact open_ _ at_
  rw [calls, Contributions.getElem?_set found, if_neg ne, hd]

/-- A step that leaves the calls alone and adds no session. -/
theorem Traceable.inherit (h : Traceable bcrypt hist s) (step : s.next opts bcrypt e = some t)
    (calls : t.calls = s.calls) (sessions : Inherits s.auth t.auth) :
    Traceable bcrypt (hist ++ [(s, e)]) t where
  calls i c hc at_ := (h.calls i c (calls ▸ hc) at_).next step
  sessions id x hx admin := by
    obtain ⟨y, hy, ids, names, flags⟩ := sessions id x hx
    obtain ⟨i, opened, granted⟩ := h.sessions id y hy (flags ▸ admin)
    obtain ⟨c, z, cookie, hc, at_, same, named⟩ := opened
    exact ⟨i, ⟨c, z, cookie, calls ▸ hc, at_, same.trans ids.symm, named.trans names.symm⟩,
      names ▸ granted.next step⟩

/-- A step of one login call. -/
theorem Traceable.set (h : Traceable bcrypt hist s) (step : s.next opts bcrypt e = some t)
    {j : Nat} {c c' : Auth.Call} (found : s.calls[j]? = some c)
    (open_ : ∀ r, c.phase ≠ .finished r) (calls : t.calls = s.calls.set j c')
    (compared : c'.phase = .compared (some true) →
      Granted bcrypt (hist ++ [(s, e)]) t j c'.username)
    (sessions : ∀ id x, t.auth.sessions id = some x → s.auth.sessions id = some x ∨
      (x.admin = true → ∃ i, Opened t i x ∧ Granted bcrypt (hist ++ [(s, e)]) t i x.username)) :
    Traceable bcrypt (hist ++ [(s, e)]) t where
  calls i d hd at_ := by
    rw [calls] at hd
    rcases Contributions.of_getElem?_set found hd with ⟨rfl, rfl⟩ | ⟨_, old⟩
    · exact compared at_
    · exact (h.calls i d old at_).next step
  sessions id x hx admin := by
    rcases sessions id x hx with old | new
    · obtain ⟨i, opened, granted⟩ := h.sessions id x old admin
      exact ⟨i, opened.set found open_ calls, granted.next step⟩
    · exact new admin

theorem Traceable.check (h : Traceable bcrypt hist s) {i : Nat} {c : Auth.Call}
    (found : s.calls[i]? = some c) (ht : s.check opts i c = some t)
    (step : s.next opts bcrypt (.check i) = some t) :
    Traceable bcrypt (hist ++ [(s, .check i)]) t := by
  have same : (s.auth.lockedOut opts c.ip c.start).1.sessions = s.auth.sessions := rfl
  unfold Accounts.check at ht
  split at ht
  case h_1 auth at_ locked =>
    obtain rfl := Option.some.inj ht
    rw [locked] at same
    exact h.set step found (fun r => by rw [at_]; exact CallPhase.noConfusion) rfl
      CallPhase.noConfusion fun id x hx => .inl (same ▸ hx)
  case h_2 auth at_ allowed =>
    obtain rfl := Option.some.inj ht
    rw [allowed] at same
    exact h.set step found (fun r => by rw [at_]; exact CallPhase.noConfusion) rfl
      CallPhase.noConfusion fun id x hx => .inl (same ▸ hx)
  case h_3 => cases ht

/-- The lookup that finds an administrator is where the right comes from. -/
theorem Traceable.compare (h : Traceable bcrypt hist s) {i : Nat} {c : Auth.Call}
    (found : s.calls[i]? = some c) (ht : s.compare bcrypt i c = some t)
    (step : s.next opts bcrypt (.compare i) = some t) :
    Traceable bcrypt (hist ++ [(s, .compare i)]) t := by
  unfold Accounts.compare at ht
  split at ht
  case h_1 at_ =>
    obtain rfl := Option.some.inj ht
    refine h.set step found (fun r => by rw [at_]; exact CallPhase.noConfusion) rfl
      (fun compared => ?_) fun id x hx => .inl hx
    have ok : Manager.credentialsOK (credentials s.settings.cfg bcrypt) c.username c.password =
        some true := by simpa using compared
    obtain ⟨u, hu, admin, same⟩ : ∃ u, s.settings.cfg.findUser c.username = some u ∧
        u.admin = true ∧ bcrypt u.passwordHash c.password = true := by
      unfold Manager.credentialsOK credentials at ok
      cases hu : s.settings.cfg.findUser c.username with
      | none => simp [hu] at ok
      | some u =>
          obtain ⟨same, admin⟩ : bcrypt u.passwordHash c.password = true ∧ u.admin = true := by
            simpa [hu] using ok
          exact ⟨u, rfl, admin, same⟩
    exact ⟨hist, s, [], c, u, u, rfl, found, rfl, hu, admin, same, hu, admin⟩
  case h_2 => cases ht

/-- A new session has the flag of the call that opened it. -/
theorem Traceable.record (h : Traceable bcrypt hist s) {i : Nat} {c : Auth.Call}
    {random : Except String SessionID} (found : s.calls[i]? = some c)
    (ht : s.record opts i c random = some t)
    (step : s.next opts bcrypt (.record i random) = some t) :
    Traceable bcrypt (hist ++ [(s, .record i random)]) t := by
  unfold Accounts.record at ht
  split at ht
  case h_1 ok at_ =>
    obtain rfl := Option.some.inj ht
    refine h.set step found (fun r => by rw [at_]; exact CallPhase.noConfusion) rfl
      CallPhase.noConfusion fun id x hx => ?_
    obtain old | ⟨cookie, _, _, _, returned, named, flag⟩ := record_new hx
    · exact .inl old
    · let r := s.auth.record opts c.ip c.start c.username ok random
      refine .inr fun admin => ⟨i, ⟨{ c with phase := .finished r.2 }, x, cookie, ?_,
        congrArg CallPhase.finished returned, rfl, named.symm⟩, ?_⟩
      · exact (Contributions.getElem?_set found _ i).trans (if_pos rfl)
      · have compared : c.phase = .compared (some true) := by rw [at_, flag, admin]
        exact named ▸ (h.calls i c found compared).next step
  case h_2 => cases ht

theorem Traceable.next (h : Traceable bcrypt hist s) (step : s.next opts bcrypt e = some t) :
    Traceable bcrypt (hist ++ [(s, e)]) t := by
  cases e with
  | advance d =>
      have moved := Option.some.inj step
      exact h.inherit step (moved ▸ rfl) (moved ▸ Inherits.refl s.auth)
  | login ip username password =>
      have moved := Option.some.inj step
      refine ⟨fun i c hc at_ => ?_, fun id x hx admin => ?_⟩
      · subst moved
        rcases Contributions.of_getElem?_concat hc with ⟨_, rfl⟩ | old
        · cases at_
        · exact (h.calls i c old at_).next step
      · subst moved
        obtain ⟨i, ⟨c, y, cookie, hc, rest⟩, granted⟩ := h.sessions id x hx admin
        refine ⟨i, ⟨c, y, cookie, ?_, rest⟩, granted.next step⟩
        exact (List.getElem?_append_left (List.getElem?_eq_some_iff.mp hc).1).trans hc
  | check i =>
      obtain ⟨c, found, ht⟩ := Option.bind_eq_some_iff.mp step
      exact h.check found ht step
  | compare i =>
      obtain ⟨c, found, ht⟩ := Option.bind_eq_some_iff.mp step
      exact h.compare found ht step
  | record i random =>
      obtain ⟨c, found, ht⟩ := Option.bind_eq_some_iff.mp step
      exact h.record found ht step
  | request route cookie =>
      have moved : s.request opts route cookie = _ := Option.some.inj step
      obtain ⟨calls, sessions⟩ := moved ▸ Accounts.request_auth route cookie
      exact h.inherit step calls sessions
  | act k a =>
      obtain ⟨job, _, ht⟩ := Option.bind_eq_some_iff.mp step
      obtain ⟨calls, auth⟩ := Accounts.act_auth ht
      exact h.inherit step calls (auth ▸ Inherits.refl s.auth)
  | touch id =>
      have moved := Option.some.inj step
      exact h.inherit step (moved ▸ rfl) (moved ▸ inherits_touch id s.clock)
  | logout cookie =>
      have moved := Option.some.inj step
      exact h.inherit step (moved ▸ rfl) (moved ▸ inherits_logout cookie)
  | reap now =>
      have ht := step
      simp only [Accounts.next] at ht
      split at ht
      · have moved := Option.some.inj ht
        exact h.inherit step (moved ▸ rfl) (moved ▸ inherits_reap now)
      · cases ht

end Trace

theorem traceable {opts : Options} {bcrypt : String → String → Bool}
    {hist : List (Accounts × AccountEvent)} {s : Accounts}
    (run : Run (accountSystem opts bcrypt) hist s) : Traceable bcrypt hist s := by
  induction run with
  | start h =>
      obtain ⟨clock, settings, rfl⟩ := h
      exact ⟨fun i c hc => by simp at hc, fun id x hx => by cases hx⟩
  | step run h ih => exact ih.next h

/-! ## How long a right lasts -/

/-- A session under this token may do what an administrator may. -/
def Privileged (id : String) (s : Accounts) : Prop :=
  ∀ x, s.auth.sessions id = some x → x.admin = true

section Privileged

variable {opts : Options} {bcrypt : String → String → Bool} {s t : Accounts} {e : AccountEvent}
  {id : String}

theorem Privileged.inherit (h : Privileged id s) (sessions : Inherits s.auth t.auth) :
    Privileged id t := by
  intro x hx
  obtain ⟨y, hy, _, _, flags⟩ := sessions id x hx
  exact flags.trans (h y hy)

/-- No step takes the flag from a session that is there. -/
theorem Privileged.next (h : Privileged id s) (fresh : NotGiven id s e)
    (step : s.next opts bcrypt e = some t) : Privileged id t := by
  cases e with
  | check i =>
      obtain ⟨c, _, ht⟩ := Option.bind_eq_some_iff.mp step
      have same : (s.auth.lockedOut opts c.ip c.start).1.sessions = s.auth.sessions := rfl
      unfold Accounts.check at ht
      split at ht
      case h_1 auth _ locked =>
        obtain rfl := Option.some.inj ht
        rw [locked] at same
        exact fun x hx => h x (same ▸ hx)
      case h_2 auth _ allowed =>
        obtain rfl := Option.some.inj ht
        rw [allowed] at same
        exact fun x hx => h x (same ▸ hx)
      case h_3 => cases ht
  | compare i =>
      obtain ⟨c, _, ht⟩ := Option.bind_eq_some_iff.mp step
      unfold Accounts.compare at ht
      split at ht
      · exact Option.some.inj ht ▸ h
      · cases ht
  | record i random =>
      obtain ⟨c, _, ht⟩ := Option.bind_eq_some_iff.mp step
      unfold Accounts.record at ht
      split at ht
      · obtain rfl := Option.some.inj ht
        intro x hx
        rcases record_new hx with old | ⟨cookie, key, given, same, _⟩
        · exact h x old
        · exact absurd same (fresh i key (given ▸ rfl))
      · cases ht
  | request route cookie =>
      have moved : s.request opts route cookie = _ := Option.some.inj step
      exact h.inherit (moved ▸ Accounts.request_auth route cookie).2
  | act k a =>
      obtain ⟨job, _, ht⟩ := Option.bind_eq_some_iff.mp step
      exact h.inherit ((Accounts.act_auth ht).2 ▸ Inherits.refl s.auth)
  | reap now =>
      simp only [Accounts.next] at step
      split at step
      · exact h.inherit (Option.some.inj step ▸ inherits_reap now)
      · cases step
  | advance d => exact Option.some.inj step ▸ h
  | login ip username password => exact Option.some.inj step ▸ h
  | touch id => exact h.inherit (Option.some.inj step ▸ inherits_touch id s.clock)
  | logout cookie => exact h.inherit (Option.some.inj step ▸ inherits_logout cookie)

end Privileged

/-- A request that `requireAdmin` lets through has the session of a login whose lookup found an
administrator. That user still exists, with the flag the last `apiAddUser` has set since. It goes
on to let the session through for as long as `requireAuth` does, also when the flag is taken
back. -/
theorem admin_since_login {opts : Options} {bcrypt : String → String → Bool}
    (x : Execution (accountSystem opts bcrypt)) (cookie : Option String) (sess : Session)
    (h : (x.final.requireAdmin opts cookie).2 = some sess) :
    (∃ i, Opened x.final i sess ∧ Granted bcrypt x.history x.final i sess.username) ∧
      ∀ events t later, Leads (accountSystem opts bcrypt) (NotGiven sess.id) x.final events t →
        (t.requireAuth opts cookie).2 = some later →
          (t.requireAdmin opts cookie).2 = some later := by
  obtain ⟨found, admin⟩ := Accounts.requireAdmin_eq_some.mp h
  obtain ⟨y, sent, stored, _, rfl⟩ := Manager.sessionFromRequest_some found
  refine ⟨(traceable x.run).sessions y.id y stored admin, fun events t later leads accepted => ?_⟩
  have start : Privileged y.id x.final := fun z hz => by
    obtain rfl := Option.some.inj (stored.symm.trans hz)
    exact admin
  have kept : Privileged y.id t := leads.keeps Privileged.next start
  obtain ⟨z, sent', stored', _, rfl⟩ := Manager.sessionFromRequest_some accepted
  obtain same : y.id = z.id := Option.some.inj (sent.symm.trans sent')
  exact Accounts.requireAdmin_eq_some.mpr ⟨accepted, kept z (same ▸ stored')⟩

/-- A configuration with one administrator, whose hash is the password. -/
def oneAdmin : Settings :=
  let cfg := { Config.default "data" "vm/win10.qcow2" with users := [⟨"admin", "password", true⟩] }
  ⟨cfg, cfg.vm, cfg, "config.yaml"⟩

/-- The administrator logs in and then takes the admin flag from their own user. -/
def demotion : List AccountEvent :=
  [.login "10.0.0.1" "admin" "password", .check 0, .compare 0, .record 0 (.ok sampleID),
    .request (.addUser (some ⟨"admin", "password", false⟩)) (some "token"),
    .act 0 ⟨.onASCII, false, fun _ => true, fun _ => true, fun _ => none, .ok, {}, none⟩]

/-- The session opened before the demotion still passes `requireAdmin`. -/
theorem demoted_admin_passes :
    ∃ (x : Execution (accountSystem defaultOptions (· = ·))) (sess : Session) (u : User),
      (x.final.requireAdmin defaultOptions (some "token")).2 = some sess ∧
        x.final.settings.cfg.findUser sess.username = some u ∧ u.admin = false := by
  obtain ⟨x, hx, _⟩ := Execution.of_exec (M := accountSystem defaultOptions (· = ·))
    ⟨0, oneAdmin, rfl⟩ (rfl : exec (accountSystem defaultOptions (· = ·)) _ demotion = some _)
  exact ⟨x, ⟨"token", "admin", true, 0, 0, "10.0.0.1"⟩, ⟨"admin", "password", false⟩, hx ▸ rfl,
    hx ▸ rfl, rfl⟩

/-- The login of a session is the one the right comes from, and the right outlasts the
demotion. -/
theorem admin_since_login_demoted :
    ∃ (x : Execution (accountSystem defaultOptions (· = ·))) (t : Accounts) (sess : Session),
      (∃ i, Opened x.final i sess ∧ Granted (· = ·) x.history x.final i sess.username) ∧
        (t.settings.cfg.findUser sess.username).map User.admin = some false ∧
          (t.requireAdmin defaultOptions (some "token")).2 = some sess := by
  obtain ⟨x, hx, _⟩ := Execution.of_exec (M := accountSystem defaultOptions (· = ·))
    ⟨0, oneAdmin, rfl⟩
    (rfl : exec (accountSystem defaultOptions (· = ·)) _ (demotion.take 4) = some _)
  obtain ⟨granted, lasts⟩ := admin_since_login x (some "token")
    ⟨"token", "admin", true, 0, 0, "10.0.0.1"⟩ (hx ▸ rfl)
  obtain ⟨t, leads, accepted, demoted⟩ :
      ∃ t, Leads (accountSystem defaultOptions (· = ·)) (NotGiven "token") x.final
        (demotion.drop 4) t ∧
          (t.requireAuth defaultOptions (some "token")).2 =
            some ⟨"token", "admin", true, 0, 0, "10.0.0.1"⟩ ∧
          (t.settings.cfg.findUser "admin").map User.admin = some false := by
    rw [hx]
    refine ⟨_, Leads.of_forall rfl ?_, rfl, rfl⟩
    simp [demotion, NotGiven]
  exact ⟨x, t, _, granted, demoted, lasts _ _ _ leads accepted⟩

end VmServer.HttpServer
