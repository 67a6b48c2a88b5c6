import Mathlib.Data.Finset.Insert
import Mathlib.Logic.Function.Basic

/-!
# Cookie sessions and the login lockout

The manager keeps sessions by cookie value and the times of failed logins by
client address, and does every operation on them under one mutex. `Login`
takes the mutex twice, with the password comparison in between.

## Implementation notes

Times and durations are nanoseconds. The current time is an argument of each
operation, as are the random session id of a login and the client address of
a request. `bcrypt` is a field of the credential store.
-/

namespace VmServer.Auth

/-- The errors `Login` returns, with the one `RandomPassword` may give. -/
inductive LoginError
  | invalidCredentials
  | lockedOut
  | random (text : String)
  deriving DecidableEq, Repr

def LoginError.text : LoginError → String
  | .invalidCredentials => "invalid username or password"
  | .lockedOut => "too many failed attempts, try again later"
  | .random text => text

/-- The user store, and `bcrypt.CompareHashAndPassword` on a hash and a password. -/
structure Credentials where
  lookup : String → Option (String × Bool)
  compare : String → String → Bool

structure Options where
  sessionTTL : Int
  idleTimeout : Int
  maxAttempts : Nat
  attemptWindow : Int
  secure : Bool

/-- What `main` builds from the default configuration. -/
def defaultOptions : Options where
  sessionTTL := 12 * 60 * (60 * 1000000000)
  idleTimeout := 60 * (60 * 1000000000)
  maxAttempts := 8
  attemptWindow := 15 * (60 * 1000000000)
  secure := true

/-- A user store with one administrator, as the bootstrap leaves it. -/
def oneUser : Credentials where
  lookup := fun name => if name = "admin" then some ("hash", true) else none
  compare := fun _ password => password = "secret"

structure Session where
  id : String
  username : String
  admin : Bool
  createdAt : Int
  lastSeen : Int
  remoteIP : String
  deriving DecidableEq, Repr

/-- A session id: 32 random bytes in base64, never empty. -/
abbrev SessionID := {id : String // id ≠ ""}

/-- A session id for runs on fixed inputs. -/
def sampleID : SessionID := ⟨"token", by decide⟩

/-- The two maps of the manager. Every session is stored under its own id. -/
structure Manager where
  sessions : String → Option Session
  attempts : String → Option (List Int)
  keyed : ∀ {id s}, sessions id = some s → s.id = id ∧ id ≠ ""

/-- The fields of the cookies the manager sets that depend on its state. -/
structure Cookie where
  value : String
  secure : Bool
  maxAge : Int
  deriving DecidableEq, Repr

namespace Manager

variable (opts : Options)

def new : Manager where
  sessions := fun _ => none
  attempts := fun _ => none
  keyed := by simp

/-- The recorded failures of an address. -/
def failuresOf (m : Manager) (ip : String) : List Int := (m.attempts ip).getD []

/-- `m.sessions[s.ID] = s`. -/
def add (m : Manager) (s : Session) (h : s.id ≠ "") : Manager where
  sessions := Function.update m.sessions s.id (some s)
  attempts := m.attempts
  keyed := by
    intro key x found
    by_cases same : key = s.id
    · subst same
      rw [Function.update_self] at found
      exact Option.some.inj found ▸ ⟨rfl, h⟩
    · rw [Function.update_of_ne same] at found
      exact m.keyed found

/-- `delete(m.sessions, id)`. -/
def drop (m : Manager) (id : String) : Manager where
  sessions := Function.update m.sessions id none
  attempts := m.attempts
  keyed := by
    intro key x found
    by_cases same : key = id
    · simp [same] at found
    · rw [Function.update_of_ne same] at found
      exact m.keyed found

/-- `s.LastSeen = now` for the session stored under `id`. -/
def see (m : Manager) (id : String) (now : Int) : Manager where
  sessions := Function.update m.sessions id
    ((m.sessions id).map fun s => { s with lastSeen := now })
  attempts := m.attempts
  keyed := by
    intro key x found
    by_cases same : key = id
    · subst same
      rw [Function.update_self, Option.map_eq_some_iff] at found
      obtain ⟨s, hs, rfl⟩ := found
      exact m.keyed (s := s) hs
    · rw [Function.update_of_ne same] at found
      exact m.keyed found

/-- Replaces the failures recorded for one address. -/
def setAttempts (m : Manager) (ip : String) (times : Option (List Int)) : Manager :=
  { m with attempts := Function.update m.attempts ip times }

/-- Forgets the failures outside the window and counts the others. -/
def lockedOut (m : Manager) (ip : String) (now : Int) : Manager × Bool :=
  let window := now - opts.attemptWindow
  let kept := (m.failuresOf ip).filter (window < ·)
  (m.setAttempts ip (some kept), opts.maxAttempts ≤ kept.length)

/-- The password comparison of `Login`, done without the mutex: the admin flag of the user, or
nothing. For an unknown user a dummy hash is compared and the result ignored. -/
def credentialsOK (creds : Credentials) (username password : String) : Option Bool :=
  match creds.lookup username with
  | none => none
  | some (hash, admin) => if creds.compare hash password then some admin else none

/-- The session `Login` creates for a call that started at `now`. -/
def newSession (id : SessionID) (ip : String) (now : Int) (username : String) (admin : Bool) :
    Session :=
  { id := id.val, username, admin, createdAt := now, lastSeen := now, remoteIP := ip }

/-- The second critical section of `Login`, for a call that started at `now`. -/
def record (m : Manager) (ip : String) (now : Int) (username : String) (ok : Option Bool)
    (random : Except String SessionID) : Manager × Except LoginError (Session × Cookie) :=
  match ok with
  | none => (m.setAttempts ip (some (m.failuresOf ip ++ [now])), .error .invalidCredentials)
  | some admin =>
      let m := m.setAttempts ip none
      match random with
      | .error text => (m, .error (.random text))
      | .ok id =>
          let s := newSession id ip now username admin
          (m.add s id.property,
            .ok (s, { value := id.val, secure := opts.secure,
                      maxAge := opts.sessionTTL.tdiv 1000000000 }))

/-- `Login` without any other call in between. -/
def login (creds : Credentials) (m : Manager) (ip : String) (now : Int)
    (username password : String) (random : Except String SessionID) :
    Manager × Except LoginError (Session × Cookie) :=
  match m.lockedOut opts ip now with
  | (m, true) => (m, .error .lockedOut)
  | (m, false) => m.record opts ip now username (credentialsOK creds username password) random

/-- `Logout` deletes the session of the cookie, if there is one, and clears the cookie. -/
def logout (m : Manager) (cookie : Option String) : Manager × Cookie :=
  let cleared := { value := "", secure := opts.secure, maxAge := -1 }
  match cookie with
  | none => (m, cleared)
  | some id => (m.drop id, cleared)

/-- The test shared by `SessionFromRequest` and the reaper. -/
def expired (s : Session) (now : Int) : Bool :=
  now - s.createdAt > opts.sessionTTL || now - s.lastSeen > opts.idleTimeout

/-- The live session of a request by its cookie, now marked as seen. -/
def sessionFromRequest (m : Manager) (cookie : Option String) (now : Int) :
    Manager × Option Session :=
  match cookie with
  | none => (m, none)
  | some id =>
      if id = "" then (m, none)
      else
        match m.sessions id with
        | none => (m, none)
        | some s =>
            if expired opts s now then (m.drop id, none)
            else if s.id ≠ id then (m, none)
            else (m.see id now, some { s with lastSeen := now })

def valid (m : Manager) (id : String) (now : Int) : Bool :=
  match m.sessions id with
  | none => false
  | some s => now - s.createdAt ≤ opts.sessionTTL && now - s.lastSeen ≤ opts.idleTimeout

def touch (m : Manager) (id : String) (now : Int) : Manager :=
  match m.sessions id with
  | none => m
  | some _ => m.see id now

/-- One tick of the reaper. -/
def reap (m : Manager) (now : Int) : Manager where
  sessions := fun id => (m.sessions id).filter fun s => !expired opts s now
  attempts := fun ip =>
    match m.attempts ip with
    | none => none
    | some times =>
        let kept := times.filter (now - opts.attemptWindow < ·)
        if ¬ opts.maxAttempts ≤ kept.length ∧ kept.length = 0 then none else some kept
  keyed := fun found => m.keyed (Option.filter_eq_some_iff.mp found).1

variable {opts} {m : Manager} {id ip username password : String} {now : Int}

@[simp] theorem drop_sessions : (m.drop id).sessions = Function.update m.sessions id none := rfl

@[simp] theorem see_sessions : (m.see id now).sessions = Function.update m.sessions id
    ((m.sessions id).map fun s => { s with lastSeen := now }) := rfl

theorem valid_iff :
    m.valid opts id now ↔
      ∃ s ∈ m.sessions id, now - s.createdAt ≤ opts.sessionTTL ∧
        now - s.lastSeen ≤ opts.idleTimeout := by
  unfold valid
  cases m.sessions id <;> simp

theorem expired_eq_false {s : Session} :
    expired opts s now = false ↔
      now - s.createdAt ≤ opts.sessionTTL ∧ now - s.lastSeen ≤ opts.idleTimeout := by
  simp only [expired, Bool.or_eq_false_iff, decide_eq_false_iff_not]
  omega

/-- A login changes the sessions only when it succeeds, by the session it returns. -/
theorem record_sessions {ok : Option Bool} {random : Except String SessionID} {m' : Manager}
    {result : Except LoginError (Session × Cookie)}
    (h : m.record opts ip now username ok random = (m', result)) :
    (∃ e, result = .error e ∧ m'.sessions = m.sessions) ∨
      ∃ s cookie, result = .ok (s, cookie) ∧ s.createdAt = now ∧ s.lastSeen = now ∧
        m'.sessions = Function.update m.sessions s.id (some s) := by
  unfold record at h
  split at h
  · obtain ⟨rfl, rfl⟩ := Prod.mk.inj h
    exact Or.inl ⟨_, rfl, rfl⟩
  · dsimp only at h
    split at h
    · obtain ⟨rfl, rfl⟩ := Prod.mk.inj h
      exact Or.inl ⟨_, rfl, rfl⟩
    · obtain ⟨rfl, rfl⟩ := Prod.mk.inj h
      exact Or.inr ⟨_, _, rfl, rfl, rfl, rfl⟩

theorem login_sessions {creds : Credentials} {random : Except String SessionID} {m' : Manager}
    {result : Except LoginError (Session × Cookie)}
    (h : m.login opts creds ip now username password random = (m', result)) :
    (∃ e, result = .error e ∧ m'.sessions = m.sessions) ∨
      ∃ s cookie, result = .ok (s, cookie) ∧ s.createdAt = now ∧ s.lastSeen = now ∧
        m'.sessions = Function.update m.sessions s.id (some s) := by
  unfold login at h
  have same : (m.lockedOut opts ip now).1.sessions = m.sessions := rfl
  split at h
  · rename_i m₁ hlock
    obtain ⟨rfl, rfl⟩ := Prod.mk.inj h
    rw [hlock] at same
    exact Or.inl ⟨_, rfl, same⟩
  · rename_i m₁ hlock
    rw [hlock] at same
    exact same ▸ record_sessions h

@[simp] theorem setAttempts_failuresOf {times : Option (List Int)} :
    (m.setAttempts ip times).failuresOf = Function.update m.failuresOf ip (times.getD []) := by
  funext key
  by_cases same : key = ip
  · subst same
    simp [setAttempts, failuresOf]
  · simp [setAttempts, failuresOf, same]

theorem lockedOut_failuresOf : (m.lockedOut opts ip now).1.failuresOf =
    Function.update m.failuresOf ip
      ((m.failuresOf ip).filter (now - opts.attemptWindow < ·)) :=
  setAttempts_failuresOf

theorem record_failuresOf {ok : Option Bool} {random : Except String SessionID} :
    (m.record opts ip now username ok random).1.failuresOf =
      Function.update m.failuresOf ip (if ok = none then m.failuresOf ip ++ [now] else []) := by
  cases ok with
  | none => exact setAttempts_failuresOf
  | some admin => cases random <;> exact setAttempts_failuresOf

theorem reap_failuresOf : (m.reap opts now).failuresOf ip =
    (m.failuresOf ip).filter (now - opts.attemptWindow < ·) := by
  simp only [reap, failuresOf]
  cases m.attempts ip with
  | none => rfl
  | some times =>
      dsimp only
      split
      · rename_i gone
        exact (List.length_eq_zero_iff.mp gone.2).symm
      · rfl

theorem sessionFromRequest_unknown (h : m.sessions id = none) :
    m.sessionFromRequest opts (some id) now = (m, none) := by
  simp [sessionFromRequest, h]

theorem sessionFromRequest_expired {s : Session} (h : m.sessions id = some s)
    (old : expired opts s now) :
    m.sessionFromRequest opts (some id) now = (m.drop id, none) := by
  simp [sessionFromRequest, (m.keyed h).2, h, old]

theorem sessionFromRequest_live {s : Session} (h : m.sessions id = some s)
    (live : expired opts s now = false) :
    m.sessionFromRequest opts (some id) now =
      (m.see id now, some { s with lastSeen := now }) := by
  simp [sessionFromRequest, (m.keyed h).2, (m.keyed h).1, h, live]

/-- A session that a request gets is the live one stored under its cookie, marked as seen. -/
theorem sessionFromRequest_some {cookie : Option String} {s : Session}
    (h : (m.sessionFromRequest opts cookie now).2 = some s) :
    ∃ x, cookie = some x.id ∧ m.sessions x.id = some x ∧ expired opts x now = false ∧
      s = { x with lastSeen := now } := by
  cases cookie with
  | none => simp [sessionFromRequest] at h
  | some id =>
      cases found : m.sessions id with
      | none => simp [sessionFromRequest_unknown found] at h
      | some x =>
          cases old : expired opts x now with
          | true => simp [sessionFromRequest_expired found old] at h
          | false =>
              rw [sessionFromRequest_live found old] at h
              obtain ⟨rfl, _⟩ := m.keyed found
              exact ⟨x, rfl, found, old, (Option.some.inj h).symm⟩

/-- A cookie value that a session is stored under is never empty. -/
theorem sessionFromRequest_id {cookie : Option String} {s : Session}
    (h : (m.sessionFromRequest opts cookie now).2 = some s) : s.id ≠ "" := by
  obtain ⟨x, _, stored, _, rfl⟩ := sessionFromRequest_some h
  exact (m.keyed stored).2

theorem touch_sessions : (m.touch id now).sessions =
    Function.update m.sessions id ((m.sessions id).map fun s => { s with lastSeen := now }) := by
  unfold touch
  cases h : m.sessions id with
  | none => rw [Option.map_none, Function.update_eq_self_iff.mpr h.symm]
  | some s => rw [see_sessions, h]

theorem reap_sessions_none (h : m.sessions id = none) : (m.reap opts now).sessions id = none := by
  simp [reap, h]

theorem reap_sessions_some {s : Session} (h : m.sessions id = some s) :
    (m.reap opts now).sessions id = if expired opts s now then none else some s := by
  unfold reap
  cases old : expired opts s now <;> simp [h, Option.filter, old]

/-- `SessionFromRequest` accepts a cookie exactly when `Valid` holds of its value. -/
theorem sessionFromRequest_isSome :
    (m.sessionFromRequest opts (some id) now).2.isSome ↔ m.valid opts id now := by
  rw [valid_iff]
  cases h : m.sessions id with
  | none => simp [sessionFromRequest_unknown h]
  | some s =>
      cases old : expired opts s now with
      | true =>
          rw [sessionFromRequest_expired h old]
          apply iff_of_false (by simp)
          rintro ⟨x, hx, alive⟩
          obtain rfl := Option.some.inj hx
          simp [expired_eq_false.mpr alive] at old
      | false =>
          rw [sessionFromRequest_live h old]
          simpa using expired_eq_false.mp old

end Manager

end VmServer.Auth
