import VmServer.Auth.LoginRace
import VmServer.HttpServer.Settings

/-!
# Logins, sessions and the user list together

A login looks the user up in the configuration and later creates a session
that carries a copy of the admin flag. `requireAuth` and `requireAdmin` look
at that copy; the handlers behind them change the user list.

## Implementation notes

A request that passes its guard acts later, in the critical section of its
handler, with what the rest of the host answers there. `bcrypt` is a
parameter. Requests that leave the user list alone are requests for `other`.
-/

namespace VmServer.HttpServer

open Auth Config TransitionSystem

/-- The requests that concern the user list, behind their guards. -/
inductive AccountRoute
  | addUser (body : Option UserBody)
  | changePassword (password : Option String)
  /-- Any other request that only administrators may make. -/
  | other
  deriving DecidableEq

/-- What an admitted request still has to do. -/
inductive AccountJob
  | addUser (body : Option UserBody)
  | changePassword (username : String) (password : Option String)
  | done

structure Accounts where
  clock : Int
  auth : Manager
  settings : Settings
  calls : List Auth.Call
  jobs : List AccountJob

inductive AccountEvent
  | advance (d : Nat)
  | login (ip username password : String)
  /-- The first critical section of a `Login` call. -/
  | check (i : Nat)
  /-- The lookup of the user and the password comparison. -/
  | compare (i : Nat)
  /-- The second critical section of a `Login` call. -/
  | record (i : Nat) (random : Except String SessionID)
  | request (route : AccountRoute) (cookie : Option String)
  /-- The critical section of an admitted request. -/
  | act (k : Nat) (a : Answers)
  | touch (id : String)
  | logout (cookie : Option String)
  | reap (now : Int)

/-- The store `Login` looks users up in, with `bcrypt` to compare passwords. -/
def credentials (cfg : Config) (bcrypt : String → String → Bool) : Credentials where
  lookup := fun username => (cfg.findUser username).map fun u => (u.passwordHash, u.admin)
  compare := bcrypt

namespace Accounts

variable (opts : Options) (bcrypt : String → String → Bool)

/-- `requireAuth`: the manager after the request was looked at, and its session. -/
def requireAuth (s : Accounts) (cookie : Option String) : Manager × Option Session :=
  s.auth.sessionFromRequest opts cookie s.clock

/-- `requireAdmin` asks the session for its admin flag. -/
def requireAdmin (s : Accounts) (cookie : Option String) : Manager × Option Session :=
  match s.requireAuth opts cookie with
  | (auth, none) => (auth, none)
  | (auth, some sess) => (auth, if sess.admin then some sess else none)

/-- The call goes on to another phase. -/
def move (s : Accounts) (i : Nat) (c : Auth.Call) (phase : CallPhase) : Accounts :=
  { s with calls := s.calls.set i { c with phase } }

def check (s : Accounts) (i : Nat) (c : Auth.Call) : Option Accounts :=
  match c.phase, s.auth.lockedOut opts c.ip c.start with
  | .called, (auth, true) => some ({ s with auth }.move i c (.finished (.error .lockedOut)))
  | .called, (auth, false) => some ({ s with auth }.move i c .allowed)
  | _, _ => none

def compare (s : Accounts) (i : Nat) (c : Auth.Call) : Option Accounts :=
  match c.phase with
  | .allowed =>
      some (s.move i c (.compared
        (Manager.credentialsOK (credentials s.settings.cfg bcrypt) c.username c.password)))
  | _ => none

def record (s : Accounts) (i : Nat) (c : Auth.Call) (random : Except String SessionID) :
    Option Accounts :=
  match c.phase with
  | .compared ok =>
      let r := s.auth.record opts c.ip c.start c.username ok random
      some ({ s with auth := r.1 }.move i c (.finished r.2))
  | _ => none

/-- Only `apiChangePassword` is open to everyone who is logged in. -/
def request (s : Accounts) (route : AccountRoute) (cookie : Option String) : Accounts :=
  match route with
  | .addUser body =>
      match s.requireAdmin opts cookie with
      | (auth, some _) => { s with auth, jobs := s.jobs ++ [.addUser body] }
      | (auth, none) => { s with auth }
  | .changePassword password =>
      match s.requireAuth opts cookie with
      | (auth, some sess) =>
          { s with auth, jobs := s.jobs ++ [.changePassword sess.username password] }
      | (auth, none) => { s with auth }
  | .other => { s with auth := (s.requireAdmin opts cookie).1 }

/-- The handler answers and may have changed the configuration and saved it. -/
def act (s : Accounts) (k : Nat) (a : Answers) : AccountJob → Option Accounts
  | .addUser body =>
      some { s with settings := (s.settings.apiAddUser a body).1, jobs := s.jobs.set k .done }
  | .changePassword username password =>
      some { s with settings := (s.settings.apiChangePassword a username password).1,
                    jobs := s.jobs.set k .done }
  | .done => none

def next (s : Accounts) : AccountEvent → Option Accounts
  | .advance d => some { s with clock := s.clock + d }
  | .login ip username password =>
      some { s with calls := s.calls ++ [⟨ip, s.clock, username, password, .called⟩] }
  | .check i => s.calls[i]?.bind (s.check opts i)
  | .compare i => s.calls[i]?.bind (s.compare bcrypt i)
  | .record i random => s.calls[i]?.bind (s.record opts i · random)
  | .request route cookie => some (s.request opts route cookie)
  | .act k a => s.jobs[k]?.bind (s.act k a)
  | .touch id => some { s with auth := s.auth.touch id s.clock }
  | .logout cookie => some { s with auth := (s.auth.logout opts cookie).1 }
  | .reap now => if now ≤ s.clock then some { s with auth := s.auth.reap opts now } else none

end Accounts

/-- The server from its start on, with any configuration. -/
def accountSystem (opts : Options) (bcrypt : String → String → Bool) :
    System Accounts AccountEvent where
  initial := {s | ∃ clock settings, s = ⟨clock, .new, settings, [], []⟩}
  next := Accounts.next opts bcrypt

end VmServer.HttpServer
