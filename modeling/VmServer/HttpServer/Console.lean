import VmServer.Library.TransitionSystem
import VmServer.HttpServer.Controller
import VmServer.Proxy.Bridge

/-!
# Console connections, sessions and the controller seat together

Every request passes `requireAuth` first and acts later, so its session may
have ended or the seat may have moved in between. A `/ws/vnc` request becomes
a connection that acquires the seat or watches, runs a bridge, and gives the
seat back when the bridge has returned.

## Implementation notes

Requests that reach no handler of this model, and connections that fail
before `acquire`, are requests for `other`. The cancel function passed to
`acquire` ends the context of that connection's bridge; nothing else does
while the handler runs. A bridge's ticker asks `Valid` and its traffic calls
`Touch` for the session the connection was opened with.
-/

namespace VmServer.HttpServer

open Auth Proxy TransitionSystem

/-- Where a `/ws/vnc` handler is. -/
inductive ConsolePhase
  | admitted (wantControl : Bool)
  | bridging (b : Bridge)
  | done

/-- A `/ws/vnc` handler with the copy of the session it was admitted with. -/
structure Console where
  session : Session
  phase : ConsolePhase

/-- What an admitted request still has to do. -/
inductive Pending
  | take (sess : Session)
  | release (sess : Session)
  | logoutRelease (sess : Session) (cookie : Option String)
  | logoutDelete (cookie : Option String)
  | done

structure Server where
  clock : Int
  auth : Manager
  control : Controller
  consoles : List Console
  pending : List Pending

/-- The requests that concern the seat. -/
inductive Route
  | vnc (wantControl : Bool)
  | take
  | release
  | other
  deriving DecidableEq, Repr

inductive ServerEvent
  | advance (d : Nat)
  | login (start : Int) (ip username password : String) (random : Except String SessionID)
  /-- A request passes `requireAuth`, or is turned away. -/
  | request (route : Route) (cookie : Option String)
  | logout (cookie : Option String)
  /-- The next step of an admitted request. -/
  | act (k : Nat)
  /-- A `/ws/vnc` handler acquires the seat, or becomes a viewer, and starts its bridge. -/
  | acquire (i : Nat)
  | bridge (i : Nat) (e : BridgeEvent)
  /-- The deferred calls of a handler whose bridge has returned. -/
  | finish (i : Nat)
  | reap (now : Int)

/-- Calling the cancel function of the connection. -/
def Console.cancelled (c : Console) : Console :=
  match c.phase with
  | .bridging b => { c with phase := .bridging { b with callerDone := true } }
  | _ => c

namespace Server

variable (opts : Options) (creds : Credentials)

def cancelConsole (s : Server) (which : Option Nat) : Server :=
  match which with
  | none => s
  | some i => { s with consoles := s.consoles.modify i Console.cancelled }

/-- What the handler behind `requireAuth` starts with. -/
def admitted (s : Server) (sess : Session) : Route → Server
  | .vnc wantControl => { s with consoles := s.consoles ++ [⟨sess, .admitted wantControl⟩] }
  | .take => { s with pending := s.pending ++ [.take sess] }
  | .release => { s with pending := s.pending ++ [.release sess] }
  | .other => s

def request (s : Server) (route : Route) (cookie : Option String) : Server :=
  match s.auth.sessionFromRequest opts cookie s.clock with
  | (auth, none) => { s with auth }
  | (auth, some sess) => { s with auth }.admitted sess route

def logout (s : Server) (cookie : Option String) : Server :=
  match s.auth.sessionFromRequest opts cookie s.clock with
  | (auth, none) => { s with auth, pending := s.pending ++ [.logoutDelete cookie] }
  | (auth, some sess) => { s with auth, pending := s.pending ++ [.logoutRelease sess cookie] }

def act (s : Server) (k : Nat) : Pending → Option Server
  | .take sess =>
      let (control, dropped) := s.control.take sess s.clock
      some ({ s with control, pending := s.pending.set k .done }.cancelConsole dropped)
  | .release sess =>
      some { s with control := s.control.release sess.id, pending := s.pending.set k .done }
  | .logoutRelease sess cookie =>
      some { s with control := s.control.release sess.id,
                    pending := s.pending.set k (.logoutDelete cookie) }
  | .logoutDelete cookie =>
      some { s with auth := (s.auth.logout opts cookie).1, pending := s.pending.set k .done }
  | .done => none

/-- The handler puts its connection into another phase. -/
def setPhase (s : Server) (i : Nat) (c : Console) (phase : ConsolePhase) : Server :=
  { s with consoles := s.consoles.set i { c with phase } }

def acquire (s : Server) (i : Nat) (c : Console) : Option Server :=
  match c.phase with
  | .admitted true =>
      match s.control.acquire c.session s.clock i with
      | (control, dropped, true) =>
          some (({ s with control }.setPhase i c (.bridging { viewOnly := false })).cancelConsole
            dropped)
      | (control, _, false) =>
          some ({ s with control := control.addViewer 1 }.setPhase i c
            (.bridging { viewOnly := true }))
  | .admitted false =>
      some ({ s with control := s.control.addViewer 1 }.setPhase i c
        (.bridging { viewOnly := true }))
  | _ => none

/-- What a step of a bridge asks of the rest of the server. -/
def bridgeEffect (s : Server) (c : Console) : BridgeEvent → Option Server
  | .cancelCaller => none
  | .serverData => some { s with auth := s.auth.touch c.session.id s.clock }
  | .watcherTick valid => if valid = s.auth.valid opts c.session.id s.clock then some s else none
  | _ => some s

def bridge (s : Server) (i : Nat) (e : BridgeEvent) (c : Console) : Option Server :=
  match c.phase with
  | .bridging b => do
      let b ← b.next e
      let s ← s.bridgeEffect opts c e
      return s.setPhase i c (.bridging b)
  | _ => none

def finish (s : Server) (i : Nat) (c : Console) : Option Server :=
  match c.phase with
  | .bridging b =>
      if b.hasReturned then
        let control :=
          if b.viewOnly then s.control.addViewer (-1) else s.control.release c.session.id
        some ({ s with control }.setPhase i c .done)
      else none
  | _ => none

def next (s : Server) : ServerEvent → Option Server
  | .advance d => some { s with clock := s.clock + d }
  | .login start ip username password random =>
      if start ≤ s.clock then
        some { s with auth := (s.auth.login opts creds ip start username password random).1 }
      else none
  | .request route cookie => some (s.request opts route cookie)
  | .logout cookie => some (s.logout opts cookie)
  | .act k => s.pending[k]?.bind (s.act opts k)
  | .acquire i => s.consoles[i]?.bind (s.acquire i)
  | .bridge i e => s.consoles[i]?.bind (s.bridge opts i e)
  | .finish i => s.consoles[i]?.bind (s.finish i)
  | .reap now => if now ≤ s.clock then some { s with auth := s.auth.reap opts now } else none

end Server

/-- The server from its start, with any sessions and connections. -/
def consoleSystem (opts : Options) (creds : Credentials) : System Server ServerEvent where
  initial := {s | ∃ clock, s = ⟨clock, .new, {}, [], []⟩}
  next := Server.next opts creds

end VmServer.HttpServer
