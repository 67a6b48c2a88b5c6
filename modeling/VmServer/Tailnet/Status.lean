import VmServer.Library.Utf8
import VmServer.Tailnet.Manager

/-!
# What the tailnet manager reports

The fields that `Status` shows are written by `Start` and `Stop` and, while a
run goes on, by the login poll, by `listenTailnet`, when the node is ready,
and when the run has failed. Each of them is written under the mutex; between
two such writes of a run any other call or run may come.

## Implementation notes

The calls move as in `Nodes`, and a run closes its done channel at its end.
What the Tailscale node answers comes with the events. The text of an error
that is cut off inside a rune is held as the JSON encoding shows it. The
fields `srv` and `httpSrv`, which nothing reads, are left out.
-/

namespace VmServer.Tailnet

open Config TransitionSystem

inductive State
  | disabled | starting | needsLogin | running | error | stopped
  deriving DecidableEq, Repr

/-- The fields of the manager that `Status` shows, apart from its configuration. -/
structure Report where
  state : State := .disabled
  url : String := ""
  authURL : String := ""
  ip : String := ""
  err : Option String := none
  note : String := ""
  deriving DecidableEq, Repr

structure Status where
  state : State
  url : String
  authURL : String
  funnel : Bool
  hostname : String
  ip : String
  error : String
  note : String
  deriving DecidableEq, Repr

def loginNote : String := "Open the link, sign in to Tailscale and approve this machine."

def selfSignedNote : String :=
  "Tailnet HTTPS certificates are off (Admin console > DNS > HTTPS Certificates); " ++
    "using the self-signed certificate."

/-- The first so many bytes of a text; what is left of a rune is shown as replacement
characters. -/
def takeBytes (k : Nat) (s : String) : String :=
  String.ofList ((Utf8.runes ((Utf8.encode s.toList).take k)).map Utf8.Rune.value)

/-- The first line of an error, of at most 240 bytes, with a full stop. -/
def shortErr (e : String) : String :=
  let line := e.toList.takeWhile (· ≠ '\n')
  let s := if line = [] then e else String.ofList line
  let s := if 240 < s.utf8ByteSize then takeBytes 240 s ++ "…" else s
  if s.toList.getLast? = some '.' then s else s ++ "."

def funnelNote (e : String) : String :=
  "Funnel unavailable: " ++ shortErr e ++ " Serving on the tailnet only."

namespace Report

/-- The critical section of `Start` after its `Stop`. -/
def begin (cfg : Tailscale) : Report :=
  { state := if cfg.enabled then .starting else .disabled }

/-- The last critical section of `Stop`. -/
def stopped (r : Report) : Report :=
  { r with state := if r.state ≠ .disabled then .stopped else r.state, url := "", authURL := "" }

end Report

/-- What a run serves on. -/
inductive Listener
  | funnel
  /-- On the tailnet, with a certificate that Tailscale has issued. -/
  | tls
  /-- On the tailnet, without a certificate. -/
  | plain
  | selfSigned
  deriving DecidableEq, Repr

structure Address where
  url : String
  ip : String
  deriving DecidableEq, Repr

def trimSuffix (s : String) (suffix : Char) : String :=
  if s.toList.getLast? = some suffix then String.ofList s.toList.dropLast else s

def address (dnsName ip : String) : Address where
  url := if trimSuffix dnsName '.' = "" then "https://" ++ ip
    else "https://" ++ trimSuffix dnsName '.'
  ip := ip

/-- Where the goroutine of a run is. A `note` is the local variable of `run`. -/
inductive RunPhase
  | starting
  | connecting
  | polling
  /-- In front of the write that shows the login link. -/
  | login (authURL : String)
  | reading
  | funnelling (addr : Address)
  | listenTailnet (addr : Address) (note : String)
  | certified (addr : Address) (note : String)
  | uncertified (addr : Address) (note : String)
  /-- In front of the write of `listenTailnet`. -/
  | noting (addr : Address) (note : String)
  /-- In front of the write that makes the manager running. -/
  | ready (addr : Address) (note : String) (ln : Listener)
  | serving
  | returned (err : Option String)
  /-- In front of the write of the error. -/
  | failing (err : String)
  | closing
  | closed
  deriving DecidableEq, Repr

/-- What a step of a run meets. -/
inductive RunEvent
  | start (err : Option String)
  | client (err : Option String)
  /-- The context is done while the login is awaited. -/
  | done
  | up (err : Option String)
  /-- A tick of the login poll: the state of the backend and the login link, if it answers. -/
  | tick (answer : Option (String × String))
  | status (answer : Except String (String × String))
  | funnel (err : Option String)
  | certDomains (any : Bool)
  | listen (err : Option String)
  | served (err : Option String)
  /-- A step that depends on nothing outside. -/
  | go

/-- What the step out of a phase writes to the report. -/
def RunPhase.write (rep : Report) : RunPhase → Report
  | .login authURL => { rep with state := .needsLogin, authURL, note := loginNote }
  | .noting _ _ => { rep with note := selfSignedNote }
  | .ready addr note _ =>
      { rep with state := .running, url := addr.url, authURL := "", ip := addr.ip, note }
  | .failing e => { rep with state := .error, err := some e }
  | _ => rep

/-- Where a run goes on, or returns the error with its context in front. -/
def RunPhase.orReturn (err : Option String) (context : String) (next : RunPhase) : RunPhase :=
  match err with
  | none => next
  | some e => .returned (some (context ++ e))

/-- The phase after a step of the run. -/
def RunPhase.advance (selfSigned : Bool) (r : Run) : RunPhase → RunEvent → Option RunPhase
  | .starting, .start err => some (orReturn err "start tailscale node: " .connecting)
  | .connecting, .client err => some (orReturn err "" .polling)
  | .polling, .done => if r.cancelled then some (.returned (some "context canceled")) else none
  | .polling, .up err => some (orReturn err "tailscale login: " .reading)
  | .polling, .tick answer =>
      match answer with
      | none => some .polling
      | some (backend, authURL) =>
          some (if backend = "NeedsLogin" ∧ authURL ≠ "" then .login authURL else .polling)
  | .login _, .go => some .polling
  | .reading, .status answer =>
      match answer with
      | .error e => some (.returned (some e))
      | .ok (dnsName, ip) =>
          some (if r.cfg.funnel then .funnelling (address dnsName ip)
            else .listenTailnet (address dnsName ip) "")
  | .funnelling addr, .funnel err =>
      match err with
      | none => some (.ready addr "" .funnel)
      | some e => some (.listenTailnet addr (funnelNote e))
  | .listenTailnet addr note, .certDomains any =>
      some (if any then .certified addr note else .uncertified addr note)
  | .certified addr note, .listen err =>
      some (orReturn err "tailscale listen: " (.ready addr note .tls))
  | .uncertified addr note, .listen err =>
      some (orReturn err "tailscale listen: "
        (if selfSigned then .noting addr note else .ready addr note .plain))
  | .noting addr note, .go => some (.ready addr note .selfSigned)
  | .ready _ _ _, .go => some .serving
  | .serving, .served err => some (.returned err)
  | .returned err, .go =>
      match err with
      | none => some .closing
      | some e => some (if r.cancelled then .closing else .failing e)
  | .failing _, .go => some .closing
  | .closing, .go => some .closed
  | _, _ => none

/-- The manager with all its runs and calls, and what it reports. -/
structure Station where
  nodes : Nodes
  /-- The server has a self-signed certificate. -/
  selfSigned : Bool
  report : Report := {}
  /-- Where the runs are, by their numbers. -/
  phases : List RunPhase := []
  deriving DecidableEq

inductive StationEvent
  | start (cfg : Tailscale)
  | stop
  /-- The next step of a call. -/
  | call (k : Nat)
  | run (i : Nat) (e : RunEvent)

namespace Station

def status (s : Station) : Status where
  state := s.report.state
  url := if s.report.state = .running then s.report.url else ""
  authURL := if s.report.state = .needsLogin then s.report.authURL else ""
  funnel := s.nodes.manager.cfg.funnel
  hostname := s.nodes.manager.cfg.hostname
  ip := if s.report.state = .running then s.report.ip else ""
  error := s.report.err.getD ""
  note := s.report.note

/-- What a step of a call does to the report and to the runs. -/
def called (s : Station) : CallPhase → Station
  | .marking _ => { s with report := s.report.stopped }
  | .resuming cfg =>
      { s with report := Report.begin cfg
               phases := if cfg.enabled then s.phases ++ [.starting] else s.phases }
  | _ => s

def callStep (s : Station) (k : Nat) (phase : CallPhase) : Option Station :=
  (s.nodes.callStep k phase).map fun nodes => { s.called phase with nodes }

/-- Number `i` takes the step from one phase to another. -/
def runStep (s : Station) (i : Nat) (phase next : RunPhase) : Station :=
  { s with
    report := phase.write s.report
    phases := s.phases.set i next
    nodes :=
      if next = .closed then
        { s.nodes with runs := s.nodes.runs.modify i fun r => { r with closed := true } }
      else s.nodes }

def next (s : Station) : StationEvent → Option Station
  | .start cfg => (s.nodes.next (.start cfg)).map fun nodes => { s with nodes }
  | .stop => (s.nodes.next .stop).map fun nodes => { s with nodes }
  | .call k => s.nodes.calls[k]?.bind (s.callStep k)
  | .run i e =>
      s.nodes.runs[i]?.bind fun r => s.phases[i]?.bind fun p =>
        (p.advance s.selfSigned r e).map (s.runStep i p)

end Station

/-- Any number of concurrent calls, and of runs, from `NewManager` on. -/
def stationSystem : System Station StationEvent where
  initial := {s | ∃ cfg selfSigned, s = { nodes := { manager := { cfg } }, selfSigned }}
  next := Station.next

/-- A step is one of the calls and runs without their report, or none of these. -/
theorem Station.next_nodes {s t : Station} {e : StationEvent} (h : s.next e = some t) :
    t.nodes = s.nodes ∨ ∃ d, s.nodes.next d = some t.nodes := by
  cases e with
  | start cfg =>
      obtain rfl := Option.some.inj h
      exact .inr ⟨.start cfg, rfl⟩
  | stop =>
      obtain rfl := Option.some.inj h
      exact .inr ⟨.stop, rfl⟩
  | call k =>
      obtain ⟨phase, found, h⟩ := Option.bind_eq_some_iff.mp h
      obtain ⟨nodes, next, rfl⟩ := Option.map_eq_some_iff.mp h
      exact .inr ⟨.call k, Option.bind_eq_some_iff.mpr ⟨phase, found, next⟩⟩
  | run i step =>
      obtain ⟨r, _, h⟩ := Option.bind_eq_some_iff.mp h
      obtain ⟨p, _, h⟩ := Option.bind_eq_some_iff.mp h
      obtain ⟨next, _, rfl⟩ := Option.map_eq_some_iff.mp h
      by_cases ended : next = .closed
      · exact .inr ⟨.close i, congrArg some (if_pos ended).symm⟩
      · exact .inl (if_neg ended)

/-- The calls and runs of a station are those of a run of `tailnetSystem`. -/
theorem nodes_run (x : Execution stationSystem) :
    ∃ hist, TransitionSystem.Run tailnetSystem hist x.final.nodes := by
  refine x.run.projects (f := Station.nodes) ?_ Station.next_nodes
  rintro s ⟨cfg, selfSigned, rfl⟩
  exact ⟨cfg, rfl⟩

end VmServer.Tailnet
