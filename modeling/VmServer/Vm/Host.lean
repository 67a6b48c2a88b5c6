import VmServer.Library.TransitionSystem
import VmServer.Vm.Manager

/-!
# The manager with its processes and goroutines

Every `Start` call, every QEMU process with its `Wait` goroutine, and every
`Shutdown`, `ForceStop` and `Stop` call takes its steps on its own. A step is
one critical section of the manager or one operation between two of them,
with the outcome the outside world gives it.

## Implementation notes

An `exited` channel is closed when the `Wait` goroutine of its process has
ended, that is after `onExit` with its restart. Killing a process has no
effect of its own: a process may exit at any time. A dialled connection and a
successful command need a process that is alive at the other end.
-/

namespace VmServer.Vm

open TransitionSystem

/-- Where the `Wait` goroutine of a process is. -/
inductive Waiter
  | waiting
  | sleeping
  | restarting (t : Nat)
  | handled
  | closed
  deriving DecidableEq, Repr

/-- A QEMU process that was started by `launch`. -/
structure Process where
  exit : Option ExitStatus := none
  waiter : Waiter := .waiting
  deriving DecidableEq, Repr

/-- The checks of `Start` before the first launch. -/
inductive Precondition
  | disk
  | binary
  | qmpPort
  | vncPort
  deriving DecidableEq, Repr

/-- Where a `Start` call is; `i` is the accelerator it is at and `p` the process it launched. -/
inductive StartPc
  | checking (what : Precondition)
  | spawning (i : Nat)
  | selecting (i p : Nat)
  /-- After a failed dial the process was killed and its end is awaited. -/
  | reaping (i p : Nat) (err : StartError)
  | authenticating (i p : Nat) (q : Qmp)
  | publishing (i p : Nat) (q : Qmp) (password : String)
  | noting
  | failing (err : StartError)
  | returned (err : Option StartError)
  deriving DecidableEq, Repr

/-- An admitted `Start` call. -/
structure StartCall where
  accels : List String := []
  pc : StartPc := .checking .disk
  deriving DecidableEq, Repr

inductive StopKind
  | shutdown
  | forceStop
  | stop
  deriving DecidableEq, Repr

/-- Where a `Shutdown`, `ForceStop` or `Stop` call is. -/
inductive StopPc
  /-- `Stop` reads the state. -/
  | checking
  /-- `Shutdown` asks for the QMP client. -/
  | client
  | marking (q : Qmp)
  | executing (q : Qmp)
  /-- `Stop` waits for the guest to power off. -/
  | awaiting
  /-- `ForceStop` enters its critical section. -/
  | forcing
  | killing (exited : Option Nat)
  | killWait (exited : Option Nat)
  | returned (err : Option String) (timedOut : Bool)
  deriving DecidableEq, Repr

/-- A `Shutdown`, `ForceStop` or `Stop` call; `exited` is the channel `Stop` read. -/
structure StopCall where
  kind : StopKind
  exited : Option Nat := none
  pc : StopPc
  deriving DecidableEq, Repr

/-- The manager and all goroutines. `quiet` records that a `Stop` has returned nil without its
kill wait timing out, and that `Start` has not been called from outside since. -/
structure Host where
  cfg : Config
  m : Manager := {}
  procs : List Process := []
  calls : List StartCall := []
  stops : List StopCall := []
  quiet : Bool := false
  deriving DecidableEq, Repr

inductive Event
  | updateConfig (cfg : Config)
  /-- `Start` is called from outside. -/
  | start
  | check (t : Nat) (err : Option String)
  | spawn (t : Nat) (err : Option String)
  /-- `launch` sees its `exited` channel closed. -/
  | sawExit (t : Nat) (tail : String)
  | dialed (t : Nat) (r : Except String Nat)
  | reaped (t : Nat)
  /-- The random password is made and set, or one of the two fails. -/
  | passwordSet (t : Nat) (r : Except StartError String)
  | publish (t : Nat) (now : Int)
  | note (t : Nat)
  | fail (t : Nat)
  | exit (p : Nat) (status : ExitStatus)
  | onExit (p : Nat) (tail : String)
  /-- `onExit` has slept and calls `Start`. -/
  | restart (p : Nat)
  | restarted (p : Nat)
  | close (p : Nat)
  | stopCall (kind : StopKind)
  /-- The next step of such a call; `err` is the outcome of what it calls outside the manager. -/
  | stopStep (j : Nat) (err : Option String)
  | sawClosed (j : Nat)
  | timeout (j : Nat)
  deriving Repr

/-- The process a `Start` call is launching. -/
def StartPc.process : StartPc → Option Nat
  | .selecting _ p => some p
  | .reaping _ p _ => some p
  | .authenticating _ p _ => some p
  | .publishing _ p _ _ => some p
  | _ => none

def StartPc.inProgress : StartPc → Bool
  | .returned _ => false
  | _ => true

/-- The next accelerator, or the error of the last one. -/
def StartCall.afterFailure (c : StartCall) (i : Nat) (err : StartError) : StartPc :=
  if i + 1 < c.accels.length then .spawning (i + 1) else .failing err

namespace Host

variable (goos : String)

def alive (s : Host) (p : Nat) : Bool := (s.procs[p]?).any (·.exit.isNone)

def waiter (s : Host) (p : Nat) : Option Waiter := (s.procs[p]?).map (·.waiter)

/-- Puts a call at another point. -/
def setCall (s : Host) (t : Nat) (c : StartCall) (pc : StartPc) : Host :=
  { s with calls := s.calls.set t { c with pc } }

def setWaiter (s : Host) (p : Nat) (x : Process) (waiter : Waiter) : Host :=
  { s with procs := s.procs.set p { x with waiter } }

def setStop (s : Host) (j : Nat) (x : StopCall) (pc : StopPc) : Host :=
  { s with stops := s.stops.set j { x with pc } }

/-- The error of a failed check. -/
def checkError (cfg : Config) (text : String) : Precondition → StartError
  | .disk => .diskMissing cfg.diskPath
  | .binary => .noBinary text
  | .qmpPort => .portInUse cfg.qmpPort
  | .vncPort => .portInUse cfg.vncPort

def check (s : Host) (t : Nat) (c : StartCall) (err : Option String) : Option Host :=
  match c.pc, err with
  | .checking what, some text => some (s.setCall t c (.failing (checkError s.cfg text what)))
  | .checking .disk, none => some (s.setCall t c (.checking .binary))
  | .checking .binary, none => some (s.setCall t c (.checking .qmpPort))
  | .checking .qmpPort, none => some (s.setCall t c (.checking .vncPort))
  | .checking .vncPort, none =>
      some (s.setCall t { c with accels := accelsOf goos s.cfg } (.spawning 0))
  | _, _ => none

/-- The loop of `Start` after a launch with accelerator `i` has failed. -/
def launchFailed (s : Host) (t : Nat) (c : StartCall) (i : Nat) (err : StartError) : Host :=
  s.setCall t c (c.afterFailure i err)

def spawn (s : Host) (t : Nat) (c : StartCall) (err : Option String) : Option Host :=
  match c.pc, err with
  | .spawning i, some text => some (s.launchFailed t c i (.spawn text))
  | .spawning i, none =>
      some ({ s with procs := s.procs ++ [({} : Process)] }.setCall t c
        (.selecting i s.procs.length))
  | _, _ => none

def sawExit (s : Host) (t : Nat) (c : StartCall) (tail : String) : Option Host :=
  match c.pc with
  | .selecting i p =>
      if s.waiter p = some .closed then some (s.launchFailed t c i (.exitedEarly tail)) else none
  | _ => none

def dialed (s : Host) (t : Nat) (c : StartCall) (r : Except String Nat) : Option Host :=
  match c.pc, r with
  | .selecting i p, .ok peer =>
      if s.alive peer then some (s.setCall t c (.authenticating i p ⟨peer⟩)) else none
  | .selecting i p, .error text => some (s.setCall t c (.reaping i p (.dial text)))
  | _, _ => none

def reaped (s : Host) (t : Nat) (c : StartCall) : Option Host :=
  match c.pc with
  | .reaping i p err =>
      if s.waiter p = some .closed then some (s.launchFailed t c i err) else none
  | _ => none

def passwordSet (s : Host) (t : Nat) (c : StartCall) (r : Except StartError String) :
    Option Host :=
  match c.pc, r with
  | .authenticating i p q, .ok password =>
      if s.alive q.peer then some (s.setCall t c (.publishing i p q password)) else none
  | .authenticating i _ _, .error err => some (s.launchFailed t c i err)
  | _, _ => none

def publish (s : Host) (t : Nat) (c : StartCall) (now : Int) : Option Host :=
  match c.pc with
  | .publishing i p q password =>
      some ({ s with m := s.m.publish p q password (c.accels.getD i "") now }.setCall t c
        (if 0 < i then .noting else .returned none))
  | _ => none

def note (s : Host) (t : Nat) (c : StartCall) : Option Host :=
  match c.pc with
  | .noting => some ({ s with m := s.m.note c.accels }.setCall t c (.returned none))
  | _ => none

def fail (s : Host) (t : Nat) (c : StartCall) : Option Host :=
  match c.pc with
  | .failing err => some ({ s with m := s.m.fail err.text }.setCall t c (.returned (some err)))
  | _ => none

def exit (s : Host) (p : Nat) (x : Process) (status : ExitStatus) : Option Host :=
  match x.exit with
  | none => some { s with procs := s.procs.set p { x with exit := some status } }
  | some _ => none

def onExit (s : Host) (p : Nat) (x : Process) (tail : String) : Option Host :=
  match x.exit, x.waiter with
  | some status, .waiting =>
      let r := s.m.onExit s.cfg p status tail
      some ({ s with m := r.1 }.setWaiter p x (if r.2 then .sleeping else .handled))
  | _, _ => none

def restart (s : Host) (p : Nat) (x : Process) : Option Host :=
  match x.waiter, s.m.startEnter with
  | .sleeping, some m =>
      some ({ s with m, calls := s.calls ++ [({} : StartCall)] }.setWaiter p x
        (.restarting s.calls.length))
  | .sleeping, none => some (s.setWaiter p x .handled)
  | _, _ => none

def restarted (s : Host) (p : Nat) (x : Process) : Option Host :=
  match x.waiter with
  | .restarting t =>
      if (s.calls[t]?).any (fun c => !c.pc.inProgress) then some (s.setWaiter p x .handled)
      else none
  | _ => none

def close (s : Host) (p : Nat) (x : Process) : Option Host :=
  match x.waiter with
  | .handled => some (s.setWaiter p x .closed)
  | _ => none

/-- The first step of a call by its kind. -/
def firstStep : StopKind → StopPc
  | .shutdown => .client
  | .forceStop => .forcing
  | .stop => .checking

/-- The call returns. -/
def returnStop (s : Host) (j : Nat) (x : StopCall) (err : Option String) (timedOut : Bool) : Host :=
  { s with
    quiet := s.quiet || decide (x.kind = StopKind.stop ∧ err = none ∧ timedOut = false) }.setStop j x
    (.returned err timedOut)

/-- `Shutdown` returns, either to its caller or to the `Stop` it is part of. -/
def shutdownDone (s : Host) (j : Nat) (x : StopCall) (err : Option String) : Host :=
  match x.kind, err with
  | .stop, none => s.setStop j x .awaiting
  | .stop, some _ => s.setStop j x .forcing
  | _, _ => s.returnStop j x err false

def stopStep (s : Host) (j : Nat) (x : StopCall) (err : Option String) : Option Host :=
  match x.pc with
  | .checking =>
      if s.m.state = .running then some (s.setStop j { x with exited := s.m.exited } .client)
      else some (s.returnStop j x none false)
  | .client =>
      match s.m.qmpClient with
      | some q => some (s.setStop j x (.marking q))
      | none => some (s.shutdownDone j x (some errNotRunning))
  | .marking q => some ({ s with m := s.m.markStopping }.setStop j x (.executing q))
  | .executing q =>
      if err = none ∧ s.alive q.peer = false then none else some (s.shutdownDone j x err)
  | .forcing =>
      match s.m.cmd with
      | none => some (s.returnStop j x (some errNotRunning) false)
      | some _ => some ({ s with m := s.m.markStopping }.setStop j x (.killing s.m.exited))
  | .killing exited =>
      match err with
      | some text => some (s.returnStop j x (some text) false)
      | none => some (s.setStop j x (.killWait exited))
  | _ => none

/-- The call finds the channel it waits for closed. -/
def sawClosed (s : Host) (j : Nat) (x : StopCall) : Option Host :=
  let closed := fun channel : Option Nat => channel.bind s.waiter = some .closed
  match x.pc with
  | .awaiting => if closed x.exited then some (s.returnStop j x none false) else none
  | .killWait exited => if closed exited then some (s.returnStop j x none false) else none
  | _ => none

def timeout (s : Host) (j : Nat) (x : StopCall) : Option Host :=
  match x.pc with
  | .awaiting => some (s.setStop j x .forcing)
  | .killWait _ => some (s.returnStop j x none true)
  | _ => none

def start (s : Host) : Host :=
  match s.m.startEnter with
  | none => s
  | some m => { s with m, calls := s.calls ++ [({} : StartCall)], quiet := false }

def next (s : Host) : Event → Option Host
  | .updateConfig cfg => some { s with cfg }
  | .start => some s.start
  | .check t err => s.calls[t]?.bind (s.check goos t · err)
  | .spawn t err => s.calls[t]?.bind (s.spawn t · err)
  | .sawExit t tail => s.calls[t]?.bind (s.sawExit t · tail)
  | .dialed t r => s.calls[t]?.bind (s.dialed t · r)
  | .reaped t => s.calls[t]?.bind (s.reaped t)
  | .passwordSet t r => s.calls[t]?.bind (s.passwordSet t · r)
  | .publish t now => s.calls[t]?.bind (s.publish t · now)
  | .note t => s.calls[t]?.bind (s.note t)
  | .fail t => s.calls[t]?.bind (s.fail t)
  | .exit p status => s.procs[p]?.bind (s.exit p · status)
  | .onExit p tail => s.procs[p]?.bind (s.onExit p · tail)
  | .restart p => s.procs[p]?.bind (s.restart p)
  | .restarted p => s.procs[p]?.bind (s.restarted p)
  | .close p => s.procs[p]?.bind (s.close p)
  | .stopCall kind => some { s with stops := s.stops ++ [{ kind, pc := firstStep kind }] }
  | .stopStep j err => s.stops[j]?.bind (s.stopStep j · err)
  | .sawClosed j => s.stops[j]?.bind (s.sawClosed j)
  | .timeout j => s.stops[j]?.bind (s.timeout j)

end Host

/-- The manager from its creation on, under every interleaving. -/
def hostSystem (goos : String) : System Host Event where
  initial := {s | ∃ cfg, s = { cfg }}
  next := Host.next goos

/-! ## Events of the runs below -/

/-- A `Start` call whose checks all pass. -/
def checked (t : Nat) : List Event := List.replicate 4 (.check t none)

/-- The first `Start` succeeds with its first accelerator. -/
def boot : List Event :=
  .start :: checked 0 ++
    [.spawn 0 none, .dialed 0 (.ok 0), .passwordSet 0 (.ok "secret"), .publish 0 0]

def sampleConfig : Config :=
  { diskPath := "windows.qcow2", vncPort := 5901, qmpPort := 4444, accel := "auto",
    restartOnCrash := true }

end VmServer.Vm
