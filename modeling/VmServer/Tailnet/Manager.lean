import VmServer.Library.TransitionSystem
import VmServer.Config.Sections

/-!
# The tailnet manager under concurrent calls

`Start` is `Stop` followed by a critical section of its own. Any number of
calls may be in progress: every saved Tailscale setting starts the node in a
goroutine of its own.

## Implementation notes

A run is known by its number, which also names its context, its cancel
function and its done channel. `Stop` calls the cancel function outside of the
critical section in which it takes it. Its wait for the run may end at any
time, as it gives up after ten seconds. The fields that only `Status` reads,
and what a run does to them, are added by `Station`.
-/

namespace VmServer.Tailnet

open Config TransitionSystem

structure Manager where
  cfg : Tailscale
  /-- The run that `m.cancel` cancels. -/
  cancel : Option Nat := none
  /-- The run whose done channel is `m.done`. -/
  done : Option Nat := none
  deriving DecidableEq

structure Run where
  cfg : Tailscale
  cancelled : Bool := false
  /-- The done channel is closed. -/
  closed : Bool := false
  deriving DecidableEq

/-- Where a call is; `resume` is the configuration that a `Start` goes on with after its
`Stop`. -/
inductive CallPhase
  | stopping (resume : Option Tailscale)
  /-- In front of the call of the cancel function it has taken. -/
  | cancelling (i : Nat) (done : Option Nat) (resume : Option Tailscale)
  | waiting (done : Option Nat) (resume : Option Tailscale)
  | marking (resume : Option Tailscale)
  | resuming (cfg : Tailscale)
  | returned
  deriving DecidableEq

/-- What follows the `Stop` of a call. -/
def afterStop : Option Tailscale → CallPhase
  | none => .returned
  | some cfg => .resuming cfg

/-- The manager with all runs and calls, and the last configuration that was saved. -/
structure Nodes where
  manager : Manager
  runs : List Run := []
  calls : List CallPhase := []
  saved : Option Tailscale := none
  deriving DecidableEq

inductive TailnetEvent
  /-- A setting is saved and `Start` is called with it. -/
  | start (cfg : Tailscale)
  | stop
  /-- The next step of a call. -/
  | call (k : Nat)
  /-- A run ends, cancelled or by itself. -/
  | close (i : Nat)

namespace Nodes

def move (s : Nodes) (k : Nat) (phase : CallPhase) : Nodes :=
  { s with calls := s.calls.set k phase }

/-- The first critical section of `Stop`. -/
def detach (s : Nodes) : Nodes :=
  { s with manager := { s.manager with cancel := none, done := none } }

/-- The cancel function of a run is called. -/
def cancelRun (s : Nodes) (i : Nat) : Nodes :=
  { s with runs := s.runs.modify i fun r => { r with cancelled := true } }

/-- The critical section of `Start` that begins a run, if the node is enabled. -/
def begin (s : Nodes) (cfg : Tailscale) : Nodes :=
  if cfg.enabled then
    { s with manager := { cfg, cancel := some s.runs.length, done := some s.runs.length }
             runs := s.runs ++ [{ cfg }] }
  else { s with manager := { s.manager with cfg } }

def callStep (s : Nodes) (k : Nat) : CallPhase → Option Nodes
  | .stopping resume =>
      match s.manager.cancel with
      | none => some (s.detach.move k (afterStop resume))
      | some i => some (s.detach.move k (.cancelling i s.manager.done resume))
  | .cancelling i done resume => some ((s.cancelRun i).move k (.waiting done resume))
  | .waiting _ resume => some (s.move k (.marking resume))
  | .marking resume => some (s.move k (afterStop resume))
  | .resuming cfg => some ((s.begin cfg).move k .returned)
  | .returned => none

def next (s : Nodes) : TailnetEvent → Option Nodes
  | .start cfg =>
      some { s with calls := s.calls ++ [.stopping (some cfg)], saved := some cfg }
  | .stop => some { s with calls := s.calls ++ [.stopping none] }
  | .call k => s.calls[k]?.bind (s.callStep k)
  | .close i => some { s with runs := s.runs.modify i fun r => { r with closed := true } }

/-- Number `i` is a run whose context has not been cancelled. -/
def Live (s : Nodes) (i : Nat) : Prop := ∃ r, s.runs[i]? = some r ∧ r.cancelled = false

end Nodes

/-- Any number of concurrent `Start` and `Stop` calls, from `NewManager` on. -/
def tailnetSystem : System Nodes TailnetEvent where
  initial := {s | ∃ cfg, s = { manager := { cfg } }}
  next := Nodes.next

end VmServer.Tailnet
