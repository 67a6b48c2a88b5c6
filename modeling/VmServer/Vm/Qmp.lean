import Mathlib.Data.List.AList
import VmServer.Library.Channel
import VmServer.Library.TransitionSystem

/-!
# The QMP client

Any number of goroutines call `Execute` while `readLoop` hands the replies
out. A step is one section of `mu`, one channel operation, or one read; what
happens between them is private to a goroutine.

## Implementation notes

Decoding a line is a parameter: every `unmarshal` is covered, so every stream
of lines is. A reply keeps the position of its line in the stream. The channel
of a call lives in its record, so `pending` maps an id to a call. Writing a
request happens inside the section of `mu` that registers it and may fail.
A send to or a close of a closed channel sets `panicked`, after which nothing
runs. The counter of ids is unbounded, as 2^63 calls are out of reach.
-/

namespace VmServer.Vm

open TransitionSystem

structure QmpEvent where
  event : String
  data : String
  deriving DecidableEq, Repr

/-- The `error` object of a reply. -/
structure QmpFault where
  cls : String
  desc : String
  deriving DecidableEq, Repr

structure QmpResponse where
  ret : String
  error : Option QmpFault
  id : Option Int
  event : String
  data : String
  deriving DecidableEq, Repr

/-- The object `Execute` encodes. -/
structure QmpRequest where
  execute : String
  id : Int
  arguments : Option String
  deriving DecidableEq, Repr

inductive ExecuteError
  | connection (err : String)
  | encode (err : String)
  | closed
  | command (cmd : String) (fault : QmpFault)
  | context (err : String)
  deriving DecidableEq, Repr

def ExecuteError.text : ExecuteError → String
  | .connection err | .encode err | .context err => err
  | .closed => "qmp connection closed"
  | .command cmd fault => "qmp " ++ cmd ++ ": " ++ fault.cls ++ ": " ++ fault.desc

/-- What `Execute` makes of the reply to its command. -/
def QmpResponse.outcome (cmd : String) (resp : QmpResponse) : Except ExecuteError String :=
  match resp.error with
  | some fault => .error (.command cmd fault)
  | none => .ok resp.ret

/-- A reply and the position of the line it was read from. -/
structure Reply where
  line : Nat
  resp : QmpResponse
  deriving DecidableEq, Repr

inductive CallPhase
  | called
  | selecting
  /-- Its context has ended; its entry in `pending` is still to be deleted. -/
  | leaving (err : String)
  /-- The result, and the line it came from if it came from one. -/
  | returned (result : Except ExecuteError String) (line : Option Nat)
  deriving DecidableEq

/-- One call of `Execute`. -/
structure Call where
  cmd : String
  args : Option String
  /-- The request it has registered and encoded. -/
  request : Option QmpRequest := none
  chan : Channel Reply := .make 1
  phase : CallPhase := .called

inductive ReaderPhase
  | reading
  /-- A reply was read; `pending` is looked up next. -/
  | found (id : Int) (reply : Reply)
  /-- The entry is deleted; the reply is sent to the call's channel next. -/
  | handing (i : Nat) (reply : Reply)
  | failed (err : String)
  /-- The pending channels are closed; `Events` is closed next. -/
  | released
  /-- `Events` is closed; the deferred `close(q.closed)` is left. -/
  | ending
  | finished
  deriving DecidableEq

inductive CloserPhase
  | waiting (err : Option String)
  | returned (err : Option String)
  deriving DecidableEq, Repr

structure QmpClient where
  nextID : Int
  pending : AList fun _ : Int => Nat
  events : Channel QmpEvent
  closed : Channel Unit
  err : Option String
  /-- The lines read so far. -/
  received : List String
  reader : ReaderPhase
  calls : List Call
  closers : List CloserPhase
  panicked : Bool

inductive QmpAction
  | execute (cmd : String) (args : Option String)
  /-- The section of `mu` in `Execute`; the encoder may fail. -/
  | register (i : Nat) (encoded : Option String)
  | readLine (line : String)
  | readError (err : String)
  | lookup
  | handOver
  | release
  | closeEvents
  | closeClosed
  | receive (i : Nat)
  | contextDone (i : Nat) (err : String)
  | remove (i : Nat)
  | takeEvent
  | close (err : Option String)
  | closeReturns (k : Nat)

namespace QmpClient

/-- The client as `DialQMP` makes it, when `readLoop` starts. -/
def dialled : QmpClient where
  nextID := 0
  pending := ∅
  events := .make 64
  closed := .make 0
  err := none
  received := []
  reader := .reading
  calls := []
  closers := []
  panicked := false

def setCall (s : QmpClient) (i : Nat) (c : Call) : QmpClient :=
  { s with calls := s.calls.set i c }

/-- The program ends at an operation on a closed channel. -/
def panic (s : QmpClient) : QmpClient :=
  { s with panicked := true }

/-- `Execute` up to the unlock. -/
def register (s : QmpClient) (i : Nat) (encoded : Option String) (c : Call) : Option QmpClient :=
  match c.phase, s.err with
  | .called, some err =>
      some (s.setCall i { c with phase := .returned (.error (.connection err)) none })
  | .called, none =>
      let id := s.nextID + 1
      let phase :=
        match encoded with
        | some err => .returned (.error (.encode err)) none
        | none => .selecting
      some ({ s with nextID := id, pending := s.pending.insert id i }.setCall i
        { c with request := some ⟨c.cmd, id, c.args⟩, chan := .make 1, phase })
  | _, _ => none

/-- A line from the connection; events are offered to `Events` and dropped when it is full. -/
def readLine (unmarshal : String → Option QmpResponse) (s : QmpClient) (line : String) :
    QmpClient :=
  let t := { s with received := s.received ++ [line] }
  match unmarshal line with
  | none => t
  | some resp =>
      if resp.event ≠ "" then
        match s.events.trySend ⟨resp.event, resp.data⟩ with
        | .ok events => { t with events }
        | _ => t.panic
      else
        match resp.id with
        | none => t
        | some id => { t with reader := .found id ⟨s.received.length, resp⟩ }

def lookup (s : QmpClient) (id : Int) (reply : Reply) : QmpClient :=
  match s.pending.lookup id with
  | some i => { s with pending := s.pending.erase id, reader := .handing i reply }
  | none => { s with reader := .reading }

/-- The send `ch <- resp`, which blocks while the buffer is full. -/
def handOver (s : QmpClient) (i : Nat) (reply : Reply) : Option QmpClient :=
  s.calls[i]?.bind fun c =>
    match c.chan.send reply with
    | .ok chan => some { s.setCall i { c with chan } with reader := .reading }
    | .blocks => none
    | .panics => some s.panic

def closeCall (s : QmpClient) (i : Nat) : QmpClient :=
  match s.calls[i]? with
  | none => s
  | some c =>
      match c.chan.close with
      | .ok chan => s.setCall i { c with chan }
      | _ => s.panic

/-- The section of `mu` after a failed read. Map order does not matter to the outcome. -/
def release (s : QmpClient) (err : String) : QmpClient :=
  { s.pending.entries.foldl (fun s e => s.closeCall e.2) { s with err := some err } with
    pending := ∅, reader := .released }

def closeEvents (s : QmpClient) : QmpClient :=
  match s.events.close with
  | .ok events => { s with events, reader := .ending }
  | _ => s.panic

def closeClosed (s : QmpClient) : QmpClient :=
  match s.closed.close with
  | .ok closed => { s with closed, reader := .finished }
  | _ => s.panic

/-- The first branch of the `select`. -/
def receive (s : QmpClient) (i : Nat) (c : Call) : Option QmpClient :=
  match c.phase, c.chan.receive with
  | .selecting, .ok (some reply, chan) =>
      some (s.setCall i
        { c with chan, phase := .returned (reply.resp.outcome c.cmd) (some reply.line) })
  | .selecting, .ok (none, chan) =>
      some (s.setCall i { c with chan, phase := .returned (.error .closed) none })
  | _, _ => none

/-- The second branch of the `select`; a context may end at any moment. -/
def contextDone (s : QmpClient) (i : Nat) (err : String) (c : Call) : Option QmpClient :=
  match c.phase with
  | .selecting => some (s.setCall i { c with phase := .leaving err })
  | _ => none

def remove (s : QmpClient) (i : Nat) (c : Call) : Option QmpClient :=
  match c.phase, c.request with
  | .leaving err, some request =>
      some ({ s with pending := s.pending.erase request.id }.setCall i
        { c with phase := .returned (.error (.context err)) none })
  | _, _ => none

def takeEvent (s : QmpClient) : Option QmpClient :=
  match s.events.receive with
  | .ok (_, events) => some { s with events }
  | _ => none

/-- `Close` returns once `closed` is closed. -/
def closeReturns (s : QmpClient) (k : Nat) : CloserPhase → Option QmpClient
  | .waiting err =>
      match s.closed.receive with
      | .ok _ => some { s with closers := s.closers.set k (.returned err) }
      | _ => none
  | .returned _ => none

def next (unmarshal : String → Option QmpResponse) (s : QmpClient) (a : QmpAction) :
    Option QmpClient :=
  if s.panicked then none
  else
    match a, s.reader with
    | .execute cmd args, _ => some { s with calls := s.calls ++ [{ cmd, args }] }
    | .register i encoded, _ => s.calls[i]?.bind (s.register i encoded)
    | .receive i, _ => s.calls[i]?.bind (s.receive i)
    | .contextDone i err, _ => s.calls[i]?.bind (s.contextDone i err)
    | .remove i, _ => s.calls[i]?.bind (s.remove i)
    | .takeEvent, _ => s.takeEvent
    | .close err, _ => some { s with closers := s.closers ++ [.waiting err] }
    | .closeReturns k, _ => s.closers[k]?.bind (s.closeReturns k)
    | .readLine line, .reading => some (s.readLine unmarshal line)
    | .readError err, .reading => some { s with reader := .failed err }
    | .lookup, .found id reply => some (s.lookup id reply)
    | .handOver, .handing i reply => s.handOver i reply
    | .release, .failed err => some (s.release err)
    | .closeEvents, .released => some s.closeEvents
    | .closeClosed, .ending => some s.closeClosed
    | _, _ => none

end QmpClient

/-- The client from `DialQMP` on, with any callers and any stream of lines. -/
def qmpSystem (unmarshal : String → Option QmpResponse) : System QmpClient QmpAction where
  initial := {s | s = QmpClient.dialled}
  next := QmpClient.next unmarshal

end VmServer.Vm
