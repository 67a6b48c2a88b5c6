import VmServer.Library.TransitionSystem
import VmServer.Config.Sections

/-!
# The tunnel manager and its runs

`Start` launches a goroutine that looks for cloudflared, perhaps downloads
it, and keeps a process of it running; `Stop` cancels its context. The
goroutine writes what `Status` reports at many places, each under the mutex.

## Implementation notes

`Start` and `Stop` are called one after another, as the handler calls them
with the configuration locked. Between two critical sections of a call the
runs take any number of steps. A run's context is named by the number of the
run, a process by the number the event gives. What the file system, the
network and the process do comes with the events; the wait of `Stop` may end
at any time, since another `Wait` on the process may be going on and since it
gives up after five seconds.
-/

namespace VmServer.Tunnel

open Config TransitionSystem

inductive State
  | disabled | downloading | starting | connected | error | stopped
  deriving DecidableEq, Repr

structure Manager where
  cfg : Config.Tunnel
  state : State := .disabled
  url : String := ""
  err : Option String := none
  binary : String := ""
  cmd : Option Nat := none
  /-- The run whose context `m.cancel` cancels. -/
  cancel : Option Nat := none
  tail : List String := []
  deriving DecidableEq

namespace Manager

def setState (m : Manager) (state : State) (url : String) (err : Option String) : Manager :=
  { m with state, url := if url ≠ "" then url else m.url, err }

/-- Publishes a process that has been started. -/
def started (m : Manager) (pid : Nat) : Manager := { m with cmd := some pid, state := .starting }

/-- Keeps the last fifty lines. -/
def remember (m : Manager) (line : String) : Manager :=
  let tail := m.tail ++ [line]
  { m with tail := if 50 < tail.length then tail.drop (tail.length - 50) else tail }

def trimPrefix (s pre : String) : String :=
  if pre.toList.isPrefixOf s.toList then String.ofList (s.toList.drop pre.length) else s

/-- The address of a named tunnel with this hostname. -/
def namedURL (hostname : String) : String :=
  "https://" ++ trimPrefix (trimPrefix hostname "https://") "http://"

/-- A line tells that a connection is registered. -/
def registered (m : Manager) (cfg : Config.Tunnel) : Manager :=
  let m :=
    if cfg.mode = "named" then
      { m with state := .connected
               url := if cfg.hostname ≠ "" then namedURL cfg.hostname else m.url }
    else if m.url ≠ "" then { m with state := .connected }
    else m
  { m with err := none }

/-- The critical section of `Start` that begins run number `run`, if the tunnel is enabled. -/
def begin (m : Manager) (cfg : Config.Tunnel) (run : Nat) : Manager :=
  if cfg.enabled then
    { m with cfg, cancel := some run, state := .starting, url := "", err := none, tail := [] }
  else { m with cfg, state := .disabled, url := "", err := none }

/-- The first critical section of `Stop`. -/
def detach (m : Manager) : Manager := { m with cancel := none, cmd := none }

/-- The last critical section of `Stop`. -/
def markStopped (m : Manager) : Manager := m.setState .stopped "" none

end Manager

/-- Where the goroutine of a run is. `setting` is in front of a `setState` call. -/
inductive Phase
  | finding
  | downloading
  | found (bin : String)
  | looping
  | launching
  | launched (pid : Nat)
  | scanning
  | matching (line : String)
  | waiting
  | returned (err : Option String)
  | backingOff
  | setting (state : State) (url : String) (err : Option String) (next : Phase)
  | done
  deriving DecidableEq

structure Run where
  cfg : Config.Tunnel
  cancelled : Bool := false
  phase : Phase := .finding
  deriving DecidableEq

/-- What a step of a run meets. -/
inductive RunEvent
  | find (result : Except String String)
  | download (result : Except String String)
  | launch (result : Except String Nat)
  | line (text : String)
  | eof
  | exit (err : Option String)
  | timer
  /-- A step that depends on nothing outside. -/
  | go

/-- Whether the text occurs in the line. -/
def contains (line text : String) : Bool := line.toList.tails.any (text.toList.isPrefixOf ·)

def isRegistration (line : String) : Bool :=
  contains line "Registered tunnel connection" || contains line "Connection registered"

/-- The address a line of a quick tunnel announces; `find` is the search for `quickURLRe`. -/
def announced (find : String → String) (cfg : Config.Tunnel) (line : String) : Option String :=
  if cfg.mode = "quick" ∧ find line ≠ "" ∧ find line ≠ "https://api.trycloudflare.com" then
    some (find line)
  else none

/-- The text of an error that may be nil. -/
def errorText (err : Option String) : String := err.getD "<nil>"

variable (find : String → String)

/-- One step of `supervise` or `runOnce`: the manager after it and the new phase. -/
def Run.step (m : Manager) (r : Run) : RunEvent → Option (Manager × Phase)
  | .find result =>
      match r.phase, result with
      | .finding, .ok bin => some (m, .found bin)
      | .finding, .error e =>
          if r.cfg.autoDownload then some (m, .setting .downloading "" none .downloading)
          else
            some (m, .setting .error ""
              (some (e ++ "; enable tunnel.auto_download or place it in third_party/cloudflared"))
              .done)
      | _, _ => none
  | .download result =>
      match r.phase, result with
      | .downloading, .ok bin => some (m, .found bin)
      | .downloading, .error e => some (m, .setting .error "" (some e) .done)
      | _, _ => none
  | .launch result =>
      match r.phase, result with
      | .launching, .error e => some (m, .returned (some e))
      | .launching, .ok pid => if r.cancelled then none else some (m, .launched pid)
      | _, _ => none
  | .line text =>
      match r.phase with
      | .scanning =>
          some (m.remember text,
            match announced find r.cfg text with
            | some url => .setting .connected url none (.matching text)
            | none => .matching text)
      | _ => none
  | .eof => if r.phase = .scanning then some (m, .waiting) else none
  | .exit err => if r.phase = .waiting then some (m, .returned err) else none
  | .timer => if r.phase = .backingOff then some (m, .looping) else none
  | .go =>
      match r.phase with
      | .found bin => some ({ m with binary := bin }, .looping)
      | .looping => some (m, if r.cancelled then .done else .launching)
      | .launched pid => some (m.started pid, .scanning)
      | .matching line =>
          some (if isRegistration line then m.registered r.cfg else m, .scanning)
      | .returned err =>
          some (m,
            if r.cancelled then .setting .stopped "" none .done
            else .setting .error ""
              (some ("cloudflared exited: " ++ errorText err ++ " (retrying)")) .backingOff)
      | .backingOff => if r.cancelled then some (m, .setting .stopped "" none .done) else none
      | .setting state url err next => some (m.setState state url err, next)
      | _ => none

/-- Where a call of `Start` or `Stop` is; `resume` is the configuration that a `Start` goes on
with after it has stopped the run before. -/
inductive CallPhase
  | detaching (resume : Option Config.Tunnel)
  | cancelling (run : Option Nat) (resume : Option Config.Tunnel)
  | waiting (resume : Option Config.Tunnel)
  | marking (resume : Option Config.Tunnel)
  | resuming (cfg : Config.Tunnel)
  deriving DecidableEq

/-- How the last call that returned left the manager. -/
inductive Returned
  | stopped | disabled | started
  deriving DecidableEq, Repr

/-- The manager with its runs, the call in progress, and the last one that returned. The runs
numbered below `settled` had begun before that call. -/
structure Tunnels where
  manager : Manager
  runs : List Run := []
  call : Option CallPhase := none
  last : Option Returned := none
  settled : Nat := 0
  deriving DecidableEq

inductive TunnelEvent
  | start (cfg : Config.Tunnel)
  | stop
  /-- The next step of the call in progress. -/
  | call
  | run (i : Nat) (e : RunEvent)

namespace Tunnels

/-- The call returns after the critical section that begins a run. -/
def begun (s : Tunnels) (cfg : Config.Tunnel) : Tunnels :=
  { manager := s.manager.begin cfg s.runs.length
    runs := if cfg.enabled then s.runs ++ [{ cfg }] else s.runs
    call := none
    last := some (if cfg.enabled then .started else .disabled)
    settled := s.runs.length }

/-- `cancel()` of the context of a run. -/
def cancelRun (s : Tunnels) : Option Nat → Tunnels
  | none => s
  | some i => { s with runs := s.runs.modify i fun r => { r with cancelled := true } }

def callStep (s : Tunnels) : CallPhase → Tunnels
  | .detaching resume =>
      { s with manager := s.manager.detach, call := some (.cancelling s.manager.cancel resume) }
  | .cancelling run resume => { s.cancelRun run with call := some (.waiting resume) }
  | .waiting resume => { s with call := some (.marking resume) }
  | .marking none =>
      { s with manager := s.manager.markStopped, call := none, last := some .stopped,
               settled := s.runs.length }
  | .marking (some cfg) =>
      { s with manager := s.manager.markStopped, call := some (.resuming cfg) }
  | .resuming cfg => s.begun cfg

def runStep (s : Tunnels) (i : Nat) (r : Run) (e : RunEvent) : Option Tunnels :=
  (r.step find s.manager e).map fun (manager, phase) =>
    { s with manager, runs := s.runs.set i { r with phase } }

def next (s : Tunnels) : TunnelEvent → Option Tunnels
  | .start cfg =>
      if s.call.isSome then none
      else if s.manager.cancel.isSome then some { s with call := some (.detaching (some cfg)) }
      else some (s.begun cfg)
  | .stop => if s.call.isSome then none else some { s with call := some (.detaching none) }
  | .call => s.call.map s.callStep
  | .run i e => s.runs[i]?.bind fun r => s.runStep find i r e

end Tunnels

/-- A tunnel manager from `NewManager` on. -/
def tunnelSystem : System Tunnels TunnelEvent where
  initial := {s | ∃ cfg, s = { manager := { cfg } }}
  next := Tunnels.next find

/-! ## What a step of a run can do -/

/-- The steps of a run, by the phase that they are taken in. -/
inductive Run.Moves (m : Manager) (r : Run) : RunEvent → Manager → Phase → Prop
  | found {bin} (at_ : r.phase = .finding) : Moves m r (.find (.ok bin)) m (.found bin)
  | downloads {err} (at_ : r.phase = .finding) (download : r.cfg.autoDownload = true) :
      Moves m r (.find (.error err)) m (.setting .downloading "" none .downloading)
  | notFound {err text} (at_ : r.phase = .finding) (download : r.cfg.autoDownload = false) :
      Moves m r (.find (.error err)) m (.setting .error "" (some text) .done)
  | downloaded {bin} (at_ : r.phase = .downloading) :
      Moves m r (.download (.ok bin)) m (.found bin)
  | notDownloaded {err} (at_ : r.phase = .downloading) :
      Moves m r (.download (.error err)) m (.setting .error "" (some err) .done)
  | keeps {bin} (at_ : r.phase = .found bin) :
      Moves m r .go { m with binary := bin } .looping
  | ends (at_ : r.phase = .looping) (cancelled : r.cancelled = true) : Moves m r .go m .done
  | goesOn (at_ : r.phase = .looping) (going : r.cancelled = false) : Moves m r .go m .launching
  | launched {pid} (at_ : r.phase = .launching) (going : r.cancelled = false) :
      Moves m r (.launch (.ok pid)) m (.launched pid)
  | notLaunched {err} (at_ : r.phase = .launching) :
      Moves m r (.launch (.error err)) m (.returned (some err))
  | publishes {pid} (at_ : r.phase = .launched pid) : Moves m r .go (m.started pid) .scanning
  | announced {text url} (at_ : r.phase = .scanning)
      (found : announced find r.cfg text = some url) :
      Moves m r (.line text) (m.remember text) (.setting .connected url none (.matching text))
  | printed {text} (at_ : r.phase = .scanning) (nothing : announced find r.cfg text = none) :
      Moves m r (.line text) (m.remember text) (.matching text)
  | registers {line} (at_ : r.phase = .matching line) (registration : isRegistration line = true) :
      Moves m r .go (m.registered r.cfg) .scanning
  | skips {line} (at_ : r.phase = .matching line) (other : isRegistration line = false) :
      Moves m r .go m .scanning
  | closed (at_ : r.phase = .scanning) : Moves m r .eof m .waiting
  | exited {err} (at_ : r.phase = .waiting) : Moves m r (.exit err) m (.returned err)
  | stops {err} (at_ : r.phase = .returned err) (cancelled : r.cancelled = true) :
      Moves m r .go m (.setting .stopped "" none .done)
  | fails {err text} (at_ : r.phase = .returned err) (going : r.cancelled = false) :
      Moves m r .go m (.setting .error "" (some text) .backingOff)
  | givesUp (at_ : r.phase = .backingOff) (cancelled : r.cancelled = true) :
      Moves m r .go m (.setting .stopped "" none .done)
  | retries (at_ : r.phase = .backingOff) : Moves m r .timer m .looping
  | reports {state url err next} (at_ : r.phase = .setting state url err next) :
      Moves m r .go (m.setState state url err) next

variable {find} {m m' : Manager} {r : Run} {phase : Phase}

theorem Run.moves_go (h : r.step find m .go = some (m', phase)) :
    Run.Moves find m r .go m' phase := by
  simp only [Run.step] at h
  split at h
  · rename_i bin here
    obtain ⟨rfl, rfl⟩ := Prod.mk.inj (Option.some.inj h)
    exact .keeps here
  · rename_i here
    obtain ⟨rfl, rfl⟩ := Prod.mk.inj (Option.some.inj h)
    cases cancelled : r.cancelled with
    | true => exact .ends here cancelled
    | false => exact .goesOn here cancelled
  · rename_i pid here
    obtain ⟨rfl, rfl⟩ := Prod.mk.inj (Option.some.inj h)
    exact .publishes here
  · rename_i line here
    obtain ⟨rfl, rfl⟩ := Prod.mk.inj (Option.some.inj h)
    cases registration : isRegistration line with
    | true => exact .registers here registration
    | false => exact .skips here registration
  · rename_i err here
    obtain ⟨rfl, rfl⟩ := Prod.mk.inj (Option.some.inj h)
    cases cancelled : r.cancelled with
    | true => exact .stops here cancelled
    | false => exact .fails here cancelled
  · rename_i here
    obtain ⟨cancelled, h⟩ := Option.ite_none_right_eq_some.mp h
    obtain ⟨rfl, rfl⟩ := Prod.mk.inj (Option.some.inj h)
    exact .givesUp here cancelled
  · rename_i state url err next here
    obtain ⟨rfl, rfl⟩ := Prod.mk.inj (Option.some.inj h)
    exact .reports here
  · cases h

theorem Run.moves_of_step {e : RunEvent} (h : r.step find m e = some (m', phase)) :
    Run.Moves find m r e m' phase := by
  cases e with
  | find result =>
      simp only [Run.step] at h
      split at h
      · rename_i here
        obtain ⟨rfl, rfl⟩ := Prod.mk.inj (Option.some.inj h)
        exact .found here
      · rename_i err here
        cases download : r.cfg.autoDownload with
        | true =>
            obtain ⟨rfl, rfl⟩ := Prod.mk.inj (Option.some.inj ((if_pos download).symm.trans h))
            exact .downloads here download
        | false =>
            rw [download] at h
            obtain ⟨rfl, rfl⟩ := Prod.mk.inj (Option.some.inj h)
            exact .notFound here download
      · cases h
  | download result =>
      simp only [Run.step] at h
      split at h
      · rename_i here
        obtain ⟨rfl, rfl⟩ := Prod.mk.inj (Option.some.inj h)
        exact .downloaded here
      · rename_i here
        obtain ⟨rfl, rfl⟩ := Prod.mk.inj (Option.some.inj h)
        exact .notDownloaded here
      · cases h
  | launch result =>
      simp only [Run.step] at h
      split at h
      · rename_i here
        obtain ⟨rfl, rfl⟩ := Prod.mk.inj (Option.some.inj h)
        exact .notLaunched here
      · rename_i here
        obtain ⟨going, h⟩ := Option.ite_none_left_eq_some.mp h
        obtain ⟨rfl, rfl⟩ := Prod.mk.inj (Option.some.inj h)
        exact .launched here (Bool.eq_false_iff.mpr going)
      · cases h
  | line text =>
      simp only [Run.step] at h
      split at h
      · rename_i here
        obtain ⟨rfl, rfl⟩ := Prod.mk.inj (Option.some.inj h)
        cases found : Tunnel.announced find r.cfg text with
        | some url => exact .announced here found
        | none => exact .printed here found
      · cases h
  | eof =>
      obtain ⟨here, h⟩ := Option.ite_none_right_eq_some.mp h
      obtain ⟨rfl, rfl⟩ := Prod.mk.inj (Option.some.inj h)
      exact .closed here
  | exit err =>
      obtain ⟨here, h⟩ := Option.ite_none_right_eq_some.mp h
      obtain ⟨rfl, rfl⟩ := Prod.mk.inj (Option.some.inj h)
      exact .exited here
  | timer =>
      obtain ⟨here, h⟩ := Option.ite_none_right_eq_some.mp h
      obtain ⟨rfl, rfl⟩ := Prod.mk.inj (Option.some.inj h)
      exact .retries here
  | go => exact Run.moves_go h

theorem Tunnels.next_run {s t : Tunnels} {i : Nat} {step : RunEvent}
    (h : s.next find (.run i step) = some t) :
    ∃ r m phase, s.runs[i]? = some r ∧ r.step find s.manager step = some (m, phase) ∧
      t = { s with manager := m, runs := s.runs.set i { r with phase } } := by
  obtain ⟨r, found, h⟩ := Option.bind_eq_some_iff.mp h
  obtain ⟨⟨m, phase⟩, stepped, rfl⟩ := Option.map_eq_some_iff.mp h
  exact ⟨r, m, phase, found, stepped, rfl⟩

end VmServer.Tunnel
