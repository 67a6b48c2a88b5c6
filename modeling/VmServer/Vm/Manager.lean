import Mathlib.Data.List.Basic

/-!
# The guest manager and its critical sections

The manager's fields change only under its mutex. Each critical section of
`Start`, `launch`, `onExit`, `Shutdown` and `ForceStop` is a function here;
what happens between them is the business of the system that runs them.

## Implementation notes

A QEMU process is known by its number, and so is its `exited` channel. The
command line, the log ring and the QMP protocol are not modelled; texts taken
from them are arguments.
-/

namespace VmServer.Vm

/-- The `State` of the manager. -/
inductive VmState
  | stopped
  | starting
  | running
  | stopping
  | crashed
  deriving DecidableEq, Repr

/-- The fields of the VM configuration that starting and restarting depend on. -/
structure Config where
  diskPath : String
  vncPort : Nat
  qmpPort : Nat
  accel : String
  restartOnCrash : Bool
  deriving DecidableEq, Repr

/-- The errors of `Start`. -/
inductive StartError
  | alreadyRunning
  | diskMissing (path : String)
  | noBinary (text : String)
  | portInUse (port : Nat)
  | spawn (text : String)
  | exitedEarly (tail : String)
  | dial (text : String)
  | random (text : String)
  | setPassword (text : String)
  deriving DecidableEq, Repr

def StartError.text : StartError → String
  | .alreadyRunning => "vm is already running"
  | .diskMissing path => "disk image " ++ path ++ " not found: create it with `qemu-img create " ++
      "-f qcow2 " ++ path ++ " 40G` or run the setup wizard"
  | .noBinary text => text
  | .portInUse port => "port " ++ toString port ++ " is already in use; is another QEMU " ++
      "(or a previous vmserver) still running?"
  | .spawn text => text
  | .exitedEarly tail => "qemu exited during startup: " ++ tail
  | .dial text => text
  | .random text => text
  | .setPassword text => "set vnc password: " ++ text

def errNotRunning : String := "vm is not running"

/-- What `cmd.Wait` returns. -/
inductive ExitStatus
  | success
  | failure (text : String)
  deriving DecidableEq, Repr

/-- A QMP connection, by the process at its other end. -/
structure Qmp where
  peer : Nat
  deriving DecidableEq, Repr

structure Manager where
  state : VmState := .stopped
  cmd : Option Nat := none
  qmp : Option Qmp := none
  vncPassword : String := ""
  accelUsed : String := ""
  accelNote : String := ""
  startedAt : Int := 0
  lastErr : Option String := none
  stopping : Bool := false
  exited : Option Nat := none
  deriving DecidableEq, Repr

/-- `defaultAccel` on the operating system `goos`. -/
def defaultAccel (goos : String) : String :=
  if goos = "windows" then "whpx"
  else if goos = "darwin" then "hvf"
  else if goos = "linux" then "kvm"
  else "tcg"

/-- The accelerators `Start` tries in turn. -/
def accelsOf (goos : String) (cfg : Config) : List String :=
  if cfg.accel = "auto" then [defaultAccel goos, "tcg"] else [cfg.accel]

/-- The note of a start that fell back from the first accelerator. -/
def fallbackNote (accels : List String) : String :=
  accels.headD "" ++ " unavailable, running under software emulation (slow). " ++
    "See scripts/enable-whpx.ps1."

namespace Manager

/-- The first critical section of `Start`: `none` is `ErrAlreadyRunning`. -/
def startEnter (m : Manager) : Option Manager :=
  if m.state = .running ∨ m.state = .starting then none
  else some { m with state := .starting, lastErr := none, stopping := false, accelNote := "" }

/-- The `fail` closure of `Start`. -/
def fail (m : Manager) (err : String) : Manager :=
  { m with state := .stopped, lastErr := some err }

/-- The last critical section of `launch`. -/
def publish (m : Manager) (p : Nat) (q : Qmp) (password accel : String) (now : Int) : Manager :=
  { m with cmd := some p, qmp := some q, vncPassword := password, accelUsed := accel,
           startedAt := now, state := .running, lastErr := none, exited := some p }

/-- The last critical section of a `Start` that fell back. -/
def note (m : Manager) (accels : List String) : Manager :=
  { m with accelNote := fallbackNote accels }

/-- `onExit` leaves the manager alone for a process that another one has replaced. -/
def ignores (m : Manager) (p : Nat) : Bool := m.cmd ≠ some p && m.cmd ≠ none

/-- The critical section of `onExit`, and whether it goes on to restart the guest. -/
def onExit (m : Manager) (cfg : Config) (p : Nat) (status : ExitStatus) (tail : String) :
    Manager × Bool :=
  if m.ignores p then (m, false)
  else
    let cleared := { m with cmd := none, qmp := none, vncPassword := "" }
    match status with
    | .success => ({ cleared with state := .stopped }, false)
    | .failure text =>
        if m.stopping then ({ cleared with state := .stopped }, false)
        else
          ({ cleared with state := .crashed,
                          lastErr := some ("qemu exited unexpectedly: " ++ text ++ "; " ++ tail) },
            cfg.restartOnCrash)

/-- `qmpClient`: `none` is `ErrNotRunning`. -/
def qmpClient (m : Manager) : Option Qmp := if m.state = .running then m.qmp else none

/-- What `Shutdown` and `ForceStop` write before they act on the guest. -/
def markStopping (m : Manager) : Manager := { m with stopping := true, state := .stopping }

variable {m m' : Manager}

theorem startEnter_eq_some : m.startEnter = some m' ↔
    (m.state ≠ .running ∧ m.state ≠ .starting) ∧
      m' = { m with state := .starting, lastErr := none, stopping := false, accelNote := "" } := by
  unfold startEnter
  split
  · rename_i busy
    simp only [reduceCtorEq, false_iff]
    rintro ⟨⟨notRunning, notStarting⟩, _⟩
    exact busy.elim notRunning notStarting
  · rename_i free
    simp only [Option.some.injEq]
    constructor
    · rintro rfl
      exact ⟨⟨fun h => free (Or.inl h), fun h => free (Or.inr h)⟩, rfl⟩
    · exact fun h => h.2.symm

@[simp] theorem onExit_of_ignores {cfg : Config} {p : Nat} {status : ExitStatus} {tail : String}
    (h : m.ignores p = true) : m.onExit cfg p status tail = (m, false) := by
  simp [onExit, h]

/-- An exit that is not ignored leaves no command, and the state stopped or crashed. -/
theorem onExit_of_not_ignores (cfg : Config) {p : Nat} (status : ExitStatus) (tail : String)
    (h : m.ignores p = false) : (m.onExit cfg p status tail).1.cmd = none ∧
      ((m.onExit cfg p status tail).1.state = .stopped ∨
        (m.onExit cfg p status tail).1.state = .crashed) := by
  unfold onExit
  rw [if_neg (by simp [h])]
  cases status with
  | success => exact ⟨rfl, Or.inl rfl⟩
  | failure text =>
      dsimp only
      split
      · exact ⟨rfl, Or.inl rfl⟩
      · exact ⟨rfl, Or.inr rfl⟩

/-- `onExit` may clear the command, and never touches the stop flag. -/
theorem onExit_keeps (cfg : Config) (p : Nat) (status : ExitStatus) (tail : String) :
    ((m.onExit cfg p status tail).1.cmd = m.cmd ∨ (m.onExit cfg p status tail).1.cmd = none) ∧
      (m.onExit cfg p status tail).1.stopping = m.stopping := by
  unfold onExit
  split
  · exact ⟨Or.inl rfl, rfl⟩
  · cases status with
    | success => exact ⟨Or.inr rfl, rfl⟩
    | failure text =>
        dsimp only
        split <;> exact ⟨Or.inr rfl, rfl⟩

/-- Only an exit that nobody asked for makes `onExit` restart the guest. -/
theorem onExit_restarts {cfg : Config} {p : Nat} {status : ExitStatus} {tail : String}
    (h : (m.onExit cfg p status tail).2 = true) : m.stopping = false := by
  unfold onExit at h
  split at h
  · cases h
  · cases status with
    | success => cases h
    | failure text =>
        dsimp only at h
        split at h
        · cases h
        · exact Bool.eq_false_iff.mpr ‹_›

theorem ignores_eq_false {p : Nat} : m.ignores p = false ↔ m.cmd = some p ∨ m.cmd = none := by
  unfold ignores
  cases m.cmd <;> simp

end Manager

end VmServer.Vm
