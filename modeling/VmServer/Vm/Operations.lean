import VmServer.Vm.Manager

/-!
# The operations on a running guest

Each of them asks the manager for the QMP client or for the VNC credentials
before it does anything else, apart from the check of a snapshot's name.

## Implementation notes

An operation is modelled up to what it goes on with; what it makes of the
reply of QEMU does not depend on the manager.
-/

namespace VmServer.Vm

/-- What an admitted operation goes on with. -/
inductive GuestRequest
  | execute (q : Qmp) (cmd : String)
  | hmp (q : Qmp) (line : String)
  | dial (addr password : String)
  deriving DecidableEq, Repr

/-- The characters of a snapshot name. -/
def snapshotChar (c : Char) : Bool :=
  ('a' ≤ c && c ≤ 'z') || ('A' ≤ c && c ≤ 'Z') || ('0' ≤ c && c ≤ '9') || c = '-' || c = '_'

/-- The error of a name that is refused; the length is in bytes. -/
def validateSnapshotName (name : String) : Option String :=
  if name = "" ∨ 64 < name.utf8ByteSize then some "snapshot name must be 1-64 characters"
  else if name.toList.all snapshotChar then none
  else some "snapshot name may only contain letters, digits, - and _"

namespace Manager

variable (m : Manager)

/-- The start of an operation that needs the QMP client. -/
def withClient (use : Qmp → GuestRequest) : Except String GuestRequest :=
  match m.qmpClient with
  | none => .error errNotRunning
  | some q => .ok (use q)

/-- `Shutdown` marks the manager before it goes on, by `markStopping`. -/
def shutdown : Except String GuestRequest := m.withClient (.execute · "system_powerdown")
def reset : Except String GuestRequest := m.withClient (.execute · "system_reset")
def pause : Except String GuestRequest := m.withClient (.execute · "stop")
def resume : Except String GuestRequest := m.withClient (.execute · "cont")
def listSnapshots : Except String GuestRequest := m.withClient (.hmp · "info snapshots")

/-- A snapshot command checks the name before it asks for the client. -/
def onSnapshot (verb name : String) : Except String GuestRequest :=
  match validateSnapshotName name with
  | some text => .error text
  | none => m.withClient (.hmp · (verb ++ " " ++ name))

def saveSnapshot (name : String) : Except String GuestRequest := m.onSnapshot "savevm" name
def loadSnapshot (name : String) : Except String GuestRequest := m.onSnapshot "loadvm" name
def deleteSnapshot (name : String) : Except String GuestRequest := m.onSnapshot "delvm" name

def vncCredentials (cfg : Config) : Except String GuestRequest :=
  if m.state ≠ .running then .error errNotRunning
  else .ok (.dial ("127.0.0.1:" ++ toString cfg.vncPort) m.vncPassword)

end Manager

/-- The operations that need a running guest. -/
inductive Operation
  | shutdown
  | reset
  | pause
  | resume
  | saveSnapshot (name : String)
  | loadSnapshot (name : String)
  | deleteSnapshot (name : String)
  | listSnapshots
  | vncCredentials
  deriving DecidableEq, Repr

namespace Manager

def perform (m : Manager) (cfg : Config) : Operation → Except String GuestRequest
  | .shutdown => m.shutdown
  | .reset => m.reset
  | .pause => m.pause
  | .resume => m.resume
  | .saveSnapshot name => m.saveSnapshot name
  | .loadSnapshot name => m.loadSnapshot name
  | .deleteSnapshot name => m.deleteSnapshot name
  | .listSnapshots => m.listSnapshots
  | .vncCredentials => m.vncCredentials cfg

variable {m m' : Manager}

/-- The operations depend on the client that is handed out and on the credentials. -/
theorem perform_congr (client : m'.qmpClient = m.qmpClient)
    (credentials : ∀ cfg, m'.vncCredentials cfg = m.vncCredentials cfg) (cfg : Config)
    (op : Operation) : m'.perform cfg op = m.perform cfg op := by
  have same : ∀ use, m'.withClient use = m.withClient use := fun use => by
    rw [withClient, client, withClient]
  have snapshots : ∀ verb name, m'.onSnapshot verb name = m.onSnapshot verb name :=
    fun verb name => by rw [onSnapshot, same, onSnapshot]
  cases op with
  | saveSnapshot name => exact snapshots "savevm" name
  | loadSnapshot name => exact snapshots "loadvm" name
  | deleteSnapshot name => exact snapshots "delvm" name
  | vncCredentials => exact credentials cfg
  | _ => exact same _

/-- Only a running manager admits an operation. -/
theorem perform_refused (idle : m.state ≠ .running) (cfg : Config) (op : Operation) :
    ∃ text, m.perform cfg op = .error text := by
  have client : ∀ use, m.withClient use = .error errNotRunning := fun use => by
    rw [withClient, qmpClient, if_neg idle]
  have snapshot : ∀ verb name, ∃ text, m.onSnapshot verb name = .error text := by
    intro verb name
    unfold onSnapshot
    split
    · exact ⟨_, rfl⟩
    · exact ⟨_, client _⟩
  cases op with
  | saveSnapshot name => exact snapshot "savevm" name
  | loadSnapshot name => exact snapshot "loadvm" name
  | deleteSnapshot name => exact snapshot "delvm" name
  | vncCredentials => exact ⟨_, if_pos idle⟩
  | _ => exact ⟨_, client _⟩

end Manager

end VmServer.Vm
