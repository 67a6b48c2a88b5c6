import VmServer.Auth.Manager

/-!
# The controller seat

At most one session holds the seat. The holder's connection, if it has one
that acquired the seat, is known by its cancel function.

## Implementation notes

A cancel function is the number of the connection it belongs to. `acquire`
and `take` return the connection whose cancel function they call.
-/

namespace VmServer.HttpServer

open Auth

structure Controller where
  sessionID : String := ""
  username : String := ""
  since : Int := 0
  cancel : Option Nat := none
  viewers : Int := 0
  deriving DecidableEq, Repr

/-- What the status API tells a session about the seat. -/
structure ControlInfo where
  holder : String
  since : Int
  mine : Bool
  viewers : Int
  deriving DecidableEq, Repr

namespace Controller

/-- Whether the session gets the seat for connection `cancel`. -/
def acquire (c : Controller) (sess : Session) (now : Int) (cancel : Nat) :
    Controller × Option Nat × Bool :=
  if c.sessionID ≠ "" ∧ c.sessionID ≠ sess.id then (c, none, false)
  else
    -- The same session reconnecting drops its old socket.
    let dropped := if c.sessionID = sess.id then c.cancel else none
    ({ c with sessionID := sess.id, username := sess.username, since := now,
              cancel := some cancel }, dropped, true)

def release (c : Controller) (sessionID : String) : Controller :=
  if c.sessionID = sessionID then { c with sessionID := "", username := "", cancel := none }
  else c

/-- The seat is reserved for the session; its connection is to acquire it later. -/
def take (c : Controller) (sess : Session) (now : Int) : Controller × Option Nat :=
  let dropped := if c.sessionID ≠ sess.id then c.cancel else none
  ({ c with sessionID := sess.id, username := sess.username, since := now, cancel := none },
    dropped)

def addViewer (c : Controller) (d : Int) : Controller := { c with viewers := c.viewers + d }

def info (c : Controller) (sessionID : String) : ControlInfo where
  holder := c.username
  since := c.since
  mine := c.sessionID = sessionID && sessionID ≠ ""
  viewers := c.viewers

variable {c c' : Controller} {sess : Session} {now : Int} {cancel : Nat}

/-- The seat is refused without a change, or given away from nobody or from the session itself. -/
theorem acquire_cases {dropped : Option Nat} {ok : Bool}
    (h : c.acquire sess now cancel = (c', dropped, ok)) :
    (ok = false ∧ dropped = none ∧ c' = c ∧ c.sessionID ≠ "" ∧ c.sessionID ≠ sess.id) ∨
      (ok = true ∧ c'.sessionID = sess.id ∧ c'.cancel = some cancel ∧
        (c.sessionID = "" ∨ c.sessionID = sess.id)) := by
  unfold acquire at h
  split at h
  · rename_i taken
    obtain ⟨rfl, rfl, rfl⟩ : c = c' ∧ none = dropped ∧ false = ok := by simpa using h
    exact Or.inl ⟨rfl, rfl, rfl, taken⟩
  · rename_i free
    obtain ⟨rfl, _, rfl⟩ := by simpa only [Prod.mk.injEq] using h
    refine Or.inr ⟨rfl, rfl, rfl, ?_⟩
    by_contra other
    exact free ⟨fun e => other (Or.inl e), fun e => other (Or.inr e)⟩

/-- A connection that gets the seat has it for its session, with its own cancel function. -/
theorem acquire_given {dropped : Option Nat} (h : c.acquire sess now cancel = (c', dropped, true)) :
    c'.sessionID = sess.id ∧ c'.cancel = some cancel ∧
      (c.sessionID = "" ∨ c.sessionID = sess.id) := by
  obtain ⟨no, _⟩ | ⟨_, given⟩ := acquire_cases h
  · cases no
  · exact given

theorem release_sessionID (sessionID : String) :
    (c.release sessionID).sessionID = if c.sessionID = sessionID then "" else c.sessionID := by
  unfold release
  split <;> rfl

end Controller

end VmServer.HttpServer
