import VmServer.Library.TransitionSystem
import VmServer.Vm.Manager

/-!
# The console page

The page keeps its current RFB object in `rfb` and writes that variable from
status polls, clicks, a reconnect timer and the events of every RFB object it
has made. An RFB object goes through the connection states of noVNC: told to
disconnect, it reports the end later; ended by the server, it reports at once.

## Implementation notes

A handler runs without interruption up to its next `await`. What an awaited
status request brings is an event of its own, and so is the rest of the timer
callback behind it. Text, banners and buttons are left out.
-/

namespace VmServer.Web

open TransitionSystem Vm

inductive Mode
  | control
  | view
  deriving DecidableEq, Repr

/-- Who holds the controller seat, as the page is told. -/
structure Control where
  mine : Bool
  holder : String
  deriving DecidableEq, Repr

/-- The connection states of an RFB object; the last one is permanent. -/
inductive RfbState
  | connecting
  | connected
  | disconnecting
  | disconnected
  deriving DecidableEq, Repr

/-- An RFB object, with the mode in its URL. -/
structure Rfb where
  mode : Mode
  viewOnly : Bool
  state : RfbState := .connecting
  deriving DecidableEq, Repr

/-- Open or opening, and not told to disconnect. -/
def Rfb.active (o : Rfb) : Bool :=
  o.state = .connecting ∨ o.state = .connected

/-- `disconnect()` of noVNC; only a connecting or connected object takes it. -/
def Rfb.disconnect (o : Rfb) : Rfb :=
  if o.active then { o with state := .disconnecting } else o

structure Page where
  lastStatus : VmState
  control : Control := ⟨false, ""⟩
  mode : Mode := .control
  /-- The object the variable `rfb` refers to. -/
  rfb : Option Nat := none
  rfbConnected : Bool := false
  /-- A reconnect timer is running. -/
  reconnectTimer : Bool := false
  /-- Timer callbacks that wait for their status request. -/
  resuming : Nat := 0
  /-- Every RFB object the page has made. -/
  objects : List Rfb := []
  deriving DecidableEq, Repr

inductive PageEvent
  /-- A status request of the page is answered. -/
  | status (vm : VmState) (control : Control)
  /-- A button of the VM menu brings a new status. -/
  | vmAction (vm : VmState)
  /-- The request of the Take control button is answered. -/
  | takeControl (control : Option Control)
  | timer
  /-- The rest of the timer callback, after its status request. -/
  | resume
  /-- Object `i` reports that it is connected. -/
  | connected (i : Nat)
  /-- Object `i` reports that it is disconnected. -/
  | disconnected (i : Nat)
  deriving DecidableEq, Repr

namespace Page

def connect (s : Page) : Page :=
  match s.rfb with
  | some _ => s
  | none =>
      { s with
        reconnectTimer := false
        rfb := some s.objects.length
        objects := s.objects ++ [{ mode := s.mode, viewOnly := s.mode = .view }] }

def disconnect (s : Page) : Page :=
  match s.rfb with
  | some i => { s with rfb := none, objects := s.objects.modify i Rfb.disconnect }
  | none => s

/-- A new timer replaces the one that runs. -/
def scheduleReconnect (s : Page) : Page :=
  { s with reconnectTimer := true }

/-- `if (rfb) rfb.viewOnly = …`. -/
def setViewOnly (s : Page) (viewOnly : Bool) : Page :=
  match s.rfb with
  | some i => { s with objects := s.objects.modify i fun o => { o with viewOnly } }
  | none => s

/-- `if (mode !== "control") { mode = "control"; disconnect(); connect(); }`. -/
def toControl (s : Page) : Page :=
  if s.mode ≠ .control then ({ s with mode := .control } : Page).disconnect.connect else s

def applyControl (s : Page) (c : Control) : Page :=
  let s := { s with control := c }
  if s.lastStatus ≠ .running then s
  else if c.mine then s.toControl.setViewOnly false
  else if c.holder ≠ "" then { s.setViewOnly true with mode := .view }
  else s.toControl

def applyVMStatus (s : Page) (st : VmState) : Page :=
  let s := { s with lastStatus := st }
  if st = .running then
    match s.rfb with
    | none => s.connect
    | some _ => s
  else ({ s with rfbConnected := false } : Page).disconnect

/-- The click handler of Take control, once the server has answered. -/
def takeControl (s : Page) (c : Option Control) : Page :=
  let s := ({ s with mode := .control } : Page).disconnect.connect
  match c with
  | some c => s.applyControl c
  | none => s

def resume (s : Page) : Page :=
  if s.lastStatus = .running then s.connect else s.scheduleReconnect

/-- The "connect" handler. -/
def onConnect (s : Page) (i : Nat) (o : Rfb) : Option Page :=
  if o.state = .connecting then
    some { s with objects := s.objects.set i { o with state := .connected }, rfbConnected := true }
  else none

/-- The "disconnect" handler. -/
def onDisconnect (s : Page) (i : Nat) (o : Rfb) : Option Page :=
  if o.state ≠ .disconnected then
    some ({ s with objects := s.objects.set i { o with state := .disconnected }
                   rfb := none
                   rfbConnected := false } : Page).scheduleReconnect
  else none

def next (s : Page) : PageEvent → Option Page
  | .status vm control => some ((s.applyVMStatus vm).applyControl control)
  | .vmAction vm => some (s.applyVMStatus vm)
  | .takeControl control => some (s.takeControl control)
  | .timer =>
      if s.reconnectTimer then
        some { s with reconnectTimer := false, resuming := s.resuming + 1 }
      else none
  | .resume => if s.resuming = 0 then none else some { s with resuming := s.resuming - 1 }.resume
  | .connected i => s.objects[i]?.bind (s.onConnect i)
  | .disconnected i => s.objects[i]?.bind (s.onDisconnect i)

end Page

/-- The page from its load on, with any VM status to begin with. -/
def pageSystem : System Page PageEvent where
  initial := {s | ∃ st, s = ({ lastStatus := st } : Page).applyVMStatus st}
  next := Page.next

end VmServer.Web
