import Mathlib.Algebra.Order.Group.Int
import VmServer.Library.TransitionSystem
import VmServer.Proxy.ClientEncoders

/-!
# The pointer of the console client

Moves of the pointer are sent at most once in a while; the last one waits for a
timer, or goes ahead of the next change of the buttons. The server is told of
every change of the buttons once and in order, and where the pointer is as soon
as no move waits.

## Implementation notes

The client is connected, and the page does not drag the viewport. Positions are
those in the framebuffer. A gesture on a touch screen is a move and the changes
of the buttons that it stands for. A message that could not be built would be
an exception in the handler; there is none. A message is kept with the handler
that sent it and the time, which an event brings along; `mouseLastMoveTime` is
the time of the message itself.
-/

namespace VmServer.Novnc

open Proxy TransitionSystem

/-- What a message of the pointer is sent for: a move, a move that goes ahead of the buttons, or
the buttons. -/
inductive PointerKind
  | move
  | ahead
  | buttons
  deriving DecidableEq, Repr

/-- A message of the pointer, as it was sent. -/
structure PointerMessage where
  kind : PointerKind
  time : Int
  bytes : Except String (List UInt8)

structure Pointer where
  mousePos : Int × Int := (0, 0)
  mouseButtonMask : Nat := 0
  mouseLastMoveTime : Int := 0
  /-- When the timer is due. -/
  mouseMoveTimer : Option Int := none
  accumulatedWheelDeltaX : Int := 0
  accumulatedWheelDeltaY : Int := 0
  viewOnly : Bool := false
  extendedPointerEventSupported : Bool := false
  sent : List PointerMessage := []

def MOUSE_MOVE_DELAY : Int := 17
def WHEEL_STEP : Nat := 50
def WHEEL_LINE_HEIGHT : Int := 19

/-- The bits of `MouseEvent.buttons` as those of the RFB protocol. -/
def convertButtonMask (buttons : Nat) : Nat :=
  [(0, 0), (1, 2), (2, 1), (3, 7), (4, 8)].foldl
    (fun bmask (i, bit) => if buttons.testBit i then bmask ||| 1 <<< bit else bmask) 0

namespace Pointer

def mouseMessage (s : Pointer) (x y : Int) (mask : Nat) : Except String (List UInt8) :=
  if mask.testBit 15 then .error ("Illegal mouse button mask (mask: " ++ toString mask ++ ")")
  else if s.extendedPointerEventSupported ∧ mask &&& 0x7f80 ≠ 0 then
    Messages.extendedPointerEvent x y mask
  else .ok (Messages.pointerEvent x y mask)

def sendMouse (kind : PointerKind) (now x y : Int) (mask : Nat) (s : Pointer) : Pointer :=
  if s.viewOnly then s else { s with sent := s.sent ++ [⟨kind, now, s.mouseMessage x y mask⟩] }

def flushMouseMoveTimer (now x y : Int) (s : Pointer) : Pointer :=
  if s.mouseMoveTimer.isSome then
    { s with mouseMoveTimer := none }.sendMouse .ahead now x y s.mouseButtonMask
  else s

def handleMouseButton (now x y : Int) (s : Pointer) (bmask : Nat) : Pointer :=
  { s.flushMouseMoveTimer now x y with mouseButtonMask := bmask }.sendMouse .buttons now x y bmask

def handleMouseMove (now x y : Int) (s : Pointer) : Pointer :=
  let s := { s with mousePos := (x, y) }
  if s.mouseMoveTimer.isSome then s
  else
    let timeSinceLastMove := now - s.mouseLastMoveTime
    if MOUSE_MOVE_DELAY < timeSinceLastMove then
      { s.sendMouse .move now x y s.mouseButtonMask with mouseLastMoveTime := now }
    else { s with mouseMoveTimer := some (now + (MOUSE_MOVE_DELAY - timeSinceLastMove)) }

def handleDelayedMouseMove (now : Int) (s : Pointer) : Pointer :=
  { { s with mouseMoveTimer := none }.sendMouse .move now s.mousePos.1 s.mousePos.2
      s.mouseButtonMask with mouseLastMoveTime := now }

/-- The buttons of a wheel step, pressed and released, or nothing yet. -/
def wheelMasks (delta : Int) (bmask less more : Nat) : List Nat :=
  if delta.natAbs < WHEEL_STEP then []
  else if delta < 0 then [bmask ||| 1 <<< less, bmask]
  else [bmask ||| 1 <<< more, bmask]

/-- What is left of an accumulated distance. -/
def wheelRest (delta : Int) : Int := if delta.natAbs < WHEEL_STEP then delta else 0

/-- The distances of a wheel with this event, in pixels. -/
def wheelDeltas (s : Pointer) (lines : Bool) (dX dY : Int) : Int × Int :=
  let unit := if lines then WHEEL_LINE_HEIGHT else 1
  (s.accumulatedWheelDeltaX + dX * unit, s.accumulatedWheelDeltaY + dY * unit)

def wheelButtons (s : Pointer) (buttons : Nat) (lines : Bool) (dX dY : Int) : List Nat :=
  let bmask := convertButtonMask buttons
  let (dX, dY) := s.wheelDeltas lines dX dY
  wheelMasks dX bmask 5 6 ++ wheelMasks dY bmask 3 4

def handleWheel (now x y : Int) (buttons : Nat) (lines : Bool) (dX dY : Int) (s : Pointer) :
    Pointer :=
  if s.viewOnly then s
  else
    let deltas := s.wheelDeltas lines dX dY
    (s.wheelButtons buttons lines dX dY).foldl (handleMouseButton now x y) { s with
      accumulatedWheelDeltaX := wheelRest deltas.1
      accumulatedWheelDeltaY := wheelRest deltas.2 }

end Pointer

/-- What happens to the pointer. -/
inductive PointerEvent
  /-- `mousedown` or `mouseup`. -/
  | buttons (now x y : Int) (buttons : Nat)
  | move (now x y : Int)
  | wheel (now x y : Int) (buttons : Nat) (lines : Bool) (dX dY : Int)
  | gesture (now x y : Int) (masks : List Nat)
  | timeout (now : Int)
  | viewOnly (b : Bool)
  | extendedPointer
  deriving DecidableEq, Repr

namespace Pointer

/-- The buttons of a gesture are among the first seven, and a timer does not go off early. -/
def next (s : Pointer) : PointerEvent → Option Pointer
  | .buttons now x y buttons => some (s.handleMouseButton now x y (convertButtonMask buttons))
  | .move now x y => some (s.handleMouseMove now x y)
  | .wheel now x y buttons lines dX dY => some (s.handleWheel now x y buttons lines dX dY)
  | .gesture now x y masks =>
      if masks.all (· < 128) then
        some (masks.foldl (handleMouseButton now x y) (s.handleMouseMove now x y))
      else none
  | .timeout now =>
      if s.mouseMoveTimer.any (· ≤ now) then some (s.handleDelayedMouseMove now) else none
  | .viewOnly b => some { s with viewOnly := b }
  | .extendedPointer => some { s with extendedPointerEventSupported := true }

end Pointer

def pointerSystem : System Pointer PointerEvent where
  initial := {s | ∃ viewOnly, s = { viewOnly }}
  next := Pointer.next

end VmServer.Novnc
