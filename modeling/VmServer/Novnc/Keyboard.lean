import VmServer.Library.Keyed
import VmServer.Library.TransitionSystem
import VmServer.Proxy.ClientEncoders

/-!
# The keyboard of the console client

The client follows which keys are down, so that it can release them all when
the window loses the focus. What the browser reports is mended on the way: a
fake Ctrl that Windows sends ahead of AltGr is held back for a moment, and
releases that a system is known to leave out are made up.

## Implementation notes

A key event comes with the code and the keysym that were found for it. The
client is connected, and no key was pressed while it was connecting: such a key
is followed, but the server is not told of it. The table of scan codes is a
parameter, in which 0 stands for a code that it does not have. Where a key is
tracked by nothing but its code, `keyDownList` has its keysym.
-/

namespace VmServer.Novnc

open Proxy TransitionSystem

def XK_Romaji : Nat := 0xff24
def XK_Hiragana : Nat := 0xff25
def XK_Katakana : Nat := 0xff26
def XK_Zenkaku_Hankaku : Nat := 0xff2a
def XK_Eisu_toggle : Nat := 0xff30
def XK_Mode_switch : Nat := 0xff7e
def XK_Num_Lock : Nat := 0xff7f
def XK_Control_L : Nat := 0xffe3
def XK_Caps_Lock : Nat := 0xffe5
def XK_Alt_L : Nat := 0xffe9
def XK_Alt_R : Nat := 0xffea
def XK_Super_L : Nat := 0xffeb
def XK_Super_R : Nat := 0xffec
def XK_Delete : Nat := 0xffff
def XK_ISO_Level3_Shift : Nat := 0xfe03

/-- `isMac() || isIOS()`, `isWindows()`, or neither. -/
inductive Platform
  | mac
  | windows
  | other
  deriving DecidableEq, Repr

/-- What the keyboard reads of a key event; the keysym is `none` for an unknown key. -/
structure KeyEvent where
  code : String
  keysym : Option Nat
  numLock : Bool := false
  capsLock : Bool := false
  metaKey : Bool := false
  timeStamp : Nat := 0
  deriving DecidableEq, Repr

/-- What a handler is told of a lock: nothing, no argument at all, or its state. -/
inductive Lock
  | null
  | undefined
  | state (on : Bool)
  deriving DecidableEq, Repr

/-- A key that the client was to send, and the message it has sent, if any. -/
structure Stroke where
  code : String
  keysym : Option Nat
  down : Bool
  message : List UInt8
  deriving DecidableEq, Repr

/-- The keyboard and what of the client its events go through. -/
structure Input where
  keyDownList : List (String × Option Nat) := []
  /-- The time of a Ctrl that may be the first half of AltGr. -/
  altGrArmed : Option Nat := none
  /-- The keyboard was grabbed. -/
  grabbed : Bool := true
  viewOnly : Bool := false
  remoteCapsLock : Option Bool := none
  remoteNumLock : Option Bool := none
  qemuExtKeyEventSupported : Bool := false
  sent : List Stroke := []
  deriving DecidableEq, Repr

namespace Input

variable (xtScancodes : String → Nat)

/-! ## Sending -/

def keyMessage (s : Input) (keysym : Option Nat) (code : String) (down : Bool) : List UInt8 :=
  let scancode := xtScancodes code
  let keysym := keysym.getD 0
  if s.qemuExtKeyEventSupported ∧ scancode ≠ 0 then
    Messages.qemuExtendedKeyEvent keysym (if down then 1 else 0) scancode
  else if keysym = 0 then []
  else Messages.keyEvent keysym (if down then 1 else 0)

def sendKey (keysym : Option Nat) (code : String) (down : Bool) (s : Input) : Input :=
  if s.viewOnly then s
  else
    { s with sent := s.sent ++ [⟨code, keysym, down, s.keyMessage xtScancodes keysym code down⟩] }

/-- Without `down`, a press and a release. -/
def tapKey (keysym : Option Nat) (code : String) (s : Input) : Input :=
  (s.sendKey xtScancodes keysym code true).sendKey xtScancodes keysym code false

def sendCtrlAltDel (s : Input) : Input :=
  if s.viewOnly then s
  else
    let s := s.sendKey xtScancodes (some XK_Control_L) "ControlLeft" true
    let s := s.sendKey xtScancodes (some XK_Alt_L) "AltLeft" true
    let s := s.tapKey xtScancodes (some XK_Delete) "Delete"
    let s := s.sendKey xtScancodes (some XK_Alt_L) "AltLeft" false
    s.sendKey xtScancodes (some XK_Control_L) "ControlLeft" false

/-- A lock that is known to be different at the other end is struck first, once. One that the
handler has no argument for is taken to be different. -/
def fixLock (remote : Option Bool) (here : Lock) (down : Bool) (keysym : Nat) (code : String)
    (clear : Input → Input) (s : Input) : Input :=
  match remote with
  | none => s
  | some remote =>
      if here ≠ .null ∧ here ≠ .state remote ∧ down then
        clear (s.tapKey xtScancodes (some keysym) code)
      else s

def clearCapsLock (s : Input) : Input := { s with remoteCapsLock := none }

def clearNumLock (s : Input) : Input := { s with remoteNumLock := none }

def handleKeyEvent (keysym : Option Nat) (code : String) (down : Bool)
    (numlock capslock : Lock) (s : Input) : Input :=
  let s := if code = "CapsLock" ∧ down then s.clearCapsLock else s
  let s :=
    s.fixLock xtScancodes s.remoteCapsLock capslock down XK_Caps_Lock "CapsLock" clearCapsLock
  let s := if code = "NumLock" ∧ down then s.clearNumLock else s
  let s := s.fixLock xtScancodes s.remoteNumLock numlock down XK_Num_Lock "NumLock" clearNumLock
  s.sendKey xtScancodes keysym code down

/-! ## The keyboard -/

/-- `code in this._keyDownList` -/
def isDown (s : Input) (code : String) : Bool := s.keyDownList.any (·.1 = code)

/-- `this._keyDownList[code]` -/
def downKeysym (s : Input) (code : String) : Option Nat :=
  ((Keyed.get Prod.fst code s.keyDownList).map Prod.snd).getD none

/-- A release of a key that is not down is left out. -/
def sendKeyEvent (keysym : Option Nat) (code : String) (down : Bool)
    (numlock capslock : Lock) (s : Input) : Input :=
  if down then
    { s with keyDownList := Keyed.put Prod.fst (code, keysym) s.keyDownList }.handleKeyEvent
      xtScancodes keysym code true numlock capslock
  else if s.isDown code then
    { s with keyDownList := s.keyDownList.filter (·.1 ≠ code) }.handleKeyEvent
      xtScancodes keysym code false numlock capslock
  else s

/-- A press and a release right after each other. -/
def strike (keysym : Option Nat) (code : String) (numlock capslock : Lock) (s : Input) :
    Input :=
  (s.sendKeyEvent xtScancodes keysym code true numlock capslock).sendKeyEvent xtScancodes keysym
    code false numlock capslock

def interruptAltGrSequence (s : Input) : Input :=
  if s.altGrArmed.isSome then
    { s with altGrArmed := none }.sendKeyEvent xtScancodes (some XK_Control_L) "ControlLeft" true
      .null .null
  else s

/-- The modifiers of a Mac keyboard. -/
def platformKeysym (platform : Platform) (keysym : Option Nat) : Option Nat :=
  if platform ≠ .mac then keysym
  else if keysym = some XK_Super_L then some XK_Alt_L
  else if keysym = some XK_Super_R then some XK_Super_L
  else if keysym = some XK_Alt_L then some XK_Mode_switch
  else if keysym = some XK_Alt_R then some XK_ISO_Level3_Shift
  else keysym

/-- A key that is pressed already keeps its keysym. -/
def pressedKeysym (s : Input) (code : String) (keysym : Option Nat) : Option Nat :=
  if s.isDown code then s.downKeysym code else keysym

def jpBadKeys : List Nat :=
  [XK_Zenkaku_Hankaku, XK_Eisu_toggle, XK_Katakana, XK_Hiragana, XK_Romaji]

/-- The first half of `_handleKeyDown`: a Ctrl that was held back is sent, or was part of AltGr. -/
def resolveAltGr (e : KeyEvent) (numlock : Lock) (s : Input) : Option Nat × Input :=
  match s.altGrArmed with
  | none => (e.keysym, s)
  | some altGrCtrlTime =>
      let s := { s with altGrArmed := none }
      if e.code = "AltRight" ∧ e.timeStamp - altGrCtrlTime < 50 then (some XK_ISO_Level3_Shift, s)
      else (e.keysym, s.sendKeyEvent xtScancodes (some XK_Control_L) "ControlLeft" true numlock
        (.state e.capsLock))

/-- The second half of `_handleKeyDown`. -/
def pressKey (platform : Platform) (e : KeyEvent) (keysym : Option Nat) (numlock capslock : Lock)
    (s : Input) : Input :=
  if e.code = "Unidentified" then
    if keysym.getD 0 = 0 then s else s.strike xtScancodes keysym e.code numlock capslock
  else
    let keysym := s.pressedKeysym e.code (platformKeysym platform keysym)
    if platform = .mac ∧ e.metaKey ∧ e.code ≠ "MetaLeft" ∧ e.code ≠ "MetaRight" then
      s.strike xtScancodes keysym e.code numlock capslock
    else if platform = .mac ∧ e.code = "CapsLock" then
      s.strike xtScancodes (some XK_Caps_Lock) "CapsLock" numlock capslock
    else if platform = .windows ∧ keysym.any (· ∈ jpBadKeys) then
      s.strike xtScancodes keysym e.code numlock capslock
    else if e.code = "ControlLeft" ∧ platform = .windows ∧ ¬s.isDown "ControlLeft" then
      { s with altGrArmed := some e.timeStamp }
    else s.sendKeyEvent xtScancodes keysym e.code true numlock capslock

def handleKeyDown (platform : Platform) (e : KeyEvent) (s : Input) : Input :=
  let numlock := if platform = .mac then .null else .state e.numLock
  let (keysym, s) := s.resolveAltGr xtScancodes e numlock
  s.pressKey xtScancodes platform e keysym numlock (.state e.capsLock)

def release (code : String) (s : Input) : Input :=
  s.sendKeyEvent xtScancodes (s.downKeysym code) code false .null .null

def handleKeyUp (platform : Platform) (code : String) (s : Input) : Input :=
  let s := s.interruptAltGrSequence xtScancodes
  if platform = .mac ∧ code = "CapsLock" then
    s.strike xtScancodes (some XK_Caps_Lock) "CapsLock" .null .null
  else
    let s := s.release xtScancodes code
    -- Windows leaves out the release of one Shift while the other one is down
    if platform = .windows ∧ (code = "ShiftLeft" ∨ code = "ShiftRight") then
      (s.release xtScancodes "ShiftRight").release xtScancodes "ShiftLeft"
    else s

/-- The keys that are down are released in the order of the list. -/
def allKeysUp (s : Input) : Input :=
  let s := s.interruptAltGrSequence xtScancodes
  (s.keyDownList.map Prod.fst).foldl (fun s code => s.release xtScancodes code) s

/-- The setter, on a client that is connected. -/
def setViewOnly (viewOnly : Bool) (s : Input) : Input :=
  let s := { s with viewOnly }
  if viewOnly then { s with grabbed := false }.allKeysUp xtScancodes else { s with grabbed := true }

end Input

/-- What happens to the keyboard of a connected client. A pinch on a touch screen holds Ctrl for
the steps it zooms, if there are any. -/
inductive InputEvent
  | keyDown (e : KeyEvent)
  | keyUp (code : String)
  | blur
  /-- 100 ms after a Ctrl that may be the first half of AltGr. -/
  | altGrTimeout
  | viewOnly (b : Bool)
  | ctrlAltDel
  /-- A key of the page's tool bar. -/
  | tap (keysym : Option Nat) (code : String)
  | pinch (zooms : Bool)
  | leds (capsLock numLock : Bool)
  | extendedKeys
  deriving DecidableEq, Repr

namespace Input

variable (xtScancodes : String → Nat)

def next (platform : Platform) (s : Input) : InputEvent → Option Input
  | .keyDown e => if s.grabbed then some (s.handleKeyDown xtScancodes platform e) else none
  | .keyUp code => if s.grabbed then some (s.handleKeyUp xtScancodes platform code) else none
  | .blur => if s.grabbed then some (s.allKeysUp xtScancodes) else none
  | .altGrTimeout =>
      if s.altGrArmed.isSome then some (s.interruptAltGrSequence xtScancodes) else none
  | .viewOnly b => some (s.setViewOnly xtScancodes b)
  | .ctrlAltDel => some (s.sendCtrlAltDel xtScancodes)
  | .tap keysym code => some (s.tapKey xtScancodes keysym code)
  | .pinch zooms =>
      let ctrl := fun down => handleKeyEvent xtScancodes (some XK_Control_L) "ControlLeft" down
        .undefined .undefined
      some (ctrl false (if zooms then ctrl true s else s))
  | .leds capsLock numLock =>
      some { s with remoteCapsLock := some capsLock, remoteNumLock := some numLock }
  | .extendedKeys => some { s with qemuExtKeyEventSupported := true }

end Input

/-- A client that has just connected, with no key down. -/
def inputSystem (xtScancodes : String → Nat) (platform : Platform) : System Input InputEvent where
  initial := {s | ∃ viewOnly, s = { viewOnly, grabbed := !viewOnly }}
  next := Input.next xtScancodes platform

end VmServer.Novnc
