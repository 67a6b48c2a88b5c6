import VmServer.Novnc.Pointer

/-!
# The pointer is where it should be

What the server is told of the buttons has the same changes as the buttons
themselves, wherever the moves in between were held back, and it has been told
of the last position as soon as no move waits. Moves that were not ahead of a
button are as far apart in time as they should be.
-/

namespace VmServer.Novnc

open Proxy TransitionSystem

/-- The changes of a value over time. -/
def changes (m : Nat) : List Nat → List Nat
  | [] => []
  | a :: l => if a = m then changes m l else a :: changes a l

theorem changes_append (m : Nat) (l l' : List Nat) :
    changes m (l ++ l') = changes m l ++ changes (l.getLastD m) l' := by
  induction l generalizing m with
  | nil => rfl
  | cons a l ih =>
      rw [List.cons_append, changes, changes, List.getLastD_cons]
      split
      case isTrue same => rw [ih, same]
      case isFalse => rw [ih, List.cons_append]

/-- The buttons that a message can tell of: all nine, or the first seven. -/
def wireMask (extended : Bool) (mask : Nat) : Nat := if extended then mask else mask % 128

namespace PointerMessage

/-- A byte of the message. -/
def byte (m : PointerMessage) (i : Nat) : Nat :=
  match m.bytes with
  | .ok bytes => (bytes.getD i 0).toNat
  | .error _ => 0

/-- The buttons that a server reads from the message: with the marker bit, more are at its end. -/
def mask (m : PointerMessage) : Nat :=
  if 128 ≤ m.byte 1 then m.byte 1 % 128 + 128 * m.byte 6 else m.byte 1

/-- The position that it reads. -/
def place (m : PointerMessage) : Int × Int :=
  ((m.byte 2 * 256 + m.byte 3 : Nat), (m.byte 4 * 256 + m.byte 5 : Nat))

end PointerMessage

/-- What has happened to the pointer since the client was last switched: to or from view-only, or
to extended messages. The buttons are those that a message can tell of. -/
structure Noted where
  sentBefore : Nat := 0
  mask : Nat := 0
  buttons : List Nat := []
  /-- Where the pointer was, since the last switch to or from view-only. -/
  place : Option (Int × Int) := none

namespace Noted

/-- The buttons change at a place. -/
def press (extended : Bool) (x y : Int) (n : Noted) (mask : Nat) : Noted :=
  { n with buttons := n.buttons ++ [wireMask extended mask], place := some (x, y) }

def move (x y : Int) (n : Noted) : Noted := { n with place := some (x, y) }

def note (s : Pointer) (e : PointerEvent) (n : Noted) : Noted :=
  let press := press s.extendedPointerEventSupported
  match e with
  | .buttons _ x y buttons => press x y n (convertButtonMask buttons)
  | .move _ x y => n.move x y
  | .wheel _ x y buttons lines dX dY =>
      if s.viewOnly then n else (s.wheelButtons buttons lines dX dY).foldl (press x y) n
  | .gesture _ x y masks => masks.foldl (press x y) (n.move x y)
  | .timeout _ => n
  | .viewOnly b =>
      if b = s.viewOnly then n
      else {
        sentBefore := s.sent.length
        mask := wireMask s.extendedPointerEventSupported s.mouseButtonMask }
  | .extendedPointer =>
      if s.extendedPointerEventSupported then n
      else { n with sentBefore := s.sent.length, mask := s.mouseButtonMask, buttons := [] }

end Noted

namespace Pointer

variable {n : Noted} {s s' : Pointer}

/-! ## Masks -/

theorem or_shift_lt {mask bit : Nat} (h : mask < 512) (low : bit < 9) :
    mask ||| 1 <<< bit < 512 := by
  have shift : 1 <<< bit < 2 ^ 9 := by
    rw [Nat.one_shiftLeft]
    exact Nat.pow_lt_pow_right (by decide) low
  exact Nat.or_lt_two_pow (n := 9) h shift

theorem convertButtonMask_lt (buttons : Nat) : convertButtonMask buttons < 512 := by
  have bits : ∀ p ∈ [(0, 0), (1, 2), (2, 1), (3, 7), (4, 8)], p.2 < 9 := by decide
  unfold convertButtonMask
  refine List.foldlRecOn (motive := (· < 512)) _ _ (by decide) fun mask h p member => ?_
  dsimp only
  split
  · exact or_shift_lt h (bits p member)
  · exact h

theorem wheelMasks_lt {delta : Int} {bmask less more : Nat} (h : bmask < 512) (low : less < 9)
    (high : more < 9) : ∀ m ∈ wheelMasks delta bmask less more, m < 512 := by
  unfold wheelMasks
  split
  · simp
  · split
    · simpa using ⟨or_shift_lt h low, h⟩
    · simpa using ⟨or_shift_lt h high, h⟩

theorem wheelButtons_lt (s : Pointer) (buttons : Nat) (lines : Bool) (dX dY : Int) :
    ∀ m ∈ s.wheelButtons buttons lines dX dY, m < 512 := by
  have h := convertButtonMask_lt buttons
  intro m member
  rcases List.mem_append.mp member with x | y
  · exact wheelMasks_lt h (by decide) (by decide) m x
  · exact wheelMasks_lt h (by decide) (by decide) m y

/-! ## What a message says -/

theorem lowByte_toNat (n : Int) : (lowByte n).toNat = (n % 256).toNat := by
  have small : (n % 256).toNat < 256 := by omega
  rw [lowByte, UInt8.toNat_ofNat', Nat.mod_eq_of_lt small]

theorem and_eq_zero_of_lt {mask : Nat} (h : mask < 512) (none : mask &&& 0x7f80 = 0) :
    mask < 128 := by
  have high : mask / 128 &&& 255 = 0 := by
    have shifted : (mask &&& 0x7f80) >>> 7 = 0 := by rw [none, Nat.zero_shiftRight]
    rwa [Nat.shiftRight_and_distrib, Nat.shiftRight_eq_div_pow] at shifted
  have few : mask / 128 < 256 := by omega
  have rest : mask / 128 = 0 := by
    rwa [show 255 = 2 ^ 8 - 1 from rfl, Nat.and_two_pow_sub_one_eq_mod,
      Nat.mod_eq_of_lt few] at high
  omega

/-- A message that can be built, and what a server reads from it. -/
structure Tells (mask : Nat) (place : Int × Int) (m : PointerMessage) : Prop where
  built : ∃ bytes, m.bytes = .ok bytes
  mask : m.mask = mask
  place : m.place = (place.1 % 65536, place.2 % 65536)

theorem tells_pointerEvent (kind : PointerKind) (now x y : Int) (mask : Nat) :
    Tells (mask % 128) (x, y) ⟨kind, now, .ok (Messages.pointerEvent x y mask)⟩ := by
  refine ⟨⟨_, rfl⟩, ?_, Prod.ext ?_ ?_⟩
  all_goals simp [PointerMessage.mask, PointerMessage.place, PointerMessage.byte,
    Messages.pointerEvent, sQpush8, sQpush16, lowByte_toNat]
  · split <;> omega
  · omega
  · omega

theorem tells_extendedPointerEvent (kind : PointerKind) (now x y : Int) {mask : Nat}
    (h : mask < 512) :
    Tells mask (x, y) ⟨kind, now, Messages.extendedPointerEvent x y mask⟩ := by
  unfold Messages.extendedPointerEvent
  dsimp only
  rw [if_neg (by omega)]
  refine ⟨⟨_, rfl⟩, ?_, Prod.ext ?_ ?_⟩
  all_goals simp [PointerMessage.mask, PointerMessage.place, PointerMessage.byte, sQpush8,
    sQpush16, lowByte_toNat]
  · split <;> omega
  · omega
  · omega

/-- No handler throws, and the server is told of the buttons and of the position. -/
theorem tells_mouseMessage (s : Pointer) (kind : PointerKind) (now x y : Int) {mask : Nat}
    (h : mask < 512) :
    Tells (wireMask s.extendedPointerEventSupported mask) (x, y)
      ⟨kind, now, s.mouseMessage x y mask⟩ := by
  have bit : mask.testBit 15 = false :=
    Nat.testBit_lt_two_pow (Nat.lt_trans h (by decide))
  unfold mouseMessage wireMask
  rw [bit, if_neg Bool.false_ne_true]
  cases s.extendedPointerEventSupported with
  | false =>
      simp only [Bool.false_eq_true, false_and, if_false]
      exact tells_pointerEvent kind now x y mask
  | true =>
      rw [if_pos rfl]
      by_cases few : mask &&& 0x7f80 = 0
      · simp only [few, ne_eq, not_true, and_false, if_false]
        have told := tells_pointerEvent kind now x y mask
        rwa [Nat.mod_eq_of_lt (and_eq_zero_of_lt h few)] at told
      · rw [if_pos ⟨rfl, few⟩]
        exact tells_extendedPointerEvent kind now x y h

/-! ## Sending -/

variable {kind : PointerKind} {now x y : Int} {mask : Nat}

/-- A message is sent, which changes nothing else. -/
theorem sendMouse_eq (kind : PointerKind) (now x y : Int) (mask : Nat) (s : Pointer) :
    s.sendMouse kind now x y mask = { s with sent :=
      s.sent ++ if s.viewOnly then [] else [⟨kind, now, s.mouseMessage x y mask⟩] } := by
  unfold sendMouse
  by_cases watches : s.viewOnly = true
  · rw [if_pos watches, if_pos watches, List.append_nil]
  · rw [if_neg watches, if_neg watches]

@[simp] theorem sendMouse_viewOnly :
    (s.sendMouse kind now x y mask).viewOnly = s.viewOnly := by rw [sendMouse_eq]

@[simp] theorem sendMouse_extended : (s.sendMouse kind now x y mask).extendedPointerEventSupported =
    s.extendedPointerEventSupported := by rw [sendMouse_eq]

@[simp] theorem sendMouse_mask :
    (s.sendMouse kind now x y mask).mouseButtonMask = s.mouseButtonMask := by rw [sendMouse_eq]

@[simp] theorem sendMouse_timer :
    (s.sendMouse kind now x y mask).mouseMoveTimer = s.mouseMoveTimer := by rw [sendMouse_eq]

@[simp] theorem sendMouse_time :
    (s.sendMouse kind now x y mask).mouseLastMoveTime = s.mouseLastMoveTime := by rw [sendMouse_eq]

theorem sendMouse_sent (control : s.viewOnly = false) :
    (s.sendMouse kind now x y mask).sent =
      s.sent ++ [⟨kind, now, s.mouseMessage x y mask⟩] := by
  rw [sendMouse_eq, control, if_neg Bool.false_ne_true]

/-! ## Buttons -/

/-- The buttons that were sent since the last switch. -/
def told (n : Noted) (s : Pointer) : List Nat := (s.sent.drop n.sentBefore).map (·.mask)

/-- The server is told of the changes of the buttons. -/
structure Told (n : Noted) (s : Pointer) : Prop where
  before : n.sentBefore ≤ s.sent.length
  same : s.viewOnly = false → changes n.mask (told n s) = changes n.mask n.buttons
  current : s.viewOnly = false → (told n s).getLastD n.mask =
    wireMask s.extendedPointerEventSupported s.mouseButtonMask
  noted : n.buttons.getLastD n.mask = wireMask s.extendedPointerEventSupported s.mouseButtonMask
  low : s.mouseButtonMask < 512
  messages : ∀ m ∈ s.sent, ∃ bytes, m.bytes = .ok bytes

theorem told_sendMouse (before : n.sentBefore ≤ s.sent.length) (control : s.viewOnly = false)
    (low : mask < 512) : told n (s.sendMouse kind now x y mask) =
      told n s ++ [wireMask s.extendedPointerEventSupported mask] := by
  rw [told, sendMouse_sent control, List.drop_append_of_le_length before, List.map_append,
    List.map_singleton, (tells_mouseMessage s kind now x y low).mask, told]

/-- The mask that is stored is sent, whether it is a new one or not. -/
theorem told_send (kind : PointerKind) (now x y : Int) (before : n.sentBefore ≤ s.sent.length)
    (same : s.viewOnly = false → changes n.mask
      (told n s ++ [wireMask s.extendedPointerEventSupported s.mouseButtonMask]) =
        changes n.mask n.buttons)
    (noted : n.buttons.getLastD n.mask =
      wireMask s.extendedPointerEventSupported s.mouseButtonMask)
    (low : s.mouseButtonMask < 512) (messages : ∀ m ∈ s.sent, ∃ bytes, m.bytes = .ok bytes) :
    Told n (s.sendMouse kind now x y s.mouseButtonMask) := by
  refine ⟨?_, fun control => ?_, fun control => ?_, ?_, ?_, ?_⟩
  · rw [sendMouse_eq, List.length_append]
    exact Nat.le_add_right_of_le before
  · rw [sendMouse_viewOnly] at control
    rw [told_sendMouse before control low]
    exact same control
  · rw [sendMouse_viewOnly] at control
    rw [told_sendMouse before control low, sendMouse_extended, sendMouse_mask,
      List.getLastD_concat]
  · rw [sendMouse_extended, sendMouse_mask]
    exact noted
  · rw [sendMouse_mask]
    exact low
  · rw [sendMouse_eq]
    refine List.forall_mem_append.mpr ⟨messages, ?_⟩
    split
    · exact fun m none => absurd none List.not_mem_nil
    · exact List.forall_mem_singleton.mpr (tells_mouseMessage s kind now x y low).built

theorem Told.resend (h : Told n s) (kind : PointerKind) (now x y : Int) :
    Told n (s.sendMouse kind now x y s.mouseButtonMask) := by
  refine told_send kind now x y h.before (fun control => ?_) h.noted h.low h.messages
  rw [changes_append, h.current control, h.same control]
  simp [changes]

/-- Another mask is sent. -/
theorem Told.press (h : Told n s) (kind : PointerKind) (now x y : Int) (low : mask < 512) :
    Told (n.press s.extendedPointerEventSupported x y mask)
      ({ s with mouseButtonMask := mask }.sendMouse kind now x y mask) := by
  refine told_send (n := n.press _ x y mask) (s := { s with mouseButtonMask := mask }) kind now x y
    h.before (fun control => ?_) ?_ low h.messages
  · have told : told (n.press s.extendedPointerEventSupported x y mask)
        { s with mouseButtonMask := mask } = Pointer.told n s := rfl
    rw [told, Noted.press, changes_append, changes_append, h.current control, h.same control,
      h.noted]
  · rw [Noted.press, List.getLastD_concat]

/-- A client that differs in nothing that the server is told of the buttons. -/
theorem Told.of_same (h : Told n s) {n' : Noted} (sent : s'.sent = s.sent)
    (viewOnly : s'.viewOnly = s.viewOnly) (mask : s'.mouseButtonMask = s.mouseButtonMask)
    (extended : s'.extendedPointerEventSupported = s.extendedPointerEventSupported)
    (before : n'.sentBefore = n.sentBefore) (start : n'.mask = n.mask)
    (buttons : n'.buttons = n.buttons) : Told n' s' := by
  have same : told n' s' = told n s := by rw [told, told, sent, before]
  refine ⟨?_, ?_, ?_, ?_, ?_, ?_⟩
  · rw [before, sent]
    exact h.before
  · rw [viewOnly, same, start, buttons]
    exact h.same
  · rw [viewOnly, same, start, mask, extended]
    exact h.current
  · rw [buttons, start, mask, extended]
    exact h.noted
  · rw [mask]
    exact h.low
  · rw [sent]
    exact h.messages

/-! ## Positions and times -/

/-- The position that was last sent. -/
def toldPlace (s : Pointer) : Option (Int × Int) := s.sent.getLast?.map (·.place)

/-- A position in two bytes each. -/
def wirePlace (p : Int × Int) : Int × Int := (p.1 % 65536, p.2 % 65536)

/-- The server is told of the position, or will be. -/
structure Placed (n : Noted) (s : Pointer) : Prop where
  there : s.viewOnly = false → s.mouseMoveTimer = none →
    ∀ p, n.place = some p → toldPlace s = some (wirePlace p)
  waits : s.mouseMoveTimer.isSome → ∀ p, n.place = some p → s.mousePos = p

/-- The moves that were sent, apart from those that went ahead of the buttons. -/
def moves (s : Pointer) : List PointerMessage := s.sent.filter (·.kind = .move)

/-- Moves are sent at most once in a while. -/
structure Paced (s : Pointer) : Prop where
  apart : (moves s).Pairwise fun m m' => m.time + MOUSE_MOVE_DELAY ≤ m'.time
  past : ∀ m ∈ moves s, m.time ≤ s.mouseLastMoveTime
  due : ∀ t, s.mouseMoveTimer = some t → t = s.mouseLastMoveTime + MOUSE_MOVE_DELAY

theorem toldPlace_sendMouse (control : s.viewOnly = false) (low : mask < 512) :
    toldPlace (s.sendMouse kind now x y mask) = some (wirePlace (x, y)) := by
  unfold toldPlace
  rw [sendMouse_sent control, List.getLast?_concat]
  exact congrArg some (tells_mouseMessage s kind now x y low).place

theorem moves_sendMouse_other (kind : PointerKind) (other : kind ≠ .move) (now x y : Int)
    (mask : Nat) (s : Pointer) : moves (s.sendMouse kind now x y mask) = moves s := by
  rw [moves, moves, sendMouse_eq, List.filter_append]
  split <;> simp [other]

theorem moves_sendMouse_move (now x y : Int) (mask : Nat) (s : Pointer) :
    moves (s.sendMouse .move now x y mask) = moves s ∨
      ∃ bytes, moves (s.sendMouse .move now x y mask) = moves s ++ [⟨.move, now, bytes⟩] := by
  unfold moves
  rw [sendMouse_eq, List.filter_append]
  split
  · exact .inl (List.append_nil _)
  · exact .inr ⟨_, rfl⟩

theorem Paced.of_same (h : Paced s) (moves : moves s' = moves s)
    (last : s'.mouseLastMoveTime = s.mouseLastMoveTime)
    (due : ∀ t, s'.mouseMoveTimer = some t → t = s.mouseLastMoveTime + MOUSE_MOVE_DELAY) :
    Paced s' := by
  refine ⟨moves ▸ h.apart, ?_, last ▸ due⟩
  rw [moves, last]
  exact h.past

/-- A move is sent, late enough after the last one. -/
theorem Paced.send (h : Paced s) (later : s.mouseLastMoveTime + MOUSE_MOVE_DELAY ≤ now)
    (added : moves s' = moves s ∨ ∃ bytes, moves s' = moves s ++ [⟨.move, now, bytes⟩])
    (last : s'.mouseLastMoveTime = now) (idle : s'.mouseMoveTimer = none) : Paced s' := by
  have onTime : ∀ m ∈ moves s, m.time + MOUSE_MOVE_DELAY ≤ now := fun m old => by
    have past := h.past m old
    omega
  unfold MOUSE_MOVE_DELAY at *
  rcases added with same | ⟨bytes, more⟩
  · refine ⟨same ▸ h.apart, ?_, fun t waits => by rw [idle] at waits; cases waits⟩
    rw [same, last]
    intro m old
    have past := onTime m old
    omega
  · refine ⟨?_, ?_, fun t waits => by rw [idle] at waits; cases waits⟩
    · rw [more, List.pairwise_append]
      refine ⟨h.apart, List.pairwise_singleton _ _, fun m old m' new => ?_⟩
      obtain rfl := List.mem_singleton.mp new
      exact onTime m old
    · rw [more, last]
      refine List.forall_mem_append.mpr ⟨fun m old => ?_, by simp⟩
      have past := onTime m old
      omega

/-- What the server knows of the pointer. -/
structure Synced (n : Noted) (s : Pointer) : Prop where
  told : Told n s
  placed : Placed n s
  paced : Paced s

theorem flush_told (h : Told n s) (now x y : Int) : Told n (s.flushMouseMoveTimer now x y) := by
  unfold flushMouseMoveTimer
  split
  · have disarmed : Told n { s with mouseMoveTimer := none } :=
      h.of_same rfl rfl rfl rfl rfl rfl rfl
    exact disarmed.resend .ahead now x y
  · exact h

/-- What else a flush leaves. -/
theorem flush_rest (now x y : Int) (s : Pointer) :
    let s' := s.flushMouseMoveTimer now x y
    s'.mouseMoveTimer = none ∧ s'.mouseLastMoveTime = s.mouseLastMoveTime ∧
      s'.extendedPointerEventSupported = s.extendedPointerEventSupported ∧ moves s' = moves s := by
  unfold flushMouseMoveTimer
  split
  case isTrue =>
    refine ⟨sendMouse_timer, sendMouse_time, sendMouse_extended, ?_⟩
    exact moves_sendMouse_other .ahead nofun now x y _ _
  case isFalse idle => exact ⟨by simpa using idle, rfl, rfl, rfl⟩

theorem handleMouseButton_synced (h : Synced n s) (now x y : Int) (low : mask < 512) :
    Synced (n.press s.extendedPointerEventSupported x y mask)
      (s.handleMouseButton now x y mask) := by
  obtain ⟨idle, time, extended, moved⟩ := flush_rest now x y s
  have timer : (s.handleMouseButton now x y mask).mouseMoveTimer = none :=
    sendMouse_timer.trans idle
  refine ⟨extended ▸ (flush_told h.told now x y).press .buttons now x y low,
    ⟨fun control _ p place => ?_, fun waits => ?_⟩,
    h.paced.of_same ?_ (sendMouse_time.trans time) ?_⟩
  · obtain rfl := Option.some.inj place
    exact toldPlace_sendMouse (sendMouse_viewOnly.symm.trans control) low
  · rw [timer] at waits
    exact absurd waits Bool.false_ne_true
  · exact (moves_sendMouse_other .buttons nofun now x y _ _).trans moved
  · rw [timer]
    exact fun t same => nomatch same

theorem handleMouseButton_extended (now x y : Int) (s : Pointer) :
    (s.handleMouseButton now x y mask).extendedPointerEventSupported =
      s.extendedPointerEventSupported :=
  sendMouse_extended.trans (flush_rest now x y s).2.2.1

theorem foldl_handleMouseButton_synced (now x y : Int) {masks : List Nat}
    (low : ∀ m ∈ masks, m < 512) (h : Synced n s) :
    Synced (masks.foldl (Noted.press s.extendedPointerEventSupported x y) n)
      (masks.foldl (handleMouseButton now x y) s) := by
  induction masks generalizing n s with
  | nil => exact h
  | cons mask masks ih =>
      obtain ⟨first, low⟩ := List.forall_mem_cons.mp low
      have rest := ih low (handleMouseButton_synced h now x y first)
      rwa [handleMouseButton_extended] at rest

theorem handleMouseMove_extended (now x y : Int) (s : Pointer) :
    (s.handleMouseMove now x y).extendedPointerEventSupported =
      s.extendedPointerEventSupported := by
  unfold handleMouseMove
  dsimp only
  split
  · rfl
  · split
    · exact sendMouse_extended
    · rfl

theorem handleMouseMove_synced (h : Synced n s) (now x y : Int) :
    Synced (n.move x y) (s.handleMouseMove now x y) := by
  have told : Told n { s with mousePos := (x, y) } := h.told.of_same rfl rfl rfl rfl rfl rfl rfl
  unfold handleMouseMove
  dsimp only
  split
  case isTrue waits =>
    -- the timer will send the new position
    refine ⟨told.of_same rfl rfl rfl rfl rfl rfl rfl, ⟨fun _ idle => ?_, fun _ p place => ?_⟩,
      h.paced.of_same rfl rfl h.paced.due⟩
    · rw [show s.mouseMoveTimer = none from idle] at waits
      exact absurd waits Bool.false_ne_true
    · exact Option.some.inj place
  case isFalse idle =>
    have idle : s.mouseMoveTimer = none := by simpa using idle
    split
    case isTrue long =>
      have timer : (sendMouse .move now x y s.mouseButtonMask
          { s with mousePos := (x, y) }).mouseMoveTimer = none := sendMouse_timer.trans idle
      refine ⟨(told.resend .move now x y).of_same rfl rfl rfl rfl rfl rfl rfl,
        ⟨fun control _ p place => ?_, fun waits => ?_⟩,
        h.paced.send ?_ (moves_sendMouse_move now x y _ _) rfl timer⟩
      · obtain rfl := Option.some.inj place
        exact toldPlace_sendMouse (sendMouse_viewOnly.symm.trans control) h.told.low
      · rw [show _ = none from timer] at waits
        exact absurd waits Bool.false_ne_true
      · unfold MOUSE_MOVE_DELAY at *
        omega
    case isFalse soon =>
      refine ⟨told.of_same rfl rfl rfl rfl rfl rfl rfl,
        ⟨fun _ idle => (nomatch idle), fun _ p place => Option.some.inj place⟩,
        h.paced.of_same rfl rfl fun t due => ?_⟩
      obtain rfl := Option.some.inj due
      omega

theorem handleDelayedMouseMove_synced (h : Synced n s) {now : Int}
    (due : s.mouseMoveTimer.any (· ≤ now)) : Synced n (s.handleDelayedMouseMove now) := by
  obtain ⟨t, armed, early⟩ : ∃ t, s.mouseMoveTimer = some t ∧ t ≤ now := by
    cases armed : s.mouseMoveTimer with
    | none => simp [armed] at due
    | some t => exact ⟨t, rfl, by simpa [armed] using due⟩
  have told : Told n { s with mouseMoveTimer := none } :=
    h.told.of_same rfl rfl rfl rfl rfl rfl rfl
  have timer : (s.handleDelayedMouseMove now).mouseMoveTimer = none := sendMouse_timer
  refine ⟨(told.resend .move now _ _).of_same rfl rfl rfl rfl rfl rfl rfl,
    ⟨fun control _ p place => ?_, fun waits => ?_⟩,
    h.paced.send ?_ (moves_sendMouse_move now _ _ _ _) rfl timer⟩
  · have waited := h.placed.waits (by rw [armed]; rfl) p place
    rw [← waited]
    exact toldPlace_sendMouse (sendMouse_viewOnly.symm.trans control) h.told.low
  · rw [timer] at waits
    exact absurd waits Bool.false_ne_true
  · have same := h.paced.due t armed
    omega

theorem handleWheel_synced (h : Synced n s) (now x y : Int) (buttons : Nat) (lines : Bool)
    (dX dY : Int) : Synced (n.note s (.wheel now x y buttons lines dX dY))
      (s.handleWheel now x y buttons lines dX dY) := by
  unfold Noted.note handleWheel
  dsimp only
  split
  · exact h
  · refine foldl_handleMouseButton_synced now x y (wheelButtons_lt s buttons lines dX dY)
      (s := { s with
        accumulatedWheelDeltaX := wheelRest (s.wheelDeltas lines dX dY).1
        accumulatedWheelDeltaY := wheelRest (s.wheelDeltas lines dX dY).2 }) ?_
    exact ⟨h.told.of_same rfl rfl rfl rfl rfl rfl rfl, ⟨h.placed.there, h.placed.waits⟩,
      h.paced.of_same rfl rfl h.paced.due⟩

/-- Nothing is told from before a switch. -/
theorem viewOnly_synced (h : Synced n s) (b : Bool) :
    Synced (n.note s (.viewOnly b)) { s with viewOnly := b } := by
  have paced : Paced { s with viewOnly := b } := h.paced.of_same rfl rfl h.paced.due
  unfold Noted.note
  dsimp only
  split
  case isTrue same =>
    subst same
    exact ⟨h.told, h.placed, paced⟩
  case isFalse =>
    refine ⟨⟨Nat.le_refl _, fun _ => ?_, fun _ => ?_, rfl, h.told.low, h.told.messages⟩,
      ⟨fun _ _ p none => (nomatch none), fun _ p none => (nomatch none)⟩, paced⟩
    · simp [Pointer.told]
    · simp [Pointer.told]

theorem extendedPointer_synced (h : Synced n s) :
    Synced (n.note s .extendedPointer) { s with extendedPointerEventSupported := true } := by
  have paced : Paced { s with extendedPointerEventSupported := true } :=
    h.paced.of_same rfl rfl h.paced.due
  unfold Noted.note
  dsimp only
  split
  case isTrue supported =>
    exact ⟨h.told.of_same rfl rfl rfl supported.symm rfl rfl rfl,
      ⟨h.placed.there, h.placed.waits⟩, paced⟩
  case isFalse =>
    refine ⟨⟨Nat.le_refl _, fun _ => ?_, fun _ => ?_, rfl, h.told.low, h.told.messages⟩,
      ⟨h.placed.there, h.placed.waits⟩, paced⟩
    · simp [Pointer.told]
    · simp [Pointer.told, wireMask]

theorem Synced.next (h : Synced n s) (e : PointerEvent) (step : s.next e = some s') :
    Synced (n.note s e) s' := by
  cases e with
  | buttons now x y buttons =>
      obtain rfl := Option.some.inj step
      exact handleMouseButton_synced h now x y (convertButtonMask_lt buttons)
  | move now x y =>
      obtain rfl := Option.some.inj step
      exact handleMouseMove_synced h now x y
  | wheel now x y buttons lines dX dY =>
      obtain rfl := Option.some.inj step
      exact handleWheel_synced h now x y buttons lines dX dY
  | gesture now x y masks =>
      obtain ⟨low, step⟩ := Option.ite_none_right_eq_some.mp step
      obtain rfl := Option.some.inj step
      have low : ∀ m ∈ masks, m < 512 := fun m member =>
        Nat.lt_trans (of_decide_eq_true (List.all_eq_true.mp low m member)) (by decide)
      have pressed := foldl_handleMouseButton_synced now x y low (handleMouseMove_synced h now x y)
      rwa [handleMouseMove_extended] at pressed
  | timeout now =>
      obtain ⟨due, step⟩ := Option.ite_none_right_eq_some.mp step
      obtain rfl := Option.some.inj step
      exact handleDelayedMouseMove_synced h due
  | viewOnly b =>
      obtain rfl := Option.some.inj step
      exact viewOnly_synced h b
  | extendedPointer =>
      obtain rfl := Option.some.inj step
      exact extendedPointer_synced h

theorem synced_start (viewOnly : Bool) : Synced {} { viewOnly } :=
  ⟨⟨Nat.le_refl _, fun _ => rfl, fun _ => rfl, rfl, Nat.succ_pos 511, fun _ sent => (nomatch sent)⟩,
    ⟨fun _ _ _ none => (nomatch none), fun waits => absurd waits Bool.false_ne_true⟩,
    ⟨List.Pairwise.nil, fun _ sent => (nomatch sent), fun _ same => (nomatch same)⟩⟩

end Pointer

open Pointer

/-- The pointer, with what has happened to it. -/
def notedSystem : System (Pointer × Noted) PointerEvent := pointerSystem.noting {} Noted.note

/-- In every run: what the server reads from the messages since the last switch has the changes of
the buttons, each once and in order, and the last position is where the pointer is unless a move
waits, as long as the client takes input; no message is one that cannot be built; and moves are
sent at most once in 17 ms, apart from those that go ahead of the buttons. -/
theorem pointer_told (x : Execution notedSystem) :
    let s := x.final.1
    let n := x.final.2
    (s.viewOnly = false → changes n.mask (told n s) = changes n.mask n.buttons ∧
      (s.mouseMoveTimer = none → ∀ p, n.place = some p → toldPlace s = some (wirePlace p))) ∧
    (∀ m ∈ s.sent, ∃ bytes, m.bytes = .ok bytes) ∧
    (moves s).Pairwise fun m m' => m.time + MOUSE_MOVE_DELAY ≤ m'.time := by
  have synced : Synced x.final.2 x.final.1 := by
    refine (Run.invariant (M := notedSystem) (I := fun p => Synced p.2 p.1) ?_ ?_ x.run).2
    · rintro ⟨s, n⟩ ⟨⟨viewOnly, rfl⟩, rfl⟩
      exact synced_start viewOnly
    · intro p e q h step
      obtain ⟨next, noted⟩ := System.noting_next.mp step
      rw [noted]
      exact h.next e next
  exact ⟨fun control => ⟨synced.told.same control, synced.placed.there control⟩,
    synced.told.messages, synced.paced.apart⟩

end VmServer.Novnc
