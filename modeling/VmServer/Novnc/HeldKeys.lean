import VmServer.Novnc.Keyboard

/-!
# Keys do not get stuck

Whatever the browser reports and whatever is mended on the way: a key that the
other end was told is down is one that the keyboard follows, with the keysym it
was pressed with, so that losing the focus releases it. Only a switch to
view-only leaves keys down, since their releases are not sent any more.
-/

namespace VmServer.Novnc

open TransitionSystem

/-- A key at the other end: its code and the keysym it was pressed with. -/
abbrev Key := String × Option Nat

def Stroke.key (stroke : Stroke) : Key := (stroke.code, stroke.keysym)

/-- The keys that are down after a stroke. -/
def afterStroke (keys : List Key) (stroke : Stroke) : List Key :=
  if stroke.down then stroke.key :: keys else keys.filter (· ≠ stroke.key)

/-- The keys that the other end was told are down. -/
def held (sent : List Stroke) : List Key := sent.foldl afterStroke []

theorem held_append (sent : List Stroke) (stroke : Stroke) :
    held (sent ++ [stroke]) = afterStroke (held sent) stroke := by
  simp [held]

namespace Input

variable {xtScancodes : String → Nat} {s s' : Input} {keysym : Option Nat} {code : String}
  {numlock capslock : Lock}

/-! ## What is sent -/

section Sends

variable (xtScancodes keysym code) (down : Bool) (s)

@[simp] theorem sendKey_keyDownList :
    (s.sendKey xtScancodes keysym code down).keyDownList = s.keyDownList := by
  unfold sendKey
  split <;> rfl

@[simp] theorem sendKey_altGrArmed :
    (s.sendKey xtScancodes keysym code down).altGrArmed = s.altGrArmed := by
  unfold sendKey
  split <;> rfl

@[simp] theorem sendKey_grabbed :
    (s.sendKey xtScancodes keysym code down).grabbed = s.grabbed := by
  unfold sendKey
  split <;> rfl

@[simp] theorem sendKey_viewOnly :
    (s.sendKey xtScancodes keysym code down).viewOnly = s.viewOnly := by
  unfold sendKey
  split <;> rfl

theorem sendKey_muted (view : s.viewOnly = true) :
    (s.sendKey xtScancodes keysym code down).sent = s.sent := by
  rw [sendKey, if_pos view]

theorem sendKey_held : held (s.sendKey xtScancodes keysym code down).sent =
    if s.viewOnly then held s.sent
    else if down then (code, keysym) :: held s.sent
    else (held s.sent).filter (· ≠ (code, keysym)) := by
  unfold sendKey
  split
  · rfl
  · exact held_append _ _

end Sends

/-- The keyboard is as it was, and no key is down that was not, apart from new ones. A view-only
client sends nothing. -/
structure Sends (new : List Key) (s s' : Input) : Prop where
  keyDownList : s'.keyDownList = s.keyDownList
  altGrArmed : s'.altGrArmed = s.altGrArmed
  grabbed : s'.grabbed = s.grabbed
  viewOnly : s'.viewOnly = s.viewOnly
  held : ∀ p ∈ held s'.sent, p ∈ new ∨ p ∈ held s.sent
  muted : s.viewOnly = true → s'.sent = s.sent

theorem sends_same (new : List Key) {s s' : Input} (keyDownList : s'.keyDownList = s.keyDownList)
    (altGrArmed : s'.altGrArmed = s.altGrArmed) (grabbed : s'.grabbed = s.grabbed)
    (viewOnly : s'.viewOnly = s.viewOnly) (sent : s'.sent = s.sent) : Sends new s s' :=
  ⟨keyDownList, altGrArmed, grabbed, viewOnly, fun _ down => .inr (sent ▸ down), fun _ => sent⟩

theorem Sends.trans {new : List Key} {s'' : Input} (h : Sends [] s s') (h' : Sends new s' s'') :
    Sends new s s'' :=
  ⟨h'.keyDownList.trans h.keyDownList, h'.altGrArmed.trans h.altGrArmed,
    h'.grabbed.trans h.grabbed, h'.viewOnly.trans h.viewOnly,
    fun p down =>
      (h'.held p down).imp_right fun down => (h.held p down).resolve_left List.not_mem_nil,
    fun view => (h'.muted (h.viewOnly.trans view)).trans (h.muted view)⟩

variable (xtScancodes)

/-- A press and a release leave no key down. -/
theorem tapKey_sends (keysym : Option Nat) (code : String) (s : Input) :
    Sends [] s (s.tapKey xtScancodes keysym code) := by
  unfold tapKey
  refine ⟨by simp, by simp, by simp, by simp, fun p down => .inr ?_, fun view => ?_⟩
  case refine_2 =>
    rw [sendKey_muted _ _ _ _ _ (by simpa using view), sendKey_muted _ _ _ _ _ view]
  rw [sendKey_held, sendKey_held, sendKey_viewOnly] at down
  split at down
  · exact down
  · simp only [Bool.false_eq_true, if_true, if_false, List.mem_filter, List.mem_cons,
      decide_eq_true_eq] at down
    exact down.1.resolve_left down.2

theorem sendCtrlAltDel_sends (s : Input) : Sends [] s (s.sendCtrlAltDel xtScancodes) := by
  unfold sendCtrlAltDel tapKey
  split
  · exact sends_same [] rfl rfl rfl rfl rfl
  case isFalse control =>
    refine ⟨by simp, by simp, by simp, by simp, fun p down => .inr ?_,
      fun view => absurd view control⟩
    simp only [sendKey_held, sendKey_viewOnly, if_neg control, if_true, Bool.false_eq_true,
      if_false, List.mem_filter, List.mem_cons, decide_eq_true_eq] at down
    tauto

theorem fixLock_sends (remote : Option Bool) (here : Lock) (down : Bool) (keysym : Nat)
    (code : String) {clear : Input → Input} (clears : ∀ s, Sends [] s (clear s)) (s : Input) :
    Sends [] s (s.fixLock xtScancodes remote here down keysym code clear) := by
  unfold fixLock
  split
  · exact sends_same [] rfl rfl rfl rfl rfl
  · split
    · exact (tapKey_sends xtScancodes _ code s).trans (clears _)
    · exact sends_same [] rfl rfl rfl rfl rfl

/-- What is sent for a key event: locks are struck, and then comes the key itself. -/
theorem handleKeyEvent_eq (keysym : Option Nat) (code : String) (down : Bool)
    (numlock capslock : Lock) (s : Input) : ∃ s₁, Sends [] s s₁ ∧
      s.handleKeyEvent xtScancodes keysym code down numlock capslock =
        s₁.sendKey xtScancodes keysym code down := by
  have clears (b : Prop) [Decidable b] {clear : Input → Input} (clears : ∀ s, Sends [] s (clear s))
      (s : Input) : Sends [] s (if b then clear s else s) := by
    split
    · exact clears s
    · exact sends_same [] rfl rfl rfl rfl rfl
  have caps : ∀ s, Sends [] s (clearCapsLock s) := fun s => sends_same [] rfl rfl rfl rfl rfl
  have num : ∀ s, Sends [] s (clearNumLock s) := fun s => sends_same [] rfl rfl rfl rfl rfl
  refine ⟨_, ?_, rfl⟩
  exact (((clears _ caps s).trans (fixLock_sends xtScancodes _ _ _ _ _ caps _)).trans
    (clears _ num _)).trans (fixLock_sends xtScancodes _ _ _ _ _ num _)

/-- A press adds the key, unless the client is view-only. -/
theorem handleKeyEvent_press (keysym : Option Nat) (code : String) (numlock capslock : Lock)
    (s : Input) : Sends (if s.viewOnly then [] else [(code, keysym)]) s
      (s.handleKeyEvent xtScancodes keysym code true numlock capslock) := by
  obtain ⟨s₁, sends, eq⟩ := handleKeyEvent_eq xtScancodes keysym code true numlock capslock s
  rw [eq, ← sends.viewOnly]
  refine sends.trans ⟨by simp, by simp, by simp, by simp, fun p down => ?_, sendKey_muted _ _ _ _ _⟩
  rw [sendKey_held] at down
  split at down
  · exact .inr down
  case isFalse control =>
    rw [if_pos rfl] at down
    rw [if_neg control]
    exact (List.mem_cons.mp down).imp_left List.mem_singleton.mpr

/-- A release takes the key away, unless the client is view-only. -/
theorem handleKeyEvent_release (keysym : Option Nat) (code : String) (numlock capslock : Lock)
    (s : Input) : let s' := s.handleKeyEvent xtScancodes keysym code false numlock capslock
      Sends [] s s' ∧ (s.viewOnly = false → (code, keysym) ∉ held s'.sent) := by
  obtain ⟨s₁, sends, eq⟩ := handleKeyEvent_eq xtScancodes keysym code false numlock capslock s
  dsimp only
  rw [eq]
  refine ⟨sends.trans ⟨by simp, by simp, by simp, by simp, fun p down => .inr ?_,
    sendKey_muted _ _ _ _ _⟩, fun control => ?_⟩
  · rw [sendKey_held] at down
    split at down
    · exact down
    · rw [if_neg Bool.false_ne_true] at down
      exact (List.mem_filter.mp down).1
  · rw [sendKey_held, sends.viewOnly, control]
    simp

/-! ## The list -/

theorem isDown_iff : s.isDown code = true ↔ ∃ k, (code, k) ∈ s.keyDownList := by
  rw [isDown, List.any_eq_true]
  constructor
  · rintro ⟨⟨c, k⟩, member, same⟩
    obtain rfl : c = code := of_decide_eq_true same
    exact ⟨k, member⟩
  · rintro ⟨k, member⟩
    exact ⟨(code, k), member, decide_eq_true rfl⟩

theorem not_isDown_iff : s.isDown code = false ↔ ∀ k, (code, k) ∉ s.keyDownList := by
  rw [← Bool.not_eq_true, isDown_iff, not_exists]

theorem mem_downKeysym (down : s.isDown code = true) :
    (code, s.downKeysym code) ∈ s.keyDownList := by
  obtain ⟨k, member⟩ := isDown_iff.mp down
  unfold downKeysym Keyed.get
  cases found : s.keyDownList.find? (Prod.fst · = code) with
  | none => exact absurd (decide_eq_true rfl) (List.find?_eq_none.mp found _ member)
  | some p =>
      have same : p.1 = code := by simpa using List.find?_some found
      rw [← same]
      exact List.mem_of_find?_eq_some found

/-- The keyboard is left in its mode, and a view-only client has sent nothing. -/
structure Follows (s s' : Input) : Prop where
  grabbed : s'.grabbed = s.grabbed
  viewOnly : s'.viewOnly = s.viewOnly
  altGrArmed : s'.altGrArmed = s.altGrArmed
  muted : s.viewOnly = true → s'.sent = s.sent

/-- A press: the key is in the list, and no other key went down. -/
theorem sendKeyEvent_press (keysym : Option Nat) (code : String) (numlock capslock : Lock)
    (s : Input) : let s' := s.sendKeyEvent xtScancodes keysym code true numlock capslock
      Follows s s' ∧ s'.keyDownList = Keyed.put Prod.fst (code, keysym) s.keyDownList ∧
        ∀ p ∈ held s'.sent, p = (code, keysym) ∨ p ∈ held s.sent := by
  have sends := handleKeyEvent_press xtScancodes keysym code numlock capslock
    { s with keyDownList := Keyed.put Prod.fst (code, keysym) s.keyDownList }
  refine ⟨⟨sends.grabbed, sends.viewOnly, sends.altGrArmed, sends.muted⟩, sends.keyDownList,
    fun p down => (sends.held p down).imp_left fun new => ?_⟩
  split at new
  · exact absurd new List.not_mem_nil
  · exact List.mem_singleton.mp new

/-- A release: the key is not in the list, and no key went down. -/
theorem sendKeyEvent_release (keysym : Option Nat) (code : String) (numlock capslock : Lock)
    (s : Input) : let s' := s.sendKeyEvent xtScancodes keysym code false numlock capslock
      Follows s s' ∧ s'.keyDownList = s.keyDownList.filter (·.1 ≠ code) ∧
        ∀ p ∈ held s'.sent, p ∈ held s.sent ∧
          (s.isDown code = true → s.viewOnly = false → p ≠ (code, keysym)) := by
  unfold sendKeyEvent
  rw [if_neg Bool.false_ne_true]
  split
  case isTrue isDown =>
    obtain ⟨sends, gone⟩ := handleKeyEvent_release xtScancodes keysym code numlock capslock
      { s with keyDownList := s.keyDownList.filter (·.1 ≠ code) }
    have before (p : Key) (down : p ∈ held _) : p ∈ held s.sent :=
      (sends.held p down).resolve_left List.not_mem_nil
    refine ⟨⟨sends.grabbed, sends.viewOnly, sends.altGrArmed, sends.muted⟩, sends.keyDownList,
      fun p down => ⟨before p down, fun _ control => ?_⟩⟩
    rintro rfl
    exact gone control down
  case isFalse up =>
    refine ⟨⟨rfl, rfl, rfl, fun _ => rfl⟩, ?_, fun p down => ⟨down, fun isDown => absurd isDown up⟩⟩
    refine (List.filter_eq_self.mpr fun p member => decide_eq_true ?_).symm
    rintro rfl
    exact up (isDown_iff.mpr ⟨p.2, member⟩)

/-! ## Every key that is down is in the list -/

/-- The keys that are down are followed, apart from those that were down when the client was made
view-only. -/
structure Tracked (platform : Platform) (abandoned : List Key) (s : Input) : Prop where
  held : ∀ p ∈ held s.sent, p ∈ s.keyDownList ∨ p ∈ abandoned
  unique : ∀ p ∈ s.keyDownList, ∀ q ∈ s.keyDownList, p.1 = q.1 → p = q
  altGr : s.altGrArmed.isSome → s.isDown "ControlLeft" = false
  capsLock : platform = .mac → s.isDown "CapsLock" = false
  unidentified : s.isDown "Unidentified" = false
  grabbed : s.grabbed = !s.viewOnly

variable {platform : Platform} {abandoned : List Key}

/-- A code that is up in the list stays up there when another key goes down. -/
theorem put_up {other : String} (up : s.isDown other = false) (apart : code ≠ other)
    (list : s'.keyDownList = Keyed.put Prod.fst (code, keysym) s.keyDownList) :
    s'.isDown other = false := by
  rw [not_isDown_iff] at up ⊢
  intro k member
  rw [list, Keyed.mem_put] at member
  rcases member with new | old
  · exact apart (congrArg Prod.fst new).symm
  · exact up k (List.mem_of_mem_eraseP old)

theorem filter_up {other : String} (up : s.isDown other = false)
    (list : s'.keyDownList = s.keyDownList.filter (·.1 ≠ code)) : s'.isDown other = false := by
  rw [not_isDown_iff] at up ⊢
  exact fun k member => up k (List.mem_filter.mp (list ▸ member)).1

theorem eq_of_fits {l : List Key} (fits : ∀ k, (code, k) ∈ l → k = keysym) {p : Key}
    (member : p ∈ l)
    (same : p.1 = code) : p = (code, keysym) :=
  Prod.ext same (fits p.2 (same ▸ member))

theorem Tracked.press (tracked : Tracked platform abandoned s)
    (fits : ∀ k, (code, k) ∈ s.keyDownList → k = keysym)
    (altGr : code = "ControlLeft" → s.altGrArmed = none)
    (capsLock : platform = .mac → code ≠ "CapsLock") (named : code ≠ "Unidentified") :
    Tracked platform abandoned (s.sendKeyEvent xtScancodes keysym code true numlock capslock) := by
  obtain ⟨follows, list, sent⟩ := sendKeyEvent_press xtScancodes keysym code numlock capslock s
  have kept {p : Key} (member : p ∈ s.keyDownList) :
      p ∈ Keyed.put Prod.fst (code, keysym) s.keyDownList := by
    by_cases same : p.1 = code
    · exact Keyed.mem_put.mpr (.inl (eq_of_fits fits member same))
    · exact Keyed.mem_put.mpr (.inr
        ((List.mem_eraseP_of_neg (by simpa using same)).mpr member))
  have whence {p : Key} (member : p ∈ Keyed.put Prod.fst (code, keysym) s.keyDownList) :
      p = (code, keysym) ∨ p ∈ s.keyDownList :=
    (Keyed.mem_put.mp member).imp_right List.mem_of_mem_eraseP
  refine ⟨fun p down => ?_, ?_, fun armed => ?_, fun mac => ?_, ?_, ?_⟩
  · rw [list]
    rcases sent p down with rfl | old
    · exact .inl (Keyed.mem_put.mpr (.inl rfl))
    · exact (tracked.held p old).imp_left kept
  · rw [list]
    intro p hp q hq same
    rcases whence hp with rfl | oldp
    · rcases whence hq with rfl | oldq
      · rfl
      · exact (eq_of_fits fits oldq same.symm).symm
    · rcases whence hq with rfl | oldq
      · exact eq_of_fits fits oldp same
      · exact tracked.unique p oldp q oldq same
  · rw [follows.altGrArmed] at armed
    refine put_up (tracked.altGr armed) (fun ctrl => ?_) list
    rw [altGr ctrl] at armed
    exact Bool.false_ne_true armed
  · exact put_up (tracked.capsLock mac) (capsLock mac) list
  · exact put_up tracked.unidentified named list
  · rw [follows.grabbed, follows.viewOnly]
    exact tracked.grabbed

/-- What a release takes out of the list is up. -/
theorem Tracked.without (tracked : Tracked platform abandoned s) (follows : Follows s s')
    (list : s'.keyDownList = s.keyDownList.filter (·.1 ≠ code))
    (sent : ∀ p ∈ VmServer.Novnc.held s'.sent, (p ∈ s.keyDownList ∧ p.1 ≠ code) ∨ p ∈ abandoned) :
    Tracked platform abandoned s' := by
  refine ⟨fun p down => ?_, ?_, fun armed => ?_, fun mac => ?_, ?_, ?_⟩
  · rw [list, List.mem_filter, decide_eq_true_eq]
    exact sent p down
  · rw [list]
    exact fun p hp q hq =>
      tracked.unique p (List.mem_filter.mp hp).1 q (List.mem_filter.mp hq).1
  · rw [follows.altGrArmed] at armed
    exact filter_up (tracked.altGr armed) list
  · exact filter_up (tracked.capsLock mac) list
  · exact filter_up tracked.unidentified list
  · rw [follows.grabbed, follows.viewOnly]
    exact tracked.grabbed

theorem Tracked.release (tracked : Tracked platform abandoned s) (control : s.viewOnly = false)
    (code : String) : Tracked platform abandoned (s.release xtScancodes code) := by
  obtain ⟨follows, list, sent⟩ :=
    sendKeyEvent_release xtScancodes (s.downKeysym code) code .null .null s
  refine tracked.without follows list fun p down => ?_
  obtain ⟨before, other⟩ := sent p down
  refine (tracked.held p before).imp_left fun member => ⟨member, fun same => ?_⟩
  have isDown : s.isDown code = true := isDown_iff.mpr ⟨p.2, same ▸ member⟩
  exact other isDown control (tracked.unique p member _ (mem_downKeysym isDown) same)

/-- A key that is struck is up again, whichever it is. -/
theorem Tracked.strike (tracked : Tracked platform abandoned s) (control : s.viewOnly = false)
    (fits : ∀ k, (code, k) ∈ s.keyDownList → k = keysym) :
    Tracked platform abandoned (s.strike xtScancodes keysym code numlock capslock) := by
  obtain ⟨follows, list, sent⟩ := sendKeyEvent_press xtScancodes keysym code numlock capslock s
  obtain ⟨follows', list', sent'⟩ := sendKeyEvent_release xtScancodes keysym code numlock capslock
    (s.sendKeyEvent xtScancodes keysym code true numlock capslock)
  have pressed :
      (s.sendKeyEvent xtScancodes keysym code true numlock capslock).isDown code = true := by
    refine isDown_iff.mpr ⟨keysym, ?_⟩
    rw [list]
    exact Keyed.mem_put.mpr (.inl rfl)
  rw [list] at list'
  have list' := list'.trans (Keyed.filter_put Prod.fst (code, keysym) s.keyDownList)
  refine tracked.without ⟨follows'.grabbed.trans follows.grabbed,
    follows'.viewOnly.trans follows.viewOnly, follows'.altGrArmed.trans follows.altGrArmed,
    fun view => absurd (control.symm.trans view) Bool.false_ne_true⟩ list' fun p down => ?_
  obtain ⟨before, other⟩ := sent' p down
  have apart := other pressed (follows.viewOnly.trans control)
  have old := (sent p before).resolve_left apart
  refine (tracked.held p old).imp_left fun member => ⟨member, fun same => apart ?_⟩
  exact eq_of_fits fits member same

/-! ## What the handlers do -/

/-- The keyboard of a client that takes input. -/
structure Typing (platform : Platform) (abandoned : List Key) (s : Input) : Prop where
  tracked : Tracked platform abandoned s
  control : s.viewOnly = false

theorem sendKeyEvent_follows (keysym : Option Nat) (code : String) (down : Bool)
    (numlock capslock : Lock) (s : Input) :
    Follows s (s.sendKeyEvent xtScancodes keysym code down numlock capslock) := by
  cases down with
  | true => exact (sendKeyEvent_press xtScancodes keysym code numlock capslock s).1
  | false => exact (sendKeyEvent_release xtScancodes keysym code numlock capslock s).1

theorem Follows.trans {s'' : Input} (h : Follows s s') (h' : Follows s' s'') : Follows s s'' :=
  ⟨h'.grabbed.trans h.grabbed, h'.viewOnly.trans h.viewOnly, h'.altGrArmed.trans h.altGrArmed,
    fun view => (h'.muted (h.viewOnly.trans view)).trans (h.muted view)⟩

theorem Typing.press (typing : Typing platform abandoned s)
    (fits : ∀ k, (code, k) ∈ s.keyDownList → k = keysym)
    (altGr : code = "ControlLeft" → s.altGrArmed = none)
    (capsLock : platform = .mac → code ≠ "CapsLock") (named : code ≠ "Unidentified") :
    Typing platform abandoned (s.sendKeyEvent xtScancodes keysym code true numlock capslock) :=
  ⟨typing.tracked.press xtScancodes fits altGr capsLock named,
    (sendKeyEvent_follows xtScancodes _ _ _ _ _ s).viewOnly.trans typing.control⟩

theorem Typing.strike (typing : Typing platform abandoned s)
    (fits : ∀ k, (code, k) ∈ s.keyDownList → k = keysym) :
    Typing platform abandoned (s.strike xtScancodes keysym code numlock capslock) :=
  ⟨typing.tracked.strike xtScancodes typing.control fits,
    ((sendKeyEvent_follows xtScancodes _ _ _ _ _ s).trans
      (sendKeyEvent_follows xtScancodes _ _ _ _ _ _)).viewOnly.trans typing.control⟩

theorem Typing.release (typing : Typing platform abandoned s) (code : String) :
    Typing platform abandoned (s.release xtScancodes code) :=
  ⟨typing.tracked.release xtScancodes typing.control code,
    (sendKeyEvent_follows xtScancodes _ _ _ _ _ s).viewOnly.trans typing.control⟩

/-- The keyboard waits no longer for the second half of AltGr. -/
theorem Typing.disarm (typing : Typing platform abandoned s) :
    Typing platform abandoned { s with altGrArmed := none } :=
  ⟨⟨typing.tracked.held, typing.tracked.unique, fun armed => absurd armed Bool.false_ne_true,
    typing.tracked.capsLock, typing.tracked.unidentified, typing.tracked.grabbed⟩, typing.control⟩

/-- A Ctrl that was held back is not in the list, and is sent. -/
theorem Typing.control_press (typing : Typing platform abandoned s) (armed : s.altGrArmed.isSome) :
    Typing platform abandoned ({ s with altGrArmed := none }.sendKeyEvent xtScancodes
      (some XK_Control_L) "ControlLeft" true numlock capslock) := by
  have up := not_isDown_iff.mp (typing.tracked.altGr armed)
  exact typing.disarm.press xtScancodes (fun k member => absurd member (up k)) (fun _ => rfl)
    (fun _ => by decide) (by decide)

theorem Typing.interrupt (typing : Typing platform abandoned s) :
    Typing platform abandoned (s.interruptAltGrSequence xtScancodes) := by
  unfold interruptAltGrSequence
  split
  case isTrue armed => exact typing.control_press xtScancodes armed
  case isFalse => exact typing

theorem Typing.resolve (typing : Typing platform abandoned s) (e : KeyEvent) (numlock : Lock) :
    Typing platform abandoned (s.resolveAltGr xtScancodes e numlock).2 ∧
      (s.resolveAltGr xtScancodes e numlock).2.altGrArmed = none := by
  unfold resolveAltGr
  split
  case h_1 idle => exact ⟨typing, idle⟩
  case h_2 altGrCtrlTime armed =>
    dsimp only
    split
    · exact ⟨typing.disarm, rfl⟩
    · exact ⟨typing.control_press xtScancodes (by rw [armed]; rfl),
        (sendKeyEvent_follows xtScancodes _ _ _ _ _ _).altGrArmed⟩

/-- The keysym of a press is that of the key, if it is down. -/
theorem Tracked.fits (tracked : Tracked platform abandoned s) (code : String)
    (keysym : Option Nat) :
    ∀ k, (code, k) ∈ s.keyDownList → k = s.pressedKeysym code keysym := by
  intro k member
  have isDown : s.isDown code = true := isDown_iff.mpr ⟨k, member⟩
  rw [pressedKeysym, if_pos isDown]
  exact congrArg Prod.snd (tracked.unique _ member _ (mem_downKeysym isDown) rfl)

theorem Typing.pressKey (typing : Typing platform abandoned s) (idle : s.altGrArmed = none)
    (e : KeyEvent) :
    Typing platform abandoned (s.pressKey xtScancodes platform e keysym numlock capslock) := by
  unfold Input.pressKey
  dsimp only
  split
  case isTrue unidentified =>
    split
    · exact typing
    · refine typing.strike xtScancodes fun k member => ?_
      rw [unidentified] at member
      exact absurd member (not_isDown_iff.mp typing.tracked.unidentified k)
  case isFalse named =>
    have fits := typing.tracked.fits e.code (platformKeysym platform keysym)
    split
    · exact typing.strike xtScancodes fits
    split
    case isTrue caps =>
      refine typing.strike xtScancodes fun k member => ?_
      exact absurd member (not_isDown_iff.mp (typing.tracked.capsLock caps.1) k)
    case isFalse notCaps =>
      split
      · exact typing.strike xtScancodes fits
      split
      case isTrue ctrl =>
        have up : s.isDown "ControlLeft" = false := by simpa using ctrl.2.2
        exact ⟨⟨typing.tracked.held, typing.tracked.unique, fun _ => up, typing.tracked.capsLock,
          typing.tracked.unidentified, typing.tracked.grabbed⟩, typing.control⟩
      case isFalse =>
        exact typing.press xtScancodes fits (fun _ => idle) (fun mac caps => notCaps ⟨mac, caps⟩)
          named

theorem Typing.keyDown (typing : Typing platform abandoned s) (e : KeyEvent) :
    Typing platform abandoned (s.handleKeyDown xtScancodes platform e) := by
  obtain ⟨resolved, idle⟩ := typing.resolve xtScancodes e _
  exact resolved.pressKey xtScancodes idle e

theorem Typing.keyUp (typing : Typing platform abandoned s) (code : String) :
    Typing platform abandoned (s.handleKeyUp xtScancodes platform code) := by
  have interrupted := typing.interrupt xtScancodes
  unfold handleKeyUp
  dsimp only
  split
  case isTrue caps =>
    refine interrupted.strike xtScancodes fun k member => ?_
    exact absurd member (not_isDown_iff.mp (interrupted.tracked.capsLock caps.1) k)
  case isFalse =>
    have released := interrupted.release xtScancodes code
    split
    · exact (released.release xtScancodes _).release xtScancodes _
    · exact released

/-! ## All keys up -/

theorem release_keyDownList (code : String) (s : Input) :
    (s.release xtScancodes code).keyDownList = s.keyDownList.filter (·.1 ≠ code) :=
  (sendKeyEvent_release xtScancodes _ _ _ _ s).2.1

/-- The keys that are still down after some were released. -/
theorem foldl_release_keyDownList (codes : List String) (s : Input) :
    (codes.foldl (fun s code => s.release xtScancodes code) s).keyDownList =
      s.keyDownList.filter (·.1 ∉ codes) := by
  induction codes generalizing s with
  | nil => simp
  | cons code codes ih =>
      rw [List.foldl_cons, ih, release_keyDownList, List.filter_filter]
      refine List.filter_congr fun p _ => ?_
      simp [Bool.and_comm]

theorem allKeysUp_keyDownList (s : Input) : (s.allKeysUp xtScancodes).keyDownList = [] := by
  unfold allKeysUp
  dsimp only
  rw [foldl_release_keyDownList, List.filter_eq_nil_iff]
  intro p member
  simpa using ⟨p.2, member⟩

theorem Typing.foldl_release (codes : List String) (typing : Typing platform abandoned s) :
    Typing platform abandoned (codes.foldl (fun s code => s.release xtScancodes code) s) := by
  induction codes generalizing s with
  | nil => exact typing
  | cons code codes ih => exact ih (typing.release xtScancodes code)

theorem Typing.allKeysUp (typing : Typing platform abandoned s) :
    Typing platform abandoned (s.allKeysUp xtScancodes) :=
  (typing.interrupt xtScancodes).foldl_release xtScancodes _

theorem foldl_release_follows (codes : List String) (s : Input) :
    Follows s (codes.foldl (fun s code => s.release xtScancodes code) s) := by
  induction codes generalizing s with
  | nil => exact ⟨rfl, rfl, rfl, fun _ => rfl⟩
  | cons code codes ih => exact (sendKeyEvent_follows xtScancodes _ _ _ _ _ s).trans (ih _)

theorem interruptAltGrSequence_follows (s : Input) :
    Follows { s with altGrArmed := none } (s.interruptAltGrSequence xtScancodes) := by
  unfold interruptAltGrSequence
  split
  · exact sendKeyEvent_follows xtScancodes _ _ _ _ _ _
  case isFalse idle =>
    have idle : s.altGrArmed = none := by simpa using idle
    exact ⟨rfl, rfl, idle, fun _ => rfl⟩

theorem allKeysUp_follows (s : Input) :
    Follows { s with altGrArmed := none } (s.allKeysUp xtScancodes) :=
  (interruptAltGrSequence_follows xtScancodes s).trans (foldl_release_follows xtScancodes _ _)

/-! ## Runs -/

theorem Tracked.sends (tracked : Tracked platform abandoned s) (sends : Sends [] s s') :
    Tracked platform abandoned s' := by
  have up (code : String) : s'.isDown code = s.isDown code := by
    rw [isDown, sends.keyDownList, isDown]
  refine ⟨fun p down => ?_, ?_, ?_, ?_, ?_, ?_⟩
  · rw [sends.keyDownList]
    exact tracked.held p ((sends.held p down).resolve_left List.not_mem_nil)
  · rw [sends.keyDownList]
    exact tracked.unique
  · rw [up, sends.altGrArmed]
    exact tracked.altGr
  · rw [up]
    exact tracked.capsLock
  · rw [up]
    exact tracked.unidentified
  · rw [sends.grabbed, sends.viewOnly]
    exact tracked.grabbed

/-- Ctrl is up again after a pinch. -/
theorem pinch_sends (zooms : Bool) (s : Input) :
    Sends [] s (handleKeyEvent xtScancodes (some XK_Control_L) "ControlLeft" false .undefined
      .undefined (if zooms then handleKeyEvent xtScancodes (some XK_Control_L) "ControlLeft" true
        .undefined .undefined s else s)) := by
  cases zooms with
  | false => exact (handleKeyEvent_release xtScancodes _ _ _ _ s).1
  | true =>
      have press := handleKeyEvent_press xtScancodes (some XK_Control_L) "ControlLeft" .undefined
        .undefined s
      obtain ⟨release, gone⟩ := handleKeyEvent_release xtScancodes (some XK_Control_L)
        "ControlLeft" .undefined .undefined (handleKeyEvent xtScancodes (some XK_Control_L)
          "ControlLeft" true .undefined .undefined s)
      refine ⟨release.keyDownList.trans press.keyDownList,
        release.altGrArmed.trans press.altGrArmed,
        release.grabbed.trans press.grabbed, release.viewOnly.trans press.viewOnly,
        fun p down => ?_,
        fun view => (release.muted (press.viewOnly.trans view)).trans (press.muted view)⟩
      have before := press.held p ((release.held p down).resolve_left List.not_mem_nil)
      refine before.imp_left fun new => ?_
      split at new
      · exact new
      case isFalse control =>
        obtain rfl := List.mem_singleton.mp new
        exact absurd down (gone (press.viewOnly.trans (by simpa using control)))

/-- The keys that were down when the client was last made view-only. -/
def abandon (s : Input) (e : InputEvent) (keys : List Key) : List Key :=
  if e = .viewOnly true then VmServer.Novnc.held s.sent else keys

/-- What is so of the keyboard at any time. -/
structure Followed (platform : Platform) (abandoned : List Key) (s : Input) : Prop where
  tracked : Tracked platform abandoned s
  silent : s.viewOnly = true → s.keyDownList = [] ∧ s.altGrArmed = none

theorem Followed.sends (followed : Followed platform abandoned s) (sends : Sends [] s s') :
    Followed platform abandoned s' := by
  refine ⟨followed.tracked.sends sends, ?_⟩
  rw [sends.viewOnly, sends.keyDownList, sends.altGrArmed]
  exact followed.silent

theorem Typing.followed (typing : Typing platform abandoned s) : Followed platform abandoned s :=
  ⟨typing.tracked, fun view => absurd (typing.control.symm.trans view) Bool.false_ne_true⟩

theorem Followed.typing (followed : Followed platform abandoned s) (grabbed : s.grabbed = true) :
    Typing platform abandoned s :=
  ⟨followed.tracked, by simpa [grabbed] using followed.tracked.grabbed.symm⟩

/-- The switch to view-only sends nothing. -/
theorem setViewOnly_sent (s : Input) : (s.setViewOnly xtScancodes true).sent = s.sent :=
  (allKeysUp_follows xtScancodes { s with viewOnly := true, grabbed := false }).muted rfl

/-- The switch to view-only forgets the keys that are down. -/
theorem setViewOnly_followed (platform : Platform) (s : Input) :
    Followed platform (VmServer.Novnc.held s.sent) (s.setViewOnly xtScancodes true) := by
  have follows := allKeysUp_follows xtScancodes { s with viewOnly := true, grabbed := false }
  have list := allKeysUp_keyDownList xtScancodes { s with viewOnly := true, grabbed := false }
  have up (code : String) : (s.setViewOnly xtScancodes true).isDown code = false := by
    rw [isDown, show (s.setViewOnly xtScancodes true).keyDownList = [] from list]
    rfl
  refine ⟨⟨fun p down => .inr (setViewOnly_sent xtScancodes s ▸ down), ?_, fun _ => up _,
    fun _ => up _, up _,
    ?_⟩, fun _ => ⟨list, follows.altGrArmed⟩⟩
  · rw [show (s.setViewOnly xtScancodes true).keyDownList = [] from list]
    exact fun p member => absurd member List.not_mem_nil
  · exact follows.grabbed.trans (congrArg not follows.viewOnly.symm)

theorem Followed.next (followed : Followed platform abandoned s) (e : InputEvent)
    (h : s.next xtScancodes platform e = some s') :
    Followed platform (abandon s e abandoned) s' := by
  cases e with
  | keyDown e =>
      obtain ⟨grabbed, h⟩ := Option.ite_none_right_eq_some.mp h
      obtain rfl := Option.some.inj h
      exact ((followed.typing grabbed).keyDown xtScancodes e).followed
  | keyUp code =>
      obtain ⟨grabbed, h⟩ := Option.ite_none_right_eq_some.mp h
      obtain rfl := Option.some.inj h
      exact ((followed.typing grabbed).keyUp xtScancodes code).followed
  | blur =>
      obtain ⟨grabbed, h⟩ := Option.ite_none_right_eq_some.mp h
      obtain rfl := Option.some.inj h
      exact ((followed.typing grabbed).allKeysUp xtScancodes).followed
  | altGrTimeout =>
      obtain ⟨armed, h⟩ := Option.ite_none_right_eq_some.mp h
      obtain rfl := Option.some.inj h
      have control : s.viewOnly = false := by
        refine Bool.eq_false_iff.mpr fun view => ?_
        rw [(followed.silent view).2] at armed
        exact Bool.false_ne_true armed
      exact (Typing.interrupt xtScancodes ⟨followed.tracked, control⟩).followed
  | viewOnly b =>
      obtain rfl := Option.some.inj h
      cases b with
      | true => exact setViewOnly_followed xtScancodes platform s
      | false =>
          exact Typing.followed ⟨⟨followed.tracked.held, followed.tracked.unique,
            followed.tracked.altGr, followed.tracked.capsLock, followed.tracked.unidentified, rfl⟩,
            rfl⟩
  | ctrlAltDel =>
      obtain rfl := Option.some.inj h
      exact followed.sends (sendCtrlAltDel_sends xtScancodes s)
  | tap keysym code =>
      obtain rfl := Option.some.inj h
      exact followed.sends (tapKey_sends xtScancodes keysym code s)
  | pinch zooms =>
      obtain rfl := Option.some.inj h
      exact followed.sends (pinch_sends xtScancodes zooms s)
  | leds capsLock numLock =>
      obtain rfl := Option.some.inj h
      exact followed.sends (sends_same [] rfl rfl rfl rfl rfl)
  | extendedKeys =>
      obtain rfl := Option.some.inj h
      exact followed.sends (sends_same [] rfl rfl rfl rfl rfl)

theorem followed_start (viewOnly : Bool) :
    Followed platform [] { viewOnly, grabbed := !viewOnly } :=
  ⟨⟨fun _ down => absurd down List.not_mem_nil, fun _ member => absurd member List.not_mem_nil,
    fun _ => rfl, fun _ => rfl, rfl, rfl⟩, fun _ => ⟨rfl, rfl⟩⟩

end Input

open Input

/-- The client, with the keys that were down when it was last made view-only. -/
def keySystem (xtScancodes : String → Nat) (platform : Platform) :
    System (Input × List Key) InputEvent :=
  (inputSystem xtScancodes platform).noting [] abandon

theorem keySystem_followed {xtScancodes : String → Nat} {platform : Platform}
    (x : Execution (keySystem xtScancodes platform)) :
    Followed platform x.final.2 x.final.1 := by
  refine (Run.invariant (M := keySystem xtScancodes platform)
    (I := fun p => Followed platform p.2 p.1) ?_ ?_ x.run).2
  · rintro ⟨s, keys⟩ ⟨⟨viewOnly, rfl⟩, rfl⟩
    exact followed_start viewOnly
  · intro p e q followed h
    obtain ⟨next, abandoned⟩ := System.noting_next.mp h
    rw [abandoned]
    exact followed.next xtScancodes e next

/-- Whatever the keyboard, the page and the other end do, on every system: a key that the other
end was told is down is followed, with the keysym it was pressed with, or was down when the client
was last made view-only. When the window loses the focus, only the latter stay down; when the
client is made view-only, all of them do. -/
theorem keys_released (xtScancodes : String → Nat) (platform : Platform)
    (x : Execution (keySystem xtScancodes platform)) :
    (∀ p ∈ held x.final.1.sent, p ∈ x.final.1.keyDownList ∨ p ∈ x.final.2) ∧
      (∀ p ∈ held (x.final.1.allKeysUp xtScancodes).sent, p ∈ x.final.2) ∧
      held (x.final.1.setViewOnly xtScancodes true).sent = held x.final.1.sent := by
  have followed := keySystem_followed x
  refine ⟨followed.tracked.held, fun p down => ?_,
    congrArg held (setViewOnly_sent xtScancodes x.final.1)⟩
  cases view : x.final.1.viewOnly with
  | true =>
      have same := (allKeysUp_follows xtScancodes x.final.1).muted view
      have before : p ∈ held x.final.1.sent := same ▸ down
      refine (followed.tracked.held p before).resolve_left fun member => ?_
      rw [(followed.silent view).1] at member
      exact List.not_mem_nil member
  | false =>
      have typing := Typing.allKeysUp xtScancodes ⟨followed.tracked, view⟩
      refine (typing.tracked.held p down).resolve_left fun member => ?_
      rw [allKeysUp_keyDownList] at member
      exact List.not_mem_nil member

end VmServer.Novnc
