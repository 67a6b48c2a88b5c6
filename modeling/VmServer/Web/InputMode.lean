import VmServer.Library.Contributions
import VmServer.Web.Console

/-!
# Whose input the page sends

The page writes its mode and the view-only flag of its RFB object in different
places: polls, clicks and timers may change the one, the other or both, and an
object keeps the mode of its URL whatever the page does later. The two still
agree after every handler, and no object that asked the server for a view-only
connection is ever allowed to send input.
-/

namespace VmServer.Web

open TransitionSystem Vm

/-- An object that may send input was opened in control mode. -/
def Rfb.Entitled (o : Rfb) : Prop := o.viewOnly = false → o.mode = .control

/-- The object fits the mode the page is in. -/
def Rfb.Fits (o : Rfb) (mode : Mode) : Prop :=
  (o.viewOnly = true ↔ mode = .view) ∧ (mode = .control → o.mode = .control)

theorem Rfb.Fits.entitled {o : Rfb} {mode : Mode} (h : o.Fits mode) : o.Entitled := by
  intro sends
  cases mode with
  | control => exact h.2 rfl
  | view => cases sends.symm.trans (h.1.mpr rfl)

/-- What the page's objects may send, and the current one does. -/
structure InputMode (s : Page) : Prop where
  entitled : ∀ {i : Nat} {o : Rfb}, s.objects[i]? = some o → o.Entitled
  fits : ∀ {i : Nat} {o : Rfb}, s.objects[i]? = some o → s.rfb = some i → o.Fits s.mode
  exists_ : ∀ {i : Nat}, s.rfb = some i → i < s.objects.length

namespace InputMode

variable {s : Page}

/-- Objects keep mode and flag, and the current one stays current in its mode or is forgotten. -/
theorem of_same (h : InputMode s) {t : Page}
    (same : ∀ {i : Nat} {o' : Rfb}, t.objects[i]? = some o' →
      ∃ o, s.objects[i]? = some o ∧ o'.mode = o.mode ∧ o'.viewOnly = o.viewOnly)
    (length : t.objects.length = s.objects.length)
    (rfb : ∀ {i : Nat}, t.rfb = some i → s.rfb = some i ∧ t.mode = s.mode) : InputMode t where
  entitled found := by
    obtain ⟨o, before, mode, viewOnly⟩ := same found
    rw [Rfb.Entitled, mode, viewOnly]
    exact h.entitled before
  fits found now := by
    obtain ⟨o, before, mode, viewOnly⟩ := same found
    obtain ⟨already, kept⟩ := rfb now
    rw [Rfb.Fits, mode, viewOnly, kept]
    exact h.fits before already
  exists_ now := length ▸ h.exists_ (rfb now).1

/-- A change of the fields that say nothing about the objects. -/
theorem of_eq (h : InputMode s) {t : Page} (objects : t.objects = s.objects)
    (mode : t.mode = s.mode) (rfb : t.rfb = s.rfb) : InputMode t :=
  h.of_same (fun found => ⟨_, objects ▸ found, rfl, rfl⟩) (congrArg List.length objects)
    fun now => ⟨rfb ▸ now, mode⟩

/-- A new object fits the mode it is opened in. -/
theorem connect (h : InputMode s) : InputMode s.connect := by
  unfold Page.connect
  split
  case h_1 => exact h
  case h_2 idle =>
    have new : ({ mode := s.mode, viewOnly := s.mode = .view } : Rfb).Fits s.mode :=
      ⟨by simp, fun mode => mode⟩
    refine ⟨fun found => ?_, fun found now => ?_, fun now => ?_⟩
    · rcases Contributions.of_getElem?_concat found with ⟨_, rfl⟩ | old
      · exact new.entitled
      · exact h.entitled old
    · obtain rfl := Option.some.inj now
      obtain rfl := Option.some.inj (List.getElem?_concat_length.symm.trans found)
      exact new
    · obtain rfl := Option.some.inj now
      simp

/-- The object that is forgotten keeps its flag. The page may be in another mode by then. -/
theorem disconnect (entitled : ∀ {i : Nat} {o : Rfb}, s.objects[i]? = some o → o.Entitled) :
    InputMode s.disconnect := by
  unfold Page.disconnect
  split
  case h_1 j current =>
    refine ⟨fun found => ?_, fun _ none_ => (by cases none_), fun none_ => (by cases none_)⟩
    rw [List.getElem?_modify] at found
    obtain ⟨o, before, rfl⟩ := Option.map_eq_some_iff.mp found
    have old := entitled before
    split
    · unfold Rfb.disconnect
      split <;> exact old
    · exact old
  case h_2 idle =>
    refine ⟨entitled, fun _ now => ?_, fun now => ?_⟩
    · cases idle.symm.trans now
    · cases idle.symm.trans now

theorem reconnect (h : InputMode s) (mode : Mode) :
    InputMode ({ s with mode } : Page).disconnect.connect :=
  (disconnect (s := { s with mode }) h.entitled).connect

theorem toControl (h : InputMode s) : InputMode s.toControl := by
  unfold Page.toControl
  split
  · exact h.reconnect .control
  · exact h

/-- The current object is given the flag of a mode that it may be used in. -/
theorem setMode (h : InputMode s) (mode : Mode) (may : mode = .control → s.mode = .control) :
    InputMode { s.setViewOnly (mode = .view) with mode } := by
  unfold Page.setViewOnly
  split
  case h_1 j current =>
    have placed : ∀ {i : Nat} {o' : Rfb}, (s.objects.modify j fun o =>
        { o with viewOnly := mode = .view })[i]? = some o' →
        ∃ o, s.objects[i]? = some o ∧
          if j = i then o' = { o with viewOnly := mode = .view } else o' = o := by
      intro i o' found
      rw [List.getElem?_modify] at found
      obtain ⟨o, before, rfl⟩ := Option.map_eq_some_iff.mp found
      exact ⟨o, before, by split <;> rfl⟩
    have fitting : ∀ {o : Rfb}, s.objects[j]? = some o →
        ({ o with viewOnly := mode = .view } : Rfb).Fits mode := fun before =>
      ⟨by simp, fun control => (h.fits before current).2 (may control)⟩
    refine ⟨fun found => ?_, fun found now => ?_, fun now => ?_⟩
    · obtain ⟨o, before, change⟩ := placed found
      split at change
      · rename_i here
        subst here change
        exact (fitting before).entitled
      · exact change ▸ h.entitled before
    · obtain rfl : j = _ := Option.some.inj (current.symm.trans now)
      obtain ⟨o, before, change⟩ := placed found
      rw [if_pos rfl] at change
      exact change ▸ fitting before
    · simpa using h.exists_ now
  case h_2 idle =>
    refine ⟨h.entitled, fun _ now => ?_, fun now => ?_⟩
    · cases idle.symm.trans now
    · cases idle.symm.trans now

end InputMode

namespace Page

variable {s t : Page}

@[simp] theorem connect_mode (s : Page) : s.connect.mode = s.mode := by
  unfold connect
  split <;> rfl

@[simp] theorem disconnect_mode (s : Page) : s.disconnect.mode = s.mode := by
  unfold disconnect
  split <;> rfl

@[simp] theorem setViewOnly_mode (s : Page) (viewOnly : Bool) :
    (s.setViewOnly viewOnly).mode = s.mode := by
  unfold setViewOnly
  split <;> rfl

theorem toControl_mode (s : Page) : s.toControl.mode = .control := by
  unfold toControl
  split
  · simp
  · rename_i already
    exact not_not.mp already

end Page

namespace InputMode

variable {s t : Page}

theorem applyControl (h : InputMode s) (c : Control) : InputMode (s.applyControl c) := by
  have h : InputMode { s with control := c } := h.of_eq rfl rfl rfl
  simp only [Page.applyControl]
  split
  · exact h
  · split
    · have taken := h.toControl
      have mode := Page.toControl_mode { s with control := c }
      have sending := taken.setMode .control fun _ => mode
      exact sending.of_eq rfl (by simp [mode]) rfl
    · split
      · exact h.setMode .view nofun
      · exact h.toControl

theorem applyVMStatus (h : InputMode s) (st : VmState) : InputMode (s.applyVMStatus st) := by
  simp only [Page.applyVMStatus]
  split
  · split
    · exact (h.of_eq (t := { s with lastStatus := st }) rfl rfl rfl).connect
    · exact h.of_eq rfl rfl rfl
  · exact disconnect h.entitled

theorem set (h : InputMode s) {i : Nat} {o o' : Rfb} (found : s.objects[i]? = some o)
    (objects : t.objects = s.objects.set i o') (mode : o'.mode = o.mode)
    (viewOnly : o'.viewOnly = o.viewOnly) (rfb : t.rfb = s.rfb ∨ t.rfb = none)
    (kept : t.mode = s.mode) : InputMode t := by
  refine h.of_same (fun {j o''} now => ?_) (by simp [objects]) fun now => ⟨?_, kept⟩
  · rcases Contributions.of_getElem?_set found (objects ▸ now) with ⟨rfl, rfl⟩ | ⟨_, old⟩
    · exact ⟨o, found, mode, viewOnly⟩
    · exact ⟨o'', old, rfl, rfl⟩
  · rcases rfb with same | none_
    · exact same ▸ now
    · cases none_.symm.trans now

theorem next {e : PageEvent} (held : InputMode s) (h : s.next e = some t) : InputMode t := by
  cases e with
  | status vm control =>
      obtain rfl := Option.some.inj h
      exact (held.applyVMStatus vm).applyControl control
  | vmAction vm =>
      obtain rfl := Option.some.inj h
      exact held.applyVMStatus vm
  | takeControl control =>
      obtain rfl := Option.some.inj h
      have taken := held.reconnect .control
      cases control with
      | none => exact taken
      | some c => exact taken.applyControl c
  | timer =>
      obtain ⟨_, h⟩ := Option.ite_none_right_eq_some.mp h
      obtain rfl := Option.some.inj h
      exact held.of_eq rfl rfl rfl
  | resume =>
      obtain ⟨_, h⟩ := Option.ite_none_left_eq_some.mp h
      obtain rfl := Option.some.inj h
      have held : InputMode { s with resuming := s.resuming - 1 } := held.of_eq rfl rfl rfl
      unfold Page.resume
      split
      · exact held.connect
      · exact held.of_eq rfl rfl rfl
  | connected i =>
      obtain ⟨o, found, h⟩ := Option.bind_eq_some_iff.mp h
      obtain ⟨_, h⟩ := Option.ite_none_right_eq_some.mp h
      obtain rfl := Option.some.inj h
      exact held.set found rfl rfl rfl (.inl rfl) rfl
  | disconnected i =>
      obtain ⟨o, found, h⟩ := Option.bind_eq_some_iff.mp h
      obtain ⟨_, h⟩ := Option.ite_none_right_eq_some.mp h
      obtain rfl := Option.some.inj h
      exact held.set found rfl rfl rfl (.inr rfl) rfl

end InputMode

/-- After every handler the current object sends input exactly when the page is in control mode,
and in that mode it was opened for control. No object of the page that was opened to watch ever
sends input, replaced or not. -/
theorem input_only_in_control (x : Execution pageSystem) :
    x.Always fun s =>
      (∀ o ∈ s.objects, o.viewOnly = false → o.mode = .control) ∧
      ∀ i, s.rfb = some i → ∃ o, s.objects[i]? = some o ∧
        (o.viewOnly = true ↔ s.mode = .view) ∧ (s.mode = .control → o.mode = .control) := by
  have held : x.Always InputMode := by
    refine x.run.invariant ?_ InputMode.next
    rintro s ⟨st, rfl⟩
    refine InputMode.applyVMStatus ⟨fun found => ?_, fun found => ?_, fun now => ?_⟩ st
    · simp at found
    · simp at found
    · cases now
  refine held.mono fun s h => ⟨fun o member => ?_, fun i now => ?_⟩
  · obtain ⟨i, found⟩ := List.getElem?_of_mem member
    exact h.entitled found
  · have found := List.getElem?_eq_getElem (h.exists_ now)
    exact ⟨_, found, h.fits found now⟩

end VmServer.Web
