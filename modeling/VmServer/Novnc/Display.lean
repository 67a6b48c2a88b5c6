import VmServer.Library.TransitionSystem
import VmServer.Novnc.Decoders

/-!
# The render queue of the display

An image has to be decoded before it can be drawn. From then on whatever is
called waits in a queue, and is drawn in its turn when the image is there. The
canvas is given what was called in that order, and a flush is over when nothing
waits. An image whose size is not what was announced stays at the front for
good.

## Implementation notes

The canvas is the list of what was drawn on it. Images and frames of a video
are numbered in the order they are made; a broken image is one of size 0. The
pixels of `blitImage` are those that the call takes from its array.

`resize` changes the size of the canvas at once. Where it changes the viewport
it also calls `flip`, which is a call of its own here. No operation of the
canvas throws: what is left out is a `blitImage` without pixels, and a
`copyImage` while the canvas has no pixels.
-/

namespace VmServer.Novnc

open TransitionSystem

/-- What is drawn on the canvas. -/
inductive Painted
  | draw (op : DrawOp)
  | frame (r : Rect) (id : Nat)
  deriving DecidableEq, Repr

/-- An action of the queue; an `img` is drawn by `imageRect`. -/
inductive Action
  | draw (op : DrawOp)
  | img (id : Nat) (r : Rect) (mime : String) (data : List UInt8)
  | frame (id : Nat) (r : Rect)
  deriving DecidableEq, Repr

def Action.painted : Action → Painted
  | .draw op => .draw op
  | .img _ r mime data => .draw (.imageRect r mime data)
  | .frame id r => .frame r id

structure Display where
  renderQ : List Action := []
  canvas : List Painted := []
  /-- There is a flush that waits. -/
  flushPromise : Bool := false
  created : Nat := 0
  /-- The sizes of the images and frames that are there. -/
  complete : Nat → Option (Nat × Nat) := fun _ => none
  /-- The ones that the queue waits for. -/
  listening : List Nat := []

/-- A pass over the queue: what it draws, what it leaves, and what it waits for. -/
structure Scan where
  drawn : List Action
  left : List Action
  listen : List Nat

namespace Display

/-- Draws from the front until something has to be waited for, or does not have its size. -/
def scan (complete : Nat → Option (Nat × Nat)) : List Action → Scan
  | [] => ⟨[], [], []⟩
  | .draw op :: q =>
      let next := scan complete q
      { next with drawn := .draw op :: next.drawn }
  | .img id r mime data :: q =>
      match complete id with
      | none => ⟨[], .img id r mime data :: q, [id]⟩
      | some (width, height) =>
          if width ≠ r.width ∨ height ≠ r.height then ⟨[], .img id r mime data :: q, []⟩
          else
            let next := scan complete q
            { next with drawn := .img id r mime data :: next.drawn }
  | .frame id r :: q =>
      match complete id with
      | none => ⟨[], .frame id r :: q, [id]⟩
      | some _ =>
          let next := scan complete q
          { next with drawn := .frame id r :: next.drawn }

def scanRenderQ (s : Display) : Display :=
  let pass := scan s.complete s.renderQ
  { s with
    renderQ := pass.left
    canvas := s.canvas ++ pass.drawn.map Action.painted
    listening := s.listening ++ pass.listen
    flushPromise := s.flushPromise && pass.left ≠ [] }

def renderQPush (action : Action) (s : Display) : Display :=
  let s := { s with renderQ := s.renderQ ++ [action] }
  if s.renderQ.length = 1 then s.scanRenderQ else s

def pending (s : Display) : Bool := s.renderQ.length > 0

/-- `flip`, `fillRect`, `copyImage` and `blitImage`. -/
def draw (op : DrawOp) (s : Display) : Display :=
  if s.pending then s.renderQPush (.draw op) else { s with canvas := s.canvas ++ [.draw op] }

def imageRect (r : Rect) (mime : String) (data : List UInt8) (s : Display) : Display :=
  if r.width = 0 ∨ r.height = 0 then s
  else { s with created := s.created + 1 }.renderQPush (.img s.created r mime data)

def videoFrame (r : Rect) (s : Display) : Display :=
  { s with created := s.created + 1 }.renderQPush (.frame s.created r)

def resize (width height : Nat) (s : Display) : Display :=
  { s with canvas := s.canvas ++ [.draw (.resize width height)] }

def flush (s : Display) : Display := if s.pending then { s with flushPromise := true } else s

/-- The handler that waits for an image or a frame. -/
def resumeRenderQ (id : Nat) (s : Display) : Display :=
  if id ∈ s.listening then { s with listening := s.listening.filter (· ≠ id) }.scanRenderQ else s

end Display

/-- The calls of the client, and what the browser does meanwhile. -/
inductive DisplayEvent
  | draw (op : DrawOp)
  | imageRect (r : Rect) (mime : String) (data : List UInt8)
  | videoFrame (r : Rect)
  | resize (width height : Nat)
  | flush
  /-- An image or a frame is there, or broken. -/
  | complete (id width height : Nat)
  /-- Its handlers run. -/
  | load (id : Nat)
  deriving DecidableEq, Repr

/-- The operations that go through `draw`. -/
def DrawOp.queued : DrawOp → Bool
  | .fillRect .. | .blitImage .. | .copyImage .. | .flip => true
  | .imageRect .. | .h264 .. | .resize .. => false

namespace Display

def next (s : Display) : DisplayEvent → Option Display
  | .draw op => if op.queued then some (s.draw op) else none
  | .imageRect r mime data => some (s.imageRect r mime data)
  | .videoFrame r => some (s.videoFrame r)
  | .resize width height => some (s.resize width height)
  | .flush => some s.flush
  | .complete id width height =>
      if id < s.created ∧ s.complete id = none then
        some { s with complete := fun i => if i = id then some (width, height) else s.complete i }
      else none
  | .load id => if (s.complete id).isSome then some (s.resumeRenderQ id) else none

/-- What a call gives the canvas, once its turn has come. -/
def called (s : Display) : DisplayEvent → List Painted
  | .draw op => [.draw op]
  | .imageRect r mime data =>
      if r.width = 0 ∨ r.height = 0 then [] else [.draw (.imageRect r mime data)]
  | .videoFrame r => [.frame r s.created]
  | .resize .. | .flush | .complete .. | .load .. => []

end Display

def displaySystem : System Display DisplayEvent where
  initial := {{}}
  next := Display.next

/-- The display with what was called, but for changes of the size. -/
def calledSystem : System (Display × List Painted) DisplayEvent :=
  displaySystem.noting [] fun s e calls => calls ++ s.called e

/-! ## What holds the queue up -/

def Action.waitsFor : Action → Option Nat
  | .draw _ => none
  | .img id .. | .frame id _ => some id

/-- A queue that is empty, or has at its front what is waited for, or an image of another size
than was announced. -/
inductive HeldUp (complete : Nat → Option (Nat × Nat)) (listening : List Nat) : List Action → Prop
  | nothing : HeldUp complete listening []
  | waits {a : Action} {q : List Action} {id : Nat} (absent : a.waitsFor = some id)
      (listens : id ∈ listening) : HeldUp complete listening (a :: q)
  | wrongSize {id width height : Nat} {r : Rect} {mime : String} {data : List UInt8}
      {q : List Action} (there : complete id = some (width, height))
      (wrong : width ≠ r.width ∨ height ≠ r.height) :
      HeldUp complete listening (.img id r mime data :: q)

namespace HeldUp

variable {complete complete' : Nat → Option (Nat × Nat)} {l l' : List Nat} {q : List Action}

theorem append (h : HeldUp complete l q) (some_ : q ≠ []) (more : List Action) :
    HeldUp complete l (q ++ more) := by
  cases h with
  | nothing => exact absurd rfl some_
  | waits absent listens => exact .waits absent listens
  | wrongSize there wrong => exact .wrongSize there wrong

theorem mono (h : HeldUp complete l q) (sub : l ⊆ l')
    (keeps : ∀ id size, complete id = some size → complete' id = some size) :
    HeldUp complete' l' q := by
  cases h with
  | nothing => exact .nothing
  | waits absent listens => exact .waits absent (sub listens)
  | wrongSize there wrong => exact .wrongSize (keeps _ _ there) wrong

end HeldUp

namespace Display

variable (complete : Nat → Option (Nat × Nat)) (q : List Action)

theorem scan_split : (scan complete q).drawn ++ (scan complete q).left = q := by
  induction q with
  | nil => rfl
  | cons a q ih =>
      cases a with
      | draw op => exact congrArg (.draw op :: ·) ih
      | img id r mime data =>
          unfold scan
          split
          · rfl
          · split
            · rfl
            · exact congrArg (.img id r mime data :: ·) ih
      | frame id r =>
          unfold scan
          split
          · rfl
          · exact congrArg (.frame id r :: ·) ih

theorem scan_heldUp : HeldUp complete (scan complete q).listen (scan complete q).left := by
  induction q with
  | nil => exact .nothing
  | cons a q ih =>
      cases a with
      | draw op => exact ih
      | img id r mime data =>
          unfold scan
          split
          · exact .waits rfl List.mem_cons_self
          · split
            case isTrue wrong => exact .wrongSize (by assumption) wrong
            case isFalse => exact ih
      | frame id r =>
          unfold scan
          split
          · exact .waits rfl List.mem_cons_self
          · exact ih

end Display

/-! ## What was called, in order -/

def Painted.resizes : Painted → Bool
  | .draw (.resize ..) => true
  | _ => false

/-- What was drawn, apart from the changes of the size. -/
def Display.shown (s : Display) : List Painted := s.canvas.filter (!·.resizes)

/-- What was called is drawn or waits, in order, and what waits has a reason to. -/
structure InOrder (calls : List Painted) (s : Display) : Prop where
  order : s.shown ++ s.renderQ.map Action.painted = calls
  queued : ∀ a ∈ s.renderQ, a.painted.resizes = false
  heldUp : HeldUp s.complete s.listening s.renderQ
  flush : s.flushPromise = true → s.pending = true

namespace InOrder

variable {calls : List Painted} {s s' : Display}

open Display

theorem pending_iff (s : Display) : s.pending = true ↔ s.renderQ ≠ [] := by
  rw [pending, decide_eq_true_iff]
  exact List.length_pos_iff

theorem filter_painted {l : List Action} (queued : ∀ a ∈ l, a.painted.resizes = false) :
    (l.map Action.painted).filter (!·.resizes) = l.map Action.painted := by
  refine List.filter_eq_self.mpr fun p member => ?_
  obtain ⟨a, inside, rfl⟩ := List.mem_map.mp member
  rw [queued a inside]
  rfl

/-- A pass needs no reason for what waits. -/
theorem scanRenderQ (order : s.shown ++ s.renderQ.map Action.painted = calls)
    (queued : ∀ a ∈ s.renderQ, a.painted.resizes = false) : InOrder calls s.scanRenderQ := by
  have split := scan_split s.complete s.renderQ
  rw [← split] at queued
  obtain ⟨drawn, left⟩ := List.forall_mem_append.mp queued
  refine ⟨?_, left, ?_, fun waits => ?_⟩
  · rw [← order]
    conv_rhs => rw [← split, List.map_append]
    simp only [shown, Display.scanRenderQ, List.filter_append, filter_painted drawn,
      List.append_assoc]
  · exact (scan_heldUp s.complete s.renderQ).mono (List.subset_append_right ..) fun _ _ => id
  · rw [pending_iff]
    exact of_decide_eq_true (Bool.and_eq_true_iff.mp waits).2

theorem renderQPush (h : InOrder calls s) {a : Action} (queued : a.painted.resizes = false) :
    InOrder (calls ++ [a.painted]) (s.renderQPush a) := by
  have order : s.shown ++ (s.renderQ ++ [a]).map Action.painted = calls ++ [a.painted] := by
    rw [List.map_append, ← List.append_assoc, h.order]
    rfl
  have all : ∀ b ∈ s.renderQ ++ [a], b.painted.resizes = false :=
    List.forall_mem_append.mpr ⟨h.queued, List.forall_mem_singleton.mpr queued⟩
  unfold Display.renderQPush
  dsimp only
  split
  case isTrue => exact scanRenderQ (s := { s with renderQ := s.renderQ ++ [a] }) order all
  case isFalse more =>
    have some_ : s.renderQ ≠ [] := by
      rintro none_
      rw [none_] at more
      exact more rfl
    refine ⟨order, all, h.heldUp.append some_ [a], fun _ => ?_⟩
    rw [pending_iff]
    exact List.append_ne_nil_of_right_ne_nil _ (List.cons_ne_nil a [])

theorem created (h : InOrder calls s) (n : Nat) : InOrder calls { s with created := n } :=
  ⟨h.order, h.queued, h.heldUp, h.flush⟩

theorem draw (h : InOrder calls s) {op : DrawOp} (queued : op.queued = true) :
    InOrder (calls ++ [.draw op]) (s.draw op) := by
  have size : (Painted.draw op).resizes = false := by
    cases op <;> first | rfl | cases queued
  unfold Display.draw
  split
  case isTrue => exact h.renderQPush (a := .draw op) size
  case isFalse idle =>
    have none_ : s.renderQ = [] := not_not.mp fun some_ => idle ((pending_iff s).mpr some_)
    refine ⟨?_, h.queued, h.heldUp, h.flush⟩
    have order := h.order
    rw [none_, List.map_nil, List.append_nil] at order ⊢
    rw [← order]
    simp [shown, size]

theorem resize (h : InOrder calls s) (width height : Nat) :
    InOrder calls (s.resize width height) := by
  refine ⟨?_, h.queued, h.heldUp, h.flush⟩
  rw [← h.order]
  simp [shown, Display.resize, Painted.resizes]

theorem next (h : InOrder calls s) (e : DisplayEvent) (step : s.next e = some s') :
    InOrder (calls ++ s.called e) s' := by
  have same : calls ++ [] = calls := List.append_nil calls
  cases e with
  | draw op =>
      obtain ⟨queued, step⟩ := Option.ite_none_right_eq_some.mp step
      obtain rfl := Option.some.inj step
      exact h.draw queued
  | imageRect r mime data =>
      obtain rfl := Option.some.inj step
      rw [called, Display.imageRect]
      by_cases empty : r.width = 0 ∨ r.height = 0
      · rwa [if_pos empty, if_pos empty, same]
      · rw [if_neg empty, if_neg empty]
        exact (h.created _).renderQPush (a := .img s.created r mime data) rfl
  | videoFrame r =>
      obtain rfl := Option.some.inj step
      exact (h.created _).renderQPush (a := .frame s.created r) rfl
  | resize width height =>
      obtain rfl := Option.some.inj step
      rw [called, same]
      exact h.resize width height
  | flush =>
      obtain rfl := Option.some.inj step
      rw [called, same, Display.flush]
      split
      case isTrue waits => exact ⟨h.order, h.queued, h.heldUp, fun _ => waits⟩
      case isFalse => exact h
  | complete id width height =>
      obtain ⟨⟨_, new⟩, step⟩ := Option.ite_none_right_eq_some.mp step
      obtain rfl := Option.some.inj step
      rw [called, same]
      refine ⟨h.order, h.queued, h.heldUp.mono (List.Subset.refl _) fun i size there => ?_, h.flush⟩
      have other : i ≠ id := by
        rintro rfl
        rw [new] at there
        cases there
      exact (if_neg other).trans there
  | load id =>
      obtain ⟨_, step⟩ := Option.ite_none_right_eq_some.mp step
      obtain rfl := Option.some.inj step
      rw [called, same, resumeRenderQ]
      split
      case isTrue =>
        exact scanRenderQ (s := { s with listening := s.listening.filter (· ≠ id) }) h.order
          h.queued
      case isFalse => exact h

end InOrder

/-! ## An image of the wrong size -/

/-- The image at the front is there, and not of the size that was announced. -/
def Display.Stuck (s : Display) : Prop :=
  ∃ id r mime data q width height, s.renderQ = .img id r mime data :: q ∧
    s.complete id = some (width, height) ∧ (width ≠ r.width ∨ height ≠ r.height)

theorem HeldUp.stuck_or_listens {s : Display} (h : HeldUp s.complete s.listening s.renderQ)
    (waits : s.pending = true) : s.Stuck ∨
      ∃ a q id, s.renderQ = a :: q ∧ a.waitsFor = some id ∧ id ∈ s.listening := by
  rw [InOrder.pending_iff] at waits
  unfold Display.Stuck
  generalize s.renderQ = q at h waits
  cases h with
  | nothing => exact absurd rfl waits
  | waits absent listens => exact .inr ⟨_, _, _, rfl, absent, listens⟩
  | wrongSize there wrong => exact .inl ⟨_, _, _, _, _, _, _, rfl, there, wrong⟩

/-- However late the images and the frames are, and whatever is called meanwhile: what was drawn
and what waits are together what was called, each call once and in order, apart from changes of the
size, which do not wait. What waits waits for an image or a frame whose handlers have not run, or
behind an image of the wrong size. A flush that is not over has something to wait for. -/
theorem drawn_in_order (x : Execution calledSystem) :
    let s := x.final.1
    s.shown ++ s.renderQ.map Action.painted = x.final.2 ∧
      (s.pending = true → s.Stuck ∨
        ∃ a q id, s.renderQ = a :: q ∧ a.waitsFor = some id ∧ id ∈ s.listening) ∧
      (s.flushPromise = true → s.pending = true) := by
  have inOrder : InOrder x.final.2 x.final.1 := by
    refine (Run.invariant (M := calledSystem) (I := fun p => InOrder p.2 p.1) ?_ ?_ x.run).2
    · rintro ⟨s, calls⟩ ⟨rfl, rfl⟩
      exact ⟨rfl, fun a member => (nomatch member), .nothing, fun waits => (nomatch waits)⟩
    · intro p e q h step
      obtain ⟨next, called⟩ := System.noting_next.mp step
      rw [called]
      exact h.next e next
  exact ⟨inOrder.order, inOrder.heldUp.stuck_or_listens, inOrder.flush⟩

/-- Later, nothing more is shown, and a flush that waits does so still. -/
structure Display.Frozen (s s' : Display) : Prop where
  stuck : s'.Stuck
  shown : s'.shown = s.shown
  flush : s.flushPromise = true → s'.flushPromise = true

namespace Display

variable {s s' : Display}

theorem Stuck.pending (h : s.Stuck) : s.pending = true := by
  obtain ⟨_, _, _, _, _, _, _, queue, -, -⟩ := h
  rw [InOrder.pending_iff, queue]
  exact List.cons_ne_nil _ _

theorem Stuck.renderQPush (h : s.Stuck) (a : Action) : s.Frozen (s.renderQPush a) := by
  obtain ⟨id, r, mime, data, q, width, height, queue, there, wrong⟩ := h
  have more : ¬(s.renderQ ++ [a]).length = 1 := by
    rw [queue]
    simp
  rw [Display.renderQPush, if_neg more]
  exact ⟨⟨id, r, mime, data, q ++ [a], width, height, congrArg (· ++ [a]) queue, there, wrong⟩, rfl,
    fun waits => waits⟩

/-- A pass does nothing. -/
theorem Stuck.scanRenderQ (h : s.Stuck) : s.Frozen s.scanRenderQ := by
  have pending := h.pending
  obtain ⟨id, r, mime, data, q, width, height, queue, there, wrong⟩ := h
  have pass : scan s.complete s.renderQ = ⟨[], s.renderQ, []⟩ := by
    rw [queue, scan, there]
    exact if_pos wrong
  unfold Display.scanRenderQ
  rw [pass]
  refine ⟨⟨id, r, mime, data, q, width, height, queue, there, wrong⟩, ?_, fun waits => ?_⟩
  · simp [shown]
  · rw [InOrder.pending_iff] at pending
    simpa [pending] using waits

theorem Stuck.next (h : s.Stuck) (e : DisplayEvent) (step : s.next e = some s') : s.Frozen s' := by
  cases e with
  | draw op =>
      obtain ⟨_, step⟩ := Option.ite_none_right_eq_some.mp step
      obtain rfl := Option.some.inj step
      rw [draw, if_pos h.pending]
      exact h.renderQPush _
  | imageRect r mime data =>
      obtain rfl := Option.some.inj step
      unfold Display.imageRect
      split
      · exact ⟨h, rfl, fun waits => waits⟩
      · have frozen := Stuck.renderQPush (s := { s with created := s.created + 1 }) h
          (.img s.created r mime data)
        exact ⟨frozen.stuck, frozen.shown, frozen.flush⟩
  | videoFrame r =>
      obtain rfl := Option.some.inj step
      have frozen := Stuck.renderQPush (s := { s with created := s.created + 1 }) h
        (.frame s.created r)
      exact ⟨frozen.stuck, frozen.shown, frozen.flush⟩
  | resize width height =>
      obtain rfl := Option.some.inj step
      exact ⟨h, by simp [shown, Display.resize, Painted.resizes], fun waits => waits⟩
  | flush =>
      obtain rfl := Option.some.inj step
      rw [Display.flush, if_pos h.pending]
      exact ⟨h, rfl, fun _ => rfl⟩
  | complete id width height =>
      obtain ⟨⟨_, new⟩, step⟩ := Option.ite_none_right_eq_some.mp step
      obtain rfl := Option.some.inj step
      obtain ⟨i, r, mime, data, q, w, h, queue, there, wrong⟩ := h
      have other : i ≠ id := by
        rintro rfl
        rw [new] at there
        cases there
      exact ⟨⟨i, r, mime, data, q, w, h, queue, (if_neg other).trans there, wrong⟩, rfl,
        fun waits => waits⟩
  | load id =>
      obtain ⟨_, step⟩ := Option.ite_none_right_eq_some.mp step
      obtain rfl := Option.some.inj step
      unfold resumeRenderQ
      split
      · have frozen :=
          Stuck.scanRenderQ (s := { s with listening := s.listening.filter (· ≠ id) }) h
        exact ⟨frozen.stuck, frozen.shown, frozen.flush⟩
      · exact ⟨h, rfl, fun waits => waits⟩

end Display

/-- From when an image of the wrong size is at the front of the queue, whatever is called and
whatever is decoded, nothing more is shown, and no flush that waits is ever over. -/
theorem wrong_size_freezes (x : Execution displaySystem) :
    ∀ p ∈ x.history, p.1.Stuck → p.1.Frozen x.final := by
  obtain ⟨history, final, run⟩ := x
  dsimp only
  induction run with
  | start => exact fun p member => (nomatch member)
  | @step hist s e t run step ih =>
      refine List.forall_mem_append.mpr ⟨fun p member stuck => ?_, ?_⟩
      · have before := ih p member stuck
        have later := before.stuck.next e step
        exact ⟨later.stuck, later.shown.trans before.shown,
          fun waits => later.flush (before.flush waits)⟩
      · rw [List.forall_mem_singleton]
        exact fun stuck => stuck.next e step

namespace Display

/-- Four pixels were announced. -/
def announced : Display := Display.imageRect ⟨0, 0, 2, 2⟩ "image/jpeg" [] {}

/-- The image has one. -/
def decoded : Display :=
  { announced with complete := fun i => if i = 0 then some (1, 1) else announced.complete i }

theorem run_decoded : Run displaySystem
    [({}, .imageRect ⟨0, 0, 2, 2⟩ "image/jpeg" []), (announced, .complete 0 1 1),
      (decoded, .draw .flip)] (decoded.draw .flip) :=
  (((Run.start rfl).step rfl).step rfl).step rfl

end Display

theorem flip_not_shown : Display.decoded.Frozen (Display.decoded.draw .flip) :=
  wrong_size_freezes ⟨_, _, Display.run_decoded⟩ (Display.decoded, .draw .flip) (by simp)
    ⟨0, ⟨0, 0, 2, 2⟩, "image/jpeg", [], [], 1, 1, rfl, rfl, .inl (by decide)⟩

end VmServer.Novnc
