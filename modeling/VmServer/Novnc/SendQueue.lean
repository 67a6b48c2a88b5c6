import VmServer.Proxy.ClientEncoders
import VmServer.Proxy.Connection

/-!
# The send queue of the console client

The encoders push their fields to a queue of fixed size, which is sent as one
WebSocket message when it is full and when an encoder flushes it. Where the
messages end depends on the fields before them; what they hold together is
the pushed bytes in order.

## Implementation notes

The socket is open: one that is not keeps the queue, and a push that finds it
full is lost or does not return.
-/

namespace VmServer.Novnc

open Proxy

/-- The queue and the WebSocket messages that were sent. -/
structure SendQueue where
  queue : List UInt8 := []
  frames : List (List UInt8) := []
  deriving DecidableEq, Repr

namespace SendQueue

/-- 10 KiB. -/
def bufferSize : Nat := 1024 * 10

def flush (s : SendQueue) : SendQueue :=
  if s.queue.length > 0 then { queue := [], frames := s.frames ++ [s.queue] } else s

def ensureSpace (s : SendQueue) (bytes : Nat) : SendQueue :=
  if bufferSize - s.queue.length < bytes then s.flush else s

def append (s : SendQueue) (bytes : List UInt8) : SendQueue :=
  { s with queue := s.queue ++ bytes }

def push8 (s : SendQueue) (num : Int) : SendQueue :=
  (s.ensureSpace 1).append (sQpush8 num)

def push16 (s : SendQueue) (num : Int) : SendQueue :=
  (s.ensureSpace 2).append (sQpush16 num)

def push32 (s : SendQueue) (num : Int) : SendQueue :=
  (s.ensureSpace 4).append (sQpush32 num)

theorem room_of_ensureSpace (s : SendQueue) {bytes : Nat} (fits : bytes ≤ bufferSize) :
    bytes ≤ bufferSize - (s.ensureSpace bytes).queue.length := by
  unfold ensureSpace
  split
  · unfold flush
    split
    · exact fits
    · rename_i empty
      have none_ : s.queue.length = 0 := Nat.eq_zero_of_not_pos empty
      rw [none_]
      exact fits
  · rename_i room
    exact Nat.le_of_not_lt room

/-- Fills the queue up again and again. -/
def pushBytes (s : SendQueue) (bytes : List UInt8) : SendQueue :=
  if bytes = [] then s
  else
    let t := s.ensureSpace 1
    let chunkSize := min (bufferSize - t.queue.length) bytes.length
    pushBytes (t.append (bytes.take chunkSize)) (bytes.drop chunkSize)
termination_by bytes.length
decreasing_by
  have room : 1 ≤ bufferSize - (s.ensureSpace 1).queue.length :=
    room_of_ensureSpace s (by decide)
  have some_ : 0 < bytes.length := List.length_pos_iff.mpr (by assumption)
  rw [List.length_drop]
  omega

end SendQueue

/-- A push of an encoder. -/
inductive Push
  | push8 (num : Int)
  | push16 (num : Int)
  | push32 (num : Int)
  | bytes (data : List UInt8)
  | string (str : List UInt16)
  deriving DecidableEq, Repr

/-- The bytes a push stands for. -/
def Push.pushed : Push → List UInt8
  | .push8 num => sQpush8 num
  | .push16 num => sQpush16 num
  | .push32 num => sQpush32 num
  | .bytes data => data
  | .string str => sQpushString str

namespace SendQueue

def push (s : SendQueue) : Push → SendQueue
  | .push8 num => s.push8 num
  | .push16 num => s.push16 num
  | .push32 num => s.push32 num
  | .bytes data => s.pushBytes data
  | .string str => s.pushBytes (sQpushString str)

/-- The call of an encoder: its pushes, and a flush. -/
def send (s : SendQueue) (pushes : List Push) : SendQueue :=
  (pushes.foldl push s).flush

/-- All bytes that were pushed, as they were sent or still wait. -/
def pushed (s : SendQueue) : List UInt8 := s.frames.flatten ++ s.queue

/-- The queue fits its buffer, and no message is empty or larger than that. -/
structure Fits (s : SendQueue) : Prop where
  queue : s.queue.length ≤ bufferSize
  frames : ∀ f ∈ s.frames, f ≠ [] ∧ f.length ≤ bufferSize

/-- The second queue has emitted exactly these bytes more than the first, within the buffer. -/
def Emits (s : SendQueue) (bytes : List UInt8) (t : SendQueue) : Prop :=
  s.Fits → t.Fits ∧ t.pushed = s.pushed ++ bytes

section Emits

variable {s t u : SendQueue} {bytes more : List UInt8}

theorem Emits.trans (h : Emits s bytes t) (h' : Emits t more u) : Emits s (bytes ++ more) u := by
  intro fits
  obtain ⟨between, first⟩ := h fits
  obtain ⟨after, second⟩ := h' between
  exact ⟨after, by rw [second, first, List.append_assoc]⟩

theorem emits_refl : Emits s [] s :=
  fun fits => ⟨fits, (List.append_nil _).symm⟩

theorem emits_flush (s : SendQueue) : Emits s [] s.flush := by
  intro fits
  unfold flush
  split
  · rename_i some_
    refine ⟨⟨Nat.zero_le _, fun f member => ?_⟩, by simp [pushed]⟩
    rcases List.mem_append.mp member with old | new
    · exact fits.frames f old
    · obtain rfl := List.mem_singleton.mp new
      exact ⟨List.length_pos_iff.mp some_, fits.queue⟩
  · exact emits_refl fits

theorem flush_queue (s : SendQueue) : s.flush.queue = [] := by
  unfold flush
  split
  · rfl
  · rename_i empty
    exact List.eq_nil_of_length_eq_zero (Nat.eq_zero_of_not_pos empty)

theorem emits_ensureSpace (s : SendQueue) (n : Nat) : Emits s [] (s.ensureSpace n) := by
  unfold ensureSpace
  split
  · exact emits_flush s
  · exact emits_refl

theorem emits_append (room : bytes.length ≤ bufferSize - s.queue.length) :
    Emits s bytes (s.append bytes) := by
  intro fits
  have queue := fits.queue
  refine ⟨⟨?_, fits.frames⟩, (List.append_assoc _ _ _).symm⟩
  dsimp only [append]
  rw [List.length_append]
  omega

/-- A field for which room is made first. -/
theorem emits_field (s : SendQueue) (fits : bytes.length ≤ bufferSize) :
    Emits s bytes ((s.ensureSpace bytes.length).append bytes) :=
  (emits_ensureSpace s _).trans (emits_append (room_of_ensureSpace s fits))

theorem pushBytes_nil (s : SendQueue) : s.pushBytes [] = s := by
  rw [pushBytes, if_pos rfl]

theorem pushBytes_step (s : SendQueue) (some_ : bytes ≠ []) :
    s.pushBytes bytes =
      let chunkSize := min (bufferSize - (s.ensureSpace 1).queue.length) bytes.length
      ((s.ensureSpace 1).append (bytes.take chunkSize)).pushBytes (bytes.drop chunkSize) := by
  rw [pushBytes, if_neg some_]

theorem emits_pushBytes (s : SendQueue) (bytes : List UInt8) :
    Emits s bytes (s.pushBytes bytes) := by
  induction bound : bytes.length using Nat.strongRecOn generalizing s bytes with
  | ind n ih =>
      by_cases empty : bytes = []
      · subst empty
        rw [pushBytes_nil]
        exact emits_refl
      · rw [pushBytes_step s empty]
        dsimp only
        have room : 1 ≤ bufferSize - (s.ensureSpace 1).queue.length :=
          room_of_ensureSpace s (by decide)
        have some_ : 0 < bytes.length := List.length_pos_iff.mpr empty
        generalize chunk : min (bufferSize - (s.ensureSpace 1).queue.length) bytes.length = k
        have filled : Emits s (bytes.take k) ((s.ensureSpace 1).append (bytes.take k)) :=
          (emits_ensureSpace s 1).trans (emits_append (by rw [List.length_take]; omega))
        have rest := ih (bytes.drop k).length (by rw [List.length_drop]; omega)
          ((s.ensureSpace 1).append (bytes.take k)) (bytes.drop k) rfl
        have all := filled.trans rest
        rwa [List.take_append_drop] at all

theorem emits_push (s : SendQueue) (p : Push) : Emits s p.pushed (s.push p) := by
  cases p with
  | push8 num => exact emits_field s (show 1 ≤ bufferSize by decide)
  | push16 num => exact emits_field s (show 2 ≤ bufferSize by decide)
  | push32 num => exact emits_field s (show 4 ≤ bufferSize by decide)
  | bytes data => exact emits_pushBytes s data
  | string str => exact emits_pushBytes s (sQpushString str)

theorem emits_foldl {α : Type} {f : SendQueue → α → SendQueue} {bytes : α → List UInt8}
    (h : ∀ s a, Emits s (bytes a) (f s a)) (l : List α) (s : SendQueue) :
    Emits s (l.flatMap bytes) (l.foldl f s) := by
  induction l generalizing s with
  | nil => exact emits_refl
  | cons a l ih => exact (h s a).trans (ih (f s a))

theorem emits_send (s : SendQueue) (pushes : List Push) :
    Emits s (pushes.flatMap Push.pushed) (s.send pushes) := by
  have all := (emits_foldl emits_push pushes s).trans (emits_flush _)
  rwa [List.append_nil] at all

/-- Encoder calls in a row leave nothing behind: the messages sent hold what they pushed. -/
theorem frames_of_sends (sends : List (List Push)) :
    (sends.foldl send {}).frames.flatten = sends.flatMap (·.flatMap Push.pushed) ∧
      (sends.foldl send {}).Fits := by
  obtain ⟨fits, all⟩ := emits_foldl emits_send sends {} ⟨Nat.zero_le _, by simp⟩
  have flushed : (sends.foldl send {}).queue = [] := by
    rcases sends.eq_nil_or_concat' with rfl | ⟨before, last, rfl⟩
    · rfl
    · rw [List.foldl_append]
      exact flush_queue _
  refine ⟨?_, fits⟩
  rw [pushed, flushed, List.append_nil] at all
  exact all

end Emits

end SendQueue

end VmServer.Novnc
