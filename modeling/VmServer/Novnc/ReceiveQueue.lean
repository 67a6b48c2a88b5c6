import Mathlib.Data.List.DropRight
import VmServer.Novnc.Client
import VmServer.Proxy.SizeBounds

/-!
# The receive queue of the console client

What comes from the server is written behind what has not been read yet, in a
buffer that is compacted or replaced by a larger one when it is full. The
client may go back over what it has read since the last message. It reads the
bytes as they came, and the queue first fails exactly when more than 40 MiB
would be unread.

## Implementation notes

A `Uint8Array` is a list. An exception ends the run: it leaves a buffer that is
smaller than the client takes it for. `rQshiftTo` reads what `rQshiftBytes` does.
-/

namespace VmServer.Novnc

open Proxy

/-- 40 MiB. -/
def MAX_RQ_GROW_SIZE : Nat := 40 * 1024 * 1024

/-- The buffer with the positions to read from and to write to. -/
structure ReceiveQueue where
  rQ : List UInt8
  rQi : Nat := 0
  rQlen : Nat := 0
  rQbufferSize : Nat
  deriving DecidableEq, Repr

/-- What is called on the queue. `rQshift` is the common part of the integers. -/
inductive QueueCall
  | recvMessage (data : List UInt8)
  | rQlen
  | rQpeek8
  | rQskipBytes (bytes : Nat)
  | rQshift (bytes : Nat)
  | rQshiftStr (len : Nat)
  | rQshiftBytes (len : Nat)
  | rQpeekBytes (len : Nat)
  | rQwait (num goback : Nat)
  deriving DecidableEq, Repr

/-- What a call returns; a message, whether the client is told of it. -/
inductive QueueReturn
  | done
  | flag (b : Bool)
  | number (n : Nat)
  | bytes (data : List UInt8)
  | text (str : String)
  deriving DecidableEq, Repr

/-! ## `Uint8Array` -/

/-- `target.set(source, offset)` -/
def setBytes (target source : List UInt8) (offset : Nat) : Except String (List UInt8) :=
  if offset + source.length ≤ target.length then
    .ok (target.take offset ++ source ++ target.drop (offset + source.length))
  else .error "RangeError: offset is out of bounds"

/-- `target.copyWithin(0, start, stop)` -/
def copyToFront (target : List UInt8) (start stop : Nat) : List UInt8 :=
  slice target start stop ++ target.drop (slice target start stop).length

def queueOverflow : String :=
  "Receive queue buffer exceeded " ++ toString MAX_RQ_GROW_SIZE ++
    " bytes, and the new message could not fit"

namespace ReceiveQueue

/-- 4 MiB. -/
def initialSize : Nat := 1024 * 1024 * 4

def start : ReceiveQueue := { rQ := List.replicate initialSize 0, rQbufferSize := initialSize }

/-- Moves the unread bytes to the front, of another buffer where this one is small. -/
def expandCompactRQ (minFit : Nat) (s : ReceiveQueue) : Except String ReceiveQueue := do
  let requiredBufferSize := (s.rQlen - s.rQi + minFit) * 8
  let resizeNeeded := s.rQbufferSize < requiredBufferSize
  let grown := if resizeNeeded then max (s.rQbufferSize * 2) requiredBufferSize else s.rQbufferSize
  let size := if MAX_RQ_GROW_SIZE < grown then MAX_RQ_GROW_SIZE else grown
  if MAX_RQ_GROW_SIZE < grown ∧ size < s.rQlen - s.rQi + minFit then .error queueOverflow
  else
    let rQ ← if resizeNeeded then setBytes (List.replicate size 0) (slice s.rQ s.rQi s.rQlen) 0
      else .ok (copyToFront s.rQ s.rQi s.rQlen)
    return { rQ, rQi := 0, rQlen := s.rQlen - s.rQi, rQbufferSize := size }

/-- When all has been read, the queue starts again at the front. -/
def rewind (s : ReceiveQueue) : ReceiveQueue :=
  if s.rQlen = s.rQi then { s with rQlen := 0, rQi := 0 } else s

def makeRoom (bytes : Nat) (s : ReceiveQueue) : Except String ReceiveQueue :=
  if s.rQbufferSize < s.rQlen + bytes then s.expandCompactRQ bytes else .ok s

def recvMessage (data : List UInt8) (s : ReceiveQueue) : Except String (ReceiveQueue × Bool) := do
  let s ← s.rewind.makeRoom data.length
  let rQ ← setBytes s.rQ data s.rQlen
  let s := { s with rQ, rQlen := s.rQlen + data.length }
  return (s, decide (0 < s.rQlen - s.rQi))

def skipBytes (bytes : Nat) (s : ReceiveQueue) : ReceiveQueue := { s with rQi := s.rQi + bytes }

def peekBytes (len : Nat) (s : ReceiveQueue) : List UInt8 := slice s.rQ s.rQi (s.rQi + len)

/-- The loop over the bytes; `<<` gives a signed number of 32 bits. -/
def shiftLoop : Nat → Int → ReceiveQueue → Int × ReceiveQueue
  | 0, res, s => (res, s)
  | byte + 1, res, s =>
      shiftLoop byte (res + toSigned32bit ((s.rQ.getD s.rQi 0).toNat * 256 ^ byte)) (s.skipBytes 1)

def shift (bytes : Nat) (s : ReceiveQueue) : Nat × ReceiveQueue :=
  let (res, s) := shiftLoop bytes 0 s
  ((toUnsigned32bit res).toNat, s)

/-- A string in steps of so many bytes. -/
def shiftSteps (step len : Nat) (s : ReceiveQueue) : String × ReceiveQueue :=
  if 0 < step ∧ 0 < len then
    let part := s.peekBytes (min step len)
    let (str, s) := shiftSteps step (len - step) (s.skipBytes (min step len))
    (Client.latin1 part ++ str, s)
  else ("", s)
termination_by len
decreasing_by omega

def shiftStr (len : Nat) (s : ReceiveQueue) : String × ReceiveQueue := s.shiftSteps 4096 len

def wait (num goback : Nat) (s : ReceiveQueue) : Except String (ReceiveQueue × Bool) :=
  if s.rQlen < s.rQi + num then
    if goback ≠ 0 ∧ s.rQi < goback then
      .error ("rQwait cannot backup " ++ toString goback ++ " bytes")
    else .ok ({ s with rQi := s.rQi - goback }, true)
  else .ok (s, false)

def call (s : ReceiveQueue) : QueueCall → Except String (ReceiveQueue × QueueReturn)
  | .recvMessage data => (s.recvMessage data).map fun (s, told) => (s, .flag told)
  | .rQlen => .ok (s, .number (s.rQlen - s.rQi))
  | .rQpeek8 => .ok (s, .number (s.rQ.getD s.rQi 0).toNat)
  | .rQskipBytes bytes => .ok (s.skipBytes bytes, .done)
  | .rQshift bytes => let (n, s) := s.shift bytes; .ok (s, .number n)
  | .rQshiftStr len => let (str, s) := s.shiftStr len; .ok (s, .text str)
  | .rQshiftBytes len => .ok (s.skipBytes len, .bytes (s.peekBytes len))
  | .rQpeekBytes len => .ok (s, .bytes (s.peekBytes len))
  | .rQwait num goback => (s.wait num goback).map fun (s, waits) => (s, .flag waits)

end ReceiveQueue

/-! ## The bytes as they came -/

/-- What has been read since the last message, and what has not been read. -/
structure Received where
  read : List UInt8 := []
  unread : List UInt8 := []
  deriving DecidableEq, Repr

namespace Received

def take (n : Nat) (t : Received) : Received :=
  { read := t.read ++ t.unread.take n, unread := t.unread.drop n }

def goBack (n : Nat) (t : Received) : Received :=
  { read := t.read.rdrop n, unread := t.read.rtake n ++ t.unread }

def call (t : Received) : QueueCall → Except String (Received × QueueReturn)
  | .recvMessage data =>
      if MAX_RQ_GROW_SIZE < t.unread.length + data.length then .error queueOverflow
      else .ok ({ unread := t.unread ++ data }, .flag (t.unread ++ data ≠ []))
  | .rQlen => .ok (t, .number t.unread.length)
  | .rQpeek8 => .ok (t, .number (t.unread.headD 0).toNat)
  | .rQskipBytes bytes => .ok (t.take bytes, .done)
  | .rQshift bytes => .ok (t.take bytes, .number (bigEndian (t.unread.take bytes)))
  | .rQshiftStr len => .ok (t.take len, .text (Client.latin1 (t.unread.take len)))
  | .rQshiftBytes len => .ok (t.take len, .bytes (t.unread.take len))
  | .rQpeekBytes len => .ok (t, .bytes (t.unread.take len))
  | .rQwait num goback =>
      if t.unread.length < num then .ok (t.goBack goback, .flag true) else .ok (t, .flag false)

/-- The client reads what it has waited for, integers of at most four bytes, and goes back over
what it has read. -/
def Allows (t : Received) : QueueCall → Prop
  | .recvMessage _ | .rQlen => True
  | .rQpeek8 => 1 ≤ t.unread.length
  | .rQskipBytes n | .rQshiftStr n | .rQshiftBytes n | .rQpeekBytes n => n ≤ t.unread.length
  | .rQshift n => n ≤ 4 ∧ n ≤ t.unread.length
  | .rQwait _ goback => goback ≤ t.read.length

instance (t : Received) : DecidablePred t.Allows := fun c => by
  cases c <;> unfold Allows <;> infer_instance

/-- Calls in a row that the client may make, up to one that fails. -/
def AllowsAll (t : Received) : List QueueCall → Prop
  | [] => True
  | c :: calls => t.Allows c ∧
      match t.call c with
      | .ok (t, _) => t.AllowsAll calls
      | .error _ => True

end Received

theorem slice_eq_take_drop (l : List UInt8) (i n : Nat) : slice l i (i + n) = (l.drop i).take n :=
  List.take_drop.symm

theorem setBytes_ok {target source : List UInt8} {offset : Nat}
    (room : offset + source.length ≤ target.length) : setBytes target source offset =
      .ok (target.take offset ++ source ++ target.drop (offset + source.length)) :=
  if_pos room

theorem bigEndian_cons (b : UInt8) (l : List UInt8) :
    bigEndian (b :: l) = b.toNat * 256 ^ l.length + bigEndian l := by
  have fold : ∀ acc, l.foldl (fun acc b => acc * 256 + b.toNat) acc =
      acc * 256 ^ l.length + bigEndian l := by
    induction l with
    | nil => simp [bigEndian]
    | cons c l ih =>
        intro acc
        have head : bigEndian (c :: l) = c.toNat * 256 ^ l.length + bigEndian l := by
          simpa [bigEndian] using ih c.toNat
        rw [List.foldl_cons, ih, head, List.length_cons, Nat.pow_succ', Nat.add_mul, Nat.mul_assoc,
          Nat.add_assoc]
  simpa [bigEndian] using fold b.toNat

theorem toSigned32bit_emod (n : Int) : toSigned32bit n % 4294967296 = n % 4294967296 := by
  unfold toSigned32bit
  rw [BitVec.toInt_ofInt]
  exact Int.bmod_emod

theorem latin1_append (l l' : List UInt8) :
    Client.latin1 (l ++ l') = Client.latin1 l ++ Client.latin1 l' := by
  simp [Client.latin1]

namespace ReceiveQueue

/-- The buffer holds what has been read since the last message, and behind it what has not been
read, between the two positions. -/
structure Shows (s : ReceiveQueue) (t : Received) : Prop where
  size : s.rQ.length = s.rQbufferSize
  bound : s.rQbufferSize ≤ MAX_RQ_GROW_SIZE
  layout : ∃ front rear, s.rQ = front ++ (t.read ++ (t.unread ++ rear)) ∧
    s.rQi = front.length + t.read.length ∧ s.rQlen = s.rQi + t.unread.length

theorem skipBytes_skipBytes (n m : Nat) (s : ReceiveQueue) :
    (s.skipBytes n).skipBytes m = s.skipBytes (n + m) := by
  simp [skipBytes, Nat.add_assoc]

namespace Shows

variable {s : ReceiveQueue} {t : Received}

theorem length (h : s.Shows t) : s.rQlen - s.rQi = t.unread.length := by
  obtain ⟨_, _, -, -, stop⟩ := h.layout
  omega

theorem drop (h : s.Shows t) : ∃ rear, s.rQ.drop s.rQi = t.unread ++ rear := by
  obtain ⟨front, rear, whole, start, -⟩ := h.layout
  refine ⟨rear, ?_⟩
  rw [whole, start, ← List.append_assoc, ← List.length_append]
  exact List.drop_left

theorem peekBytes (h : s.Shows t) {n : Nat} (le : n ≤ t.unread.length) :
    s.peekBytes n = t.unread.take n := by
  obtain ⟨rear, rest⟩ := h.drop
  unfold ReceiveQueue.peekBytes
  rw [slice_eq_take_drop, rest, List.take_append_of_le_length le]

theorem peek8 (h : s.Shows t) (some_ : 1 ≤ t.unread.length) :
    s.rQ.getD s.rQi 0 = t.unread.headD 0 := by
  obtain ⟨rear, rest⟩ := h.drop
  obtain ⟨b, unread, same⟩ := List.exists_cons_of_length_pos some_
  rw [same] at rest ⊢
  have first : s.rQ[s.rQi]? = some b := by
    rw [← Nat.add_zero s.rQi, ← List.getElem?_drop, rest]
    rfl
  rw [List.getD_eq_getElem?_getD, first]
  rfl

theorem unread (h : s.Shows t) : slice s.rQ s.rQi s.rQlen = t.unread := by
  have all := h.peekBytes (Nat.le_refl _)
  obtain ⟨_, _, -, -, stop⟩ := h.layout
  rw [stop]
  exact all.trans List.take_length

theorem skipBytes (h : s.Shows t) {n : Nat} (le : n ≤ t.unread.length) :
    (s.skipBytes n).Shows (t.take n) := by
  obtain ⟨front, rear, whole, start, stop⟩ := h.layout
  refine ⟨h.size, h.bound, front, rear, ?_, ?_, ?_⟩
  · have split : t.unread.take n ++ (t.unread.drop n ++ rear) = t.unread ++ rear := by
      rw [← List.append_assoc, List.take_append_drop]
    simp only [ReceiveQueue.skipBytes, Received.take, List.append_assoc, split, whole]
  · simp only [ReceiveQueue.skipBytes, Received.take, List.length_append, List.length_take]
    omega
  · simp only [ReceiveQueue.skipBytes, Received.take, List.length_drop]
    omega

theorem goBack (h : s.Shows t) {n : Nat} (le : n ≤ t.read.length) :
    Shows { s with rQi := s.rQi - n } (t.goBack n) := by
  obtain ⟨front, rear, whole, start, stop⟩ := h.layout
  refine ⟨h.size, h.bound, front, rear, ?_, ?_, ?_⟩
  · have split : t.read.rdrop n ++ (t.read.rtake n ++ (t.unread ++ rear)) =
        t.read ++ (t.unread ++ rear) := by
      rw [← List.append_assoc, List.rdrop, List.rtake, List.take_append_drop]
    simp only [Received.goBack, List.append_assoc, split, whole]
  · simp only [Received.goBack, List.rdrop, List.length_take]
    omega
  · simp only [Received.goBack, List.rtake, List.length_append, List.length_drop]
    omega

/-- What has been read can be given up. -/
theorem forget (h : s.Shows t) : s.Shows { unread := t.unread } := by
  obtain ⟨front, rear, whole, start, stop⟩ := h.layout
  refine ⟨h.size, h.bound, front ++ t.read, rear, ?_, ?_, stop⟩
  · rw [whole, List.append_assoc, List.nil_append]
  · rw [start, List.length_append, List.length_nil, Nat.add_zero]

/-! ## Messages -/

theorem rewind (h : s.Shows t) : s.rewind.Shows { unread := t.unread } := by
  unfold ReceiveQueue.rewind
  split
  · rename_i empty
    have none_ : t.unread = [] :=
      List.eq_nil_of_length_eq_zero (by rw [← h.length, empty, Nat.sub_self])
    rw [none_]
    exact ⟨h.size, h.bound, [], s.rQ, rfl, rfl, rfl⟩
  · exact h.forget

/-- The unread bytes at the front of a buffer. -/
theorem packed {unread rear : List UInt8} {size : Nat} (bound : size ≤ MAX_RQ_GROW_SIZE)
    (full : (unread ++ rear).length = size) :
    Shows { rQ := unread ++ rear, rQlen := unread.length, rQbufferSize := size } { unread } :=
  ⟨full, bound, [], rear, rfl, rfl, (Nat.zero_add _).symm⟩

/-- Room is made for every message with which no more than 40 MiB are unread, and for no other. -/
theorem expandCompactRQ (h : s.Shows { unread := t.unread }) (bytes : Nat) :
    if MAX_RQ_GROW_SIZE < t.unread.length + bytes then
      s.expandCompactRQ bytes = .error queueOverflow
    else ∃ s', s.expandCompactRQ bytes = .ok s' ∧ s'.Shows { unread := t.unread } ∧
      s'.rQlen + bytes ≤ s'.rQ.length := by
  have bound := h.bound
  have size := h.size
  have content : slice s.rQ s.rQi s.rQlen = t.unread := h.unread
  have some_ : s.rQlen - s.rQi = t.unread.length := h.length
  have inside : t.unread.length ≤ s.rQ.length := by
    rw [← content, slice, List.length_drop, List.length_take]
    omega
  unfold ReceiveQueue.expandCompactRQ
  dsimp only
  rw [content, some_]
  by_cases small : s.rQbufferSize < (t.unread.length + bytes) * 8
  · rw [if_pos small, if_pos small]
    generalize grown_eq : max (s.rQbufferSize * 2) ((t.unread.length + bytes) * 8) = grown
    generalize size_eq : (if MAX_RQ_GROW_SIZE < grown then MAX_RQ_GROW_SIZE else grown) = size'
    split
    case isTrue large =>
      have clamped : MAX_RQ_GROW_SIZE < grown := by omega
      rw [if_pos clamped] at size_eq
      exact if_pos ⟨clamped, size_eq ▸ large⟩
    case isFalse fits =>
      have bound' : size' ≤ MAX_RQ_GROW_SIZE := by
        split at size_eq <;> omega
      have room : t.unread.length + bytes ≤ size' := by
        split at size_eq <;> omega
      have placed : 0 + t.unread.length ≤ (List.replicate size' (0 : UInt8)).length := by
        rw [List.length_replicate]
        omega
      rw [if_neg fun clamped => absurd clamped.2 (Nat.not_lt.mpr room), setBytes_ok placed]
      have full : (t.unread ++ (List.replicate size' (0 : UInt8)).drop (0 + t.unread.length)).length
          = size' := by
        rw [List.length_append, List.length_drop, List.length_replicate]
        omega
      exact ⟨_, rfl, packed bound' full, full.symm ▸ room⟩
  · rw [if_neg small, if_neg small, if_neg (Nat.not_lt.mpr bound)]
    have fits : t.unread.length + bytes ≤ s.rQbufferSize := by omega
    rw [if_neg (Nat.not_lt.mpr (fits.trans bound)),
      if_neg fun clamped => absurd clamped.1 (Nat.not_lt.mpr bound), copyToFront, content]
    have full : (t.unread ++ s.rQ.drop t.unread.length).length = s.rQbufferSize := by
      rw [List.length_append, List.length_drop]
      omega
    exact ⟨_, rfl, packed bound full, full.symm ▸ fits⟩

theorem makeRoom (h : s.Shows { unread := t.unread }) (bytes : Nat) :
    if MAX_RQ_GROW_SIZE < t.unread.length + bytes then s.makeRoom bytes = .error queueOverflow
    else ∃ s', s.makeRoom bytes = .ok s' ∧ s'.Shows { unread := t.unread } ∧
      s'.rQlen + bytes ≤ s'.rQ.length := by
  by_cases full : s.rQbufferSize < s.rQlen + bytes
  · rw [show s.makeRoom bytes = s.expandCompactRQ bytes from if_pos full]
    exact h.expandCompactRQ bytes
  · have bound := h.bound
    have some_ : s.rQlen - s.rQi = t.unread.length := h.length
    have room : s.rQlen + bytes ≤ s.rQ.length := h.size.symm ▸ Nat.not_lt.mp full
    rw [if_neg (by omega)]
    exact ⟨s, if_neg full, h, room⟩

theorem append (h : s.Shows { unread := t.unread }) {data : List UInt8}
    (room : s.rQlen + data.length ≤ s.rQ.length) : ∃ rQ, setBytes s.rQ data s.rQlen = .ok rQ ∧
      Shows { s with rQ, rQlen := s.rQlen + data.length } { unread := t.unread ++ data } := by
  refine ⟨_, setBytes_ok room, ?_, h.bound, ?_⟩
  · rw [← h.size]
    simp only [List.length_append, List.length_take, List.length_drop]
    omega
  · obtain ⟨front, rear, whole, start, stop⟩ := h.layout
    refine ⟨front, rear.drop data.length, ?_, start, ?_⟩
    · have written : s.rQ = (front ++ t.unread) ++ rear := by
        rw [whole, List.nil_append, List.append_assoc]
      have stop : s.rQlen = (front ++ t.unread).length := by
        rw [stop, start, List.length_append]
        rfl
      dsimp only
      rw [stop, written, List.take_left, ← List.drop_drop, List.drop_left]
      simp
    · dsimp only at stop ⊢
      rw [List.length_append]
      omega

/-- A message is appended to the unread bytes unless there would be too many. -/
theorem recvMessage (h : s.Shows t) (data : List UInt8) :
    if MAX_RQ_GROW_SIZE < t.unread.length + data.length then
      s.recvMessage data = .error queueOverflow
    else ∃ s', s.recvMessage data = .ok (s', decide (t.unread ++ data ≠ [])) ∧
      s'.Shows { unread := t.unread ++ data } := by
  have made := h.rewind.makeRoom (t := t) data.length
  unfold ReceiveQueue.recvMessage
  split at made
  · rename_i large
    rw [if_pos large, made]
    rfl
  · rename_i fits
    obtain ⟨s', ok, shows, room⟩ := made
    obtain ⟨rQ, written, shows⟩ := shows.append room
    rw [if_neg fits, ok]
    refine ⟨_, ?_, shows⟩
    have told : decide (0 < s'.rQlen + data.length - s'.rQi) = decide (t.unread ++ data ≠ []) := by
      rw [shows.length, decide_eq_decide]
      exact List.length_pos_iff
    rw [← told]
    change (setBytes s'.rQ data s'.rQlen >>= _) = _
    rw [written]
    rfl

/-! ## Reads -/

/-- The loop gives the bytes as a number, up to a multiple of what 32 bits hold. -/
theorem shiftLoop (h : s.Shows t) {n : Nat} (le : n ≤ t.unread.length) (res : Int) :
    (ReceiveQueue.shiftLoop n res s).1 % 4294967296 =
        (res + bigEndian (t.unread.take n)) % 4294967296 ∧
      (ReceiveQueue.shiftLoop n res s).2 = s.skipBytes n := by
  induction n generalizing s t res with
  | zero => simp [ReceiveQueue.shiftLoop, bigEndian, ReceiveQueue.skipBytes]
  | succ n ih =>
      have first := h.peek8 (Nat.one_le_of_lt le)
      obtain ⟨b, unread, same⟩ := List.exists_cons_of_length_pos (Nat.zero_lt_of_lt le)
      have later := h.skipBytes (Nat.one_le_of_lt le)
      have rest : (t.take 1).unread = unread := by simp [Received.take, same]
      rw [same, List.length_cons] at le
      have shorter : n ≤ unread.length := Nat.le_of_succ_le_succ le
      obtain ⟨sum, skipped⟩ := ih later (rest ▸ shorter)
        (res + toSigned32bit ((s.rQ.getD s.rQi 0).toNat * 256 ^ n))
      refine ⟨?_, ?_⟩
      · rw [ReceiveQueue.shiftLoop, sum, rest, first, same, List.headD_cons, List.take_succ_cons,
          bigEndian_cons, List.length_take, Nat.min_eq_left shorter]
        have digit := toSigned32bit_emod (b.toNat * 256 ^ n)
        push_cast
        omega
      · rw [ReceiveQueue.shiftLoop, skipped, skipBytes_skipBytes, Nat.add_comm]

/-- The sign that the shifts give is undone at the end. -/
theorem shift (h : s.Shows t) {n : Nat} (four : n ≤ 4) (le : n ≤ t.unread.length) :
    s.shift n = (bigEndian (t.unread.take n), s.skipBytes n) := by
  obtain ⟨sum, skipped⟩ := h.shiftLoop le 0
  have small : bigEndian (t.unread.take n) < 4294967296 := by
    have lt := bigEndian_lt (t.unread.take n)
    rw [List.length_take, Nat.min_eq_left le] at lt
    exact lt.trans_le (Nat.pow_le_pow_right (by decide) four)
  unfold ReceiveQueue.shift toUnsigned32bit
  dsimp only
  rw [sum, skipped]
  refine Prod.ext ?_ rfl
  dsimp only
  omega

theorem shiftSteps (h : s.Shows t) {step : Nat} (pos : 0 < step) {len : Nat}
    (le : len ≤ t.unread.length) :
    s.shiftSteps step len = (Client.latin1 (t.unread.take len), s.skipBytes len) := by
  induction len using Nat.strongRecOn generalizing s t with
  | _ len ih =>
      unfold ReceiveQueue.shiftSteps
      split
      case isTrue more =>
          have le' : min step len ≤ t.unread.length := (Nat.min_le_right ..).trans le
          have rest : len - step ≤ (t.take (min step len)).unread.length := by
            rw [Received.take, List.length_drop]
            omega
          rw [h.peekBytes le', ih (len - step) (Nat.sub_lt more.2 pos) (h.skipBytes le') rest]
          have all : len = min step len + (len - step) := by omega
          dsimp only
          rw [← latin1_append, skipBytes_skipBytes, ← all, Received.take, ← List.take_add, ← all]
      case isFalse done =>
          obtain rfl : len = 0 := by omega
          rfl

theorem wait (h : s.Shows t) (num : Nat) {goback : Nat} (back : goback ≤ t.read.length) :
    (t.unread.length < num ∧ s.wait num goback = .ok ({ s with rQi := s.rQi - goback }, true)) ∨
      (¬t.unread.length < num ∧ s.wait num goback = .ok (s, false)) := by
  obtain ⟨front, _, -, start, stop⟩ := h.layout
  unfold ReceiveQueue.wait
  by_cases short : t.unread.length < num
  · refine .inl ⟨short, ?_⟩
    rw [if_pos (by omega), if_neg (by omega)]
  · exact .inr ⟨short, if_neg (by omega)⟩

/-! ## Calls -/

/-- A call on the queue does what it does on the bytes as they came. -/
theorem call (h : s.Shows t) {c : QueueCall} (allowed : t.Allows c) :
    (∃ e, s.call c = .error e ∧ t.call c = .error e) ∨
      ∃ s' t' r, s.call c = .ok (s', r) ∧ t.call c = .ok (t', r) ∧ s'.Shows t' := by
  cases c with
  | recvMessage data =>
      have received := h.recvMessage data
      unfold ReceiveQueue.call Received.call
      dsimp only
      split at received
      case isTrue large =>
        rw [if_pos large, received]
        exact .inl ⟨_, rfl, rfl⟩
      case isFalse fits =>
        obtain ⟨s', ok, shows⟩ := received
        rw [if_neg fits, ok]
        exact .inr ⟨_, _, _, rfl, rfl, shows⟩
  | rQlen => exact .inr ⟨s, t, _, rfl, by rw [h.length]; rfl, h⟩
  | rQpeek8 => exact .inr ⟨s, t, _, rfl, by rw [h.peek8 allowed]; rfl, h⟩
  | rQskipBytes n => exact .inr ⟨_, _, _, rfl, rfl, h.skipBytes allowed⟩
  | rQshift n =>
      refine .inr ⟨_, _, _, ?_, rfl, h.skipBytes allowed.2⟩
      rw [ReceiveQueue.call, h.shift allowed.1 allowed.2]
  | rQshiftStr n =>
      refine .inr ⟨_, _, _, ?_, rfl, h.skipBytes allowed⟩
      rw [ReceiveQueue.call, shiftStr, h.shiftSteps (by decide) allowed]
  | rQshiftBytes n =>
      refine .inr ⟨_, _, _, ?_, rfl, h.skipBytes allowed⟩
      rw [ReceiveQueue.call, h.peekBytes allowed]
  | rQpeekBytes n =>
      refine .inr ⟨s, t, _, ?_, rfl, h⟩
      rw [ReceiveQueue.call, h.peekBytes allowed]
  | rQwait num goback =>
      obtain ⟨short, waits⟩ | ⟨enough, waits⟩ := h.wait num allowed
      · refine .inr ⟨_, t.goBack goback, .flag true, ?_, if_pos short, h.goBack allowed⟩
        rw [ReceiveQueue.call, waits]
        rfl
      · refine .inr ⟨s, t, .flag false, ?_, if_neg enough, h⟩
        rw [ReceiveQueue.call, waits]
        rfl

end Shows

end ReceiveQueue

/-- What calls in a row return, up to one that fails, and what they leave if none does. -/
def answers {σ : Type} (call : σ → QueueCall → Except String (σ × QueueReturn)) :
    σ → List QueueCall → List (Except String QueueReturn) × Option σ
  | s, [] => ([], some s)
  | s, c :: calls =>
      match call s c with
      | .ok (s, r) => let (returns, last) := answers call s calls; (.ok r :: returns, last)
      | .error e => ([.error e], none)

theorem ReceiveQueue.Shows.answers {s : ReceiveQueue} {t : Received} (h : s.Shows t)
    {calls : List QueueCall} (allowed : t.AllowsAll calls) :
    (answers ReceiveQueue.call s calls).1 = (answers Received.call t calls).1 ∧
      Option.Rel ReceiveQueue.Shows (Novnc.answers ReceiveQueue.call s calls).2
        (Novnc.answers Received.call t calls).2 := by
  induction calls generalizing s t with
  | nil => exact ⟨rfl, .some h⟩
  | cons c calls ih =>
      obtain ⟨first, later⟩ := allowed
      unfold Novnc.answers
      obtain ⟨e, failed, failed'⟩ | ⟨s', t', r, ok, ok', shows⟩ := h.call first
      · rw [failed, failed']
        exact ⟨rfl, .none⟩
      · rw [ok'] at later
        obtain ⟨same, last⟩ := ih shows later
        rw [ok, ok']
        exact ⟨congrArg (.ok r :: ·) same, last⟩

theorem ReceiveQueue.start_shows : ReceiveQueue.start.Shows {} :=
  ⟨List.length_replicate, by decide, [], ReceiveQueue.start.rQ, rfl, rfl, rfl⟩

/-- Whatever messages come and whatever the client reads, skips or goes back over between them,
each call up to the first that fails returns what it would on the bytes as they came. That one is
the first message with which more than 40 MiB would be unread, and the buffer never grows over
40 MiB. -/
theorem receive_queue_keeps_bytes (calls : List QueueCall)
    (allowed : Received.AllowsAll {} calls) :
    (answers ReceiveQueue.call ReceiveQueue.start calls).1 = (answers Received.call {} calls).1 ∧
      ∀ s ∈ (answers ReceiveQueue.call ReceiveQueue.start calls).2,
        s.rQ.length ≤ MAX_RQ_GROW_SIZE ∧ ∃ t, (answers Received.call {} calls).2 = some t ∧
          slice s.rQ s.rQi s.rQlen = t.unread := by
  obtain ⟨same, last⟩ := ReceiveQueue.start_shows.answers allowed
  refine ⟨same, fun s member => ?_⟩
  rw [Option.mem_def.mp member] at last
  cases rest : (answers Received.call {} calls).2 with
  | none => rw [rest] at last; cases last
  | some t =>
      rw [rest] at last
      obtain ⟨shows⟩ := last
      exact ⟨shows.size.trans_le shows.bound, t, rfl, shows.unread⟩

/-- A header that is cut by the end of a message is read from its first byte when more comes. -/
theorem cut_header_read_again :
    (answers ReceiveQueue.call ReceiveQueue.start [.recvMessage [5, 0], .rQpeek8, .rQskipBytes 1,
        .rQwait 2 1, .recvMessage [7], .rQwait 3 0, .rQshift 2, .rQshiftBytes 1, .rQlen]).1 =
      [.ok (.flag true), .ok (.number 5), .ok .done, .ok (.flag true), .ok (.flag true),
        .ok (.flag false), .ok (.number 1280), .ok (.bytes [7]), .ok (.number 0)] := by
  refine (receive_queue_keeps_bytes _ ?_).1.trans rfl
  exact ⟨trivial, by decide, by decide, by decide, trivial, by decide, by decide, by decide,
    trivial, trivial⟩

end VmServer.Novnc
