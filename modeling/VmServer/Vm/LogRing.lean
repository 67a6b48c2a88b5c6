import VmServer.Library.Lines

/-!
# The log ring

QEMU writes its output to the ring in chunks of any size. The ring keeps the
unfinished line apart, drops empty lines, and keeps the last ones of the rest.
What it holds is a function of the whole stream since the last `reset`.
-/

namespace VmServer.Vm

open Lines

abbrev Bytes := List UInt8

def lineFeed : UInt8 := 0x0a
def carriageReturn : UInt8 := 0x0d

/-- `strings.TrimRight(l, "\r")` -/
def trimReturns (l : Bytes) : Bytes := l.rdropWhile (· = carriageReturn)

/-- The ring carries the bound on its lines. -/
@[ext]
structure Ring where
  max : Nat
  buf : List Bytes
  part : Bytes
  bounded : buf.length ≤ max

namespace Ring

def newRing (max : Nat) : Ring := ⟨max, [], [], Nat.zero_le max⟩

/-- The last `max` of the lines. -/
def latest (max : Nat) (buf : List Bytes) : List Bytes :=
  if max < buf.length then buf.drop (buf.length - max) else buf

theorem length_latest (max : Nat) (buf : List Bytes) : (latest max buf).length ≤ max := by
  unfold latest
  split
  · rw [List.length_drop]
    omega
  · omega

def push (r : Ring) (l : Bytes) : Ring :=
  if l = [] then r
  else { r with buf := latest r.max (r.buf ++ [l]), bounded := length_latest _ _ }

/-- The ring after the chunk, and how much of it was taken. -/
def write (r : Ring) (p : Bytes) : Ring × Nat :=
  let s := r.part ++ p
  let parts := s.splitOn lineFeed
  let r := { r with part := parts.getLastD [] }
  (parts.dropLast.foldl (fun r l => r.push (trimReturns l)) r, p.length)

def reset (r : Ring) : Ring := { r with buf := [], part := [], bounded := Nat.zero_le _ }

def lines (r : Ring) : List Bytes := r.buf

/-- The writes of a process, one after another. -/
def writes (r : Ring) (chunks : List Bytes) : Ring :=
  chunks.foldl (fun r p => (r.write p).1) r

end Ring

/-- The lines of a stream as the ring shows them. -/
def shown (stream : Bytes) : List Bytes :=
  ((complete lineFeed stream).map trimReturns).filter (· ≠ [])

namespace Ring

/-- The ring holds what the stream comes to. -/
structure Holds (r : Ring) (stream : Bytes) : Prop where
  lines : r.lines = (shown stream).rtake r.max
  part : r.part = pending lineFeed stream

variable {r : Ring}

theorem latest_eq (max : Nat) (buf : List Bytes) : latest max buf = buf.rtake max := by
  unfold latest List.rtake
  split
  · rfl
  · rw [Nat.sub_eq_zero_of_le (by omega), List.drop_zero]

theorem rtake_buf (r : Ring) : r.buf.rtake r.max = r.buf := by
  rw [List.rtake, Nat.sub_eq_zero_of_le r.bounded, List.drop_zero]

/-- Pushing keeps the capacity and the unfinished line, and the last ones of all lines. -/
theorem push_spec (r : Ring) (l : Bytes) : (r.push l).max = r.max ∧ (r.push l).part = r.part ∧
    (r.push l).buf = (r.buf ++ [l].filter (· ≠ [])).rtake r.max := by
  unfold push
  split
  · rename_i empty
    subst empty
    exact ⟨rfl, rfl, by simp [rtake_buf]⟩
  · rename_i full
    refine ⟨rfl, rfl, ?_⟩
    rw [List.filter_cons_of_pos (by simpa using full), List.filter_nil]
    exact latest_eq _ _

theorem pushes_spec (r : Ring) (ls : List Bytes) :
    (ls.foldl (fun r l => r.push (trimReturns l)) r).max = r.max ∧
      (ls.foldl (fun r l => r.push (trimReturns l)) r).part = r.part ∧
      (ls.foldl (fun r l => r.push (trimReturns l)) r).buf =
        (r.buf ++ (ls.map trimReturns).filter (· ≠ [])).rtake r.max := by
  induction ls generalizing r with
  | nil => exact ⟨rfl, rfl, by simp [rtake_buf]⟩
  | cons l ls ih =>
      obtain ⟨max, part, buf⟩ := push_spec r (trimReturns l)
      obtain ⟨max', part', buf'⟩ := ih (r.push (trimReturns l))
      refine ⟨max'.trans max, part'.trans part, buf'.trans ?_⟩
      rw [buf, max, rtake_append, List.append_assoc, ← List.filter_append, List.map_cons]
      rfl

theorem write_spec (r : Ring) (p : Bytes) : (r.write p).1.max = r.max ∧
    (r.write p).1.part = pending lineFeed (r.part ++ p) ∧
    (r.write p).1.buf = (r.buf ++ shown (r.part ++ p)).rtake r.max :=
  pushes_spec { r with part := pending lineFeed (r.part ++ p) } _

/-- A chunk continues the stream. -/
theorem Holds.write {stream : Bytes} (h : r.Holds stream) (p : Bytes) :
    (r.write p).1.Holds (stream ++ p) := by
  obtain ⟨max, part, buf⟩ := write_spec r p
  obtain ⟨complete_append, pending_append⟩ := append_eq lineFeed stream p
  have shown_append : shown (stream ++ p) =
      shown stream ++ shown (pending lineFeed stream ++ p) := by
    rw [shown, complete_append, List.map_append, List.filter_append]
    rfl
  have lines : r.buf = (shown stream).rtake r.max := h.lines
  constructor
  · rw [Ring.lines, buf, max, shown_append, h.part, lines, rtake_append]
  · rw [part, pending_append, h.part]

theorem Holds.writes {stream : Bytes} (h : r.Holds stream) (chunks : List Bytes) :
    (r.writes chunks).max = r.max ∧ (r.writes chunks).Holds (stream ++ chunks.flatten) := by
  induction chunks generalizing r stream with
  | nil =>
      rw [List.flatten_nil, List.append_nil]
      exact ⟨rfl, h⟩
  | cons p chunks ih =>
      obtain ⟨max, held⟩ := ih (h.write p)
      refine ⟨max.trans (write_spec r p).1, ?_⟩
      rwa [List.flatten_cons, ← List.append_assoc]

theorem reset_holds (r : Ring) : r.reset.Holds [] := ⟨(List.rtake_nil ..).symm, rfl⟩

end Ring

/-- After a reset, the ring shows the last `max` lines of all that was written, however it was
cut: complete, without trailing carriage returns and not empty. It keeps the text behind the last
line feed, and two ways of cutting a stream leave the same ring. -/
theorem log_ring_chunking (r : Ring) (chunks : List Bytes) :
    ((r.reset.writes chunks).lines = (shown chunks.flatten).rtake r.max ∧
      (r.reset.writes chunks).part = pending lineFeed chunks.flatten ∧
      (r.reset.writes chunks).lines.length ≤ r.max) ∧
      ∀ chunks' : List Bytes, chunks'.flatten = chunks.flatten →
        r.reset.writes chunks' = r.reset.writes chunks := by
  have held (chunks : List Bytes) := r.reset_holds.writes chunks
  obtain ⟨max, lines, part⟩ := held chunks
  refine ⟨⟨max ▸ lines, part, max ▸ (r.reset.writes chunks).bounded⟩, fun chunks' same => ?_⟩
  obtain ⟨max', lines', part'⟩ := held chunks'
  rw [same] at lines' part'
  have sizes := max'.trans max.symm
  have buf : (r.reset.writes chunks').lines = (r.reset.writes chunks).lines := by
    rw [lines', lines, sizes]
  exact Ring.ext sizes buf (part'.trans part.symm)

/-- The cut is between the two bytes of a line end. -/
example : ((Ring.newRing 2).writes [[0x61, 0x0a, 0x62, 0x0d], [0x0a, 0x63, 0x0a], [0x64]]).lines =
    [[0x62], [0x63]] := by decide

end VmServer.Vm
