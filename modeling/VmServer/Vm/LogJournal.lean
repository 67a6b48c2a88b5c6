import VmServer.Vm.LogRing

/-!
# The log ring as a journal

Besides the output of QEMU the ring takes whole lines from the manager, is
emptied at a launch, and is read by the status and by the texts of errors.
Reading the tail ends the line that is being written. To all of them the ring
is a journal that forgets nothing, read through its last lines.
-/

namespace VmServer.Vm

open Lines

/-- `" | "` -/
def tailSeparator : Bytes := [0x20, 0x7c, 0x20]

/-- `strings.Join(lines, " | ")` -/
def joinTail (lines : List Bytes) : Bytes := tailSeparator.intercalate lines

namespace Ring

def add (r : Ring) (l : Bytes) : Ring := r.push l

/-- The unfinished line becomes a line of its own. -/
def endLine (r : Ring) : Ring :=
  if r.part ≠ [] then { r.push r.part with part := [] } else r

/-- The last `n` lines as one text. -/
def tail (r : Ring) (n : Nat) : Ring × Bytes :=
  let r := r.endLine
  let n := if r.buf.length < n then r.buf.length else n
  (r, joinTail (r.buf.drop (r.buf.length - n)))

end Ring

/-- The calls on the log; its mutex puts them in an order. -/
inductive LogCall
  | write (p : Bytes)
  | add (l : Bytes)
  | reset
  | lines
  | tail (n : Nat)
  deriving DecidableEq, Repr

/-- What a call returns. -/
inductive LogReturn
  | written (n : Nat)
  | done
  | lines (ls : List Bytes)
  | text (t : Bytes)
  deriving DecidableEq, Repr

def Ring.call (r : Ring) : LogCall → Ring × LogReturn
  | .write p => let (r, n) := r.write p; (r, .written n)
  | .add l => (r.add l, .done)
  | .reset => (r.reset, .done)
  | .lines => (r, .lines r.lines)
  | .tail n => let (r, t) := r.tail n; (r, .text t)

/-- A log that keeps every line since it was emptied, and the text behind the last line end. -/
structure Journal where
  lines : List Bytes := []
  rest : Bytes := []

namespace Journal

/-- The unfinished line becomes a line of its own. -/
def endLine (j : Journal) : Journal :=
  { lines := j.lines ++ [j.rest].filter (· ≠ []) }

/-- A call on the journal that shows its last `max` lines. -/
def call (max : Nat) (j : Journal) : LogCall → Journal × LogReturn
  | .write p =>
      ({ lines := j.lines ++ shown (j.rest ++ p), rest := pending lineFeed (j.rest ++ p) },
        .written p.length)
  | .add l => ({ j with lines := j.lines ++ [l].filter (· ≠ []) }, .done)
  | .reset => ({}, .done)
  | .lines => (j, .lines (j.lines.rtake max))
  | .tail n => (j.endLine, .text (joinTail ((j.endLine.lines.rtake max).rtake n)))

end Journal

/-- The returns of calls in a row. -/
def returns {σ : Type} (call : σ → LogCall → σ × LogReturn) : σ → List LogCall → List LogReturn
  | _, [] => []
  | s, c :: calls => (call s c).2 :: returns call (call s c).1 calls

/-- The ring holds the last lines of the journal, and its unfinished line. -/
structure Ring.Shows (r : Ring) (max : Nat) (j : Journal) : Prop where
  size : r.max = max
  buf : r.buf = j.lines.rtake max
  part : r.part = j.rest

namespace Ring.Shows

variable {r : Ring} {max : Nat} {j : Journal}

theorem push (h : r.Shows max j) (l : Bytes) :
    (r.push l).Shows max { j with lines := j.lines ++ [l].filter (· ≠ []) } := by
  obtain ⟨size, part, buf⟩ := push_spec r l
  refine ⟨size.trans h.size, ?_, part.trans h.part⟩
  rw [buf, h.size, h.buf, rtake_append]

theorem write (h : r.Shows max j) (p : Bytes) :
    (r.write p).1.Shows max
      { lines := j.lines ++ shown (j.rest ++ p), rest := pending lineFeed (j.rest ++ p) } := by
  obtain ⟨size, part, buf⟩ := write_spec r p
  refine ⟨size.trans h.size, ?_, h.part ▸ part⟩
  rw [buf, h.size, h.buf, h.part, rtake_append]

theorem endLine (h : r.Shows max j) : r.endLine.Shows max j.endLine := by
  unfold Ring.endLine
  split
  · have pushed := h.push j.rest
    rw [h.part]
    exact ⟨pushed.size, pushed.buf, rfl⟩
  · rename_i none_
    have empty : j.rest = [] := h.part ▸ not_not.mp none_
    have same : j.endLine = j := by
      obtain ⟨lines, rest⟩ := j
      obtain rfl : rest = [] := empty
      simp [Journal.endLine]
    rwa [same]

/-- The tail is cut from what the ring holds. -/
theorem tail_eq (r : Ring) (n : Nat) :
    r.tail n = (r.endLine, joinTail (r.endLine.buf.rtake n)) := by
  unfold Ring.tail List.rtake
  dsimp only
  split
  · have all : r.endLine.buf.length - n = 0 := by omega
    rw [Nat.sub_self, all]
  · rfl

/-- A call finds in the ring what the journal shows. -/
theorem call (h : r.Shows max j) (c : LogCall) :
    (r.call c).1.Shows max (j.call max c).1 ∧ (r.call c).2 = (j.call max c).2 := by
  cases c with
  | write p => exact ⟨h.write p, rfl⟩
  | add l => exact ⟨h.push l, rfl⟩
  | reset => exact ⟨⟨h.size, (List.rtake_nil ..).symm, rfl⟩, rfl⟩
  | lines => exact ⟨h, congrArg LogReturn.lines h.buf⟩
  | tail n =>
      have ended := h.endLine
      have text := congrArg (fun buf => LogReturn.text (joinTail (buf.rtake n))) ended.buf
      rw [Ring.call, tail_eq]
      exact ⟨ended, text⟩

theorem returns_eq (h : r.Shows max j) (calls : List LogCall) :
    returns Ring.call r calls = returns (Journal.call max) j calls := by
  induction calls generalizing r j with
  | nil => rfl
  | cons c calls ih =>
      obtain ⟨later, same⟩ := h.call c
      rw [returns, returns, same, ih later]

end Ring.Shows

/-- For every sequence of calls, however output, lines of the manager, launches and readers
follow one another, the bounded ring returns what a journal of everything would, seen through its
last lines. -/
theorem log_ring_is_journal (max : Nat) (calls : List LogCall) :
    returns Ring.call (Ring.newRing max) calls = returns (Journal.call max) {} calls :=
  Ring.Shows.returns_eq ⟨rfl, (List.rtake_nil ..).symm, rfl⟩ calls

/-- Reading the tail cuts the line that is being written in two. -/
example : returns Ring.call (Ring.newRing 2) [.write [0x61], .tail 1, .write [0x62, 0x0a], .lines] =
    [.written 1, .text [0x61], .written 2, .lines [[0x61], [0x62]]] := by decide

end VmServer.Vm
