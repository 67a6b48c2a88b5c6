import Mathlib.Data.List.Basic

/-!
# Buffered channels

A channel holds at most as many values as its capacity. A send to a full
channel blocks; a send to a closed one, or a second close, is an error that
ends the program. Receiving from a closed channel never blocks.
-/

/-- A buffered channel carries the bound on its buffer. -/
structure Channel (α : Type*) where
  capacity : Nat
  buffer : List α
  closed : Bool
  bounded : buffer.length ≤ capacity

namespace Channel

variable {α : Type*}

/-- What an operation on a channel comes to. -/
inductive Step (β : Type*)
  | ok (b : β)
  | blocks
  | panics

def make (capacity : Nat) : Channel α := ⟨capacity, [], false, Nat.zero_le _⟩

def send (c : Channel α) (a : α) : Step (Channel α) :=
  if c.closed then .panics
  else if h : c.buffer.length < c.capacity then
    .ok { c with buffer := c.buffer ++ [a], bounded := by rw [List.length_append]; exact h }
  else .blocks

/-- A send that is given up when it would block. -/
def trySend (c : Channel α) (a : α) : Step (Channel α) :=
  match c.send a with
  | .blocks => .ok c
  | s => s

def close (c : Channel α) : Step (Channel α) :=
  if c.closed then .panics else .ok { c with closed := true }

/-- The next value, or `none` from a closed and empty channel. -/
def receive (c : Channel α) : Step (Option α × Channel α) :=
  match h : c.buffer with
  | a :: rest =>
      .ok (some a,
        { c with buffer := rest, bounded := by have := c.bounded; simp [h] at this; omega })
  | [] => if c.closed then .ok (none, c) else .blocks

/-- Nothing has been put into the channel yet and it can still be used. -/
def Fresh (c : Channel α) : Prop :=
  c.buffer = [] ∧ c.closed = false

/-- A receive from the channel does not block. -/
def Ready (c : Channel α) : Prop :=
  c.buffer ≠ [] ∨ c.closed = true

@[simp] theorem make_fresh (capacity : Nat) : (make (α := α) capacity).Fresh :=
  ⟨rfl, rfl⟩

theorem Fresh.send {c : Channel α} (h : c.Fresh) (room : 0 < c.capacity) (a : α) :
    ∃ d, c.send a = .ok d ∧ d.buffer = [a] ∧ d.closed = false ∧ d.capacity = c.capacity := by
  obtain ⟨empty, opened⟩ := h
  simp [Channel.send, opened, empty, room]

theorem close_of_open {c : Channel α} (h : c.closed = false) :
    c.close = .ok { c with closed := true } := by
  simp [close, h]

theorem trySend_of_open {c : Channel α} (h : c.closed = false) (a : α) :
    ∃ d, c.trySend a = .ok d ∧ d.closed = false := by
  by_cases room : c.buffer.length < c.capacity
  · simp [trySend, send, h, room]
  · simp [trySend, send, h, room]

/-- A value that is offered goes to the end of the buffer, or is dropped when that is full. -/
theorem trySend_buffer {c d : Channel α} {a : α} (h : c.closed = false)
    (sent : c.trySend a = .ok d) :
    d.buffer = (if c.buffer.length < c.capacity then c.buffer ++ [a] else c.buffer) ∧
      d.capacity = c.capacity := by
  by_cases room : c.buffer.length < c.capacity
  · obtain rfl := by simpa [trySend, send, h, room] using sent
    exact ⟨(if_pos room).symm, rfl⟩
  · obtain rfl := by simpa [trySend, send, h, room] using sent
    exact ⟨(if_neg room).symm, rfl⟩

/-- What was received comes off the front of the buffer, or the channel is closed and empty. -/
theorem receive_cases {c d : Channel α} {r : Option α} (h : c.receive = .ok (r, d)) :
    (∃ a rest, r = some a ∧ c.buffer = a :: rest ∧ d.buffer = rest ∧ d.closed = c.closed) ∨
      (r = none ∧ c.buffer = [] ∧ c.closed = true ∧ d = c) := by
  unfold receive at h
  split at h
  case h_1 a rest hb =>
    obtain ⟨rfl, rfl⟩ : some a = r ∧ _ = d := by simpa using h
    exact .inl ⟨a, rest, rfl, hb, rfl, rfl⟩
  case h_2 hb =>
    by_cases hc : c.closed = true
    · obtain ⟨rfl, rfl⟩ : none = r ∧ c = d := by simpa [hc] using h
      exact .inr ⟨rfl, hb, hc, rfl⟩
    · simp [hc] at h

theorem receive_capacity {c d : Channel α} {r : Option α} (h : c.receive = .ok (r, d)) :
    d.capacity = c.capacity := by
  unfold receive at h
  split at h
  · obtain ⟨_, rfl⟩ : _ = r ∧ _ = d := by simpa using h
    rfl
  · by_cases hc : c.closed = true
    · obtain ⟨_, rfl⟩ : none = r ∧ c = d := by simpa [hc] using h
      rfl
    · simp [hc] at h

theorem Ready.receive {c : Channel α} (h : c.Ready) : ∃ r, c.receive = .ok r := by
  unfold Channel.receive
  split
  · exact ⟨_, rfl⟩
  · rename_i empty
    have closed : c.closed = true := h.resolve_left (· empty)
    exact ⟨_, if_pos closed⟩

theorem receive_blocks {c : Channel α} (empty : c.buffer = []) (opened : c.closed = false) :
    c.receive = .blocks := by
  unfold receive
  split
  · rename_i full
    cases empty.symm.trans full
  · simp [opened]

end Channel
