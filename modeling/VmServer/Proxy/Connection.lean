import VmServer.Proxy.Stream

/-!
# Connections that deliver their bytes in pieces

A `Source` is anything a `Read` can be called on. How its bytes are cut into
pieces is its own affair; its `stream` is what the pieces add up to. The loop
of `io.ReadFull` sees no more of a source than that stream.
-/

namespace VmServer.Proxy

/-- An `io.Reader` with the stream it stands for. A `Read` into a buffer that is not empty
delivers some of the bytes to come, or the error after the last one. -/
class Source (σ : Type) where
  stream : σ → Reader
  read : σ → Nat → Except ReadError (List UInt8 × σ)
  read_error {s : σ} {k : Nat} {e : ReadError} (pos : 0 < k) (h : read s k = .error e) :
    (stream s).bytes = [] ∧ e = (stream s).fault
  read_ok {s s' : σ} {k : Nat} {b : List UInt8} (pos : 0 < k) (h : read s k = .ok (b, s')) :
    b ≠ [] ∧ b.length ≤ k ∧ stream s = ⟨b ++ (stream s').bytes, (stream s').fault⟩

/-- The front of a list and the rest of it, cut where a buffer ends. -/
theorem take_delivers {bytes : List UInt8} (more : bytes ≠ []) {k : Nat} (pos : 0 < k) :
    bytes.take k ≠ [] ∧ (bytes.take k).length ≤ k := by
  refine ⟨fun none => ?_, List.length_take_le _ _⟩
  rcases List.take_eq_nil_iff.mp none with zero | empty
  · exact absurd zero (Nat.ne_of_gt pos)
  · exact more empty

/-- A reader that delivers as much as it is asked for. -/
instance : Source Reader where
  stream r := r
  read r k :=
    if r.bytes = [] then .error r.fault
    else .ok (r.bytes.take k, { r with bytes := r.bytes.drop k })
  read_error _ h := by
    split at h
    · rename_i empty
      exact ⟨empty, (Except.error.inj h).symm⟩
    · cases h
  read_ok pos h := by
    split at h
    · cases h
    · rename_i more
      obtain ⟨rfl, rfl⟩ := Prod.mk.inj (Except.ok.inj h)
      obtain ⟨some, room⟩ := take_delivers more pos
      exact ⟨some, room, by simp⟩

/-- A TCP connection: the pieces in which `Read` finds the bytes. -/
structure TcpConn where
  pieces : List (List UInt8)
  fault : ReadError := .eof

def TcpConn.stream (c : TcpConn) : Reader := ⟨c.pieces.flatten, c.fault⟩

/-- `Read` delivers what it can of the next piece that holds anything. -/
def TcpConn.read (c : TcpConn) (k : Nat) : Except ReadError (List UInt8 × TcpConn) :=
  match c.pieces.dropWhile List.isEmpty with
  | [] => .error c.fault
  | piece :: rest => .ok (piece.take k, { c with pieces := piece.drop k :: rest })

theorem flatten_dropWhile_isEmpty (pieces : List (List UInt8)) :
    (pieces.dropWhile List.isEmpty).flatten = pieces.flatten := by
  induction pieces with
  | nil => rfl
  | cons piece rest ih =>
      cases piece with
      | nil => simpa using ih
      | cons b piece => rfl

theorem ne_nil_of_dropWhile_isEmpty {pieces rest : List (List UInt8)} {piece : List UInt8}
    (h : pieces.dropWhile List.isEmpty = piece :: rest) : piece ≠ [] := by
  have filled := List.head?_dropWhile_not List.isEmpty pieces
  rw [h] at filled
  simpa using filled

instance : Source TcpConn where
  stream := TcpConn.stream
  read := TcpConn.read
  read_error {s k e} _ h := by
    unfold TcpConn.read at h
    split at h
    · rename_i none
      refine ⟨?_, (Except.error.inj h).symm⟩
      rw [TcpConn.stream, ← flatten_dropWhile_isEmpty, none]
      rfl
    · cases h
  read_ok {s s' k b} pos h := by
    unfold TcpConn.read at h
    split at h
    · cases h
    · rename_i piece rest next
      obtain ⟨rfl, rfl⟩ := Prod.mk.inj (Except.ok.inj h)
      obtain ⟨some, room⟩ := take_delivers (ne_nil_of_dropWhile_isEmpty next) pos
      refine ⟨some, room, ?_⟩
      rw [TcpConn.stream, ← flatten_dropWhile_isEmpty, next, TcpConn.stream, List.flatten_cons,
        List.flatten_cons, ← List.append_assoc, List.take_append_drop]

/-- A message of the browser's WebSocket: binary or text. -/
structure Frame where
  binary : Bool
  data : List UInt8

/-- The adapter around the browser's WebSocket: what is left of the last message, and the
messages to come. -/
structure WsConn where
  buf : List UInt8 := []
  frames : List Frame
  fault : ReadError := .eof

/-- The loop of `Read`: messages are read until there is something in the buffer; only binary
ones are put there. -/
def WsConn.fill : List UInt8 → List Frame → List UInt8 × List Frame
  | b :: buf, frames => (b :: buf, frames)
  | [], [] => ([], [])
  | [], f :: frames => fill (if f.binary then f.data else []) frames

def WsConn.read (c : WsConn) (k : Nat) : Except ReadError (List UInt8 × WsConn) :=
  match WsConn.fill c.buf c.frames with
  | ([], _) => .error c.fault
  | (b :: buf, frames) =>
      .ok ((b :: buf).take k, { c with buf := (b :: buf).drop k, frames })

/-- The payload of the binary messages. -/
def WsConn.payload (frames : List Frame) : List UInt8 :=
  (frames.filter Frame.binary).flatMap Frame.data

def WsConn.stream (c : WsConn) : Reader := ⟨c.buf ++ WsConn.payload c.frames, c.fault⟩

theorem WsConn.fill_payload (buf : List UInt8) (frames : List Frame) :
    (WsConn.fill buf frames).1 ++ WsConn.payload (WsConn.fill buf frames).2 =
      buf ++ WsConn.payload frames := by
  induction frames generalizing buf with
  | nil => cases buf <;> rfl
  | cons f frames ih =>
      cases buf with
      | cons b buf => rfl
      | nil =>
          rw [WsConn.fill, ih, WsConn.payload, WsConn.payload, List.nil_append, List.filter_cons]
          cases f.binary <;> simp

theorem WsConn.fill_empty {buf : List UInt8} {frames : List Frame}
    (h : (WsConn.fill buf frames).1 = []) : (WsConn.fill buf frames).2 = [] := by
  induction frames generalizing buf with
  | nil => cases buf <;> rfl
  | cons f frames ih =>
      cases buf with
      | cons b buf => cases h
      | nil => exact ih h

instance : Source WsConn where
  stream := WsConn.stream
  read := WsConn.read
  read_error {s k e} _ h := by
    have all := WsConn.fill_payload s.buf s.frames
    have last := @WsConn.fill_empty s.buf s.frames
    unfold WsConn.read at h
    split at h
    · rename_i frames filled
      rw [filled] at all last
      refine ⟨?_, (Except.error.inj h).symm⟩
      rw [WsConn.stream, ← all, last rfl]
      rfl
    · cases h
  read_ok {s s' k b} pos h := by
    have all := WsConn.fill_payload s.buf s.frames
    unfold WsConn.read at h
    split at h
    · cases h
    · rename_i c buf frames filled
      rw [filled] at all
      obtain ⟨rfl, rfl⟩ := Prod.mk.inj (Except.ok.inj h)
      obtain ⟨some, room⟩ := take_delivers (List.cons_ne_nil c buf) pos
      refine ⟨some, room, ?_⟩
      rw [WsConn.stream, ← all, WsConn.stream, ← List.append_assoc, List.take_append_drop]

namespace Source

variable {σ : Type} [Source σ]

/-- The loop of `io.ReadFull`: pieces are read until `n` bytes have arrived. -/
def readFull (s : σ) (n : Nat) : Except ReadError (List UInt8 × σ) :=
  if n = 0 then .ok ([], s)
  else
    match _h : read s n with
    | .error e => .error e
    | .ok (b, s) =>
        match readFull s (n - b.length) with
        | .error e => .error e.afterSome
        | .ok (rest, s) => .ok (b ++ rest, s)
termination_by n
decreasing_by
  have pos : 0 < n := Nat.pos_of_ne_zero (by assumption)
  obtain ⟨some, _⟩ := read_ok pos _h
  have := List.length_pos_iff.mpr some
  omega

theorem readFull_zero (s : σ) : readFull s 0 = .ok ([], s) := by
  rw [readFull]
  rfl

theorem readFull_of_error {s : σ} {n : Nat} {e : ReadError} (pos : 0 < n)
    (h : read s n = .error e) : readFull s n = .error e := by
  rw [readFull, if_neg (Nat.ne_of_gt pos)]
  split <;> simp_all

theorem readFull_of_ok {s s' : σ} {n : Nat} {b : List UInt8} (pos : 0 < n)
    (h : read s n = .ok (b, s')) : readFull s n =
      match readFull s' (n - b.length) with
      | .error e => .error e.afterSome
      | .ok (rest, s') => .ok (b ++ rest, s') := by
  rw [readFull, if_neg (Nat.ne_of_gt pos)]
  split <;> simp_all

theorem afterSome_afterSome (e : ReadError) : e.afterSome.afterSome = e.afterSome := by
  cases e <;> rfl

/-- Reading a first piece and then what is missing is reading the front. -/
theorem readFull_append {b bytes : List UInt8} {fault : ReadError} {n : Nat} (some : b ≠ [])
    (room : b.length ≤ n) : Reader.readFull ⟨b ++ bytes, fault⟩ n =
      match Reader.readFull ⟨bytes, fault⟩ (n - b.length) with
      | .error e => .error e.afterSome
      | .ok (rest, r) => .ok (b ++ rest, r) := by
  obtain ⟨m, rfl⟩ := Nat.exists_eq_add_of_le room
  rw [Nat.add_sub_cancel_left]
  by_cases enough : m ≤ bytes.length
  · have all : b.length + m ≤ (b ++ bytes).length := by
      rw [List.length_append]
      omega
    rw [readFull_of_le (by exact all), readFull_of_le (by exact enough)]
    simp [List.take_append, List.drop_append, List.take_of_length_le]
  · have short : ¬ b.length + m ≤ (b ++ bytes).length := by
      rw [List.length_append]
      omega
    rw [Reader.readFull, if_neg short, if_neg (by simp [some]), Reader.readFull, if_neg enough]
    by_cases empty : bytes = []
    · rw [if_pos empty]
    · rw [if_neg empty]
      exact congrArg Except.error (afterSome_afterSome fault).symm

/-- However the bytes are cut into pieces, `ReadFull` reads the front of the stream. -/
theorem readFull_stream (s : σ) (n : Nat) :
    (readFull s n).map (fun x => (x.1, stream x.2)) = (stream s).readFull n := by
  induction n using Nat.strongRecOn generalizing s with
  | ind n ih =>
      rcases Nat.eq_zero_or_pos n with rfl | pos
      · rw [readFull_zero]
        rfl
      cases hr : read s n with
      | error e =>
          obtain ⟨empty, rfl⟩ := read_error pos hr
          rw [readFull_of_error pos hr, Reader.readFull, if_neg (by simp [empty, Nat.ne_of_gt pos]),
            if_pos empty]
          rfl
      | ok x =>
          obtain ⟨b, s'⟩ := x
          obtain ⟨some, room, whole⟩ := read_ok pos hr
          have len := List.length_pos_iff.mpr some
          have later := ih (n - b.length) (by omega) s'
          rw [readFull_of_ok pos hr, whole, readFull_append some room, ← later]
          cases readFull s' (n - b.length) with
          | error e => rfl
          | ok x => rfl

theorem readFull_ok {s s' : σ} {n : Nat} {b : List UInt8} (h : readFull s n = .ok (b, s')) :
    n ≤ (stream s).bytes.length ∧ b = (stream s).bytes.take n ∧
      stream s' = { stream s with bytes := (stream s).bytes.drop n } := by
  have front := readFull_stream s n
  rw [h] at front
  exact Proxy.readFull_ok.mp front.symm

/-- On a reader the loop is one `ReadFull` of the stream. -/
theorem readFull_reader (r : Reader) (n : Nat) : readFull r n = r.readFull n := by
  have same := readFull_stream r n
  change (readFull r n).map (fun x => (x.1, x.2)) = r.readFull n at same
  rw [← same]
  cases readFull r n <;> rfl

end Source

end VmServer.Proxy
