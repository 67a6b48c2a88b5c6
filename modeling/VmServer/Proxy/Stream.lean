import Mathlib.Data.List.Basic

/-!
# Byte streams as the proxy reads and writes them

A source is known by the bytes it will deliver and by the error it gives once
they are used up. A sink records its `Write` calls one by one, and may fail
at one of them after having accepted a part of it.
-/

namespace VmServer.Proxy

/-- The errors of a read: end of stream, end of stream inside a value, any other. -/
inductive ReadError
  | eof
  | unexpectedEOF
  | other (text : String)
  deriving DecidableEq, Repr

/-- What `io.ReadFull` makes of the error when some bytes had already arrived. -/
def ReadError.afterSome : ReadError → ReadError
  | .eof => .unexpectedEOF
  | e => e

/-- An `io.Reader`: the bytes still to come and the error after them. -/
structure Reader where
  bytes : List UInt8
  fault : ReadError := .eof

/-- `io.ReadFull` into a buffer of `n` bytes. -/
def Reader.readFull (r : Reader) (n : Nat) : Except ReadError (List UInt8 × Reader) :=
  if n ≤ r.bytes.length then
    .ok (r.bytes.take n, { r with bytes := r.bytes.drop n })
  else if r.bytes = [] then .error r.fault
  else .error r.fault.afterSome

/-- The `Write` call that fails: how many succeed before it, and how much of it arrives. -/
structure WriteFault where
  after : Nat
  accepted : Nat
  text : String

/-- An `io.Writer`: the calls made so far, and the call that will fail, if any. -/
structure Writer where
  calls : List (List UInt8) := []
  fault : Option WriteFault := none

/-- The bytes that have arrived at the other end. -/
def Writer.bytes (w : Writer) : List UInt8 := w.calls.flatten

/-- One `Write` call. -/
def Writer.write (w : Writer) (p : List UInt8) : Writer × Option String :=
  match w.fault with
  | none => ({ w with calls := w.calls ++ [p] }, none)
  | some f =>
      if w.calls.length = f.after then
        ({ w with calls := w.calls ++ [p.take f.accepted] }, some f.text)
      else ({ w with calls := w.calls ++ [p] }, none)

/-- Several `Write` calls in order, given up at the first one that fails. -/
def Writer.writeAll (w : Writer) : List (List UInt8) → Writer
  | [] => w
  | p :: rest =>
      match w.write p with
      | (w, none) => w.writeAll rest
      | (w, some _) => w

theorem readFull_ok {r r' : Reader} {n : Nat} {b : List UInt8} :
    r.readFull n = .ok (b, r') ↔
      n ≤ r.bytes.length ∧ b = r.bytes.take n ∧ r' = { r with bytes := r.bytes.drop n } := by
  unfold Reader.readFull
  split
  · rename_i h
    simp only [Except.ok.injEq, Prod.mk.injEq, h, true_and]
    exact ⟨fun e => ⟨e.1.symm, e.2.symm⟩, fun e => ⟨e.1.symm, e.2.symm⟩⟩
  · rename_i h
    split <;> simp [h]

theorem readFull_of_le {r : Reader} {n : Nat} (h : n ≤ r.bytes.length) :
    r.readFull n = .ok (r.bytes.take n, { r with bytes := r.bytes.drop n }) := by
  simp [Reader.readFull, h]

theorem writeAll_cons (w : Writer) (p : List UInt8) (rest : List (List UInt8)) :
    w.writeAll (p :: rest) =
      if (w.write p).2 = none then (w.write p).1.writeAll rest else (w.write p).1 := by
  rw [Writer.writeAll]
  rcases h : w.write p with ⟨w', _ | e⟩ <;> simp

theorem write_good {w : Writer} (h : w.fault = none) (p : List UInt8) :
    w.write p = ({ w with calls := w.calls ++ [p] }, none) := by
  simp [Writer.write, h]

/-- A sink that never fails receives every call as it was made. -/
theorem writeAll_calls {w : Writer} (h : w.fault = none) (ps : List (List UInt8)) :
    (w.writeAll ps).calls = w.calls ++ ps := by
  induction ps generalizing w with
  | nil => simp [Writer.writeAll]
  | cons p rest ih => simp [Writer.writeAll, write_good h, ih, h]

/-- A sink that fails has received the calls in order up to a point inside one of them. -/
theorem writeAll_bytes_prefix (w : Writer) (ps : List (List UInt8)) :
    w.bytes <+: (w.writeAll ps).bytes ∧
      (w.writeAll ps).bytes <+: w.bytes ++ ps.flatten := by
  induction ps generalizing w with
  | nil => simp [Writer.writeAll]
  | cons p rest ih =>
      rw [writeAll_cons]
      split
      · rename_i ok
        have arrived : (w.write p).1.bytes = w.bytes ++ p := by
          unfold Writer.write at ok ⊢
          cases hf : w.fault with
          | none => simp [Writer.bytes]
          | some f =>
              simp only [hf] at ok ⊢
              split
              · rename_i hit
                simp [hit] at ok
              · simp [Writer.bytes]
        obtain ⟨low, high⟩ := ih (w.write p).1
        rw [arrived] at low high
        refine ⟨(List.prefix_append _ _).trans low, ?_⟩
        simpa using high
      · rename_i bad
        have arrived : ∃ k, (w.write p).1.bytes = w.bytes ++ p.take k := by
          unfold Writer.write at bad ⊢
          cases hf : w.fault with
          | none => simp [hf] at bad
          | some f =>
              simp only [hf] at bad ⊢
              split
              · exact ⟨f.accepted, by simp [Writer.bytes]⟩
              · rename_i miss
                simp [miss] at bad
        obtain ⟨k, hk⟩ := arrived
        rw [hk]
        refine ⟨List.prefix_append _ _, ?_⟩
        rw [List.flatten_cons, List.prefix_append_right_inj]
        exact (List.take_prefix k p).trans (List.prefix_append _ _)

end VmServer.Proxy
