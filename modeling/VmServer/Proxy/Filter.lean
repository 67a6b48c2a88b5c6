import VmServer.Proxy.Connection
import Mathlib.Data.BitVec

/-!
# The client-to-server relay and its view-only filter

`copyClientMessages` reads one RFB message after another from the browser,
working out each length itself, and hands every message it does not drop to
the VNC server in a single `Write`. It reads from any source of bytes.

## Implementation notes

The loop returns only with an error or by a panic: `make` and the slice of
the body panic on a size that is negative or shorter than the bytes already
read. Sizes are Go's 64-bit `int`; the clipboard length is an `int32`, whose
negation wraps.
-/

namespace VmServer.Proxy

def msgSetPixelFormat : UInt8 := 0
def msgSetEncodings : UInt8 := 2
def msgFramebufferUpdateRequest : UInt8 := 3
def msgKeyEvent : UInt8 := 4
def msgPointerEvent : UInt8 := 5
def msgClientCutText : UInt8 := 6
def msgEnableContinuousUpdates : UInt8 := 150
def msgClientFence : UInt8 := 151
def msgSetDesktopSize : UInt8 := 250
def msgQEMU : UInt8 := 255

/-- The errors `copyClientMessages` returns. -/
inductive CopyError
  | read (e : ReadError)
  | write (text : String)
  | clipboardTooLarge (n : Int)
  | unknownSubmessage (b : UInt8)
  | unknownType (t : UInt8)
  deriving DecidableEq, Repr

/-- The text of the errors that the filter itself makes up. -/
def CopyError.text : CopyError → String
  | .read .eof => "EOF"
  | .read .unexpectedEOF => "unexpected EOF"
  | .read (.other text) => text
  | .write text => text
  | .clipboardTooLarge n => "clipboard message too large: " ++ toString n
  | .unknownSubmessage b => "unknown QEMU client submessage " ++ toString b.toNat
  | .unknownType t => "unknown client message type " ++ toString t.toNat

/-- `binary.BigEndian` on a slice of any width. -/
def bigEndian (bs : List UInt8) : Nat :=
  bs.foldl (fun acc b => acc * 256 + b.toNat) 0

/-- The bytes `b[lo:hi]`. -/
def slice (b : List UInt8) (lo hi : Nat) : List UInt8 := (b.take hi).drop lo

/-- The source with the bytes of the current body that were read to find its length.
The field stands for `prefix`. -/
structure CountingReader (σ : Type) where
  src : σ
  pre : List UInt8 := []

section Length

variable {σ : Type} [Source σ]

/-- The `read` closure of `clientMessageSize`. -/
def CountingReader.read (r : CountingReader σ) (n : Nat) :
    Except CopyError (List UInt8 × CountingReader σ) :=
  match Source.readFull r.src n with
  | .error e => .error (.read e)
  | .ok (b, src) => .ok (b, { src, pre := r.pre ++ b })

/-- A branch of `clientMessageSize` that reads `n` bytes and computes the size from them. -/
def CountingReader.sizeFrom (r : CountingReader σ) (n : Nat) (f : List UInt8 → Int) :
    Except CopyError (Int × CountingReader σ) := do
  let (b, r) ← r.read n
  return (f b, r)

/-- The clipboard length as the code takes its absolute value: the negation is an `int32`. -/
def cutTextLength (b : List UInt8) : Int :=
  let n := BitVec.ofNat 32 (bigEndian (slice b 3 7))
  if n.toInt < 0 then (-n).toInt else n.toInt

/-- The bound `64<<20` on a clipboard message. -/
def maxCutText : Int := 64 * 2 ^ 20

/-- The body length of a QEMU client message: an extended key event, or one of the audio
messages, of which only "set format" has a body of its own. -/
def qemuSize (r : CountingReader σ) : Except CopyError (Int × CountingReader σ) := do
  let (b, r) ← r.read 1
  if b.getD 0 0 = 0 then return (1 + 10, r)
  else if b.getD 0 0 = 1 then do
    let (sub, r) ← r.read 2
    if bigEndian sub = 2 then return (3 + 6, r) else return (3, r)
  else .error (.unknownSubmessage (b.getD 0 0))

/-- The body length of a client message, excluding the type byte. -/
def clientMessageSize (t : UInt8) (r : CountingReader σ) :
    Except CopyError (Int × CountingReader σ) :=
  if t = msgSetPixelFormat then .ok (19, r)
  else if t = msgSetEncodings then r.sizeFrom 3 fun b => 3 + 4 * bigEndian (slice b 1 3)
  else if t = msgFramebufferUpdateRequest then .ok (9, r)
  else if t = msgKeyEvent then .ok (7, r)
  else if t = msgPointerEvent then .ok (5, r)
  else if t = msgClientCutText then do
    let (b, r) ← r.read 7
    let n := cutTextLength b
    if n > maxCutText then .error (.clipboardTooLarge n) else return (7 + n, r)
  else if t = msgEnableContinuousUpdates then .ok (9, r)
  else if t = msgClientFence then r.sizeFrom 8 fun b => 8 + (b.getD 7 0).toNat
  else if t = msgSetDesktopSize then r.sizeFrom 7 fun b => 7 + 16 * (b.getD 5 0).toNat
  else if t = msgQEMU then qemuSize r
  else .error (.unknownType t)

/-- The message types a viewer's browser may not send on. -/
def inputMessage (t : UInt8) : Bool :=
  t = msgKeyEvent || t = msgPointerEvent || t = msgClientCutText || t = msgSetDesktopSize ||
    t = msgQEMU

/-- What was read, was the front of the stream. -/
theorem read_stream {r r' : CountingReader σ} {n : Nat} {b : List UInt8}
    (h : r.read n = .ok (b, r')) :
    n ≤ (Source.stream r.src).bytes.length ∧ b = (Source.stream r.src).bytes.take n ∧
      r'.pre = r.pre ++ b ∧
      Source.stream r'.src =
        { Source.stream r.src with bytes := (Source.stream r.src).bytes.drop n } := by
  unfold CountingReader.read at h
  split at h
  · cases h
  · rename_i b' src hr
    obtain ⟨enough, front, rest⟩ := Source.readFull_ok hr
    obtain ⟨rfl, rfl⟩ := Prod.mk.inj (Except.ok.inj h)
    exact ⟨enough, front, rfl, rest⟩

theorem bind_ok {ε α β : Type} {x : Except ε α} {f : α → Except ε β} {b : β}
    (h : (x >>= f) = .ok b) : ∃ a, x = .ok a ∧ f a = .ok b := by
  cases x with
  | error e => cases h
  | ok a => exact ⟨a, rfl, h⟩

/-- Two readers that differ only in how much of the body has been set aside. -/
def CountingReader.SameStream (r r' : CountingReader σ) : Prop :=
  r'.pre ++ (Source.stream r'.src).bytes = r.pre ++ (Source.stream r.src).bytes ∧
    (Source.stream r'.src).fault = (Source.stream r.src).fault

theorem CountingReader.SameStream.trans {r r' r'' : CountingReader σ} (h : r.SameStream r')
    (h' : r'.SameStream r'') : r.SameStream r'' :=
  ⟨h'.1.trans h.1, h'.2.trans h.2⟩

theorem read_sameStream {r r' : CountingReader σ} {n : Nat} {b : List UInt8}
    (h : r.read n = .ok (b, r')) : r.SameStream r' := by
  obtain ⟨_, rfl, aside, rest⟩ := read_stream h
  rw [CountingReader.SameStream, aside, rest, List.append_assoc, List.take_append_drop]
  exact ⟨rfl, rfl⟩

theorem sizeFrom_sameStream {r r' : CountingReader σ} {n : Nat} {size : Int}
    {f : List UInt8 → Int} (h : r.sizeFrom n f = .ok (size, r')) : r.SameStream r' := by
  obtain ⟨⟨b, r₁⟩, hr, hf⟩ := bind_ok h
  obtain ⟨_, rfl⟩ := Prod.mk.inj (Except.ok.inj hf)
  exact read_sameStream hr

theorem qemuSize_sameStream {r r' : CountingReader σ} {size : Int}
    (h : qemuSize r = .ok (size, r')) : r.SameStream r' := by
  obtain ⟨⟨b, r₁⟩, hr, hf⟩ := bind_ok h
  dsimp only at hf
  by_cases extended : b.getD 0 0 = 0
  · rw [if_pos extended] at hf
    obtain ⟨_, rfl⟩ := Prod.mk.inj (Except.ok.inj hf)
    exact read_sameStream hr
  rw [if_neg extended] at hf
  by_cases audio : b.getD 0 0 = 1
  · rw [if_pos audio] at hf
    obtain ⟨⟨sub, r₂⟩, hr', hf'⟩ := bind_ok hf
    have last : r₂ = r' := by
      dsimp only at hf'
      split at hf' <;> exact (Prod.mk.inj (Except.ok.inj hf')).2
    exact last ▸ (read_sameStream hr).trans (read_sameStream hr')
  · rw [if_neg audio] at hf
    cases hf

/-- The bytes consumed to find a length are all handed back in front of the rest. -/
theorem clientMessageSize_sameStream {t : UInt8} {r r' : CountingReader σ} {size : Int}
    (h : clientMessageSize t r = .ok (size, r')) : r.SameStream r' := by
  have fixed : ∀ {n : Int}, Except.ok (ε := CopyError) (n, r) = .ok (size, r') →
      r.SameStream r' := fun e => (Prod.mk.inj (Except.ok.inj e)).2 ▸ ⟨rfl, rfl⟩
  unfold clientMessageSize at h
  by_cases h0 : t = msgSetPixelFormat
  · exact fixed (by rwa [if_pos h0] at h)
  rw [if_neg h0] at h
  by_cases h2 : t = msgSetEncodings
  · rw [if_pos h2] at h
    exact sizeFrom_sameStream h
  rw [if_neg h2] at h
  by_cases h3 : t = msgFramebufferUpdateRequest
  · exact fixed (by rwa [if_pos h3] at h)
  rw [if_neg h3] at h
  by_cases h4 : t = msgKeyEvent
  · exact fixed (by rwa [if_pos h4] at h)
  rw [if_neg h4] at h
  by_cases h5 : t = msgPointerEvent
  · exact fixed (by rwa [if_pos h5] at h)
  rw [if_neg h5] at h
  by_cases h6 : t = msgClientCutText
  · rw [if_pos h6] at h
    obtain ⟨⟨b, r₁⟩, hr, hf⟩ := bind_ok h
    dsimp only at hf
    by_cases large : cutTextLength b > maxCutText
    · rw [if_pos large] at hf
      cases hf
    · rw [if_neg large] at hf
      obtain ⟨_, rfl⟩ := Prod.mk.inj (Except.ok.inj hf)
      exact read_sameStream hr
  rw [if_neg h6] at h
  by_cases h150 : t = msgEnableContinuousUpdates
  · exact fixed (by rwa [if_pos h150] at h)
  rw [if_neg h150] at h
  by_cases h151 : t = msgClientFence
  · rw [if_pos h151] at h
    exact sizeFrom_sameStream h
  rw [if_neg h151] at h
  by_cases h250 : t = msgSetDesktopSize
  · rw [if_pos h250] at h
    exact sizeFrom_sameStream h
  rw [if_neg h250] at h
  by_cases h255 : t = msgQEMU
  · rw [if_pos h255] at h
    exact qemuSize_sameStream h
  · rw [if_neg h255] at h
    cases h

end Length

/-- How `copyClientMessages` ends: it returns an error, or the goroutine panics. -/
inductive Outcome
  | returned (err : CopyError)
  | panicked
  deriving DecidableEq, Repr

section Relay

variable {σ : Type} [Source σ]

/-- The reading part of a round: the type byte, the length, and the body around the bytes
already read for the length. -/
def readMessage (src : σ) : Except Outcome (List UInt8 × σ) :=
  match Source.readFull src 1 with
  | .error e => .error (.returned (.read e))
  | .ok (hdr, src) =>
      match clientMessageSize (hdr.headD 0) { src } with
      | .error e => .error (.returned e)
      | .ok (size, r) =>
          -- `make([]byte, size)` and `body[len(prefix):]` panic on such a size.
          if size < 0 ∨ size < r.pre.length then .error .panicked
          else
            match Source.readFull r.src (size.toNat - r.pre.length) with
            | .error e => .error (.returned (.read e))
            | .ok (rest, src) => .ok (hdr ++ (r.pre ++ rest), src)

/-- One round of the loop: it ends the relay, or goes on with the rest of the stream. -/
def copyOne (viewOnly : Bool) (src : σ) (dst : Writer) : Writer × (Outcome ⊕ σ) :=
  match readMessage src with
  | .error out => (dst, .inl out)
  | .ok (msg, src) =>
      if viewOnly && inputMessage (msg.headD 0) then (dst, .inr src)
      else
        match dst.write msg with
        | (dst, some e) => (dst, .inl (.returned (.write e)))
        | (dst, none) => (dst, .inr src)

/-- A message takes at least its type byte off the stream. -/
theorem readMessage_shortens {src src' : σ} {msg : List UInt8}
    (h : readMessage src = .ok (msg, src')) :
    (Source.stream src').bytes.length < (Source.stream src).bytes.length := by
  unfold readMessage at h
  split at h
  · cases h
  rename_i hdr src₁ h₁
  obtain ⟨enough, _, left⟩ := Source.readFull_ok h₁
  split at h
  · cases h
  rename_i size r hsize
  have total := congrArg List.length (clientMessageSize_sameStream hsize).1
  split at h
  · cases h
  split at h
  · cases h
  rename_i rest src₂ h₂
  obtain ⟨_, _, last⟩ := Source.readFull_ok h₂
  obtain ⟨_, rfl⟩ := Prod.mk.inj (Except.ok.inj h)
  rw [last]
  rw [left] at total
  simp only [List.length_append, List.length_nil, List.length_drop] at total ⊢
  omega

theorem copyOne_shortens {viewOnly : Bool} {src src' : σ} {dst dst' : Writer}
    (h : copyOne viewOnly src dst = (dst', .inr src')) :
    (Source.stream src').bytes.length < (Source.stream src).bytes.length := by
  unfold copyOne at h
  split at h
  · cases h
  rename_i msg src₁ hread
  have shorter := readMessage_shortens hread
  split at h
  · obtain ⟨_, hsrc⟩ := Prod.mk.inj h
    exact Sum.inr.inj hsrc ▸ shorter
  · split at h
    · cases h
    · obtain ⟨_, hsrc⟩ := Prod.mk.inj h
      exact Sum.inr.inj hsrc ▸ shorter

/-- The `for` loop of `copyClientMessages`. -/
def copyLoop (viewOnly : Bool) (src : σ) (dst : Writer) : Writer × Outcome :=
  match _h : copyOne viewOnly src dst with
  | (dst, .inl out) => (dst, out)
  | (dst, .inr src) => copyLoop viewOnly src dst
termination_by (Source.stream src).bytes.length
decreasing_by exact copyOne_shortens _h

theorem copyLoop_stop {viewOnly : Bool} {src : σ} {dst dst' : Writer} {out : Outcome}
    (h : copyOne viewOnly src dst = (dst', .inl out)) :
    copyLoop viewOnly src dst = (dst', out) := by
  rw [copyLoop]
  split <;> simp_all

theorem copyLoop_go {viewOnly : Bool} {src src' : σ} {dst dst' : Writer}
    (h : copyOne viewOnly src dst = (dst', .inr src')) :
    copyLoop viewOnly src dst = copyLoop viewOnly src' dst' := by
  rw [copyLoop]
  split <;> simp_all

/-- The relay from the browser to the VNC server: the ClientInit byte, then the messages. -/
def copyClientMessages (dst : Writer) (src : σ) (viewOnly : Bool) : Writer × Outcome :=
  match Source.readFull src 1 with
  | .error e => (dst, .returned (.read e))
  | .ok (init, src) =>
      match dst.write init with
      | (dst, some e) => (dst, .returned (.write e))
      | (dst, none) => copyLoop viewOnly src dst

end Relay

/-! ## On a reader -/

theorem read_ok {r r' : CountingReader Reader} {n : Nat} {b : List UInt8} :
    r.read n = .ok (b, r') ↔
      n ≤ r.src.bytes.length ∧ b = r.src.bytes.take n ∧
        r' = ⟨{ r.src with bytes := r.src.bytes.drop n }, r.pre ++ r.src.bytes.take n⟩ := by
  constructor
  · intro h
    obtain ⟨enough, rfl, aside, rest⟩ := read_stream h
    refine ⟨enough, rfl, ?_⟩
    obtain ⟨src, pre⟩ := r'
    obtain rfl : pre = _ := aside
    obtain rfl : src = _ := rest
    rfl
  · rintro ⟨enough, rfl, rfl⟩
    rw [CountingReader.read, Source.readFull_reader, readFull_of_le enough]

theorem readFull_one_nil (fault : ReadError) :
    Source.readFull (⟨[], fault⟩ : Reader) 1 = .error fault := by
  rw [Source.readFull_reader]
  rfl

theorem readFull_one_cons (b : UInt8) (bytes : List UInt8) (fault : ReadError) :
    Source.readFull (⟨b :: bytes, fault⟩ : Reader) 1 = .ok ([b], ⟨bytes, fault⟩) := by
  rw [Source.readFull_reader]
  exact readFull_of_le (by simp)

theorem readMessage_nil (fault : ReadError) :
    readMessage (⟨[], fault⟩ : Reader) = .error (.returned (.read fault)) := by
  rw [readMessage, readFull_one_nil]

theorem copyClientMessages_nil (dst : Writer) (fault : ReadError) (viewOnly : Bool) :
    copyClientMessages dst (⟨[], fault⟩ : Reader) viewOnly = (dst, .returned (.read fault)) := by
  rw [copyClientMessages, readFull_one_nil]

theorem copyClientMessages_cons (dst : Writer) (init : UInt8) (bytes : List UInt8)
    (fault : ReadError) (viewOnly : Bool) :
    copyClientMessages dst (⟨init :: bytes, fault⟩ : Reader) viewOnly =
      match dst.write [init] with
      | (dst, some e) => (dst, .returned (.write e))
      | (dst, none) => copyLoop viewOnly (⟨bytes, fault⟩ : Reader) dst := by
  rw [copyClientMessages, readFull_one_cons]

end VmServer.Proxy
