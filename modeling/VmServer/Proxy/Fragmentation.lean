import VmServer.Proxy.Filter
import VmServer.Proxy.Handshake

/-!
# How the browser cuts its bytes into messages

`wsConn.Read` hands out the payload of the binary messages and nothing else.
The relay is run here on the connection itself, one `io.ReadFull` after
another, each of which may take part of a message or several of them. It does
the same as on the payload alone.

## Implementation notes

`Follows` relates the relay on a source to the relay on its stream, one
combinator for each way in which the code goes on after a read.
-/

namespace VmServer.Proxy

namespace Source

variable {σ : Type} [Source σ]

/-! ## Calls of `Read` -/

/-- Successive calls of `Read` with these buffer sizes, up to the first error: the pieces they
deliver and how the last of them ends. -/
def reads : σ → List Nat → List (List UInt8) × Except ReadError σ
  | s, [] => ([], .ok s)
  | s, k :: ks =>
      match read s k with
      | .error e => ([], .error e)
      | .ok (b, s) => (b :: (reads s ks).1, (reads s ks).2)

theorem reads_of_error {s : σ} {k : Nat} {e : ReadError} (h : read s k = .error e)
    (ks : List Nat) : reads s (k :: ks) = ([], .error e) := by
  rw [reads, h]

theorem reads_of_ok {s s' : σ} {k : Nat} {b : List UInt8} (h : read s k = .ok (b, s'))
    (ks : List Nat) : reads s (k :: ks) = (b :: (reads s' ks).1, (reads s' ks).2) := by
  rw [reads, h]

/-- As long as no call fails, the pieces and the rest are the stream, and no piece is empty or
larger than its buffer. -/
theorem reads_ok {s s' : σ} {ks : List Nat} (pos : ∀ k ∈ ks, 0 < k)
    (h : (reads s ks).2 = .ok s') :
    stream s = ⟨(reads s ks).1.flatten ++ (stream s').bytes, (stream s').fault⟩ ∧
      List.Forall₂ (fun piece k => piece ≠ [] ∧ piece.length ≤ k) (reads s ks).1 ks := by
  induction ks generalizing s with
  | nil =>
      obtain rfl := Except.ok.inj h
      exact ⟨rfl, .nil⟩
  | cons k ks ih =>
      obtain ⟨now, later⟩ := List.forall_mem_cons.mp pos
      cases called : read s k with
      | error e =>
          rw [reads_of_error called] at h
          cases h
      | ok x =>
          obtain ⟨b, t⟩ := x
          rw [reads_of_ok called] at h ⊢
          obtain ⟨some, room, front⟩ := read_ok now called
          obtain ⟨rest, fits⟩ := ih later h
          refine ⟨?_, .cons ⟨some, room⟩ fits⟩
          rw [front, rest, List.flatten_cons, List.append_assoc]

/-- A call fails only when all of the stream has been delivered, with the error after it. -/
theorem reads_error {s : σ} {ks : List Nat} {e : ReadError} (pos : ∀ k ∈ ks, 0 < k)
    (h : (reads s ks).2 = .error e) : stream s = ⟨(reads s ks).1.flatten, e⟩ := by
  induction ks generalizing s with
  | nil => cases h
  | cons k ks ih =>
      obtain ⟨now, later⟩ := List.forall_mem_cons.mp pos
      cases called : read s k with
      | error e' =>
          rw [reads_of_error called] at h ⊢
          obtain rfl := Except.error.inj h
          obtain ⟨empty, last⟩ := read_error now called
          rw [List.flatten_nil, ← empty, last]
      | ok x =>
          obtain ⟨b, t⟩ := x
          rw [reads_of_ok called] at h ⊢
          obtain ⟨-, -, front⟩ := read_ok now called
          have rest := ih later h
          rw [front, rest, List.flatten_cons]

theorem length_le_flatten {l : List (List UInt8)} {ks : List Nat}
    (h : List.Forall₂ (fun piece k => piece ≠ [] ∧ piece.length ≤ k) l ks) :
    ks.length ≤ l.flatten.length := by
  induction h with
  | nil => exact Nat.le_refl _
  | cons piece rest ih =>
      have some := List.length_pos_iff.mpr piece.1
      rw [List.flatten_cons, List.length_append, List.length_cons]
      omega

/-- More calls than there are bytes reach the end of the stream. -/
theorem reads_reach {s : σ} {ks : List Nat} (pos : ∀ k ∈ ks, 0 < k)
    (many : (stream s).bytes.length < ks.length) : ∃ e, (reads s ks).2 = .error e := by
  cases ended : (reads s ks).2 with
  | error e => exact ⟨e, rfl⟩
  | ok s' =>
      obtain ⟨whole, fits⟩ := reads_ok pos ended
      have short := length_le_flatten fits
      have bytes := congrArg (fun r => r.bytes.length) whole
      simp only [List.length_append] at bytes
      omega

end Source

/-! ## The relay on a source -/

section Relay

variable {σ : Type} [Source σ]

/-- The counting reader around the stream of the source. -/
def CountingReader.joined (r : CountingReader σ) : CountingReader Reader :=
  ⟨Source.stream r.src, r.pre⟩

/-- The two have come to the same, one on a source and one on the stream it stands for. -/
def Follows {α : Type} (x : Except CopyError (α × CountingReader σ))
    (y : Except CopyError (α × CountingReader Reader)) : Prop :=
  x.map (fun p => (p.1, p.2.joined)) = y

namespace Follows

variable {α β : Type}

theorem ok (a : α) (r : CountingReader σ) : Follows (.ok (a, r)) (.ok (a, r.joined)) := rfl

theorem error (e : CopyError) :
    Follows (.error e : Except CopyError (α × CountingReader σ)) (.error e) :=
  rfl

theorem bind {x : Except CopyError (α × CountingReader σ)}
    {y : Except CopyError (α × CountingReader Reader)}
    {f : α × CountingReader σ → Except CopyError (β × CountingReader σ)}
    {g : α × CountingReader Reader → Except CopyError (β × CountingReader Reader)}
    (first : Follows x y) (next : ∀ a r, Follows (f (a, r)) (g (a, r.joined))) :
    Follows (x >>= f) (y >>= g) := by
  obtain rfl := first
  cases x with
  | error e => rfl
  | ok p => exact next p.1 p.2

theorem ite {p : Prop} [Decidable p] {x x' : Except CopyError (α × CountingReader σ)}
    {y y' : Except CopyError (α × CountingReader Reader)} (yes : Follows x y)
    (no : Follows x' y') : Follows (if p then x else x') (if p then y else y') := by
  split
  · exact yes
  · exact no

theorem read (r : CountingReader σ) (n : Nat) : Follows (r.read n) (r.joined.read n) := by
  have same := Source.readFull_stream r.src n
  dsimp only [Follows, CountingReader.read, CountingReader.joined]
  rw [Source.readFull_reader, ← same]
  cases Source.readFull r.src n with
  | error e => rfl
  | ok x => rfl

theorem sizeFrom (r : CountingReader σ) (n : Nat) (f : List UInt8 → Int) :
    Follows (r.sizeFrom n f) (r.joined.sizeFrom n f) :=
  bind (read r n) fun b r => ok (f b) r

theorem qemuSize (r : CountingReader σ) : Follows (Proxy.qemuSize r) (Proxy.qemuSize r.joined) := by
  refine bind (read r 1) fun b r => ite (ok _ r) (ite ?_ (error _))
  exact bind (read r 2) fun sub r => ite (ok _ r) (ok _ r)

theorem clientMessageSize (t : UInt8) (r : CountingReader σ) :
    Follows (Proxy.clientMessageSize t r) (Proxy.clientMessageSize t r.joined) := by
  refine ite (ok _ r) <| ite (sizeFrom r _ _) <| ite (ok _ r) <| ite (ok _ r) <| ite (ok _ r) <|
    ite ?_ <| ite (ok _ r) <| ite (sizeFrom r _ _) <| ite (sizeFrom r _ _) <| ite (qemuSize r) <|
    error _
  exact bind (read r 7) fun b r => ite (error _) (ok _ r)

end Follows

/-- A message is read off a source as it is read off its stream. -/
theorem readMessage_stream (s : σ) :
    (readMessage s).map (fun p => (p.1, Source.stream p.2)) = readMessage (Source.stream s) := by
  unfold readMessage
  rw [Source.readFull_reader, ← Source.readFull_stream s 1]
  cases Source.readFull s 1 with
  | error e => rfl
  | ok first =>
      obtain ⟨hdr, src⟩ := first
      have size : Except.map _ _ =
          clientMessageSize (hdr.headD 0) ({ src := Source.stream src } : CountingReader Reader) :=
        Follows.clientMessageSize (hdr.headD 0) { src }
      dsimp only [Except.map]
      rw [← size]
      cases clientMessageSize (hdr.headD 0) ({ src } : CountingReader σ) with
      | error e => rfl
      | ok sized =>
          obtain ⟨n, r⟩ := sized
          dsimp only [Except.map, CountingReader.joined]
          by_cases bad : n < 0 ∨ n < r.pre.length
          · rw [if_pos bad, if_pos bad]
          · rw [if_neg bad, if_neg bad, Source.readFull_reader, ← Source.readFull_stream]
            cases Source.readFull r.src (n.toNat - r.pre.length) with
            | error e => rfl
            | ok rest => rfl

/-- One round of the loop does the same on a source as on its stream. -/
theorem copyOne_stream (viewOnly : Bool) (s : σ) (dst : Writer) :
    ((copyOne viewOnly s dst).1, (copyOne viewOnly s dst).2.map id Source.stream) =
      copyOne viewOnly (Source.stream s) dst := by
  unfold copyOne
  rw [← readMessage_stream s]
  cases readMessage s with
  | error out => rfl
  | ok message =>
      obtain ⟨msg, src⟩ := message
      dsimp only [Except.map]
      split
      · rfl
      · rcases dst.write msg with ⟨dst, _ | e⟩
        · rfl
        · rfl

theorem copyLoop_stream (viewOnly : Bool) (s : σ) (dst : Writer) :
    copyLoop viewOnly s dst = copyLoop viewOnly (Source.stream s) dst := by
  induction bound : (Source.stream s).bytes.length using Nat.strongRecOn generalizing s dst with
  | ind n ih =>
      have same := copyOne_stream viewOnly s dst
      cases round : copyOne viewOnly s dst with
      | mk dst' next =>
          rw [round] at same
          cases next with
          | inl out =>
              rw [copyLoop_stop round, copyLoop_stop same.symm]
              rfl
          | inr s' =>
              rw [copyLoop_go round, copyLoop_go same.symm]
              exact ih _ (bound ▸ copyOne_shortens round) s' dst' rfl

/-- The relay of the browser's messages depends on the browser's bytes only. -/
theorem copyClientMessages_stream (dst : Writer) (s : σ) (viewOnly : Bool) :
    copyClientMessages dst s viewOnly = copyClientMessages dst (Source.stream s) viewOnly := by
  unfold copyClientMessages
  rw [Source.readFull_reader, ← Source.readFull_stream s 1]
  cases Source.readFull s 1 with
  | error e => rfl
  | ok first =>
      obtain ⟨init, src⟩ := first
      dsimp only [Except.map]
      rcases dst.write init with ⟨dst, _ | e⟩
      · exact copyLoop_stream viewOnly src dst
      · rfl

end Relay

/-! ## The browser's messages -/

open Handshake

/-- What calls of `Read` with these buffer sizes deliver of a payload: its front, piece by piece,
and the whole of it before the error at its end. -/
structure Delivers (c : WsConn) (payload : List UInt8) (fault : ReadError) (sizes : List Nat) :
    Prop where
  front : ∀ c', (Source.reads c sizes).2 = .ok c' →
    (Source.reads c sizes).1.flatten ++ (c'.buf ++ WsConn.payload c'.frames) = payload
  pieces : ∀ c', (Source.reads c sizes).2 = .ok c' →
    List.Forall₂ (fun piece k => piece ≠ [] ∧ piece.length ≤ k) (Source.reads c sizes).1 sizes
  whole : ∀ e, (Source.reads c sizes).2 = .error e →
    (Source.reads c sizes).1.flatten = payload ∧ e = fault
  reached : payload.length < sizes.length → ∃ e, (Source.reads c sizes).2 = .error e

/-- The handshake with the browser and the relay of its messages come to the same on both, the
relay also where the handshake has left them. -/
structure SameOutcome {σ τ : Type} [Source σ] [Source τ] (c : σ) (c' : τ) : Prop where
  handshake : ∀ out, (handshakeWithClient.run ⟨c, out⟩).1 = (handshakeWithClient.run ⟨c', out⟩).1
  answers : ∀ out,
    (handshakeWithClient.run ⟨c, out⟩).2.dst = (handshakeWithClient.run ⟨c', out⟩).2.dst
  relay : ∀ dst viewOnly,
    copyClientMessages dst c viewOnly = copyClientMessages dst c' viewOnly
  afterwards : ∀ out dst viewOnly,
    copyClientMessages dst (handshakeWithClient.run ⟨c, out⟩).2.src viewOnly =
      copyClientMessages dst (handshakeWithClient.run ⟨c', out⟩).2.src viewOnly

/-- Sources that stand for the same stream are the same to the proxy. -/
theorem sameOutcome_of_stream {σ τ : Type} [Source σ] [Source τ] {c : σ} {c' : τ}
    (same : Source.stream c = Source.stream c') : SameOutcome c c' := by
  have both (out : Writer) :
      ((handshakeWithClient.run ⟨c, out⟩).1, joined (handshakeWithClient.run ⟨c, out⟩).2) =
        ((handshakeWithClient.run ⟨c', out⟩).1, joined (handshakeWithClient.run ⟨c', out⟩).2) := by
    have left := Blind.handshakeWithClient ⟨c, out⟩
    have right := Blind.handshakeWithClient ⟨c', out⟩
    rw [left, right, joined, joined, same]
  refine ⟨fun out => congrArg Prod.fst (both out), fun out => ?_, fun dst viewOnly => ?_,
    fun out dst viewOnly => ?_⟩
  · exact congrArg (fun x => x.2.dst) (both out)
  · rw [copyClientMessages_stream dst c, copyClientMessages_stream dst c', same]
  · rw [copyClientMessages_stream dst (handshakeWithClient.run ⟨c, out⟩).2.src,
      copyClientMessages_stream dst (handshakeWithClient.run ⟨c', out⟩).2.src]
    exact congrArg (fun x => copyClientMessages dst x.2.src viewOnly) (both out)

theorem delivers (frames : List Frame) (fault : ReadError) {sizes : List Nat}
    (pos : ∀ k ∈ sizes, 0 < k) :
    Delivers ⟨[], frames, fault⟩ (WsConn.payload frames) fault sizes where
  front c' h := (congrArg Reader.bytes (Source.reads_ok pos h).1).symm
  pieces c' h := (Source.reads_ok pos h).2
  whole e h := by
    have all := Source.reads_error pos h
    exact ⟨(congrArg Reader.bytes all).symm, (congrArg Reader.fault all).symm⟩
  reached many := Source.reads_reach pos many

/-- Whatever messages the browser sends and however large the buffers are, the calls of `Read`
deliver the payload of the binary messages in order, all of it and nothing else; what the
handshake and the relay do depends on that payload alone. -/
theorem framing_invisible (frames frames' : List Frame) (fault : ReadError) :
    (∀ sizes : List Nat, (∀ k ∈ sizes, 0 < k) →
      Delivers ⟨[], frames, fault⟩ (WsConn.payload frames) fault sizes) ∧
    (WsConn.payload frames = WsConn.payload frames' →
      SameOutcome (⟨[], frames, fault⟩ : WsConn) (⟨[], frames', fault⟩ : WsConn)) := by
  refine ⟨fun sizes pos => delivers frames fault pos, fun same => sameOutcome_of_stream ?_⟩
  exact congrArg (fun bytes => (⟨bytes, fault⟩ : Reader)) same

/-- Three bytes in two binary messages, between a text message and an empty one. -/
def scattered : List Frame := [⟨false, [7]⟩, ⟨true, []⟩, ⟨true, [1, 2]⟩, ⟨true, [3]⟩]

theorem scattered_framing_invisible :
    Delivers ⟨[], scattered, .eof⟩ [1, 2, 3] .eof [1, 2, 5, 1] ∧
      SameOutcome (⟨[], scattered, .eof⟩ : WsConn) (⟨[], [⟨true, [1, 2, 3]⟩], .eof⟩ : WsConn) := by
  have framing := framing_invisible scattered [⟨true, [1, 2, 3]⟩] .eof
  exact ⟨framing.1 [1, 2, 5, 1] (by decide), framing.2 (by decide)⟩

end VmServer.Proxy
