import Mathlib.Data.List.Infix
import VmServer.Proxy.ClientProtocol

/-!
# The view-only filter keeps input away from the VNC server

The length the relay computes for a message is the announced one, or there is
no complete message and the round ends the relay. By induction over the
stream the relay then writes exactly its kept messages, and the server, which
cuts the written bytes by its own framing, meets none of the input messages.
-/

namespace VmServer.Proxy

theorem slice_cons (t : UInt8) (b : List UInt8) (lo hi : Nat) :
    slice (t :: b) (lo + 1) (hi + 1) = slice b lo hi := by
  simp [slice]

theorem slice_take (b : List UInt8) (lo hi : Nat) : slice (b.take hi) lo hi = slice b lo hi := by
  simp [slice, List.take_take]

theorem announced_cons (t : UInt8) (body : List UInt8) :
    clientMessages.announced (t :: body) = (clientHeaderOf t).announced (t :: body) :=
  Framing.tagged_announced t body

theorem read_of_le {src : Reader} {n : Nat} (h : n ≤ src.bytes.length) :
    CountingReader.read { src } n = .ok (src.bytes.take n,
      ⟨{ src with bytes := src.bytes.drop n }, src.bytes.take n⟩) :=
  read_ok.mpr ⟨h, rfl, rfl⟩

theorem read_of_lt {r : CountingReader Reader} {n : Nat} (h : r.src.bytes.length < n) :
    ∃ e, r.read n = .error e := by
  cases hr : r.read n with
  | error e => exact ⟨e, rfl⟩
  | ok x => exact absurd (read_ok.mp hr).1 (Nat.not_le.mpr h)

/-- What the computed length says about the announced one: it is the same, not counting
the type byte, or it is unusable and no length is announced. -/
def Agrees (ann : Option Nat) : Except CopyError (Int × CountingReader Reader) → Prop
  | .error _ => ann = none
  | .ok (size, r) =>
      (r.pre.length ≤ size ∧ ann = some (size.toNat + 1)) ∨ (size < 0 ∧ ann = none)

theorem agrees_fixed {t : UInt8} {src : Reader} {n : Nat} (h : clientHeaderOf t = .total (n + 1)) :
    Agrees (clientMessages.announced (t :: src.bytes)) (.ok (n, { src })) := by
  refine Or.inl ⟨by simp, ?_⟩
  rw [announced_cons, h]
  rfl

theorem announced_of_lt {t : UInt8} {body : List UInt8} {n : Nat}
    {next : List UInt8 → Header UInt8} (h : clientHeaderOf t = .read (n + 1) next)
    (short : body.length < n) : clientMessages.announced (t :: body) = none := by
  rw [announced_cons, h]
  exact Header.announced_read_short (by simpa using short)

theorem announced_of_le {t : UInt8} {body : List UInt8} {n : Nat}
    {next : List UInt8 → Header UInt8} (h : clientHeaderOf t = .read (n + 1) next)
    (enough : n ≤ body.length) : clientMessages.announced (t :: body) =
      (next (t :: body.take n)).announced (t :: body) := by
  rw [announced_cons, h, Header.announced_read (by simpa using enough), List.take_succ_cons]

theorem agrees_sizeFrom {t : UInt8} {src : Reader} {n : Nat} {f : List UInt8 → Int}
    {next : List UInt8 → Header UInt8} (h : clientHeaderOf t = .read (n + 1) next)
    (hn : ∀ b, n ≤ f b) (hf : ∀ b, next (t :: b) = .total ((f b).toNat + 1)) :
    Agrees (clientMessages.announced (t :: src.bytes)) (CountingReader.sizeFrom { src } n f) := by
  unfold CountingReader.sizeFrom
  rcases Nat.lt_or_ge src.bytes.length n with short | enough
  · obtain ⟨e, he⟩ := read_of_lt (r := { src }) short
    rw [he]
    exact announced_of_lt h short
  · rw [read_of_le enough, announced_of_le h enough, hf]
    have room := hn (src.bytes.take n)
    refine Or.inl ⟨?_, rfl⟩
    rw [List.length_take]
    omega

/-- The `int32` absolute value is exact, except for the one length whose negation wraps. -/
theorem cutTextLength_cases (b : List UInt8) :
    cutTextLength b = clipboardBytes (bigEndian (slice b 3 7)) ∨
      cutTextLength b = -2 ^ 31 ∧ clipboardBytes (bigEndian (slice b 3 7)) = 2 ^ 31 := by
  unfold cutTextLength clipboardBytes
  generalize BitVec.ofNat 32 (bigEndian (slice b 3 7)) = n
  have low := BitVec.le_toInt n
  have high := BitVec.toInt_lt (x := n)
  have neg : (-n).toInt = (-n.toInt).bmod (2 ^ 32) := BitVec.toInt_neg
  simp only
  split
  · rw [neg, Int.bmod]
    omega
  · left
    omega

/-- The wrapped length passes the limit check and is negative: the round panics. -/
theorem agrees_cutText (src : Reader) :
    Agrees (clientMessages.announced (msgClientCutText :: src.bytes))
      (clientMessageSize msgClientCutText { src }) := by
  have header : clientHeaderOf msgClientCutText = .read (7 + 1) fun b =>
      if clipboardBytes (bigEndian (slice b 4 8)) ≤ clipboardLimit then
        .total (8 + clipboardBytes (bigEndian (slice b 4 8))) else .fail := rfl
  have body : clientMessageSize msgClientCutText { src } =
      CountingReader.read { src } 7 >>= fun x =>
        if cutTextLength x.1 > maxCutText then .error (.clipboardTooLarge (cutTextLength x.1))
        else .ok (7 + cutTextLength x.1, x.2) := rfl
  rw [body]
  rcases Nat.lt_or_ge src.bytes.length 7 with short | enough
  · obtain ⟨e, he⟩ := read_of_lt (r := { src }) short
    rw [he]
    exact announced_of_lt header short
  · rw [read_of_le enough, announced_of_le header enough, Header.announced_ite, slice_cons]
    change Agrees _ (if cutTextLength (src.bytes.take 7) > maxCutText then _ else _)
    have limits : maxCutText = clipboardLimit := by decide
    rcases cutTextLength_cases (src.bytes.take 7) with same | ⟨wrapped, big⟩
    · rw [same, limits]
      generalize clipboardBytes _ = len
      by_cases large : (len : Int) > clipboardLimit
      · rw [if_pos large, if_neg (by omega)]
        rfl
      · rw [if_neg large, if_pos (by omega)]
        refine Or.inl ⟨?_, congrArg some (by omega)⟩
        rw [List.length_take]
        omega
    · rw [wrapped, big, if_neg (by decide), if_neg (by decide)]
      exact Or.inr ⟨by decide, rfl⟩

theorem agrees_qemu (src : Reader) :
    Agrees (clientMessages.announced (msgQEMU :: src.bytes)) (qemuSize { src }) := by
  have header : clientHeaderOf msgQEMU = .read (1 + 1) fun b =>
      if b.getD 1 0 = 0 then .total 12
      else if b.getD 1 0 = 1 then .read (3 + 1) fun b =>
        .total (if bigEndian (slice b 2 4) = 2 then 10 else 4)
      else .fail := rfl
  unfold qemuSize
  rcases Nat.lt_or_ge src.bytes.length 1 with short | enough
  · obtain ⟨e, he⟩ := read_of_lt (r := { src }) short
    rw [he]
    exact announced_of_lt header short
  rw [read_of_le enough, announced_of_le header enough]
  change Agrees _ (if (src.bytes.take 1).getD 0 0 = 0 then _ else _)
  rw [List.getD_cons_succ]
  by_cases extended : (src.bytes.take 1).getD 0 0 = 0
  · rw [if_pos extended, if_pos extended]
    refine Or.inl ⟨?_, rfl⟩
    change ((src.bytes.take 1).length : Int) ≤ 11
    rw [List.length_take]
    omega
  rw [if_neg extended, if_neg extended]
  by_cases audio : (src.bytes.take 1).getD 0 0 = 1
  · rw [if_pos audio, if_pos audio]
    rcases Nat.lt_or_ge (src.bytes.drop 1).length 2 with short | enough'
    · obtain ⟨e, he⟩ := read_of_lt
        (r := ⟨{ src with bytes := src.bytes.drop 1 }, src.bytes.take 1⟩) short
      rw [he]
      apply Header.announced_read_short
      rw [List.length_drop] at short
      rw [List.length_cons]
      omega
    · have op : ((src.bytes.drop 1).take 2) = slice (msgQEMU :: src.bytes) 2 4 := by
        simp [slice, List.drop_take]
      have more : 3 + 1 ≤ (msgQEMU :: src.bytes).length := by
        rw [List.length_drop] at enough'
        rw [List.length_cons]
        omega
      rw [read_ok.mpr ⟨enough', rfl, rfl⟩, Header.announced_read more, slice_take, ← op]
      change Agrees _ (if bigEndian ((src.bytes.drop 1).take 2) = 2 then _ else _)
      split <;> refine Or.inl ⟨?_, rfl⟩ <;> simp <;> omega
  · rw [if_neg audio, if_neg audio]
    rfl

/-- For every type byte, the length the relay works out is the announced one. -/
theorem clientMessageSize_agrees (t : UInt8) (src : Reader) :
    Agrees (clientMessages.announced (t :: src.bytes)) (clientMessageSize t { src }) := by
  by_cases h0 : t = msgSetPixelFormat
  · subst h0
    exact agrees_fixed (n := 19) rfl
  by_cases h2 : t = msgSetEncodings
  · subst h2
    refine agrees_sizeFrom (f := fun b => 3 + 4 * bigEndian (slice b 1 3)) rfl
      (fun b => by omega) fun b => congrArg Header.total ?_
    rw [slice_cons]
    omega
  by_cases h3 : t = msgFramebufferUpdateRequest
  · subst h3
    exact agrees_fixed (n := 9) rfl
  by_cases h4 : t = msgKeyEvent
  · subst h4
    exact agrees_fixed (n := 7) rfl
  by_cases h5 : t = msgPointerEvent
  · subst h5
    exact agrees_fixed (n := 5) rfl
  by_cases h6 : t = msgClientCutText
  · subst h6
    exact agrees_cutText src
  by_cases h150 : t = msgEnableContinuousUpdates
  · subst h150
    exact agrees_fixed (n := 9) rfl
  by_cases h151 : t = msgClientFence
  · subst h151
    refine agrees_sizeFrom (f := fun b => 8 + (b.getD 7 0).toNat) rfl
      (fun b => by omega) fun b => congrArg Header.total ?_
    rw [List.getD_cons_succ]
    omega
  by_cases h250 : t = msgSetDesktopSize
  · subst h250
    refine agrees_sizeFrom (f := fun b => 7 + 16 * (b.getD 5 0).toNat) rfl
      (fun b => by omega) fun b => congrArg Header.total ?_
    rw [List.getD_cons_succ]
    omega
  by_cases h255 : t = msgQEMU
  · subst h255
    exact agrees_qemu src
  have unknown : clientMessageSize t { src } = .error (.unknownType t) := by
    rw [clientMessageSize, if_neg h0, if_neg h2, if_neg h3, if_neg h4, if_neg h5, if_neg h6,
      if_neg h150, if_neg h151, if_neg h250, if_neg h255]
  have header : clientHeaderOf t = .fail := by
    unfold clientHeaderOf rfbHeaderOf
    iterate 11 rw [if_neg (by assumption)]
  rw [unknown, announced_cons, header]
  rfl

/-- A round reads the announced message, or ends where no complete message starts. -/
theorem readMessage_cases (src : Reader) :
    (clientMessages.size src.bytes = none ∧ ∃ out, readMessage src = .error out) ∨
      ∃ n, clientMessages.size src.bytes = some n ∧
        readMessage src = .ok (src.bytes.take n, { src with bytes := src.bytes.drop n }) := by
  obtain ⟨bytes, fault⟩ := src
  cases bytes with
  | nil => exact Or.inl ⟨Framing.size_nil, _, readMessage_nil fault⟩
  | cons t body =>
      have agrees := clientMessageSize_agrees t ⟨body, fault⟩
      simp only [readMessage, readFull_one_cons, List.headD_cons]
      cases hs : clientMessageSize t { src := (⟨body, fault⟩ : Reader) } with
      | error e =>
          rw [hs] at agrees
          exact Or.inl ⟨Framing.size_of_not_announced agrees, _, rfl⟩
      | ok x =>
          obtain ⟨size, ⟨rest, left⟩, pre⟩ := x
          obtain ⟨same, ending⟩ := clientMessageSize_sameStream hs
          obtain rfl : pre ++ rest = body := same
          obtain rfl : left = fault := ending
          rw [hs] at agrees
          rcases agrees with ⟨fits, ann⟩ | ⟨negative, ann⟩
          · dsimp only at fits ann ⊢
            rw [if_neg (by omega)]
            by_cases room : size.toNat - pre.length ≤ rest.length
            · have whole : size.toNat + 1 ≤ (t :: (pre ++ rest)).length := by
                simp only [List.length_cons, List.length_append]
                omega
              refine Or.inr ⟨_, Framing.size_eq_some.mpr ⟨ann, whole⟩, ?_⟩
              obtain ⟨k, hk⟩ : ∃ k, size.toNat = pre.length + k :=
                ⟨size.toNat - pre.length, by omega⟩
              rw [hk, Nat.add_sub_cancel_left] at room ⊢
              rw [Source.readFull_reader, readFull_of_le (by exact room)]
              simp [List.take_append]
            · have short : (t :: (pre ++ rest)).length < size.toNat + 1 := by
                simp only [List.length_cons, List.length_append]
                omega
              refine Or.inl ⟨Framing.size_of_incomplete ann short, ?_⟩
              rw [Source.readFull_reader]
              cases hr : Reader.readFull ⟨rest, left⟩ (size.toNat - pre.length) with
              | error e => exact ⟨_, rfl⟩
              | ok x => exact absurd (readFull_ok.mp hr).1 room
          · exact Or.inl ⟨Framing.size_of_not_announced ann, _, if_pos (Or.inl negative)⟩

/-- The messages the relay hands on: all of them, or for a viewer those that are not input. -/
def kept (viewOnly : Bool) (m : List UInt8) : Bool := !(viewOnly && inputMessage (m.headD 0))

section Rounds

variable {viewOnly : Bool} {src rest : Reader} {dst dst' : Writer} {m : List UInt8}

theorem copyOne_error {out : Outcome} (h : readMessage src = .error out) :
    copyOne viewOnly src dst = (dst, .inl out) := by
  simp only [copyOne, h]

theorem kept_iff : kept viewOnly m ↔ (viewOnly && inputMessage (m.headD 0)) = false := by
  rw [kept, Bool.not_eq_true']

theorem copyOne_dropped (h : readMessage src = .ok (m, rest)) (drop : ¬ kept viewOnly m) :
    copyOne viewOnly src dst = (dst, .inr rest) := by
  have input : (viewOnly && inputMessage (m.headD 0)) = true := by
    rwa [kept_iff, Bool.not_eq_false] at drop
  simp only [copyOne, h, input, if_true]

/-- A kept message goes out in one `Write`, and the relay goes on if that succeeds. -/
theorem copyOne_written (h : readMessage src = .ok (m, rest)) (keep : kept viewOnly m)
    (written : dst.write m = (dst', none)) : copyOne viewOnly src dst = (dst', .inr rest) := by
  simp only [copyOne, h, kept_iff.mp keep, written, Bool.false_eq_true, if_false]

theorem copyOne_writeError {e : String} (h : readMessage src = .ok (m, rest))
    (keep : kept viewOnly m) (failed : dst.write m = (dst', some e)) :
    copyOne viewOnly src dst = (dst', .inl (.returned (.write e))) := by
  simp only [copyOne, h, kept_iff.mp keep, failed, Bool.false_eq_true, if_false]

end Rounds

/-- From any point of the stream on, the loop writes the kept messages that are complete. -/
theorem copyLoop_writes (viewOnly : Bool) (src : Reader) (dst : Writer) :
    (copyLoop viewOnly src dst).1 =
      dst.writeAll ((clientMessages.messages src.bytes).filter (kept viewOnly)) := by
  rcases readMessage_cases src with ⟨none, out, hread⟩ | ⟨n, some, hread⟩
  · rw [copyLoop_stop (copyOne_error hread), Framing.messages_of_none none]
    rfl
  rw [Framing.messages_of_some some]
  by_cases keep : kept viewOnly (src.bytes.take n)
  · rw [List.filter_cons_of_pos keep, writeAll_cons]
    rcases hw : dst.write (src.bytes.take n) with ⟨dst', _ | e⟩
    · rw [copyLoop_go (copyOne_written hread keep hw), if_pos rfl]
      exact copyLoop_writes viewOnly _ dst'
    · rw [copyLoop_stop (copyOne_writeError hread keep hw), if_neg (by simp)]
  · rw [List.filter_cons_of_neg keep, copyLoop_go (copyOne_dropped hread keep)]
    exact copyLoop_writes viewOnly _ dst
termination_by src.bytes.length
decreasing_by all_goals exact readMessage_shortens hread

/-- The messages the relay carries for a viewer, by type. -/
def carried (m : List UInt8) : Bool := [0, 2, 3, 150, 151].contains (m.headD 0)

/-- The messages of a viewer's stream that reach the server, after the ClientInit byte. -/
def forwarded : List UInt8 → List (List UInt8)
  | [] => []
  | init :: stream => [init] :: (clientMessages.messages stream).filter carried

/-- The relay knows ten message types. -/
theorem type_of_isMessage {m : List UInt8} (h : clientMessages.IsMessage m) :
    ∃ t body, m = t :: body ∧ t ∈ [0, 2, 3, 4, 5, 6, 150, 151, 250, 255] := by
  obtain ⟨t, body, rfl⟩ := List.exists_cons_of_ne_nil h.ne_nil
  refine ⟨t, body, rfl, ?_⟩
  by_contra other
  have ann := (Framing.size_eq_some.mp h).1
  rw [announced_cons] at ann
  unfold clientHeaderOf rfbHeaderOf at ann
  iterate 11 rw [if_neg (by rintro rfl; exact other (by simp))] at ann
  cases ann

/-- Among the messages the relay knows, those that are not input are the five carried types. -/
theorem kept_eq_carried {m : List UInt8} (h : clientMessages.IsMessage m) :
    kept true m = carried m := by
  obtain ⟨t, body, rfl, ht⟩ := type_of_isMessage h
  have each : ([0, 2, 3, 4, 5, 6, 150, 151, 250, 255] : List UInt8).all
      (fun t => kept true [t] == carried [t]) = true := by decide
  exact eq_of_beq (List.all_eq_true.mp each t ht)

/-- What the relay hands to the server, one `Write` after the other. -/
def passedOn (viewOnly : Bool) : List UInt8 → List (List UInt8)
  | [] => []
  | init :: stream => [init] :: (clientMessages.messages stream).filter (kept viewOnly)

/-- The relay writes the ClientInit byte and the kept messages of the stream after it. -/
theorem copyClientMessages_passedOn (dst : Writer) (src : Reader) (viewOnly : Bool) :
    (copyClientMessages dst src viewOnly).1 = dst.writeAll (passedOn viewOnly src.bytes) := by
  obtain ⟨bytes, fault⟩ := src
  cases bytes with
  | nil => rw [copyClientMessages_nil]; rfl
  | cons init stream =>
      rw [copyClientMessages_cons, passedOn, writeAll_cons]
      rcases hw : dst.write [init] with ⟨dst', _ | e⟩
      · rw [if_pos rfl]
        exact copyLoop_writes viewOnly ⟨stream, fault⟩ dst'
      · rw [if_neg (by simp)]

theorem passedOn_viewOnly (bytes : List UInt8) : passedOn true bytes = forwarded bytes := by
  cases bytes with
  | nil => rfl
  | cons init stream =>
      refine congrArg ([init] :: ·) (List.filter_congr fun m hm => ?_)
      exact kept_eq_carried (Framing.mem_messages hm)

theorem copyClientMessages_writes (dst : Writer) (src : Reader) :
    (copyClientMessages dst src true).1 = dst.writeAll (forwarded src.bytes) := by
  rw [copyClientMessages_passedOn, passedOn_viewOnly]

/-- Whatever the server makes of a carried message: it is the same message, or it ends the
session. -/
theorem rfb_of_carried {m : List UInt8} (h : clientMessages.IsMessage m) (keep : carried m) :
    rfbMessages.IsMessage m ∨ ∀ rest, rfbMessages.size (m ++ rest) = none := by
  obtain ⟨t, body, rfl⟩ := List.exists_cons_of_ne_nil h.ne_nil
  by_cases fence : t = 151
  · subst fence
    exact Or.inr fun rest =>
      Framing.size_of_not_announced (Framing.tagged_announced 151 (body ++ rest))
  · have same : rfbHeaderOf t = clientHeaderOf t := by
      unfold clientHeaderOf
      rw [if_neg, if_neg fence, if_neg]
      · rintro rfl
        exact absurd keep (by simp [carried])
      · rintro rfl
        exact absurd keep (by simp [carried])
    have ann := (Framing.size_eq_some.mp h).1
    rw [announced_cons, ← same] at ann
    exact Or.inl (Framing.size_eq_some.mpr ⟨(Framing.tagged_announced t body).trans ann, le_rfl⟩)

/-- The input messages of the RFB protocol, by type. -/
def inputTypes : List UInt8 := [4, 5, 6, 250, 255]

/-- The stream the server reads once ClientInit has arrived, up to any point. -/
theorem server_messages_carried (stream : List UInt8) {p : List UInt8}
    (hp : p <+: ((clientMessages.messages stream).filter carried).flatten) :
    (∀ m ∈ rfbMessages.messages p, m.headD 0 ∉ inputTypes) ∧
      ∀ t ∈ (rfbMessages.leftover p).head?, t ∉ inputTypes := by
  have known : ∀ m ∈ (clientMessages.messages stream).filter carried,
      m ≠ [] ∧ (rfbMessages.IsMessage m ∨ ∀ rest, rfbMessages.size (m ++ rest) = none) := by
    intro m hm
    obtain ⟨hm, keep⟩ := List.mem_filter.mp hm
    have whole := Framing.mem_messages hm
    exact ⟨whole.ne_nil, rfb_of_carried whole keep⟩
  have harmless : ∀ m ∈ (clientMessages.messages stream).filter carried,
      m.headD 0 ∉ inputTypes := by
    intro m hm
    have apart : ([0, 2, 3, 150, 151] : List UInt8).all (· ∉ inputTypes) = true := by decide
    exact of_decide_eq_true (List.all_eq_true.mp apart _
      (List.contains_iff_mem.mp (List.mem_filter.mp hm).2))
  obtain ⟨inside, last⟩ := Framing.messages_of_prefix known hp
  refine ⟨fun m hm => harmless m (inside m hm), fun t ht => ?_⟩
  obtain ⟨m, hm, front⟩ := last t ht
  have := harmless m hm
  rwa [List.headD_eq_head?_getD, Option.mem_def.mp front] at this

/-- Dropped messages in front of the rest of a stream leave no trace in what is forwarded. -/
theorem forwarded_dropped (init : UInt8) (ms : List {m // clientMessages.IsMessage m})
    (rest : List UInt8) :
    forwarded (init :: ((ms.map Subtype.val).flatten ++ rest)) =
      forwarded (init :: (((ms.map Subtype.val).filter carried).flatten ++ rest)) := by
  have whole : ∀ m ∈ ms.map Subtype.val, clientMessages.IsMessage m := by
    simp +contextual
  rw [forwarded, forwarded, Framing.messages_flatten_append whole,
    Framing.messages_flatten_append fun m hm => whole m (List.mem_filter.mp hm).1]
  simp

/-- What a view-only relay writes for any stream and sink: the ClientInit byte and the carried
messages in order. The server meets no input message in it, wherever the writing stops, and
the dropped messages do not show. -/
theorem copyClientMessages_viewOnly_safe :
    (∀ (dst : Writer) (src : Reader),
      (copyClientMessages dst src true).1 = dst.writeAll (forwarded src.bytes)) ∧
    (∀ src : Reader,
      (copyClientMessages {} src true).1.bytes = (forwarded src.bytes).flatten) ∧
    (∀ (src : Reader) (fault : Option WriteFault),
      let received := (copyClientMessages { fault } src true).1.bytes.tail
      (∀ m ∈ rfbMessages.messages received, m.headD 0 ∉ inputTypes) ∧
        ∀ t ∈ (rfbMessages.leftover received).head?, t ∉ inputTypes) ∧
    ∀ (dst : Writer) (fault : ReadError) (init : UInt8)
      (ms : List {m // clientMessages.IsMessage m}) (rest : List UInt8),
      let all := (ms.map Subtype.val).flatten
      let passing := ((ms.map Subtype.val).filter carried).flatten
      (copyClientMessages dst (⟨init :: (all ++ rest), fault⟩ : Reader) true).1 =
        (copyClientMessages dst (⟨init :: (passing ++ rest), fault⟩ : Reader) true).1 := by
  refine ⟨copyClientMessages_writes, fun src => ?_, fun src fault => ?_,
    fun dst fault init ms rest => ?_⟩
  · rw [copyClientMessages_writes, Writer.bytes, writeAll_calls rfl, List.nil_append]
  · intro received
    obtain ⟨_, front⟩ := writeAll_bytes_prefix { fault } (forwarded src.bytes)
    rw [← copyClientMessages_writes] at front
    have later := List.IsPrefix.drop front 1
    rw [List.drop_one] at later
    obtain ⟨bytes, srcFault⟩ := src
    cases bytes with
    | nil =>
        apply server_messages_carried []
        rwa [Framing.messages_of_none Framing.size_nil]
    | cons init stream => exact server_messages_carried stream later
  · intro all passing
    rw [copyClientMessages_writes, copyClientMessages_writes, forwarded_dropped]

end VmServer.Proxy
