import VmServer.Proxy.ClientEncoders
import VmServer.Proxy.Transparency

/-!
# Where the relay and the console client disagree

A message of the client is recognised when the relay reads exactly its bytes
under the type the relay has for it. That is so for every message, except for
four kinds and for encoding lists whose length does not fit its field: the
fence and the desktop size are sent with other type bytes than the relay
expects, `xvpOp` has the type byte of the relay's desktop size, and an
extended pointer event is one byte longer than a pointer event.
-/

namespace VmServer.Proxy

namespace EncoderCall

/-- The type byte by which the relay knows a message of this kind. -/
def relayType : EncoderCall → Option UInt8
  | pixelFormat .. => some msgSetPixelFormat
  | clientEncodings .. => some msgSetEncodings
  | fbUpdateRequest .. => some msgFramebufferUpdateRequest
  | keyEvent .. => some msgKeyEvent
  | pointerEvent .. => some msgPointerEvent
  | extendedPointerEvent .. => some msgPointerEvent
  | clientCutText .. => some msgClientCutText
  | qemuExtendedKeyEvent .. => some msgQEMU
  | setDesktopSize .. => some msgSetDesktopSize
  | clientFence .. => some msgClientFence
  | enableContinuousUpdates .. => some msgEnableContinuousUpdates
  | xvpOp .. => none

/-- Whether the relay and the encoder describe the message alike. -/
def agreed : EncoderCall → Bool
  | clientEncodings encodings => encodings.length < 65536
  | extendedPointerEvent .. => false
  | setDesktopSize .. => false
  | clientFence .. => false
  | xvpOp .. => false
  | _ => true

end EncoderCall

/-- The relay reads exactly this message from the front of a stream, as what it is. -/
def ClientMessage.Recognised (m : ClientMessage) (rest : List UInt8) (fault : ReadError) : Prop :=
  m.bytes.head? = m.call.relayType ∧
    readMessage (⟨m.bytes ++ rest, fault⟩ : Reader) = .ok (m.bytes, ⟨rest, fault⟩)

/-- A control-mode relay hands every message of a sequence to the server as it was sent, and
ends only when the stream does. -/
def InSync (init : UInt8) (ms : List ClientMessage) (fault : ReadError) : Prop :=
  let stream := (ms.map ClientMessage.bytes).flatten
  let result := copyClientMessages {} (⟨init :: stream, fault⟩ : Reader) false
  result.1.calls = [init] :: ms.map ClientMessage.bytes ∧ result.2 = .returned (.read fault)

theorem isMessage_of_total {t : UInt8} {bytes : List UInt8} {n : Nat}
    (h : clientHeaderOf t = .total n) (first : bytes.head? = some t) (len : bytes.length = n) :
    clientMessages.IsMessage bytes := by
  obtain ⟨body, rfl⟩ := List.head?_eq_some_iff.mp first
  refine Framing.size_eq_some.mpr ⟨?_, le_rfl⟩
  rw [announced_cons, h, len]
  rfl

/-- The relay counts the encodings by the low 16 bits of their number. -/
theorem announced_clientEncodings (encodings : List Int) (rest : List UInt8) :
    clientMessages.announced (Messages.clientEncodings encodings ++ rest) =
      some (4 + 4 * (encodings.length % 65536)) := by
  have count : bigEndian (sQpush16 encodings.length) = encodings.length % 65536 := by
    rw [bigEndian_sQpush16]
    omega
  refine (announced_cons 2 _).trans ((Header.announced_read ?_).trans ?_)
  · simp [sQpush8, sQpush16]
  · change some (4 + 4 * bigEndian (sQpush16 encodings.length)) = _
    rw [count]

theorem length_clientEncodings (encodings : List Int) :
    (Messages.clientEncodings encodings).length = 4 + 4 * encodings.length := by
  rw [Messages.clientEncodings, List.length_append, length_flatMap_sQpush32]
  rfl

theorem isMessage_clientEncodings {encodings : List Int} (short : encodings.length < 65536) :
    clientMessages.IsMessage (Messages.clientEncodings encodings) := by
  have announced := announced_clientEncodings encodings []
  rw [List.append_nil, Nat.mod_eq_of_lt short, ← length_clientEncodings] at announced
  exact Framing.size_eq_some.mpr ⟨announced, le_rfl⟩

theorem isMessage_clientCutText
    (data : {data : List UInt8 // data.length ≤ clipboardLimit}) (extended : Bool) :
    clientMessages.IsMessage (Messages.clientCutText data extended) := by
  have len := clipboardBytes_length data extended
  refine Framing.size_eq_some.mpr ⟨?_, le_rfl⟩
  generalize hl : (if extended then toUnsigned32bit (-data.1.length) else data.1.length : Int) = l
    at len
  have bytes : Messages.clientCutText data extended =
      6 :: 0 :: 0 :: 0 :: (sQpush32 l ++ data.1) := by
    rw [← hl]
    rfl
  have within : clipboardBytes (bigEndian (sQpush32 l)) ≤ clipboardLimit := len ▸ data.2
  calc clientMessages.announced (Messages.clientCutText data extended)
    _ = (if clipboardBytes (bigEndian (sQpush32 l)) ≤ clipboardLimit then
          Header.total (8 + clipboardBytes (bigEndian (sQpush32 l))) else .fail).announced
            (6 :: 0 :: 0 :: 0 :: (sQpush32 l ++ data.1)) := by
        rw [bytes]
        refine (announced_cons 6 _).trans ?_
        exact Header.announced_read (by simp [sQpush32])
    _ = some (8 + data.1.length) := by
        rw [if_pos within, len]
        rfl
    _ = some (Messages.clientCutText data extended).length := by
        rw [bytes]
        simp [sQpush32]
        omega

/-- An agreed message is one complete message for the relay. -/
theorem ClientMessage.isMessage_of_agreed (m : ClientMessage) (h : m.call.agreed) :
    clientMessages.IsMessage m.bytes := by
  obtain ⟨call, bytes, sent⟩ := m
  cases call with
  | pixelFormat depth trueColor =>
      obtain rfl := Except.ok.inj sent
      exact isMessage_of_total (t := 0) rfl rfl (length_pixelFormat depth trueColor)
  | clientEncodings encodings =>
      obtain rfl := Except.ok.inj sent
      exact isMessage_clientEncodings (of_decide_eq_true h)
  | fbUpdateRequest incremental x y w h =>
      obtain rfl := Except.ok.inj sent
      exact isMessage_of_total (t := 3) rfl rfl rfl
  | keyEvent keysym down =>
      obtain rfl := Except.ok.inj sent
      exact isMessage_of_total (t := 4) rfl rfl rfl
  | pointerEvent x y mask =>
      obtain rfl := Except.ok.inj sent
      exact isMessage_of_total (t := 5) rfl rfl rfl
  | clientCutText data extended =>
      obtain rfl := Except.ok.inj sent
      exact isMessage_clientCutText data extended
  | qemuExtendedKeyEvent keysym down keycode =>
      obtain rfl := Except.ok.inj sent
      exact Framing.size_eq_some.mpr ⟨(announced_cons 255 _).trans rfl, le_rfl⟩
  | enableContinuousUpdates enable x y width height =>
      obtain rfl := Except.ok.inj sent
      exact isMessage_of_total (t := 150) rfl rfl rfl
  | extendedPointerEvent x y mask => cases h
  | setDesktopSize width height id flags => cases h
  | clientFence flags payload => cases h
  | xvpOp ver op => cases h

/-- The relay takes any other message for one of another length, or for none. -/
theorem ClientMessage.size_of_not_agreed (m : ClientMessage) (h : m.call.agreed = false)
    (rest : List UInt8) : clientMessages.size (m.bytes ++ rest) ≠ some m.bytes.length := by
  intro size
  have announced := (Framing.size_eq_some.mp size).1
  obtain ⟨call, bytes, sent⟩ := m
  cases call with
  | clientEncodings encodings =>
      obtain rfl := Except.ok.inj sent
      have long := of_decide_eq_false h
      rw [announced_clientEncodings, length_clientEncodings, Option.some.injEq] at announced
      omega
  | extendedPointerEvent x y mask =>
      simp only [EncoderCall.encode, Messages.extendedPointerEvent] at sent
      split at sent
      · cases sent
      · obtain rfl := Except.ok.inj sent
        have six := (announced_cons 5 _).symm.trans announced
        have seven : 6 = 7 := Option.some.inj six
        omega
  | setDesktopSize width height id flags =>
      obtain rfl := Except.ok.inj sent
      have none := (announced_cons 251 _).symm.trans announced
      cases none
  | clientFence flags payload =>
      obtain rfl := Except.ok.inj sent
      have none := (announced_cons 248 _).symm.trans announced
      cases none
  | xvpOp ver op =>
      obtain rfl := Except.ok.inj sent
      have header : clientHeaderOf 250 =
          .read 8 fun b => .total (8 + 16 * (b.getD 6 0).toNat) := rfl
      have atLeast := (announced_cons 250 _).symm.trans announced
      rw [header, Header.announced] at atLeast
      obtain ⟨_, total⟩ := Option.ite_none_right_eq_some.mp atLeast
      have four : 8 + 16 * _ = 4 := Option.some.inj total
      omega
  | pixelFormat depth trueColor => cases h
  | fbUpdateRequest incremental x y w h => cases h
  | keyEvent keysym down => cases h
  | pointerEvent x y mask => cases h
  | clientCutText data extended => cases h
  | qemuExtendedKeyEvent keysym down keycode => cases h
  | enableContinuousUpdates enable x y width height => cases h

theorem ClientMessage.isMessage_iff (m : ClientMessage) :
    clientMessages.IsMessage m.bytes ↔ m.call.agreed := by
  refine ⟨fun whole => ?_, m.isMessage_of_agreed⟩
  by_contra other
  apply m.size_of_not_agreed (eq_false_of_ne_true other) []
  rwa [List.append_nil]

/-- An agreed message starts with the type byte that the relay knows it by. -/
theorem ClientMessage.head_of_agreed (m : ClientMessage) (h : m.call.agreed) :
    m.bytes.head? = m.call.relayType := by
  obtain ⟨call, bytes, sent⟩ := m
  cases call with
  | extendedPointerEvent x y mask => cases h
  | setDesktopSize width height id flags => cases h
  | clientFence flags payload => cases h
  | xvpOp ver op => cases h
  | _ =>
      obtain rfl := Except.ok.inj sent
      rfl

/-- A round consumes exactly `m` when the framing says that `m` is what comes first. -/
theorem readMessage_append_iff {m rest : List UInt8} {fault : ReadError} :
    readMessage (⟨m ++ rest, fault⟩ : Reader) = .ok (m, ⟨rest, fault⟩) ↔
      clientMessages.size (m ++ rest) = some m.length := by
  rcases readMessage_cases ⟨m ++ rest, fault⟩ with ⟨none, out, hread⟩ | ⟨n, some, hread⟩
  · rw [hread, none]
    simp
  · rw [hread, some]
    constructor
    · intro same
      obtain ⟨whole, _⟩ := Prod.mk.inj (Except.ok.inj same)
      have len := congrArg List.length whole
      have fits := Framing.size_le some
      rw [List.length_take, min_eq_left fits] at len
      exact congrArg _ len
    · intro len
      obtain rfl := Option.some.inj len
      simp

theorem ClientMessage.recognised_iff (m : ClientMessage) (rest : List UInt8)
    (fault : ReadError) : m.Recognised rest fault ↔ m.call.agreed := by
  constructor
  · rintro ⟨_, exact⟩
    by_contra other
    exact m.size_of_not_agreed (eq_false_of_ne_true other) rest (readMessage_append_iff.mp exact)
  · intro agreed
    exact ⟨m.head_of_agreed agreed,
      readMessage_append_iff.mpr ((m.isMessage_of_agreed agreed).size_append rest)⟩

/-- Complete messages are read to the end of the stream, if no write fails. -/
theorem copyLoop_messages {viewOnly : Bool} {ms : List (List UInt8)}
    (h : ∀ m ∈ ms, clientMessages.IsMessage m) {dst : Writer} (good : dst.fault = none)
    (fault : ReadError) :
    (copyLoop viewOnly (⟨ms.flatten, fault⟩ : Reader) dst).2 = .returned (.read fault) := by
  induction ms generalizing dst with
  | nil =>
      rw [List.flatten_nil, copyLoop_stop (copyOne_error (readMessage_nil fault))]
  | cons m ms ih =>
      have tail : ∀ {dst : Writer}, dst.fault = none →
          (copyLoop viewOnly (⟨ms.flatten, fault⟩ : Reader) dst).2 = .returned (.read fault) :=
        ih fun x hx => h x (List.mem_cons_of_mem _ hx)
      have read : readMessage (⟨m ++ ms.flatten, fault⟩ : Reader) = .ok (m, ⟨ms.flatten, fault⟩) :=
        readMessage_append_iff.mpr ((h m List.mem_cons_self).size_append _)
      rw [List.flatten_cons]
      by_cases keep : kept viewOnly m
      · rw [copyLoop_go (copyOne_written read keep (write_good good m))]
        exact tail good
      · rw [copyLoop_go (copyOne_dropped read keep)]
        exact tail good

theorem inSync_iff (init : UInt8) (ms : List ClientMessage) (fault : ReadError) :
    InSync init ms fault ↔ ∀ m ∈ ms, m.call.agreed := by
  have calls : (copyClientMessages {}
      (⟨init :: (ms.map ClientMessage.bytes).flatten, fault⟩ : Reader) false).1.calls =
        [init] :: clientMessages.messages (ms.map ClientMessage.bytes).flatten := by
    rw [copyClientMessages_control, writeAll_calls rfl, List.nil_append, relayed]
  constructor
  · rintro ⟨same, _⟩ m hm
    rw [calls, List.cons.injEq] at same
    rw [← m.isMessage_iff]
    apply Framing.mem_messages (s := (ms.map ClientMessage.bytes).flatten)
    rw [same.2]
    exact List.mem_map_of_mem hm
  · intro agreed
    have whole : ∀ m ∈ ms.map ClientMessage.bytes, clientMessages.IsMessage m := by
      intro bytes hbytes
      obtain ⟨m, hm, rfl⟩ := List.mem_map.mp hbytes
      exact m.isMessage_of_agreed (agreed m hm)
    have messages := Framing.messages_flatten_append whole []
    rw [List.append_nil, Framing.messages_of_none Framing.size_nil, List.append_nil] at messages
    refine ⟨?_, ?_⟩
    · rw [calls, messages]
    · have good : ({ calls := [[init]] } : Writer).fault = none := rfl
      rw [copyClientMessages_cons]
      exact copyLoop_messages whole good fault

/-- The relay and the encoders agree on a message, with anything after it, exactly when it is
an agreed one, and on a sequence exactly when it holds no other. -/
theorem recognised_and_inSync_iff (m : ClientMessage) (rest : List UInt8) (init : UInt8)
    (ms : List ClientMessage) (fault : ReadError) :
    (m.Recognised rest fault ↔ m.call.agreed) ∧
      (InSync init ms fault ↔ ∀ m ∈ ms, m.call.agreed) :=
  ⟨m.recognised_iff rest fault, inSync_iff init ms fault⟩

/-- The answer to a fence of the server, with one byte of payload. -/
def fenceAnswer : ClientMessage := ⟨.clientFence 1 ⟨[7], by decide⟩, _, rfl⟩

theorem fenceAnswer_ends :
    (copyClientMessages {} (⟨1 :: fenceAnswer.bytes, .eof⟩ : Reader) false).2 =
      .returned (.unknownType 248) := by
  have type : fenceAnswer.bytes = 248 :: fenceAnswer.bytes.tail := rfl
  have unknown : readMessage (⟨fenceAnswer.bytes, .eof⟩ : Reader) =
      .error (.returned (.unknownType 248)) := by
    rw [type, readMessage, readFull_one_cons]
    rfl
  rw [copyClientMessages_cons]
  exact congrArg Prod.snd (copyLoop_stop (copyOne_error unknown))

/-- A fence answer is not recognised and ends the relay with an error. -/
theorem fence_answer_ends_relay :
    ¬ fenceAnswer.Recognised [] .eof ∧ ¬ InSync 1 [fenceAnswer] .eof ∧
      (copyClientMessages {} (⟨1 :: fenceAnswer.bytes, .eof⟩ : Reader) false).2 =
        .returned (.unknownType 248) := by
  refine ⟨?_, ?_, fenceAnswer_ends⟩
  · rintro ⟨type, _⟩
    exact absurd type (by decide)
  · rintro ⟨_, ending⟩
    exact absurd (ending.symm.trans fenceAnswer_ends) (by decide)

end VmServer.Proxy
