import VmServer.Proxy.Agreement
import VmServer.Proxy.Fragmentation
import VmServer.Novnc.SendQueue

/-!
# From the console client's encoders to the VNC server

The encoders fill a send queue, the browser sends the queue as WebSocket
messages, the server reads these as one stream, and the relay cuts that stream
into messages again. The VNC server then frames what it receives in its own
way. What it takes out are the messages that were encoded, each one whole and
in order, and for a viewer all of them that are not input.
-/

namespace VmServer.Proxy

open Novnc

/-- Whether a connection in this mode may send the message. -/
def ClientMessage.allowed (viewOnly : Bool) (m : ClientMessage) : Bool :=
  !(viewOnly && inputTypes.contains (m.bytes.headD 0))

/-- Apart from the two types that only the relay knows, the relay's messages are the server's. -/
theorem rfb_of_isMessage {m : List UInt8} (h : clientMessages.IsMessage m)
    (fence : m.headD 0 ≠ 151) (size : m.headD 0 ≠ 250) : rfbMessages.IsMessage m := by
  obtain ⟨t, body, rfl⟩ := List.exists_cons_of_ne_nil h.ne_nil
  have ann := (Framing.size_eq_some.mp h).1
  rw [announced_cons] at ann
  refine Framing.size_eq_some.mpr ⟨(Framing.tagged_announced t body).trans ?_, le_rfl⟩
  by_cases cut : t = 6
  · subst cut
    have client : clientHeaderOf 6 = .read 8 fun b =>
        if clipboardBytes (bigEndian (slice b 4 8)) ≤ clipboardLimit then
          .total (8 + clipboardBytes (bigEndian (slice b 4 8))) else .fail := rfl
    have server : rfbHeaderOf 6 = .read 8 fun b =>
        .total (8 + clipboardBytes (bigEndian (slice b 4 8))) := rfl
    rw [client, Header.announced] at ann
    obtain ⟨room, ann⟩ := Option.ite_none_right_eq_some.mp ann
    rw [Header.announced_ite] at ann
    obtain ⟨_, ann⟩ := Option.ite_none_right_eq_some.mp ann
    rw [server, Header.announced, if_pos room]
    exact ann
  · unfold clientHeaderOf at ann
    rw [if_neg cut, if_neg (by exact fence), if_neg (by exact size)] at ann
    exact ann

/-- The types of the messages on which the relay and the encoders agree. -/
theorem ClientMessage.type_of_agreed (m : ClientMessage) (h : m.call.agreed) :
    m.bytes.headD 0 ∈ ([0, 2, 3, 4, 5, 6, 150, 255] : List UInt8) := by
  rw [List.headD_eq_head?_getD, m.head_of_agreed h]
  obtain ⟨call, bytes, sent⟩ := m
  cases call with
  | extendedPointerEvent x y mask => cases h
  | setDesktopSize width height id flags => cases h
  | clientFence flags payload => cases h
  | xvpOp ver op => cases h
  | _ => exact List.contains_iff_mem.mp rfl

/-- The VNC server frames an agreed message as the relay does. -/
theorem ClientMessage.rfb_of_agreed (m : ClientMessage) (h : m.call.agreed) :
    rfbMessages.IsMessage m.bytes := by
  have type := m.type_of_agreed h
  refine rfb_of_isMessage (m.isMessage_of_agreed h) ?_ ?_
  · rintro fence
    rw [fence] at type
    exact absurd type (by decide)
  · rintro size
    rw [size] at type
    exact absurd type (by decide)

/-- The relay and the protocol agree which of the agreed messages are input. -/
theorem ClientMessage.kept_eq_allowed (viewOnly : Bool) (m : ClientMessage) (h : m.call.agreed) :
    kept viewOnly m.bytes = m.allowed viewOnly := by
  have same : ([0, 2, 3, 4, 5, 6, 150, 255] : List UInt8).all
      (fun t => inputMessage t == inputTypes.contains t) = true := by decide
  have type := eq_of_beq (List.all_eq_true.mp same _ (m.type_of_agreed h))
  rw [kept, type, ClientMessage.allowed]

/-- The relay hands on the allowed ones of the agreed messages, each as it was sent. -/
theorem passedOn_agreed (viewOnly : Bool) (init : UInt8)
    (ms : List {m : ClientMessage // m.call.agreed}) :
    passedOn viewOnly (init :: (ms.map (·.1.bytes)).flatten) =
      [init] :: ((ms.map (·.1)).filter (ClientMessage.allowed viewOnly)).map
        ClientMessage.bytes := by
  have whole : ∀ m ∈ ms.map (·.1.bytes), clientMessages.IsMessage m := by
    intro bytes hbytes
    obtain ⟨m, _, rfl⟩ := List.mem_map.mp hbytes
    exact m.1.isMessage_of_agreed m.2
  have messages := Framing.messages_flatten_append whole []
  rw [List.append_nil, Framing.messages_of_none Framing.size_nil, List.append_nil] at messages
  rw [passedOn, messages]
  refine congrArg _ ?_
  have kept_iff : ∀ m : {m : ClientMessage // m.call.agreed},
      kept viewOnly m.1.bytes = m.1.allowed viewOnly := fun m => m.1.kept_eq_allowed viewOnly m.2
  rw [List.filter_map, List.filter_map, List.map_map]
  exact congrArg _ (List.filter_congr fun m _ => kept_iff m)

theorem payload_binary (messages : List (List UInt8)) :
    WsConn.payload (messages.map (Frame.mk true)) = messages.flatten := by
  induction messages with
  | nil => rfl
  | cons m messages ih =>
      rw [List.flatten_cons, ← ih]
      rfl

/-- Whatever messages the relay knows the client's encoders send one after the other, however their
pushes fall into WebSocket messages: the VNC server receives the ClientInit byte and, framed by the
protocol, exactly the messages the mode allows. Nothing is left over, and the relay ends only with
the stream. -/
theorem messages_delivered (viewOnly : Bool) (init : UInt8)
    (ms : List {m : ClientMessage // m.call.agreed}) (sends : List (List Push))
    (pushed : sends.map (·.flatMap Push.pushed) = [init] :: ms.map (·.1.bytes))
    (fault : ReadError) :
    let frames := (sends.foldl SendQueue.send {}).frames.map (Frame.mk true)
    let relay := copyClientMessages {} (⟨[], frames, fault⟩ : WsConn) viewOnly
    relay.2 = .returned (.read fault) ∧ relay.1.bytes.head? = some init ∧
      rfbMessages.messages relay.1.bytes.tail =
        ((ms.map (·.1)).filter (ClientMessage.allowed viewOnly)).map ClientMessage.bytes ∧
      rfbMessages.leftover relay.1.bytes.tail = [] := by
  intro frames relay
  have payload : WsConn.payload frames = init :: (ms.map (·.1.bytes)).flatten := by
    rw [payload_binary, (SendQueue.frames_of_sends sends).1, List.flatMap_def, pushed]
    rfl
  have stream : relay = copyClientMessages {} (⟨WsConn.payload frames, fault⟩ : Reader) viewOnly :=
    copyClientMessages_stream {} _ viewOnly
  have received : relay.1.bytes = init :: (((ms.map (·.1)).filter
      (ClientMessage.allowed viewOnly)).map ClientMessage.bytes).flatten := by
    rw [stream, copyClientMessages_passedOn, payload, passedOn_agreed, Writer.bytes,
      writeAll_calls rfl]
    rfl
  have whole : ∀ m ∈ ((ms.map (·.1)).filter (ClientMessage.allowed viewOnly)).map
      ClientMessage.bytes, rfbMessages.IsMessage m := by
    intro bytes hbytes
    obtain ⟨m, hm, rfl⟩ := List.mem_map.mp hbytes
    obtain ⟨⟨m, agreed⟩, _, rfl⟩ := List.mem_map.mp (List.mem_filter.mp hm).1
    exact m.rfb_of_agreed agreed
  refine ⟨?_, ?_, ?_, ?_⟩
  · have good : ({ calls := [[init]] } : Writer).fault = none := rfl
    rw [stream, payload, copyClientMessages_cons]
    refine copyLoop_messages (fun bytes hbytes => ?_) good fault
    obtain ⟨m, _, rfl⟩ := List.mem_map.mp hbytes
    exact m.1.isMessage_of_agreed m.2
  · rw [received]
    rfl
  · have messages := Framing.messages_flatten_append whole []
    rw [List.append_nil, Framing.messages_of_none Framing.size_nil, List.append_nil] at messages
    rw [received]
    exact messages
  · have leftover := Framing.leftover_flatten_append whole []
    rw [List.append_nil, Framing.leftover_of_none Framing.size_nil] at leftover
    rw [received]
    exact leftover

/-- A key press and a request for the whole screen. -/
def pressAndRequest : List {m : ClientMessage // m.call.agreed} :=
  [⟨⟨.keyEvent 65 1, _, rfl⟩, rfl⟩, ⟨⟨.fbUpdateRequest false none none 1024 768, _, rfl⟩, rfl⟩]

/-- A viewer's relay drops the key press from what the encoders have pushed. -/
theorem press_not_delivered :
    let sends := [[.push8 1], [.push8 4, .push8 1, .push16 0, .push32 65],
      [.push8 3, .push8 0, .push16 0, .push16 0, .push16 1024, .push16 768]]
    let frames := (sends.foldl SendQueue.send {}).frames.map (Frame.mk true)
    let relay := copyClientMessages {} (⟨[], frames, .eof⟩ : WsConn) true
    rfbMessages.messages relay.1.bytes.tail = [Messages.fbUpdateRequest false none none 1024 768] :=
  (messages_delivered true 1 pressAndRequest _ rfl .eof).2.2.1

end VmServer.Proxy
