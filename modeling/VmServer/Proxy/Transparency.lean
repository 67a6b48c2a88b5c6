import VmServer.Proxy.FilterSafety

/-!
# The control-mode relay is transparent

In control mode every complete message is kept, so the relay writes the
ClientInit byte and then the messages the stream starts with, one `Write`
each. They and the rest of the stream put together are the stream again, and
the rest starts with no complete message.
-/

namespace VmServer.Proxy

/-- What a control-mode relay hands to the server, one `Write` after the other. -/
def relayed : List UInt8 → List (List UInt8)
  | [] => []
  | init :: stream => [init] :: clientMessages.messages stream

/-- The beginnings of messages that the relay refuses: an unknown type, a clipboard text over
the limit, or an unknown QEMU submessage. -/
def Refused (s : List UInt8) : Prop :=
  ∃ t body, s = t :: body ∧
    (t ∉ ([0, 2, 3, 4, 5, 6, 150, 151, 250, 255] : List UInt8) ∨
      (t = 6 ∧ 8 ≤ s.length ∧ clipboardLimit < clipboardBytes (bigEndian (slice s 4 8))) ∨
      t = 255 ∧ ∃ sub ∈ body.head?, sub ≠ 0 ∧ sub ≠ 1)

theorem clientHeaderOf_cutText_rejects {s : List UInt8} :
    (clientHeaderOf 6).rejects s ↔
      8 ≤ s.length ∧ clipboardLimit < clipboardBytes (bigEndian (slice s 4 8)) := by
  have header : clientHeaderOf 6 = .read 8 fun b =>
      if clipboardBytes (bigEndian (slice b 4 8)) ≤ clipboardLimit then
        .total (8 + clipboardBytes (bigEndian (slice b 4 8))) else .fail := rfl
  rw [header, Header.rejects_read_iff, slice_take]
  simp

theorem clientHeaderOf_qemu_rejects {t : UInt8} {body : List UInt8} :
    (clientHeaderOf 255).rejects (t :: body) ↔ ∃ sub ∈ body.head?, sub ≠ 0 ∧ sub ≠ 1 := by
  have header : clientHeaderOf 255 = .read 2 fun b =>
      if b.getD 1 0 = 0 then .total 12
      else if b.getD 1 0 = 1 then .read 4 fun b =>
        .total (if bigEndian (slice b 2 4) = 2 then 10 else 4)
      else .fail := rfl
  rw [header, Header.rejects_read_iff]
  cases body with
  | nil => simp
  | cons sub rest =>
      have second : ((t :: sub :: rest).take 2).getD 1 0 = sub := rfl
      rw [second]
      by_cases key : sub = 0
      · simp [key]
      · by_cases audio : sub = 1 <;> simp [key, audio, Header.rejects]

/-- The framing rejects exactly the beginnings that are refused. -/
theorem clientMessages_rejects {s : List UInt8} : clientMessages.Rejects s ↔ Refused s := by
  refine Framing.tagged_rejects.trans (exists_congr fun t => exists_congr fun body =>
    and_congr_right ?_)
  rintro rfl
  by_cases cut : t = 6
  · subst cut
    rw [clientHeaderOf_cutText_rejects]
    simp
  by_cases qemu : t = 255
  · subst qemu
    rw [clientHeaderOf_qemu_rejects]
    simp
  simp only [cut, qemu, false_and, or_false]
  unfold clientHeaderOf rfbHeaderOf
  simp only [cut, qemu, if_false, Header.rejects_ite, Header.rejects_read_iff,
    Header.rejects_total, Header.rejects_fail, List.mem_cons, List.not_mem_nil, or_false]
  tauto

theorem relayed_flatten_prefix (s : List UInt8) : (relayed s).flatten <+: s := by
  cases s with
  | nil => exact List.prefix_rfl
  | cons init stream =>
      rw [relayed, List.flatten_cons, List.singleton_append, List.cons_prefix_cons]
      exact ⟨rfl, _, Framing.messages_flatten_leftover stream⟩

theorem passedOn_control (bytes : List UInt8) : passedOn false bytes = relayed bytes := by
  cases bytes with
  | nil => rfl
  | cons init stream =>
      exact congrArg ([init] :: ·) (List.filter_eq_self.mpr fun _ _ => rfl)

theorem copyClientMessages_control (dst : Writer) (src : Reader) :
    (copyClientMessages dst src false).1 = dst.writeAll (relayed src.bytes) := by
  rw [copyClientMessages_passedOn, passedOn_control]

/-- What a control-mode relay writes for any stream and sink: the ClientInit byte and the
complete messages in front of the first incomplete or refused one, each in one call, which
together are a front of the stream. A sink that fails has received a front of that. -/
theorem control_mode_transparent :
    (∀ (dst : Writer) (src : Reader),
      (copyClientMessages dst src false).1 = dst.writeAll (relayed src.bytes)) ∧
    (∀ src : Reader, (copyClientMessages {} src false).1.calls = relayed src.bytes) ∧
    (∀ (src : Reader) (fault : Option WriteFault),
      (copyClientMessages { fault } src false).1.bytes <+: (relayed src.bytes).flatten ∧
        (relayed src.bytes).flatten <+: src.bytes) ∧
    ∀ (init : UInt8) (stream : List UInt8),
      relayed (init :: stream) = [init] :: clientMessages.messages stream ∧
      (∀ m ∈ clientMessages.messages stream, clientMessages.IsMessage m) ∧
      (clientMessages.messages stream).flatten ++ clientMessages.leftover stream = stream ∧
      (clientMessages.Incomplete (clientMessages.leftover stream) ∨
        Refused (clientMessages.leftover stream)) := by
  refine ⟨copyClientMessages_control, fun src => ?_, fun src fault => ⟨?_, ?_⟩,
    fun init stream => ⟨rfl, fun m => Framing.mem_messages, ?_, ?_⟩⟩
  · rw [copyClientMessages_control, writeAll_calls rfl, List.nil_append]
  · have front := writeAll_bytes_prefix { fault } (relayed src.bytes)
    rw [copyClientMessages_control]
    exact front.2
  · exact relayed_flatten_prefix src.bytes
  · exact Framing.messages_flatten_leftover stream
  · rw [← clientMessages_rejects]
    exact Framing.size_eq_none_iff.mp (Framing.size_leftover stream)

end VmServer.Proxy
