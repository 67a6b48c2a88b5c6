import VmServer.Vm.QmpOwnership

/-!
# Every reply reaches the call it answers

A result or a QMP error that `Execute` returns is the content of a line whose
id is the one the call has sent, and no line serves two calls. `Traced` follows
a line from the read to the call that returns it.
-/

namespace VmServer.Vm

open TransitionSystem

variable (unmarshal : String → Option QmpResponse)

/-- The line the reply was read from decodes to it and answers the request of the call. -/
def Answers (received : List String) (c : Call) (reply : Reply) : Prop :=
  ∃ text r, received[reply.line]? = some text ∧ unmarshal text = some reply.resp ∧
    reply.resp.event = "" ∧ c.request = some r ∧ reply.resp.id = some r.id

/-- A result, or an error that QEMU has replied with. -/
def FromReply : Except ExecuteError String → Prop
  | .ok _ => True
  | .error (.command _ _) => True
  | .error _ => False

/-- The line was delivered to the call: it is in its channel, or the call has returned it. -/
def Call.HasLine (c : Call) (k : Nat) : Prop :=
  (∃ reply ∈ c.chan.buffer, reply.line = k) ∨ ∃ result, c.phase = .returned result (some k)

/-- What was delivered to the call, and what it returns, answers its request. -/
structure Faithful (received : List String) (c : Call) : Prop where
  buffered : ∀ reply ∈ c.chan.buffer, Answers unmarshal received c reply
  returned : ∀ result k, c.phase = .returned result (some k) →
    ∃ reply, reply.line = k ∧ Answers unmarshal received c reply ∧
      result = reply.resp.outcome c.cmd
  unread : ∀ result, c.phase = .returned result none → ¬ FromReply result

/-- Replies reach their own request. -/
structure RepliesMatch (s : QmpClient) : Prop where
  own : ∀ c ∈ s.calls, ∀ result line, c.phase = .returned result line → FromReply result →
    ∃ k text resp request, line = some k ∧ s.received[k]? = some text ∧
      unmarshal text = some resp ∧ resp.event = "" ∧ c.request = some request ∧
      resp.id = some request.id ∧ result = resp.outcome c.cmd
  once : ∀ (i j : Nat) (c d : Call) (k : Nat), s.calls[i]? = some c → s.calls[j]? = some d →
    c.HasLine k → d.HasLine k → i = j
  free : ∀ i reply, s.reader = .handing i reply →
    ∃ t, s.next unmarshal .handOver = some t ∧ t.panicked = false ∧ t.reader = .reading

/-- The reply `readLoop` is working on. -/
def ReaderPhase.reply : ReaderPhase → Option Reply
  | .found _ reply | .handing _ reply => some reply
  | _ => none

/-- The reply in the reader's hands is the last line and was delivered to nobody. -/
structure Undelivered (received : List String) (calls : List Call) (reply : Reply) : Prop where
  last : reply.line + 1 = received.length
  decoded : ∃ text, received[reply.line]? = some text ∧ unmarshal text = some reply.resp
  event : reply.resp.event = ""
  unused : ∀ c ∈ calls, ¬ c.HasLine reply.line

structure Traced (s : QmpClient) : Prop where
  faithful : ∀ c ∈ s.calls, Faithful unmarshal s.received c
  once : ∀ (i j : Nat) (c d : Call) (k : Nat), s.calls[i]? = some c → s.calls[j]? = some d →
    c.HasLine k → d.HasLine k → i = j
  reading : ∀ reply, s.reader.reply = some reply →
    Undelivered unmarshal s.received s.calls reply

variable {unmarshal} {s t : QmpClient}

theorem Answers.concat {received : List String} {c : Call} {reply : Reply}
    (h : Answers unmarshal received c reply) (line : String) :
    Answers unmarshal (received ++ [line]) c reply := by
  obtain ⟨text, r, read, rest⟩ := h
  refine ⟨text, r, ?_, rest⟩
  rw [List.getElem?_append_left (List.getElem?_eq_some_iff.mp read).1, read]

theorem Faithful.concat {received : List String} {c : Call} (h : Faithful unmarshal received c)
    (line : String) : Faithful unmarshal (received ++ [line]) c where
  buffered reply hr := (h.buffered reply hr).concat line
  returned result k at_ := by
    obtain ⟨reply, rfl, answers, same⟩ := h.returned result k at_
    exact ⟨reply, rfl, answers.concat line, same⟩
  unread := h.unread

theorem Faithful.line_lt {received : List String} {c : Call} (h : Faithful unmarshal received c)
    {k : Nat} (has : c.HasLine k) : k < received.length := by
  have read {reply : Reply} (a : Answers unmarshal received c reply) :
      reply.line < received.length := by
    obtain ⟨text, r, read, _⟩ := a
    exact (List.getElem?_eq_some_iff.mp read).1
  rcases has with ⟨reply, hr, rfl⟩ | ⟨result, at_⟩
  · exact read (h.buffered reply hr)
  · obtain ⟨reply, rfl, answers, _⟩ := h.returned result k at_
    exact read answers

/-- The call gets no line in this step and what it has still answers its request. -/
def Retains (unmarshal : String → Option QmpResponse) (received : List String) (c c' : Call) :
    Prop :=
  (Faithful unmarshal received c → Faithful unmarshal received c') ∧
    ∀ k, c'.HasLine k → c.HasLine k

theorem Retains.refl {received : List String} (c : Call) : Retains unmarshal received c c :=
  ⟨fun h => h, fun _ h => h⟩

/-- A call that leaves its channel alone and returns without a reply. -/
theorem Retains.returns {received : List String} {c : Call} {result : Except ExecuteError String}
    (h : ¬ FromReply result) :
    Retains unmarshal received c { c with phase := .returned result none } := by
  refine ⟨fun old => ⟨old.buffered, fun _ k at_ => ?_, fun result' at_ => ?_⟩, fun k has => ?_⟩
  · cases at_
  · obtain rfl : result = result' := by simpa using at_
    exact h
  · rcases has with buffered | ⟨_, at_⟩
    · exact .inl buffered
    · cases at_

/-- A call with nothing delivered to it and no result. -/
theorem Retains.blank {received : List String} {c c' : Call} (empty : c'.chan.buffer = [])
    (h : c'.phase = .selecting ∨ ∃ err, c'.phase = .returned (.error (.encode err)) none) :
    Retains unmarshal received c c' := by
  have none_ (result k) : c'.phase ≠ .returned result (some k) := by
    rcases h with at_ | ⟨err, at_⟩ <;> simp [at_]
  refine ⟨fun _ => ⟨fun reply hr => ?_, fun result k at_ => absurd at_ (none_ result k),
    fun result at_ => ?_⟩, fun k has => ?_⟩
  · rw [empty] at hr
    cases hr
  · rcases h with selecting | ⟨err, returned⟩
    · cases selecting.symm.trans at_
    · cases returned.symm.trans at_
      exact id
  · rcases has with ⟨reply, hr, _⟩ | ⟨result, at_⟩
    · rw [empty] at hr
      cases hr
    · exact absurd at_ (none_ result k)

theorem Retains.leaves {received : List String} {c : Call} {err : String} :
    Retains unmarshal received c { c with phase := .leaving err } := by
  refine ⟨fun old => ⟨old.buffered, fun _ k at_ => ?_, fun result at_ => ?_⟩, fun k has => ?_⟩
  · cases at_
  · cases at_
  · exact has.imp (fun h => h) (fun ⟨_, at_⟩ => CallPhase.noConfusion at_)

/-- The call takes the reply out of its channel and returns its content. -/
theorem Retains.answered {received : List String} {c : Call} {reply : Reply} {rest : List Reply}
    {chan : Channel Reply} (before : c.chan.buffer = reply :: rest) (after : chan.buffer = rest) :
    Retains unmarshal received c
      { c with chan, phase := .returned (reply.resp.outcome c.cmd) (some reply.line) } := by
  have first : reply ∈ c.chan.buffer := before ▸ List.mem_cons_self
  have later {r : Reply} (hr : r ∈ chan.buffer) : r ∈ c.chan.buffer := by
    rw [before]
    exact List.mem_cons_of_mem reply (after ▸ hr)
  refine ⟨fun old => ⟨fun r hr => old.buffered r (later hr), fun result k at_ => ?_,
    fun _ at_ => ?_⟩, fun k has => ?_⟩
  · obtain ⟨rfl, rfl⟩ : _ = result ∧ reply.line = k := by simpa using at_
    exact ⟨reply, rfl, old.buffered reply first, rfl⟩
  · cases at_
  · rcases has with ⟨r, hr, rfl⟩ | ⟨result, at_⟩
    · exact .inl ⟨r, later hr, rfl⟩
    · obtain ⟨_, rfl⟩ : _ = result ∧ reply.line = k := by simpa using at_
      exact .inl ⟨reply, first, rfl⟩

theorem Retains.cut {received : List String} (c : Call) : Retains unmarshal received c c.cut :=
  ⟨fun h => ⟨h.buffered, h.returned, h.unread⟩, fun _ h => h⟩

/-- A step in which no call is given a line. -/
theorem Traced.each (h : Traced unmarshal s) (lines : t.received = s.received)
    (calls : Each (Retains unmarshal s.received) s.calls t.calls)
    (reply : ∀ r, t.reader.reply = some r → s.reader.reply = some r) : Traced unmarshal t where
  faithful c hc := by
    obtain ⟨i, hi⟩ := List.getElem?_of_mem hc
    obtain ⟨d, hd, same⟩ := calls i c hi
    exact lines ▸ same.1 (h.faithful d (List.mem_of_getElem? hd))
  once i j c d k hc hd has has' := by
    obtain ⟨c₀, hc₀, same⟩ := calls i c hc
    obtain ⟨d₀, hd₀, same'⟩ := calls j d hd
    exact h.once i j c₀ d₀ k hc₀ hd₀ (same.2 k has) (same'.2 k has')
  reading r hr := by
    obtain ⟨last, decoded, event, unused⟩ := h.reading r (reply r hr)
    refine ⟨lines ▸ last, lines ▸ decoded, event, fun c hc has => ?_⟩
    obtain ⟨i, hi⟩ := List.getElem?_of_mem hc
    obtain ⟨d, hd, same⟩ := calls i c hi
    exact unused d (List.mem_of_getElem? hd) (same.2 _ has)

/-- A call that has just been made has no line. -/
theorem Traced.called (h : Traced unmarshal s) {cmd : String} {args : Option String} :
    Traced unmarshal { s with calls := s.calls ++ [{ cmd, args }] } := by
  have none_ (k : Nat) : ¬ ({ cmd, args } : Call).HasLine k := by
    rintro (⟨reply, hr, _⟩ | ⟨result, at_⟩)
    · cases hr
    · cases at_
  refine ⟨fun c hc => ?_, fun i j c d k hc hd has has' => ?_, fun r hr => ?_⟩
  · rcases List.mem_append.mp hc with old | new
    · exact h.faithful c old
    · obtain rfl := List.mem_singleton.mp new
      exact ⟨fun r hr => absurd hr List.not_mem_nil, fun _ _ => CallPhase.noConfusion,
        fun _ => CallPhase.noConfusion⟩
  · have old {i : Nat} {c : Call} (hc : (s.calls ++ [({ cmd, args } : Call)])[i]? = some c)
        (has : c.HasLine k) : s.calls[i]? = some c := by
      rcases Contributions.of_getElem?_concat hc with ⟨_, rfl⟩ | old
      · exact absurd has (none_ k)
      · exact old
    exact h.once i j c d k (old hc has) (old hd has') has has'
  · obtain ⟨last, decoded, event, unused⟩ := h.reading r hr
    refine ⟨last, decoded, event, fun c hc => ?_⟩
    rcases List.mem_append.mp hc with old | new
    · exact unused c old
    · obtain rfl := List.mem_singleton.mp new
      exact none_ _

/-- The reader gets a new line; lines delivered earlier come before it. -/
theorem Traced.line (h : Traced unmarshal s) {line : String} {events : Channel QmpEvent}
    {reader : ReaderPhase}
    (read : ∀ reply, reader.reply = some reply → reply.line = s.received.length ∧
      unmarshal line = some reply.resp ∧ reply.resp.event = "") :
    Traced unmarshal { s with received := s.received ++ [line], events, reader } := by
  refine ⟨fun c hc => (h.faithful c hc).concat line, h.once, fun reply hr => ?_⟩
  obtain ⟨place, decoded, event⟩ := read reply hr
  refine ⟨by simp [place], ⟨line, by simp [place], decoded⟩, event, fun c hc has => ?_⟩
  have := (h.faithful c hc).line_lt has
  omega

/-- The reader sends the reply to the call that has sent its id. -/
theorem Traced.handed (h : Traced unmarshal s) (custody : Custody s) {i : Nat} {c : Call}
    {reply : Reply} {chan : Channel Reply} (at_ : s.reader = .handing i reply)
    (found : s.calls[i]? = some c) (buffer : chan.buffer = [reply]) :
    Traced unmarshal { s.setCall i { c with chan } with reader := .reading } := by
  obtain ⟨last, ⟨text, read, decoded⟩, event, unused⟩ := h.reading reply (by rw [at_]; rfl)
  have answers : Answers unmarshal s.received { c with chan } reply := by
    obtain ⟨id, same, ⟨d, r, hd, sent, rfl, _⟩, _⟩ := custody.handing at_
    obtain rfl : c = d := Option.some.inj (found.symm.trans hd)
    exact ⟨text, r, read, decoded, event, sent, same⟩
  have hc := List.mem_of_getElem? found
  have faithful : Faithful unmarshal s.received { c with chan } := by
    refine ⟨fun r hr => ?_, (h.faithful c hc).returned, (h.faithful c hc).unread⟩
    obtain rfl : r = reply := by simpa [buffer] using hr
    exact answers
  -- the only line a call has now and had not before is the one just sent
  have lines {j : Nat} {d : Call} {k : Nat} (hd : (s.calls.set i { c with chan })[j]? = some d)
      (has : d.HasLine k) :
      (i = j ∧ k = reply.line) ∨ ∃ d₀, s.calls[j]? = some d₀ ∧ d₀.HasLine k := by
    rcases Contributions.of_getElem?_set found hd with ⟨rfl, rfl⟩ | ⟨_, old⟩
    · rcases has with ⟨r, hr, rfl⟩ | returned
      · obtain rfl : r = reply := by simpa [buffer] using hr
        exact .inl ⟨rfl, rfl⟩
      · exact .inr ⟨c, found, .inr returned⟩
    · exact .inr ⟨d, old, has⟩
  refine ⟨fun d hd => ?_, fun j j' d d' k hd hd' has has' => ?_, fun r hr => by cases hr⟩
  · rcases List.mem_or_eq_of_mem_set hd with old | rfl
    · exact h.faithful d old
    · exact faithful
  · rcases lines hd has with ⟨rfl, rfl⟩ | ⟨d₀, old, had⟩ <;>
      rcases lines hd' has' with ⟨rfl, same⟩ | ⟨d₀', old', had'⟩
    · rfl
    · exact absurd had' (unused d₀' (List.mem_of_getElem? old'))
    · exact absurd (same ▸ had) (unused d₀ (List.mem_of_getElem? old))
    · exact h.once j j' d₀ d₀' k old old' had had'

theorem Traced.moves (h : Traced unmarshal s) (custody : Custody s)
    (move : ClientMoves unmarshal s t) : Traced unmarshal t := by
  have set {i : Nat} {c c' : Call} (found : s.calls[i]? = some c)
      (r : Retains unmarshal s.received c c') :
      Each (Retains unmarshal s.received) s.calls (s.calls.set i c') :=
    Each.set Retains.refl found r
  have same : Each (Retains unmarshal s.received) s.calls s.calls :=
    fun _ c hc => ⟨c, hc, Retains.refl c⟩
  cases move with
  | aside => exact h.each rfl same (fun _ hr => hr)
  | called => exact h.called
  | refused found => exact h.each rfl (set found (Retains.returns id)) (fun _ hr => hr)
  | registered found at_ held next =>
      exact h.each rfl (set found (Retains.blank rfl next)) (fun _ hr => hr)
  | answered found at_ before after =>
      exact h.each rfl (set found (Retains.answered before after)) (fun _ hr => hr)
  | cutOff found => exact h.each rfl (set found (Retains.returns id)) (fun _ hr => hr)
  | cancelled found => exact h.each rfl (set found Retains.leaves) (fun _ hr => hr)
  | removed found => exact h.each rfl (set found (Retains.returns id)) (fun _ hr => hr)
  | skipped at_ => exact h.line fun reply hr => by rw [at_] at hr; cases hr
  | found at_ decoded event id =>
      exact h.line fun reply hr => by obtain rfl := Option.some.inj hr; exact ⟨rfl, decoded, event⟩
  | claimed at_ => exact h.each rfl same (fun _ hr => by rw [at_]; exact hr)
  | handed at_ found buffer => exact h.handed custody at_ found buffer
  | released at_ calls =>
      exact h.each rfl (Each.cut Retains.refl Retains.cut calls) (fun _ hr => by cases hr)
  | failed | unknown | ended | finished => exact h.each rfl same (fun _ hr => by cases hr)

theorem traced_dialled : Traced unmarshal QmpClient.dialled :=
  ⟨fun _ hc => absurd hc List.not_mem_nil, fun _ _ _ _ _ hc => by simp [QmpClient.dialled] at hc,
    fun _ hr => by cases hr⟩

theorem repliesMatch (own : Owned s) (h : Traced unmarshal s) : RepliesMatch unmarshal s where
  own c hc result line at_ reply := by
    cases line with
    | none => exact absurd reply ((h.faithful c hc).unread result at_)
    | some k =>
        obtain ⟨r, rfl, ⟨text, request, read, decoded, event, sent, id⟩, same⟩ :=
          (h.faithful c hc).returned result k at_
        exact ⟨r.line, text, r.resp, request, rfl, read, decoded, event, sent, id, same⟩
  once := h.once
  free i reply at_ := by
    obtain ⟨c, chan, _, _, _, handed⟩ := QmpClient.handOver_ok own at_
    refine ⟨{ s.setCall i { c with chan } with reader := .reading }, ?_, own.flags.alive, rfl⟩
    simpa [QmpClient.next, own.flags.alive, at_] using handed

/-- In every run of the client, with any callers and any stream of lines, every result and every
QMP error is the content of a line with the id of its own request, no line is delivered to two
calls, and the reader's send always goes through. -/
theorem replies_match (x : Execution (qmpSystem unmarshal)) :
    x.Always (RepliesMatch unmarshal) := by
  have held : x.Always fun s => Owned s ∧ Traced unmarshal s := by
    refine x.run.invariant ?_ ?_
    · rintro s rfl
      exact ⟨owned_dialled, traced_dialled⟩
    · rintro s a t ⟨own, traced⟩ h
      have move := QmpClient.moves_of_next own h
      exact ⟨own.moves move, traced.moves own.custody move⟩
  exact held.mono fun s h => repliesMatch h.1 h.2

end VmServer.Vm
