import VmServer.Library.Contributions
import VmServer.Vm.Qmp

/-!
# Who owns the channel of a call

A channel of `Execute` has one owner at a time: the entry of `pending` it is
stored in, or `readLoop` between deleting that entry and sending. Only the
owner sends or closes, and only once, so neither ever meets a full or a closed
channel. `Owned` states this, `ClientMoves` says once what a step of the
client does under it, and every move keeps it.
-/

namespace VmServer.Vm

open TransitionSystem

/-- The call's channel after `readLoop` has closed it. -/
def Call.cut (c : Call) : Call :=
  { c with chan := { c.chan with closed := true } }

/-- `readLoop` has recorded the error of the connection. -/
def ReaderPhase.lost : ReaderPhase → Bool
  | .released | .ending | .finished => true
  | _ => false

/-- The call has registered and its `select` or what follows the second branch is left. -/
def CallPhase.inSelect : CallPhase → Bool
  | .selecting | .leaving _ => true
  | _ => false

/-- Call `i` has sent a request with this id and its channel is untouched. -/
def Awaits (calls : List Call) (i : Nat) (id : Int) : Prop :=
  ∃ c r, calls[i]? = some c ∧ c.request = some r ∧ r.id = id ∧ c.chan.Fresh ∧ c.chan.capacity = 1

/-- Where the requests of the calls come from. -/
structure Requests (s : QmpClient) : Prop where
  fresh : ∀ {i : Nat} {c : Call}, s.calls[i]? = some c → c.phase = .called → c.request = none
  sent : ∀ {i : Nat} {c : Call}, s.calls[i]? = some c → c.phase.inSelect = true →
    ∃ r, c.request = some r
  bounded : ∀ {i : Nat} {c : Call} {r : QmpRequest}, s.calls[i]? = some c → c.request = some r →
    r.id ≤ s.nextID
  distinct : ∀ {i j : Nat} {c d : Call} {r q : QmpRequest},
    s.calls[i]? = some c → s.calls[j]? = some d →
    c.request = some r → d.request = some q → r.id = q.id → i = j

/-- Who may send to a channel or close it. -/
structure Custody (s : QmpClient) : Prop where
  pending : ∀ {id i}, s.pending.lookup id = some i → Awaits s.calls i id
  found : ∀ {id reply}, s.reader = .found id reply → reply.resp.id = some id
  handing : ∀ {i reply}, s.reader = .handing i reply →
    ∃ id, reply.resp.id = some id ∧ Awaits s.calls i id ∧ s.pending.lookup id = none

/-- What the client's flags say about `readLoop`. -/
structure Flags (s : QmpClient) : Prop where
  alive : s.panicked = false
  lost : s.err ≠ none ↔ s.reader.lost = true
  emptied : s.err ≠ none → s.pending = ∅
  events : s.events.closed = true ↔ s.reader = .ending ∨ s.reader = .finished
  closed : s.closed.closed = true ↔ s.reader = .finished
  unsent : s.closed.buffer = []

structure Owned (s : QmpClient) : Prop where
  requests : Requests s
  custody : Custody s
  flags : Flags s

/-- What a step of the client does while its channels are owned. -/
inductive ClientMoves (unmarshal : String → Option QmpResponse) (s : QmpClient) : QmpClient → Prop
  | aside {events closers} (h : events.closed = s.events.closed) :
      ClientMoves unmarshal s { s with events, closers }
  | called {cmd args} : ClientMoves unmarshal s { s with calls := s.calls ++ [{ cmd, args }] }
  | refused {i : Nat} {c : Call} {err : String} (found : s.calls[i]? = some c)
      (at_ : c.phase = .called) (lost : s.err = some err) :
      ClientMoves unmarshal s
        (s.setCall i { c with phase := .returned (.error (.connection err)) none })
  | registered {i : Nat} {c : Call} {phase : CallPhase} (found : s.calls[i]? = some c)
      (at_ : c.phase = .called) (held : s.err = none)
      (h : phase = .selecting ∨ ∃ err, phase = .returned (.error (.encode err)) none) :
      ClientMoves unmarshal s
        ({ s with nextID := s.nextID + 1, pending := s.pending.insert (s.nextID + 1) i }.setCall i
          { c with request := some ⟨c.cmd, s.nextID + 1, c.args⟩, chan := .make 1, phase })
  | answered {i : Nat} {c : Call} {reply rest chan} (found : s.calls[i]? = some c)
      (at_ : c.phase = .selecting) (before : c.chan.buffer = reply :: rest)
      (after : chan.buffer = rest) (same : chan.closed = c.chan.closed) :
      ClientMoves unmarshal s
        (s.setCall i
          { c with chan, phase := .returned (reply.resp.outcome c.cmd) (some reply.line) })
  | cutOff {i : Nat} {c : Call} (found : s.calls[i]? = some c) (at_ : c.phase = .selecting)
      (closed : c.chan.closed = true) :
      ClientMoves unmarshal s (s.setCall i { c with phase := .returned (.error .closed) none })
  | cancelled {i : Nat} {c : Call} {err : String} (found : s.calls[i]? = some c)
      (at_ : c.phase = .selecting) :
      ClientMoves unmarshal s (s.setCall i { c with phase := .leaving err })
  | removed {i : Nat} {c : Call} {err : String} {request : QmpRequest}
      (found : s.calls[i]? = some c) (at_ : c.phase = .leaving err)
      (sent : c.request = some request) :
      ClientMoves unmarshal s
        ({ s with pending := s.pending.erase request.id }.setCall i
          { c with phase := .returned (.error (.context err)) none })
  | skipped {line events} (at_ : s.reader = .reading) (h : events.closed = s.events.closed) :
      ClientMoves unmarshal s { s with received := s.received ++ [line], events }
  | found {line resp id} (at_ : s.reader = .reading) (decoded : unmarshal line = some resp)
      (event : resp.event = "") (h : resp.id = some id) :
      ClientMoves unmarshal s
        { s with received := s.received ++ [line],
                 reader := .found id ⟨s.received.length, resp⟩ }
  | failed {err} (at_ : s.reader = .reading) :
      ClientMoves unmarshal s { s with reader := .failed err }
  | unknown {id reply} (at_ : s.reader = .found id reply) (h : s.pending.lookup id = none) :
      ClientMoves unmarshal s { s with reader := .reading }
  | claimed {id reply i} (at_ : s.reader = .found id reply) (h : s.pending.lookup id = some i) :
      ClientMoves unmarshal s { s with pending := s.pending.erase id, reader := .handing i reply }
  | handed {i : Nat} {c : Call} {reply chan} (at_ : s.reader = .handing i reply)
      (found : s.calls[i]? = some c) (h : chan.buffer = [reply])
      (same : chan.closed = c.chan.closed) :
      ClientMoves unmarshal s { s.setCall i { c with chan } with reader := .reading }
  | released {err calls} (at_ : s.reader = .failed err)
      (h : ∀ i, calls[i]? =
        if i ∈ s.pending.entries.map Sigma.snd then s.calls[i]?.map Call.cut else s.calls[i]?) :
      ClientMoves unmarshal s { s with err := some err, calls, pending := ∅, reader := .released }
  | ended {events} (at_ : s.reader = .released) (h : events.closed = true) :
      ClientMoves unmarshal s { s with events, reader := .ending }
  | finished {closed} (at_ : s.reader = .ending) (h : closed.closed = true)
      (same : closed.buffer = s.closed.buffer) :
      ClientMoves unmarshal s { s with closed, reader := .finished }

namespace Awaits

variable {calls : List Call} {i j : Nat} {id id' : Int} {c c' : Call}

theorem concat (h : Awaits calls i id) (c : Call) : Awaits (calls ++ [c]) i id := by
  obtain ⟨d, r, hd, rest⟩ := h
  refine ⟨d, r, ?_, rest⟩
  rw [List.getElem?_append_left (List.getElem?_eq_some_iff.mp hd).1, hd]

/-- A change of another call, or one that leaves request and channel alone. -/
theorem set (h : Awaits calls i id) (found : calls[j]? = some c)
    (keep : i ≠ j ∨ c'.request = c.request ∧ c'.chan = c.chan) : Awaits (calls.set j c') i id := by
  obtain ⟨d, r, hd, hr, rest⟩ := h
  by_cases same : j = i
  · subst same
    obtain ⟨request, chan⟩ := keep.resolve_left (· rfl)
    obtain rfl : c = d := Option.some.inj (found.symm.trans hd)
    refine ⟨c', r, ?_, request.trans hr, chan ▸ rest⟩
    rw [Contributions.getElem?_set found, if_pos rfl]
  · refine ⟨d, r, ?_, hr, rest⟩
    rw [Contributions.getElem?_set found, if_neg same, hd]

/-- A channel with a value in it, or a closed one, has no owner any more. -/
theorem ne (h : Awaits calls i id) (found : calls[j]? = some c) (used : c.chan.Ready) : i ≠ j := by
  rintro rfl
  obtain ⟨d, r, hd, _, _, ⟨empty, opened⟩, _⟩ := h
  obtain rfl : c = d := Option.some.inj (found.symm.trans hd)
  rcases used with full | closed
  · exact full empty
  · exact Bool.noConfusion (opened.symm.trans closed)

theorem id_eq (h : Awaits calls i id) (h' : Awaits calls i id') : id = id' := by
  obtain ⟨c, r, hc, hr, rfl, _⟩ := h
  obtain ⟨d, q, hd, hq, rfl, _⟩ := h'
  obtain rfl : c = d := Option.some.inj (hc.symm.trans hd)
  rw [Option.some.inj (hr.symm.trans hq)]

end Awaits

namespace QmpClient

variable {unmarshal : String → Option QmpResponse} {s t : QmpClient} {i : Nat} {c : Call}

theorem register_moves {encoded : Option String} (found : s.calls[i]? = some c)
    (h : s.register i encoded c = some t) : ClientMoves unmarshal s t := by
  unfold register at h
  split at h
  case h_1 err at_ lost =>
    obtain rfl := Option.some.inj h
    exact .refused found at_ lost
  case h_2 at_ held =>
    obtain rfl := Option.some.inj h
    refine .registered found at_ held ?_
    cases encoded with
    | none => exact .inl rfl
    | some err => exact .inr ⟨err, rfl⟩
  case h_3 => cases h

theorem receive_moves (found : s.calls[i]? = some c) (h : s.receive i c = some t) :
    ClientMoves unmarshal s t := by
  unfold receive at h
  split at h
  case h_1 reply chan at_ received =>
    obtain rfl := Option.some.inj h
    obtain ⟨a, rest, first, before, after, same⟩ | ⟨none_, _⟩ := Channel.receive_cases received
    · obtain rfl := Option.some.inj first
      exact .answered found at_ before after same
    · cases none_
  case h_2 chan at_ received =>
    obtain rfl := Option.some.inj h
    obtain ⟨a, rest, first, _⟩ | ⟨_, _, closed, rfl⟩ := Channel.receive_cases received
    · cases first
    · exact .cutOff found at_ closed
  case h_3 => cases h

theorem contextDone_moves {err : String} (found : s.calls[i]? = some c)
    (h : s.contextDone i err c = some t) : ClientMoves unmarshal s t := by
  unfold contextDone at h
  split at h
  case h_1 at_ =>
    obtain rfl := Option.some.inj h
    exact .cancelled found at_
  case h_2 => cases h

theorem remove_moves (found : s.calls[i]? = some c) (h : s.remove i c = some t) :
    ClientMoves unmarshal s t := by
  unfold remove at h
  split at h
  case h_1 err request at_ sent =>
    obtain rfl := Option.some.inj h
    exact .removed found at_ sent
  case h_2 => cases h

theorem takeEvent_moves (h : s.takeEvent = some t) : ClientMoves unmarshal s t := by
  unfold takeEvent at h
  split at h
  case h_1 event events received =>
    obtain rfl := Option.some.inj h
    obtain ⟨a, rest, _, _, _, same⟩ | ⟨_, _, _, rfl⟩ := Channel.receive_cases received
    · exact .aside same
    · exact .aside rfl
  case h_2 => cases h

theorem closeReturns_moves {k : Nat} {closer : CloserPhase} (h : s.closeReturns k closer = some t) :
    ClientMoves unmarshal s t := by
  cases closer with
  | returned err => cases h
  | waiting err =>
      simp only [closeReturns] at h
      split at h
      case h_1 =>
        obtain rfl := Option.some.inj h
        exact .aside rfl
      case h_2 => cases h

/-- `Events` is still open while `readLoop` reads, so offering an event to it is no error. -/
theorem readLine_moves (flags : Flags s) (at_ : s.reader = .reading) (line : String) :
    ClientMoves unmarshal s (s.readLine unmarshal line) := by
  have opened : s.events.closed = false := by
    rw [Bool.eq_false_iff]
    intro closed
    rcases flags.events.mp closed with h | h <;> exact ReaderPhase.noConfusion (at_.symm.trans h)
  unfold readLine
  cases decoded : unmarshal line with
  | none => exact .skipped at_ rfl
  | some resp =>
      by_cases event : resp.event = ""
      · simp only [event, ne_eq, not_true_eq_false, if_false]
        cases id : resp.id with
        | none => exact .skipped at_ rfl
        | some n => exact .found at_ decoded event id
      · obtain ⟨events, sent, still⟩ :=
          Channel.trySend_of_open opened (⟨resp.event, resp.data⟩ : QmpEvent)
        simp only [event, ne_eq, not_false_eq_true, if_true, sent]
        exact .skipped at_ (still.trans opened.symm)

theorem lookup_moves {id : Int} {reply : Reply} (at_ : s.reader = .found id reply) :
    ClientMoves unmarshal s (s.lookup id reply) := by
  unfold lookup
  cases h : s.pending.lookup id with
  | none => exact .unknown at_ h
  | some i => exact .claimed at_ h

/-- The send of `readLoop` neither blocks nor meets a closed channel. -/
theorem handOver_ok (own : Owned s) {reply : Reply} (at_ : s.reader = .handing i reply) :
    ∃ c chan, s.calls[i]? = some c ∧ chan.buffer = [reply] ∧ chan.closed = c.chan.closed ∧
      s.handOver i reply = some { s.setCall i { c with chan } with reader := .reading } := by
  obtain ⟨id, _, ⟨c, r, found, _, _, fresh, capacity⟩, _⟩ := own.custody.handing at_
  obtain ⟨chan, sent, buffer, opened, _⟩ := fresh.send (by rw [capacity]; exact Nat.one_pos) reply
  refine ⟨c, chan, found, buffer, opened.trans fresh.2.symm, ?_⟩
  simp [handOver, found, sent]

theorem closeCall_of_open (found : s.calls[i]? = some c) (opened : c.chan.closed = false) :
    s.closeCall i = s.setCall i c.cut := by
  simp [closeCall, found, Channel.close_of_open opened, Call.cut]

/-- Closing the channels of distinct calls, none of them closed yet. -/
theorem foldl_closeCall (owners : List Nat) (distinct : owners.Nodup)
    (opened : ∀ i ∈ owners, ∃ c, s.calls[i]? = some c ∧ c.chan.closed = false) :
    ∃ calls, owners.foldl closeCall s = { s with calls } ∧
      ∀ i, calls[i]? = if i ∈ owners then s.calls[i]?.map Call.cut else s.calls[i]? := by
  induction owners generalizing s with
  | nil => exact ⟨s.calls, rfl, fun i => by simp⟩
  | cons j owners ih =>
      obtain ⟨c, found, still⟩ := opened j List.mem_cons_self
      obtain ⟨new, distinct⟩ := List.nodup_cons.mp distinct
      have others : ∀ i ∈ owners, ∃ c', (s.setCall j c.cut).calls[i]? = some c' ∧
          c'.chan.closed = false := by
        intro i hi
        obtain ⟨c', found', still'⟩ := opened i (List.mem_cons_of_mem j hi)
        refine ⟨c', ?_, still'⟩
        have ne : j ≠ i := fun same => new (same ▸ hi)
        simpa [setCall, Contributions.getElem?_set found, ne] using found'
      obtain ⟨calls, folded, final⟩ := ih distinct others
      refine ⟨calls, ?_, fun i => ?_⟩
      · rw [List.foldl_cons, closeCall_of_open found still, folded]
        rfl
      · rw [final i]
        by_cases first : j = i
        · subst first
          simp [setCall, new, found, Contributions.getElem?_set found]
        · simp [setCall, Contributions.getElem?_set found, first, Ne.symm first]

/-- Distinct entries of `pending` belong to distinct calls. -/
theorem pending_nodup (own : Owned s) : (s.pending.entries.map Sigma.snd).Nodup := by
  have keys : (s.pending.entries.map Sigma.fst).Nodup := s.pending.nodupKeys
  refine (List.Nodup.of_map _ keys).map_on ?_
  rintro ⟨id, i⟩ he ⟨id', i'⟩ he' same
  obtain rfl : i = i' := same
  have first := own.custody.pending (AList.mem_lookup_iff.mpr he)
  have second := own.custody.pending (AList.mem_lookup_iff.mpr he')
  rw [first.id_eq second]

theorem release_moves (own : Owned s) {err : String} (at_ : s.reader = .failed err) :
    ClientMoves unmarshal s (s.release err) := by
  have opened : ∀ i ∈ s.pending.entries.map Sigma.snd,
      ∃ c, ({ s with err := some err } : QmpClient).calls[i]? = some c ∧ c.chan.closed = false := by
    intro i hi
    obtain ⟨⟨id, i⟩, he, rfl⟩ := List.mem_map.mp hi
    obtain ⟨c, r, found, _, _, fresh, _⟩ := own.custody.pending (AList.mem_lookup_iff.mpr he)
    exact ⟨c, found, fresh.2⟩
  obtain ⟨calls, folded, final⟩ := foldl_closeCall _ (pending_nodup own) opened
  unfold release
  rw [← List.foldl_map, folded]
  exact .released at_ final

theorem closeEvents_moves (flags : Flags s) (at_ : s.reader = .released) :
    ClientMoves unmarshal s s.closeEvents := by
  have opened : s.events.closed = false := by
    rw [Bool.eq_false_iff]
    intro closed
    rcases flags.events.mp closed with h | h <;> exact ReaderPhase.noConfusion (at_.symm.trans h)
  unfold closeEvents
  rw [Channel.close_of_open opened]
  exact .ended at_ rfl

theorem closeClosed_moves (flags : Flags s) (at_ : s.reader = .ending) :
    ClientMoves unmarshal s s.closeClosed := by
  have opened : s.closed.closed = false := by
    rw [Bool.eq_false_iff]
    exact fun closed => ReaderPhase.noConfusion (at_.symm.trans (flags.closed.mp closed))
  unfold closeClosed
  rw [Channel.close_of_open opened]
  exact .finished at_ rfl rfl

theorem moves_of_next {a : QmpAction} (own : Owned s) (h : s.next unmarshal a = some t) :
    ClientMoves unmarshal s t := by
  unfold next at h
  rw [if_neg (Bool.eq_false_iff.mp own.flags.alive)] at h
  split at h
  case h_1 => exact Option.some.inj h ▸ .called
  case h_2 =>
    obtain ⟨c, found, h⟩ := Option.bind_eq_some_iff.mp h
    exact register_moves found h
  case h_3 =>
    obtain ⟨c, found, h⟩ := Option.bind_eq_some_iff.mp h
    exact receive_moves found h
  case h_4 =>
    obtain ⟨c, found, h⟩ := Option.bind_eq_some_iff.mp h
    exact contextDone_moves found h
  case h_5 =>
    obtain ⟨c, found, h⟩ := Option.bind_eq_some_iff.mp h
    exact remove_moves found h
  case h_6 => exact takeEvent_moves h
  case h_7 => exact Option.some.inj h ▸ .aside rfl
  case h_8 =>
    obtain ⟨closer, _, h⟩ := Option.bind_eq_some_iff.mp h
    exact closeReturns_moves h
  case h_9 at_ => exact Option.some.inj h ▸ readLine_moves own.flags at_ _
  case h_10 at_ => exact Option.some.inj h ▸ .failed at_
  case h_11 at_ => exact Option.some.inj h ▸ lookup_moves at_
  case h_12 at_ =>
    obtain ⟨c, chan, found, buffer, same, handed⟩ := handOver_ok own at_
    exact Option.some.inj (handed.symm.trans h) ▸ .handed at_ found buffer same
  case h_13 at_ => exact Option.some.inj h ▸ release_moves own at_
  case h_14 at_ => exact Option.some.inj h ▸ closeEvents_moves own.flags at_
  case h_15 at_ => exact Option.some.inj h ▸ closeClosed_moves own.flags at_
  case h_16 => cases h

end QmpClient

section Preservation

variable {unmarshal : String → Option QmpResponse} {s t : QmpClient}

/-- Each call of the second list is what the relation makes of the one at its place in the
first. -/
def Each (R : Call → Call → Prop) (calls calls' : List Call) : Prop :=
  ∀ (i : Nat) (c' : Call), calls'[i]? = some c' → ∃ c, calls[i]? = some c ∧ R c c'

theorem Each.set {R : Call → Call → Prop} (refl : ∀ c, R c c) {calls : List Call} {i : Nat}
    {c c' : Call} (found : calls[i]? = some c) (h : R c c') : Each R calls (calls.set i c') := by
  intro j d hd
  rcases Contributions.of_getElem?_set found hd with ⟨rfl, rfl⟩ | ⟨_, old⟩
  · exact ⟨c, found, h⟩
  · exact ⟨d, old, refl d⟩

theorem Each.cut {R : Call → Call → Prop} (refl : ∀ c, R c c) (cut : ∀ c, R c c.cut)
    {owners : List Nat} {calls calls' : List Call}
    (h : ∀ i, calls'[i]? = if i ∈ owners then calls[i]?.map Call.cut else calls[i]?) :
    Each R calls calls' := by
  intro i c' hc'
  rw [h] at hc'
  by_cases owner : i ∈ owners
  · rw [if_pos owner] at hc'
    obtain ⟨c, hc, rfl⟩ := Option.map_eq_some_iff.mp hc'
    exact ⟨c, hc, cut c⟩
  · rw [if_neg owner] at hc'
    exact ⟨c', hc', refl c'⟩

/-- The call keeps its request and enters neither `Execute` nor the `select`. -/
def Proceeds (c c' : Call) : Prop :=
  c'.request = c.request ∧ (c'.phase = .called → c.phase = .called) ∧
    (c'.phase.inSelect = true → c.phase.inSelect = true)

theorem Proceeds.refl (c : Call) : Proceeds c c := ⟨rfl, fun h => h, fun h => h⟩

theorem Requests.each (h : Requests s) (calls : Each Proceeds s.calls t.calls)
    (id : t.nextID = s.nextID) : Requests t where
  fresh hc at_ := by
    obtain ⟨c, found, same, called, _⟩ := calls _ _ hc
    exact same.trans (h.fresh found (called at_))
  sent hc at_ := by
    obtain ⟨c, found, same, _, inSelect⟩ := calls _ _ hc
    obtain ⟨r, hr⟩ := h.sent found (inSelect at_)
    exact ⟨r, same.trans hr⟩
  bounded hc hr := by
    obtain ⟨c, found, same, _⟩ := calls _ _ hc
    exact id ▸ h.bounded found (same.symm.trans hr)
  distinct hc hd hr hq ids := by
    obtain ⟨c, found, same, _⟩ := calls _ _ hc
    obtain ⟨d, found', same', _⟩ := calls _ _ hd
    exact h.distinct found found' (same.symm.trans hr) (same'.symm.trans hq) ids

theorem Requests.called (h : Requests s) {cmd : String} {args : Option String} :
    Requests { s with calls := s.calls ++ [{ cmd, args }] } := by
  constructor
  · intro i c hc at_
    rcases Contributions.of_getElem?_concat hc with ⟨_, rfl⟩ | old
    · rfl
    · exact h.fresh old at_
  · intro i c hc at_
    rcases Contributions.of_getElem?_concat hc with ⟨_, rfl⟩ | old
    · cases at_
    · exact h.sent old at_
  · intro i c r hc hr
    rcases Contributions.of_getElem?_concat hc with ⟨_, rfl⟩ | old
    · cases hr
    · exact h.bounded old hr
  · intro i j c d r q hc hd hr hq ids
    rcases Contributions.of_getElem?_concat hc with ⟨_, rfl⟩ | old
    · cases hr
    · rcases Contributions.of_getElem?_concat hd with ⟨_, rfl⟩ | old'
      · cases hq
      · exact h.distinct old old' hr hq ids

/-- The id of a new request is larger than those of all earlier ones. -/
theorem Requests.registered (h : Requests s) {i : Nat} {c c' : Call}
    (found : s.calls[i]? = some c) (r : QmpRequest) (sent : c'.request = some r)
    (id : r.id = s.nextID + 1) (past : c'.phase ≠ .called) {pending : AList fun _ : Int => Nat} :
    Requests ({ s with nextID := s.nextID + 1, pending }.setCall i c') := by
  have below {j : Nat} {d : Call} {q : QmpRequest} (hd : s.calls[j]? = some d)
      (hq : d.request = some q) : q.id < r.id := by
    have := h.bounded hd hq
    omega
  constructor
  · intro j d hd at_
    rcases Contributions.of_getElem?_set found hd with ⟨_, rfl⟩ | ⟨_, old⟩
    · exact absurd at_ past
    · exact h.fresh old at_
  · intro j d hd at_
    rcases Contributions.of_getElem?_set found hd with ⟨_, rfl⟩ | ⟨_, old⟩
    · exact ⟨r, sent⟩
    · exact h.sent old at_
  · intro j d q hd hq
    rcases Contributions.of_getElem?_set found hd with ⟨_, rfl⟩ | ⟨_, old⟩
    · obtain rfl := Option.some.inj (sent.symm.trans hq)
      exact id.le
    · exact id ▸ (below old hq).le
  · intro j k d e q q' hd he hq hq' ids
    rcases Contributions.of_getElem?_set found hd with ⟨rfl, rfl⟩ | ⟨_, old⟩
    · rcases Contributions.of_getElem?_set found he with ⟨rfl, _⟩ | ⟨_, old'⟩
      · rfl
      · obtain rfl := Option.some.inj (sent.symm.trans hq)
        exact absurd ids (below old' hq').ne'
    · rcases Contributions.of_getElem?_set found he with ⟨_, rfl⟩ | ⟨_, old'⟩
      · obtain rfl := Option.some.inj (sent.symm.trans hq')
        exact absurd ids (below old hq).ne
      · exact h.distinct old old' hq hq' ids

theorem Requests.moves (h : Requests s) (move : ClientMoves unmarshal s t) : Requests t := by
  have set {i : Nat} {c c' : Call} (found : s.calls[i]? = some c) (p : Proceeds c c') :
      Each Proceeds s.calls (s.calls.set i c') := Each.set Proceeds.refl found p
  cases move with
  | called => exact h.called
  | registered found at_ held next =>
      refine h.registered found _ rfl rfl ?_
      rcases next with rfl | ⟨err, rfl⟩ <;> exact CallPhase.noConfusion
  | refused found at_ lost =>
      exact h.each (set found ⟨rfl, CallPhase.noConfusion, Bool.noConfusion⟩) rfl
  | answered found at_ before after same =>
      exact h.each (set found ⟨rfl, CallPhase.noConfusion, Bool.noConfusion⟩) rfl
  | cutOff found at_ closed =>
      exact h.each (set found ⟨rfl, CallPhase.noConfusion, Bool.noConfusion⟩) rfl
  | cancelled found at_ =>
      exact h.each (set found ⟨rfl, CallPhase.noConfusion, fun _ => by rw [at_]; rfl⟩) rfl
  | removed found at_ sent =>
      exact h.each (set found ⟨rfl, CallPhase.noConfusion, Bool.noConfusion⟩) rfl
  | handed at_ found buffer same =>
      exact h.each (set found ⟨rfl, fun h => h, fun h => h⟩) rfl
  | released at_ calls =>
      exact h.each (Each.cut Proceeds.refl (fun c => ⟨rfl, fun h => h, fun h => h⟩) calls) rfl
  | _ => exact ⟨h.fresh, h.sent, h.bounded, h.distinct⟩

theorem Flags.moves (h : Flags s) (move : ClientMoves unmarshal s t) : Flags t := by
  obtain ⟨alive, lost, emptied, events, closed, unsent⟩ := h
  cases move with
  | aside same => exact ⟨alive, lost, emptied, same ▸ events, closed, unsent⟩
  | skipped at_ same => exact ⟨alive, lost, emptied, same ▸ events, closed, unsent⟩
  | called | refused | answered | cutOff | cancelled =>
      exact ⟨alive, lost, emptied, events, closed, unsent⟩
  | registered found at_ held => exact ⟨alive, lost, fun h => absurd held h, events, closed, unsent⟩
  | removed =>
      refine ⟨alive, lost, fun h => ?_, events, closed, unsent⟩
      simp only [QmpClient.setCall, emptied h]
      rfl
  | found at_ | failed at_ | unknown at_ =>
      rw [at_] at lost
      exact ⟨alive, lost, emptied, by simpa [at_] using events, by simpa [at_] using closed, unsent⟩
  | claimed at_ =>
      rw [at_] at lost
      refine ⟨alive, lost, fun h => absurd (lost.mp h) Bool.false_ne_true,
        by simpa [at_] using events, by simpa [at_] using closed, unsent⟩
  | handed at_ =>
      rw [at_] at lost
      exact ⟨alive, lost, emptied, by simpa [at_, QmpClient.setCall] using events,
        by simpa [at_, QmpClient.setCall] using closed, unsent⟩
  | released at_ =>
      exact ⟨alive, by simp [ReaderPhase.lost], fun _ => rfl, by simpa [at_] using events,
        by simpa [at_] using closed, unsent⟩
  | ended at_ h =>
      rw [at_] at lost
      exact ⟨alive, lost, emptied, by simp [h], by simpa [at_] using closed, unsent⟩
  | finished at_ h same =>
      rw [at_] at lost
      exact ⟨alive, lost, emptied, by simpa [at_] using events, by simp [h], same.trans unsent⟩

/-- A change of one call that no entry and no send under way refers to, or that leaves its
request and channel alone. -/
theorem Custody.setCall (h : Custody s) {i : Nat} {c c' : Call} (found : s.calls[i]? = some c)
    (keep : (∀ j id, Awaits s.calls j id → j ≠ i) ∨ c'.request = c.request ∧ c'.chan = c.chan) :
    Custody (s.setCall i c') := by
  have still {j : Nat} {id : Int} (a : Awaits s.calls j id) : Awaits (s.calls.set i c') j id :=
    a.set found (keep.imp (fun ne => ne j id a) (fun same => same))
  refine ⟨fun at_ => still (h.pending at_), h.found, fun at_ => ?_⟩
  obtain ⟨id, same, a, gone⟩ := h.handing at_
  exact ⟨id, same, still a, gone⟩

theorem Custody.called (h : Custody s) (c : Call) : Custody { s with calls := s.calls ++ [c] } := by
  refine ⟨fun at_ => (h.pending at_).concat c, h.found, fun at_ => ?_⟩
  obtain ⟨id, same, a, gone⟩ := h.handing at_
  exact ⟨id, same, a.concat c, gone⟩

theorem Custody.erase (h : Custody s) (id : Int) :
    Custody { s with pending := s.pending.erase id } := by
  refine ⟨fun {id' i} at_ => ?_, h.found, fun at_ => ?_⟩
  · by_cases same : id' = id
    · subst same
      rw [AList.lookup_erase] at at_
      cases at_
    · rw [AList.lookup_erase_ne same] at at_
      exact h.pending at_
  · obtain ⟨id', same, a, gone⟩ := h.handing at_
    refine ⟨id', same, a, ?_⟩
    by_cases erased : id' = id
    · rw [erased, AList.lookup_erase]
    · rw [AList.lookup_erase_ne erased, gone]

/-- The channel stored under a new id is a new one. -/
theorem Custody.registered (h : Custody s) (requests : Requests s) {i : Nat} {c : Call}
    (found : s.calls[i]? = some c) (at_ : c.phase = .called) (phase : CallPhase) :
    Custody ({ s with
        nextID := s.nextID + 1, pending := s.pending.insert (s.nextID + 1) i }.setCall i
      { c with request := some ⟨c.cmd, s.nextID + 1, c.args⟩, chan := .make 1, phase }) := by
  have still {j : Nat} {id : Int} (a : Awaits s.calls j id) :
      id ≠ s.nextID + 1 ∧ Awaits (s.calls.set i
        { c with request := some ⟨c.cmd, s.nextID + 1, c.args⟩, chan := .make 1, phase }) j id := by
    have ⟨d, r, hd, hr, same, _⟩ := a
    have bound := requests.bounded hd hr
    refine ⟨by omega, a.set found (.inl ?_)⟩
    rintro rfl
    obtain rfl : c = d := Option.some.inj (found.symm.trans hd)
    exact Option.some_ne_none r (hr.symm.trans (requests.fresh found at_))
  refine ⟨fun {id j} stored => ?_, h.found, fun sending => ?_⟩
  · by_cases new : id = s.nextID + 1
    · subst new
      obtain rfl : i = j := by simpa [QmpClient.setCall] using stored
      refine ⟨{ c with request := some ⟨c.cmd, s.nextID + 1, c.args⟩, chan := .make 1, phase }, _,
        ?_, rfl, rfl, Channel.make_fresh 1, rfl⟩
      simp [QmpClient.setCall, Contributions.getElem?_set found]
    · have stored : s.pending.lookup id = some j := by
        simpa [QmpClient.setCall, AList.lookup_insert_ne new] using stored
      exact (still (h.pending stored)).2
  · obtain ⟨id, same, a, gone⟩ := h.handing sending
    refine ⟨id, same, (still a).2, ?_⟩
    simpa [QmpClient.setCall, AList.lookup_insert_ne (still a).1] using gone

theorem Custody.claimed (h : Custody s) {id : Int} {reply : Reply} {i : Nat}
    (at_ : s.reader = .found id reply) (stored : s.pending.lookup id = some i) :
    Custody { s with pending := s.pending.erase id, reader := .handing i reply } := by
  refine ⟨(h.erase id).pending, ReaderPhase.noConfusion, fun sending => ?_⟩
  obtain ⟨rfl, rfl⟩ : i = _ ∧ reply = _ := by simpa using sending
  exact ⟨id, h.found at_, h.pending stored, AList.lookup_erase id s.pending⟩

/-- Once the reply is sent, nothing refers to the channel any more. -/
theorem Custody.handed (h : Custody s) {i : Nat} {c c' : Call} {reply : Reply}
    (at_ : s.reader = .handing i reply) (found : s.calls[i]? = some c) :
    Custody { s.setCall i c' with reader := .reading } := by
  obtain ⟨id, _, a, gone⟩ := h.handing at_
  refine ⟨fun {id' j} stored => ?_, ReaderPhase.noConfusion, ReaderPhase.noConfusion⟩
  refine (h.pending stored).set found (.inl ?_)
  rintro rfl
  rw [(h.pending stored).id_eq a] at stored
  exact Option.some_ne_none _ (stored.symm.trans gone)

theorem Custody.moves (h : Custody s) (requests : Requests s) (move : ClientMoves unmarshal s t) :
    Custody t := by
  cases move with
  | aside | skipped => exact ⟨h.pending, h.found, h.handing⟩
  | called => exact h.called _
  | refused found | cutOff found | cancelled found =>
      exact h.setCall found (.inr ⟨rfl, rfl⟩)
  | answered found at_ before =>
      have full : Channel.Ready _ := .inl (before ▸ List.cons_ne_nil _ _)
      exact h.setCall found (.inl fun _ _ a => a.ne found full)
  | registered found at_ => exact h.registered requests found at_ _
  | removed found => exact (h.erase _).setCall found (.inr ⟨rfl, rfl⟩)
  | found at_ decoded event id =>
      refine ⟨h.pending, fun at_ => ?_, ReaderPhase.noConfusion⟩
      obtain ⟨rfl, rfl⟩ : _ = _ ∧ _ = _ := by simpa using at_
      exact id
  | failed | unknown | ended | finished =>
      exact ⟨h.pending, ReaderPhase.noConfusion, ReaderPhase.noConfusion⟩
  | claimed at_ stored => exact h.claimed at_ stored
  | handed at_ found => exact h.handed at_ found
  | released at_ =>
      refine ⟨fun stored => ?_, ReaderPhase.noConfusion, ReaderPhase.noConfusion⟩
      cases stored

end Preservation

theorem owned_dialled : Owned QmpClient.dialled where
  requests := ⟨fun h => by simp [QmpClient.dialled] at h, fun h => by simp [QmpClient.dialled] at h,
    fun h => by simp [QmpClient.dialled] at h, fun h => by simp [QmpClient.dialled] at h⟩
  custody := ⟨fun h => by simp [QmpClient.dialled] at h, ReaderPhase.noConfusion,
    ReaderPhase.noConfusion⟩
  flags := ⟨rfl, by simp [QmpClient.dialled, ReaderPhase.lost], fun _ => rfl,
    by simp [QmpClient.dialled, Channel.make], by simp [QmpClient.dialled, Channel.make], rfl⟩

theorem Owned.moves {unmarshal : String → Option QmpResponse} {s t : QmpClient} (h : Owned s)
    (move : ClientMoves unmarshal s t) : Owned t :=
  ⟨h.requests.moves move, h.custody.moves h.requests move, h.flags.moves move⟩

end VmServer.Vm
