import VmServer.Vm.QmpOwnership

/-!
# What goes over the QMP connection

`readLoop` offers the events it reads to a channel of bounded size and drops
what does not fit; the event loop of the manager takes them from there. Any
number of `Execute` calls give their requests to the encoder inside `mu`. Both
orders are kept: events are taken in the order of their lines, and the requests
are numbered in the order they get to the encoder.

## Implementation notes

A request is recorded when the encoder gets it. Where `Encode` fails, it has
its number all the same, and some of it or nothing has been written.
-/

namespace VmServer.Vm

open TransitionSystem Contributions

/-- The event a line brings. -/
def eventOf (unmarshal : String → Option QmpResponse) (line : String) : Option QmpEvent :=
  match unmarshal line with
  | none => none
  | some resp => if resp.event ≠ "" then some ⟨resp.event, resp.data⟩ else none

/-- The events taken from `Events`, and the requests given to the encoder with their calls. -/
structure Traffic where
  taken : List QmpEvent := []
  requests : List (Nat × QmpRequest) := []

/-- The request that a step gives to the encoder. -/
def QmpClient.encodes (s : QmpClient) (i : Nat) : List (Nat × QmpRequest) :=
  match s.calls[i]?, s.err with
  | some c, none => [(i, ⟨c.cmd, s.nextID + 1, c.args⟩)]
  | _, _ => []

def QmpClient.noteTraffic (s : QmpClient) (a : QmpAction) (traffic : Traffic) : Traffic :=
  match a with
  | .takeEvent => { traffic with taken := traffic.taken ++ s.events.buffer.head?.toList }
  | .register i _ => { traffic with requests := traffic.requests ++ s.encodes i }
  | _ => traffic

/-- The client with a record of its traffic. -/
def trafficSystem (unmarshal : String → Option QmpResponse) :
    System (QmpClient × Traffic) QmpAction :=
  (qmpSystem unmarshal).noting {} QmpClient.noteTraffic

section Events

variable {unmarshal : String → Option QmpResponse} {s t : QmpClient}

/-- The event goes to the end of the channel, or is dropped when the channel is full. -/
def QmpClient.queued (s : QmpClient) (event : Option QmpEvent) : List QmpEvent :=
  if s.events.buffer.length < s.events.capacity then s.events.buffer ++ event.toList
  else s.events.buffer

/-- What only `readLoop`, the event loop and `register` touch. -/
def QmpClient.Frames (s t : QmpClient) : Prop :=
  t.received = s.received ∧ t.events = s.events ∧ t.nextID = s.nextID

theorem QmpClient.register_events {i : Nat} {encoded : Option String} {c : Call}
    (h : s.register i encoded c = some t) : t.received = s.received ∧ t.events = s.events := by
  unfold register at h
  split at h
  case h_1 | h_2 =>
    obtain rfl := Option.some.inj h
    exact ⟨rfl, rfl⟩
  case h_3 => cases h

theorem QmpClient.events_open (flags : Flags s)
    (early : s.reader = .reading ∨ s.reader = .released) :
    s.events.closed = false := by
  rw [Bool.eq_false_iff]
  intro closed
  rcases flags.events.mp closed with late | late <;> simp [late] at early

theorem QmpClient.receive_frames {i : Nat} {c : Call} (h : s.receive i c = some t) :
    s.Frames t := by
  unfold receive at h
  split at h
  case h_1 | h_2 =>
    obtain rfl := Option.some.inj h
    exact ⟨rfl, rfl, rfl⟩
  case h_3 => cases h

theorem QmpClient.leave_frames {i : Nat} {c : Call}
    (h : (∃ err, s.contextDone i err c = some t) ∨ s.remove i c = some t) : s.Frames t := by
  unfold contextDone remove at h
  rcases h with ⟨_, h⟩ | h
  all_goals
    split at h
    · obtain rfl := Option.some.inj h
      exact ⟨rfl, rfl, rfl⟩
    · cases h

theorem QmpClient.handOver_frames {i : Nat} {reply : Reply} (h : s.handOver i reply = some t) :
    s.Frames t := by
  obtain ⟨c, _, h⟩ := Option.bind_eq_some_iff.mp h
  split at h
  · obtain rfl := Option.some.inj h
    exact ⟨rfl, rfl, rfl⟩
  · cases h
  · obtain rfl := Option.some.inj h
    exact ⟨rfl, rfl, rfl⟩

theorem QmpClient.closeReturns_frames {k : Nat} {closer : CloserPhase}
    (h : s.closeReturns k closer = some t) : s.Frames t := by
  cases closer with
  | returned err => cases h
  | waiting err =>
      simp only [closeReturns] at h
      split at h
      · obtain rfl := Option.some.inj h
        exact ⟨rfl, rfl, rfl⟩
      · cases h

theorem QmpClient.lookup_frames (s : QmpClient) (id : Int) (reply : Reply) :
    s.Frames (s.lookup id reply) := by
  unfold lookup
  split <;> exact ⟨rfl, rfl, rfl⟩

theorem QmpClient.closeClosed_frames (s : QmpClient) : s.Frames s.closeClosed := by
  unfold closeClosed
  split <;> exact ⟨rfl, rfl, rfl⟩

theorem QmpClient.closeCall_frames (s : QmpClient) (i : Nat) : s.Frames (s.closeCall i) := by
  unfold closeCall
  split
  · exact ⟨rfl, rfl, rfl⟩
  · split <;> exact ⟨rfl, rfl, rfl⟩

theorem QmpClient.release_frames (s : QmpClient) (err : String) : s.Frames (s.release err) := by
  have closing : ∀ (entries : List (Sigma fun _ : Int => Nat)) (s : QmpClient),
      s.Frames (entries.foldl (fun s e => s.closeCall e.2) s) := by
    intro entries
    induction entries with
    | nil => exact fun s => ⟨rfl, rfl, rfl⟩
    | cons e rest ih =>
        intro s
        have first := s.closeCall_frames e.2
        have later := ih (s.closeCall e.2)
        exact ⟨later.1.trans first.1, later.2.1.trans first.2.1, later.2.2.trans first.2.2⟩
  exact closing s.pending.entries { s with err := some err }

/-- What a step does to the events. -/
inductive EventMoves (unmarshal : String → Option QmpResponse) (s t : QmpClient) : QmpAction → Prop
  | read (line : String) (received : t.received = s.received ++ [line])
      (buffer : t.events.buffer = s.queued (eventOf unmarshal line)) :
      EventMoves unmarshal s t (.readLine line)
  | taken (received : t.received = s.received)
      (buffer : s.events.buffer = s.events.buffer.head?.toList ++ t.events.buffer) :
      EventMoves unmarshal s t .takeEvent
  | other {a : QmpAction} (notRead : ∀ line, a ≠ .readLine line) (notTake : a ≠ .takeEvent)
      (received : t.received = s.received) (buffer : t.events.buffer = s.events.buffer) :
      EventMoves unmarshal s t a

theorem QmpClient.queued_none (s : QmpClient) : s.queued none = s.events.buffer := by
  simp [queued]

/-- `Events` is still open while `readLoop` reads, so every event is queued or dropped. -/
theorem QmpClient.readLine_events (opened : s.events.closed = false) (line : String) :
    EventMoves unmarshal s (s.readLine unmarshal line) (.readLine line) ∧
      (s.readLine unmarshal line).events.capacity = s.events.capacity ∧
      (s.readLine unmarshal line).nextID = s.nextID := by
  unfold readLine
  cases decoded : unmarshal line with
  | none => exact ⟨.read line rfl (by simp [eventOf, decoded, queued_none]), rfl, rfl⟩
  | some resp =>
      by_cases event : resp.event = ""
      · have silent : eventOf unmarshal line = none := by simp [eventOf, decoded, event]
        simp only [event, ne_eq, not_true_eq_false, if_false]
        cases resp.id with
        | none => exact ⟨.read line rfl (by rw [silent, queued_none]), rfl, rfl⟩
        | some id => exact ⟨.read line rfl (by rw [silent, queued_none]), rfl, rfl⟩
      · have loud : eventOf unmarshal line = some ⟨resp.event, resp.data⟩ := by
          simp [eventOf, decoded, event]
        obtain ⟨events, sent, still⟩ :=
          Channel.trySend_of_open opened (⟨resp.event, resp.data⟩ : QmpEvent)
        obtain ⟨buffer, capacity⟩ := Channel.trySend_buffer opened sent
        simp only [event, ne_eq, not_false_eq_true, if_true, sent, and_true]
        refine ⟨.read line rfl ?_, capacity⟩
        rw [loud]
        exact buffer

theorem QmpClient.takeEvent_events (h : s.takeEvent = some t) :
    EventMoves unmarshal s t .takeEvent ∧ t.events.capacity = s.events.capacity ∧
      t.nextID = s.nextID := by
  unfold takeEvent at h
  split at h
  case h_1 event events received =>
    obtain rfl := Option.some.inj h
    have capacity := Channel.receive_capacity received
    obtain ⟨a, rest, _, before, after, _⟩ | ⟨_, empty, _, rfl⟩ := Channel.receive_cases received
    · exact ⟨.taken rfl (by rw [before, after]; rfl), capacity, rfl⟩
    · exact ⟨.taken rfl (by rw [empty]; rfl), rfl, rfl⟩
  case h_2 => cases h

/-- Every step but a registration keeps the counter, too. -/
theorem QmpClient.events_of_next {a : QmpAction} (own : Owned s) (h : s.next unmarshal a = some t) :
    EventMoves unmarshal s t a ∧ t.events.capacity = s.events.capacity ∧
      ((∀ i encoded, a ≠ .register i encoded) → t.nextID = s.nextID) := by
  have aside : s.Frames t → (∀ line, a ≠ .readLine line) → a ≠ .takeEvent →
      EventMoves unmarshal s t a ∧ t.events.capacity = s.events.capacity ∧
        ((∀ i encoded, a ≠ .register i encoded) → t.nextID = s.nextID) := by
    rintro ⟨received, events, nextID⟩ notRead notTake
    exact ⟨.other notRead notTake received (congrArg Channel.buffer events),
      congrArg Channel.capacity events, fun _ => nextID⟩
  unfold next at h
  rw [if_neg (Bool.eq_false_iff.mp own.flags.alive)] at h
  split at h
  case h_1 | h_7 | h_10 => exact aside (Option.some.inj h ▸ ⟨rfl, rfl, rfl⟩) (by simp) (by simp)
  case h_2 =>
    obtain ⟨c, _, h⟩ := Option.bind_eq_some_iff.mp h
    obtain ⟨received, events⟩ := register_events h
    exact ⟨.other (by simp) (by simp) received (congrArg Channel.buffer events),
      congrArg Channel.capacity events, fun other => absurd rfl (other _ _)⟩
  case h_3 =>
    obtain ⟨c, _, h⟩ := Option.bind_eq_some_iff.mp h
    exact aside (receive_frames h) (by simp) (by simp)
  case h_4 =>
    obtain ⟨c, _, h⟩ := Option.bind_eq_some_iff.mp h
    exact aside (leave_frames (.inl ⟨_, h⟩)) (by simp) (by simp)
  case h_5 =>
    obtain ⟨c, _, h⟩ := Option.bind_eq_some_iff.mp h
    exact aside (leave_frames (.inr h)) (by simp) (by simp)
  case h_6 =>
    obtain ⟨moves, capacity, nextID⟩ := takeEvent_events h
    exact ⟨moves, capacity, fun _ => nextID⟩
  case h_8 =>
    obtain ⟨closer, _, h⟩ := Option.bind_eq_some_iff.mp h
    exact aside (closeReturns_frames h) (by simp) (by simp)
  case h_9 line reading =>
    obtain rfl := Option.some.inj h
    obtain ⟨moves, capacity, nextID⟩ := readLine_events (events_open own.flags (.inl reading)) line
    exact ⟨moves, capacity, fun _ => nextID⟩
  case h_11 => exact aside (Option.some.inj h ▸ lookup_frames _ _ _) (by simp) (by simp)
  case h_12 => exact aside (handOver_frames h) (by simp) (by simp)
  case h_13 => exact aside (Option.some.inj h ▸ release_frames _ _) (by simp) (by simp)
  case h_14 released =>
    obtain rfl := Option.some.inj h
    have opened := events_open own.flags (.inr released)
    rw [closeEvents, Channel.close_of_open opened]
    exact ⟨.other (by simp) (by simp) rfl rfl, rfl, fun _ => rfl⟩
  case h_15 => exact aside (Option.some.inj h ▸ closeClosed_frames _) (by simp) (by simp)
  case h_16 => cases h

end Events

section Runs

variable {unmarshal : String → Option QmpResponse} {p q : QmpClient × Traffic} {a : QmpAction}

/-- The events the event loop has taken, with those that wait for it. -/
def delivered (p : QmpClient × Traffic) : List QmpEvent :=
  p.2.taken ++ p.1.events.buffer

/-- The events of the lines that were read. -/
def announced (unmarshal : String → Option QmpResponse) (p : QmpClient × Traffic) :
    List QmpEvent :=
  p.1.received.filterMap (eventOf unmarshal)

/-- The reader meets no full channel with an event. -/
def Roomy (unmarshal : String → Option QmpResponse) (p : QmpClient × Traffic) (a : QmpAction) :
    Prop :=
  ∀ line, a = .readLine line → (eventOf unmarshal line).isSome →
    p.1.events.buffer.length < 64

/-- A step announces what its line brings, and delivers it if there is room. -/
theorem delivered_of_next (own : Owned p.1) (capacity : p.1.events.capacity = 64)
    (h : (trafficSystem unmarshal).next p a = some q) :
    (delivered q = delivered p ∧ announced unmarshal q = announced unmarshal p ∧
        Roomy unmarshal p a) ∨
      ∃ line event, a = .readLine line ∧ eventOf unmarshal line = some event ∧
        announced unmarshal q = announced unmarshal p ++ [event] ∧
        delivered q =
          if p.1.events.buffer.length < 64 then delivered p ++ [event] else delivered p := by
  obtain ⟨next, noted⟩ := System.noting_next.mp h
  obtain ⟨moves, _⟩ := QmpClient.events_of_next own next
  cases moves with
  | read line received buffer =>
      have kept : q.2.taken = p.2.taken := by rw [noted]; rfl
      cases event : eventOf unmarshal line with
      | none =>
          rw [event, QmpClient.queued_none] at buffer
          refine .inl ⟨?_, ?_, ?_⟩
          · rw [delivered, delivered, buffer, kept]
          · simp [announced, received, event]
          · intro line' same some_
            obtain rfl := QmpAction.readLine.inj same
            simp [event] at some_
      | some event' =>
          refine .inr ⟨line, event', rfl, event, ?_, ?_⟩
          · simp [announced, received, event]
          · rw [event, QmpClient.queued, capacity] at buffer
            rw [delivered, delivered, buffer, kept]
            split <;> simp
  | taken received buffer =>
      refine .inl ⟨?_, by rw [announced, announced, received], by rintro line ⟨⟩⟩
      have more : q.2.taken = p.2.taken ++ p.1.events.buffer.head?.toList := by rw [noted]; rfl
      calc delivered q = p.2.taken ++ (p.1.events.buffer.head?.toList ++ q.1.events.buffer) := by
            rw [delivered, more, List.append_assoc]
        _ = delivered p := by rw [← buffer, delivered]
  | other notRead notTake received buffer =>
      refine .inl ⟨?_, by rw [announced, announced, received], fun line same => ?_⟩
      · have kept : q.2.taken = p.2.taken := by
          rw [noted]
          unfold QmpClient.noteTraffic
          split
          · exact absurd rfl notTake
          · rfl
          · rfl
        rw [delivered, delivered, buffer, kept]
      · exact absurd same (notRead line)

/-- What is delivered stays a part of what was announced. -/
structure Sequenced (unmarshal : String → Option QmpResponse) (p : QmpClient × Traffic) : Prop where
  own : Owned p.1
  capacity : p.1.events.capacity = 64
  order : (delivered p).Sublist (announced unmarshal p)

theorem orderly_initial (h : p ∈ (trafficSystem unmarshal).initial) : Sequenced unmarshal p := by
  obtain ⟨start, none_⟩ := h
  obtain ⟨s, traffic⟩ := p
  obtain rfl : s = QmpClient.dialled := start
  obtain rfl : traffic = {} := none_
  exact ⟨owned_dialled, rfl, List.Sublist.refl _⟩

theorem orderly_of_next (held : Sequenced unmarshal p)
    (h : (trafficSystem unmarshal).next p a = some q) : Sequenced unmarshal q := by
  obtain ⟨next, _⟩ := System.noting_next.mp h
  have moves := QmpClient.events_of_next held.own next
  refine ⟨held.own.moves (QmpClient.moves_of_next held.own next),
    moves.2.1.trans held.capacity, ?_⟩
  obtain ⟨same, still, _⟩ | ⟨line, event, _, _, more, room⟩ :=
    delivered_of_next held.own held.capacity h
  · rw [same, still]
    exact held.order
  · rw [more, room]
    split
    · exact held.order.append (List.Sublist.refl _)
    · exact held.order.trans (List.sublist_append_left _ _)

end Runs

/-- The event loop gets the events in the order of their lines, none twice and none that did not
come; at most 64 wait for it. Nothing is lost exactly as long as no event meets a full channel. -/
theorem events_in_order (unmarshal : String → Option QmpResponse)
    (x : Execution (trafficSystem unmarshal)) :
    (x.Always fun p =>
      (p.2.taken ++ p.1.events.buffer).Sublist (p.1.received.filterMap (eventOf unmarshal)) ∧
        p.1.events.buffer.length ≤ 64) ∧
      ((x.Always fun p =>
          p.2.taken ++ p.1.events.buffer = p.1.received.filterMap (eventOf unmarshal)) ↔
        x.Meets fun p a => ∀ line, a = .readLine line → (eventOf unmarshal line).isSome →
          p.1.events.buffer.length < 64) := by
  constructor
  · have sequenced : x.Always (Sequenced unmarshal) :=
      x.run.invariant (fun _ => orderly_initial) orderly_of_next
    refine sequenced.mono fun p held => ⟨held.order, ?_⟩
    rw [← held.capacity]
    exact p.1.events.bounded
  · refine x.run.always_iff (I := Sequenced unmarshal) (fun p h => ⟨orderly_initial h, ?_⟩)
      (fun held _ _ h => orderly_of_next held h) fun {p a q} held whole h => ?_
    · obtain ⟨start, none_⟩ := h
      obtain ⟨s, traffic⟩ := p
      obtain rfl : s = QmpClient.dialled := start
      obtain rfl : traffic = {} := none_
      rfl
    · obtain ⟨same, still, roomy⟩ | ⟨line, event, rfl, brings, more, room⟩ :=
        delivered_of_next held.own held.capacity h
      · exact iff_of_true (same.trans (whole.trans still.symm)) roomy
      · have read : eventOf unmarshal line ≠ none := by simp [brings]
        by_cases free : p.1.events.buffer.length < 64
        · rw [if_pos free] at room
          refine iff_of_true ?_ fun line' same _ => free
          calc delivered q = announced unmarshal p ++ [event] := by
                rw [room]
                exact congrArg (· ++ [event]) whole
            _ = announced unmarshal q := more.symm
        · rw [if_neg free] at room
          refine iff_of_false (fun same => ?_) fun roomy => ?_
          · have longer : delivered p = delivered p ++ [event] := by
              calc delivered p = announced unmarshal q := room.symm.trans same
                _ = delivered p ++ [event] := by
                    rw [more]
                    exact congrArg (· ++ [event]) whole.symm
            simpa using congrArg List.length longer
          · exact free (roomy line rfl (Option.isSome_iff_ne_none.mpr read))

section Requests

variable {unmarshal : String → Option QmpResponse} {s t : QmpClient} {a : QmpAction}

/-- What a call was made with and the request it has sent. -/
def Call.asked (c : Call) : String × Option String × Option QmpRequest :=
  (c.cmd, c.args, c.request)

theorem map_asked_set {calls : List Call} {i : Nat} {c c' : Call} (found : calls[i]? = some c)
    (same : c'.asked = c.asked) : (calls.set i c').map Call.asked = calls.map Call.asked := by
  rw [List.map_set, same]
  refine List.ext_getElem? fun j => ?_
  rw [Contributions.getElem?_set (by rw [List.getElem?_map, found]; rfl)]
  split
  · rename_i here
    rw [← here, List.getElem?_map, found]
    rfl
  · rfl

theorem map_asked_cut {owners : List Nat} {calls calls' : List Call}
    (h : ∀ i, calls'[i]? = if i ∈ owners then calls[i]?.map Call.cut else calls[i]?) :
    calls'.map Call.asked = calls.map Call.asked := by
  refine List.ext_getElem? fun i => ?_
  rw [List.getElem?_map, List.getElem?_map, h]
  split
  · rw [Option.map_map]
    rfl
  · rfl

/-- Apart from a registration, a step keeps the requests of all calls. -/
theorem asked_of_moves (moves : ClientMoves unmarshal s t) (counter : t.nextID = s.nextID) :
    t.calls.map Call.asked = s.calls.map Call.asked ∨
      ∃ cmd args, t.calls.map Call.asked = s.calls.map Call.asked ++ [(cmd, args, none)] := by
  cases moves with
  | @called cmd args => exact .inr ⟨cmd, args, List.map_append⟩
  | aside | skipped | found | failed | unknown | claimed | ended | finished => exact .inl rfl
  | refused found | answered found | cutOff found | cancelled found | removed found
  | handed _ found => exact .inl (map_asked_set found rfl)
  | registered =>
      have more : s.nextID + 1 = s.nextID := counter
      omega
  | released at_ h => exact .inl (map_asked_cut h)

theorem QmpClient.next_register {i : Nat} {encoded : Option String} (alive : s.panicked = false) :
    s.next unmarshal (.register i encoded) = s.calls[i]?.bind (s.register i encoded) := by
  unfold next
  rw [if_neg (Bool.eq_false_iff.mp alive)]

/-- A call that registers sends its request under the next number. -/
theorem QmpClient.register_asked {i : Nat} {encoded : Option String} {c : Call}
    (found : s.calls[i]? = some c) (h : s.register i encoded c = some t) :
    (s.encodes i = [] ∧ t.nextID = s.nextID ∧
        t.calls.map Call.asked = s.calls.map Call.asked) ∨
      (c.phase = .called ∧ s.encodes i = [(i, ⟨c.cmd, s.nextID + 1, c.args⟩)] ∧
        t.nextID = s.nextID + 1 ∧
        t.calls.map Call.asked = (s.calls.map Call.asked).set i
          (c.cmd, c.args, some ⟨c.cmd, s.nextID + 1, c.args⟩)) := by
  unfold register at h
  split at h
  case h_1 err at_ lost =>
    obtain rfl := Option.some.inj h
    exact .inl ⟨by simp [encodes, found, lost], rfl, map_asked_set found rfl⟩
  case h_2 at_ held =>
    obtain rfl := Option.some.inj h
    exact .inr ⟨at_, by simp [encodes, found, held], rfl, List.map_set⟩
  case h_3 => cases h

/-- The numbers of the requests are those of their places, and each is that of its call. -/
structure Numbered (p : QmpClient × Traffic) : Prop where
  own : Owned p.1
  counter : p.1.nextID = p.2.requests.length
  ids : ∀ {k : Nat} {w : Nat × QmpRequest}, p.2.requests[k]? = some w → w.2.id = (k : Int) + 1
  requests : ∀ {i : Nat} {r : QmpRequest}, (i, r) ∈ p.2.requests →
    (p.1.calls.map Call.asked)[i]? = some (r.execute, r.arguments, some r)
  complete : ∀ {i : Nat} {cmd : String} {args : Option String} {r : QmpRequest},
    (p.1.calls.map Call.asked)[i]? = some (cmd, args, some r) → (i, r) ∈ p.2.requests

variable {p q : QmpClient × Traffic}

theorem Numbered.kept (h : Numbered p) (own : Owned q.1) (requests : q.2.requests = p.2.requests)
    (counter : q.1.nextID = p.1.nextID)
    (calls : q.1.calls.map Call.asked = p.1.calls.map Call.asked ∨ ∃ cmd args,
      q.1.calls.map Call.asked = p.1.calls.map Call.asked ++ [(cmd, args, none)]) :
    Numbered q := by
  refine ⟨own, counter.trans (requests ▸ h.counter), requests ▸ h.ids, fun {i r} member => ?_,
    fun {i cmd args r} found => ?_⟩
  · have before := h.requests (requests ▸ member)
    rcases calls with same | ⟨cmd, args, more⟩
    · rw [same, before]
    · rw [more, List.getElem?_append_left (List.getElem?_eq_some_iff.mp before).1, before]
  · rw [requests]
    rcases calls with same | ⟨cmd', args', more⟩
    · exact h.complete (same ▸ found)
    · rcases of_getElem?_concat (more ▸ found) with ⟨_, new⟩ | old
      · cases new
      · exact h.complete old

/-- The call that registers has encoded nothing before, and its request gets the next place. -/
theorem Numbered.registered (h : Numbered p) (own : Owned q.1) {i : Nat} {c : Call}
    (found : p.1.calls[i]? = some c) (at_ : c.phase = .called)
    (requests : q.2.requests = p.2.requests ++ [(i, ⟨c.cmd, p.1.nextID + 1, c.args⟩)])
    (counter : q.1.nextID = p.1.nextID + 1)
    (calls : q.1.calls.map Call.asked = (p.1.calls.map Call.asked).set i
      (c.cmd, c.args, some ⟨c.cmd, p.1.nextID + 1, c.args⟩)) : Numbered q := by
  have place : (p.1.calls.map Call.asked)[i]? = some c.asked := by
    rw [List.getElem?_map, found]
    rfl
  have unsent : c.asked = (c.cmd, c.args, none) := by
    rw [Call.asked, h.own.requests.fresh found at_]
  refine ⟨own, ?_, fun {k w} hw => ?_, fun {j r} member => ?_, fun {j cmd args r} hj => ?_⟩
  · rw [counter, requests, h.counter]
    simp
  · rw [requests] at hw
    rcases of_getElem?_concat hw with ⟨rfl, rfl⟩ | old
    · exact congrArg (· + 1) h.counter
    · exact h.ids old
  · rw [calls, Contributions.getElem?_set place]
    rw [requests] at member
    rcases List.mem_append.mp member with old | new
    · have before := h.requests old
      split
      · rename_i same
        have both := place.symm.trans (same ▸ before)
        simp [unsent] at both
      · exact before
    · obtain ⟨rfl, rfl⟩ := Prod.mk.inj (List.mem_singleton.mp new)
      exact if_pos rfl
  · rw [calls] at hj
    rw [requests]
    rcases Contributions.of_getElem?_set place hj with ⟨rfl, new⟩ | ⟨_, old⟩
    · obtain ⟨rfl, rfl, rfl⟩ := by simpa using new
      exact List.mem_append_right _ (List.mem_singleton_self _)
    · exact List.mem_append_left _ (h.complete old)

theorem numbered_of_next (held : Numbered p) (h : (trafficSystem unmarshal).next p a = some q) :
    Numbered q := by
  obtain ⟨next, noted⟩ := System.noting_next.mp h
  have own := held.own.moves (QmpClient.moves_of_next held.own next)
  by_cases registers : ∃ i encoded, a = .register i encoded
  · obtain ⟨i, encoded, rfl⟩ := registers
    have requests : q.2.requests = p.2.requests ++ p.1.encodes i := by rw [noted]; rfl
    have next : p.1.next unmarshal (.register i encoded) = some q.1 := next
    rw [QmpClient.next_register held.own.flags.alive] at next
    obtain ⟨c, found, registered⟩ := Option.bind_eq_some_iff.mp next
    obtain ⟨none_, counter, calls⟩ | ⟨at_, one, counter, calls⟩ :=
      QmpClient.register_asked found registered
    · exact held.kept own (by rw [requests, none_, List.append_nil]) counter (.inl calls)
    · exact held.registered own found at_ (one ▸ requests) counter calls
  · have other : ∀ i encoded, a ≠ .register i encoded := fun i encoded same =>
      registers ⟨i, encoded, same⟩
    have requests : q.2.requests = p.2.requests := by
      rw [noted]
      unfold QmpClient.noteTraffic
      split
      · rfl
      · exact absurd rfl (other _ _)
      · rfl
    have counter := (QmpClient.events_of_next held.own next).2.2 other
    exact held.kept own requests counter
      (asked_of_moves (QmpClient.moves_of_next held.own next) counter)

end Requests

/-- The requests get to the encoder numbered 1, 2, 3 and so on. Each is the one of a single call,
with the command and the arguments of that call, and no call encodes a second one. -/
theorem requests_in_order (unmarshal : String → Option QmpResponse)
    (x : Execution (trafficSystem unmarshal)) :
    x.Always fun p =>
      (∀ k : Nat, ∀ w ∈ p.2.requests[k]?, w.2.id = (k : Int) + 1) ∧
      (p.2.requests.map Prod.fst).Nodup ∧
      ∀ i r, (i, r) ∈ p.2.requests ↔
        ∃ c, p.1.calls[i]? = some c ∧ c.request = some r ∧ r.execute = c.cmd ∧
          r.arguments = c.args := by
  have numbered : x.Always Numbered := by
    refine x.run.invariant (fun p h => ?_) numbered_of_next
    obtain ⟨start, none_⟩ := h
    obtain ⟨s, traffic⟩ := p
    obtain rfl : s = QmpClient.dialled := start
    obtain rfl : traffic = {} := none_
    exact ⟨owned_dialled, rfl, by simp, by simp, by simp [QmpClient.dialled]⟩
  refine numbered.mono fun p held => ⟨fun k w hw => held.ids hw, ?_, fun i r => ?_⟩
  · refine List.nodup_iff_getElem?_ne_getElem?.mpr fun j k less inside same => ?_
    rw [List.length_map] at inside
    obtain ⟨⟨i, r⟩, first⟩ : ∃ v, p.2.requests[j]? = some v :=
      ⟨_, List.getElem?_eq_getElem (less.trans inside)⟩
    obtain ⟨⟨i', r'⟩, second⟩ : ∃ w, p.2.requests[k]? = some w :=
      ⟨_, List.getElem?_eq_getElem inside⟩
    obtain rfl : i = i' := by simpa [first, second] using same
    have asked := held.requests (List.mem_of_getElem? first)
    rw [held.requests (List.mem_of_getElem? second)] at asked
    obtain rfl : r' = r := by simpa using congrArg (Option.map (·.2.2)) asked
    have places := (held.ids first).symm.trans (held.ids second)
    omega
  · constructor
    · intro member
      have asked := held.requests member
      rw [List.getElem?_map] at asked
      obtain ⟨c, found, same⟩ := Option.map_eq_some_iff.mp asked
      obtain ⟨cmd, args, request⟩ := by simpa [Call.asked] using same
      exact ⟨c, found, request, cmd.symm, args.symm⟩
    · rintro ⟨c, found, request, _⟩
      refine @Numbered.complete _ held _ c.cmd c.args _ ?_
      rw [List.getElem?_map, found, ← request]
      rfl

end VmServer.Vm
