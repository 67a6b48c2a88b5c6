import VmServer.Vm.QmpOwnership

/-!
# A lost connection releases every call

Once `readLoop` has met a read error and closed the pending channels, a call
that waits can receive, a new call fails without registering, and `Close`
returns when the loop has ended. No step on the way is an error.
-/

namespace VmServer.Vm

open TransitionSystem

variable (unmarshal : String → Option QmpResponse)

/-- The loss of the connection releases everyone. -/
structure ReleasesAll (s : QmpClient) : Prop where
  /-- Nothing is closed twice, sent to after its close, or offered to closed `Events`. -/
  safe : s.panicked = false
  /-- `readLoop` runs to its end after a read error. -/
  ends : ∀ err, s.reader = .failed err → ∃ t u v, s.next unmarshal .release = some t ∧
    t.next unmarshal .closeEvents = some u ∧ u.next unmarshal .closeClosed = some v ∧
    v.reader = .finished
  /-- A registered call waits for nothing but its turn. -/
  woken : s.reader.lost = true → ∀ (i : Nat) (c : Call), s.calls[i]? = some c →
    c.phase.inSelect = true → c.chan.Ready ∧
      (c.phase = .selecting → ∃ t, s.next unmarshal (.receive i) = some t)
  /-- A later call fails without registering. -/
  refused : s.reader.lost = true → ∀ (i : Nat) (encoded : Option String) (t : QmpClient),
    s.next unmarshal (.register i encoded) = some t → ∃ c err, s.calls[i]? = some c ∧
      t = s.setCall i { c with phase := .returned (.error (.connection err)) none } ∧
      s.err = some err ∧ c.request = none
  /-- `Close` waits for the end of `readLoop`, and for nothing else. -/
  closes : ∀ (k : Nat) (err : Option String), s.closers[k]? = some (.waiting err) →
    ((∃ t, s.next unmarshal (.closeReturns k) = some t) ↔ s.reader = .finished)

/-- Somebody still owns the channel of the call, or its value or its close is there already. -/
def Covered (s : QmpClient) (i : Nat) (c : Call) : Prop :=
  c.chan.Ready ∨ (∃ reply, s.reader = .handing i reply) ∨
    ∃ r, c.request = some r ∧ s.pending.lookup r.id = some i

/-- No registered call has been forgotten. -/
def NoneForgotten (s : QmpClient) : Prop :=
  ∀ (i : Nat) (c : Call), s.calls[i]? = some c → c.phase.inSelect = true → Covered s i c

variable {unmarshal} {s t : QmpClient}

/-- One call changes; the others stay covered as long as their entries do. -/
theorem NoneForgotten.set (h : NoneForgotten s) {i : Nat} {c c' : Call}
    (found : s.calls[i]? = some c) (calls : t.calls = s.calls.set i c')
    (own : c'.phase.inSelect = true → Covered t i c')
    (others : ∀ j d, i ≠ j → s.calls[j]? = some d → Covered s j d → Covered t j d) :
    NoneForgotten t := by
  intro j d hd at_
  rw [calls] at hd
  rcases Contributions.of_getElem?_set found hd with ⟨rfl, rfl⟩ | ⟨ne, old⟩
  · exact own at_
  · exact others j d ne old (h j d old at_)

/-- The entries of other calls survive a change of `pending` under the id of this one. -/
theorem Covered.of_lookup {j : Nat} {d : Call} (h : Covered s j d)
    (reader : t.reader = s.reader)
    (entry : ∀ r, d.request = some r → s.pending.lookup r.id = some j →
      t.pending.lookup r.id = some j) : Covered t j d := by
  rcases h with ready | ⟨reply, at_⟩ | ⟨r, hr, stored⟩
  · exact .inl ready
  · exact .inr (.inl ⟨reply, reader.trans at_⟩)
  · exact .inr (.inr ⟨r, hr, entry r hr stored⟩)

/-- A reader that is not sending covers nobody. -/
theorem Covered.of_reader {j : Nat} {d : Call} (h : Covered s j d)
    (idle : ∀ i reply, s.reader ≠ .handing i reply) (pending : t.pending = s.pending) :
    Covered t j d := by
  rcases h with ready | ⟨reply, at_⟩ | stored
  · exact .inl ready
  · exact absurd at_ (idle j reply)
  · exact .inr (.inr (pending ▸ stored))

theorem NoneForgotten.called (h : NoneForgotten s) {cmd : String} {args : Option String} :
    NoneForgotten { s with calls := s.calls ++ [{ cmd, args }] } := by
  intro i c hc at_
  rcases Contributions.of_getElem?_concat hc with ⟨_, rfl⟩ | old
  · cases at_
  · exact h i c old at_

theorem NoneForgotten.registered (h : NoneForgotten s) (requests : Requests s) {i : Nat} {c : Call}
    (found : s.calls[i]? = some c) (phase : CallPhase) :
    NoneForgotten
      ({ s with nextID := s.nextID + 1, pending := s.pending.insert (s.nextID + 1) i }.setCall i
        { c with request := some ⟨c.cmd, s.nextID + 1, c.args⟩, chan := .make 1, phase }) := by
  refine h.set found rfl (fun _ => .inr (.inr ⟨_, rfl, by simp [QmpClient.setCall]⟩)) ?_
  intro j d _ hd covered
  refine covered.of_lookup rfl fun r hr stored => ?_
  have bound := requests.bounded hd hr
  have ne : r.id ≠ s.nextID + 1 := by omega
  simpa [QmpClient.setCall, AList.lookup_insert_ne ne] using stored

theorem NoneForgotten.removed (h : NoneForgotten s) (requests : Requests s) {i : Nat}
    {c c' : Call} {request : QmpRequest} (found : s.calls[i]? = some c)
    (sent : c.request = some request) (past : c'.phase.inSelect = false) :
    NoneForgotten ({ s with pending := s.pending.erase request.id }.setCall i c') := by
  refine h.set found rfl (fun at_ => by simp [past] at at_) fun j d ne hd covered => ?_
  refine covered.of_lookup rfl fun r hr stored => ?_
  have other : r.id ≠ request.id := fun same => ne (requests.distinct found hd sent hr same.symm)
  simpa [QmpClient.setCall, AList.lookup_erase_ne other] using stored

/-- The entry that goes away is the one of the call the reply is sent to next. -/
theorem NoneForgotten.claimed (h : NoneForgotten s) {id : Int} {reply : Reply} {i : Nat}
    (at_ : s.reader = .found id reply) (stored : s.pending.lookup id = some i) :
    NoneForgotten { s with pending := s.pending.erase id, reader := .handing i reply } := by
  intro j d hd waits
  rcases h j d hd waits with ready | ⟨reply', sending⟩ | ⟨r, hr, entry⟩
  · exact .inl ready
  · exact ReaderPhase.noConfusion (at_.symm.trans sending)
  · by_cases same : r.id = id
    · obtain rfl : j = i := Option.some.inj (entry.symm.trans (same ▸ stored))
      exact .inr (.inl ⟨reply, rfl⟩)
    · refine .inr (.inr ⟨r, hr, ?_⟩)
      simpa [AList.lookup_erase_ne same] using entry

theorem NoneForgotten.handed (h : NoneForgotten s) {i : Nat} {c : Call} {reply : Reply}
    {chan : Channel Reply} (at_ : s.reader = .handing i reply) (found : s.calls[i]? = some c)
    (buffer : chan.buffer = [reply]) :
    NoneForgotten { s.setCall i { c with chan } with reader := .reading } := by
  refine h.set found rfl (fun _ => .inl (.inl (by simp [buffer]))) fun j d ne _ covered => ?_
  rcases covered with ready | ⟨reply', sending⟩ | stored
  · exact .inl ready
  · obtain ⟨rfl, _⟩ : i = j ∧ reply = reply' := by simpa [at_] using sending
    exact absurd rfl ne
  · exact .inr (.inr stored)

/-- Every call that still had an entry finds its channel closed. -/
theorem NoneForgotten.released (h : NoneForgotten s) {err : String} {calls : List Call}
    (at_ : s.reader = .failed err)
    (final : ∀ i, calls[i]? =
      if i ∈ s.pending.entries.map Sigma.snd then s.calls[i]?.map Call.cut else s.calls[i]?) :
    NoneForgotten { s with err := some err, calls, pending := ∅, reader := .released } := by
  intro i c hc waits
  have hc : (if i ∈ s.pending.entries.map Sigma.snd then s.calls[i]?.map Call.cut
      else s.calls[i]?) = some c := (final i).symm.trans hc
  by_cases owner : i ∈ s.pending.entries.map Sigma.snd
  · rw [if_pos owner] at hc
    obtain ⟨d, _, rfl⟩ := Option.map_eq_some_iff.mp hc
    exact .inl (.inr rfl)
  · rw [if_neg owner] at hc
    rcases h i c hc waits with ready | ⟨reply, sending⟩ | ⟨r, _, stored⟩
    · exact .inl ready
    · exact ReaderPhase.noConfusion (at_.symm.trans sending)
    · have entry : (⟨r.id, i⟩ : Sigma fun _ : Int => Nat) ∈ s.pending.entries :=
        AList.mem_lookup_iff.mp stored
      exact absurd (List.mem_map_of_mem entry) owner

theorem NoneForgotten.moves (h : NoneForgotten s) (requests : Requests s)
    (move : ClientMoves unmarshal s t) : NoneForgotten t := by
  cases move with
  | aside | skipped => exact h
  | called => exact h.called
  | registered found at_ held next => exact h.registered requests found _
  | removed found at_ sent => exact h.removed requests found sent rfl
  | refused found | answered found | cutOff found =>
      exact h.set found rfl Bool.noConfusion fun _ _ _ _ covered => covered
  | cancelled found at_ =>
      have covered := h _ _ found (congrArg CallPhase.inSelect at_)
      exact h.set found rfl (fun _ => covered) fun _ _ _ _ covered => covered
  | claimed at_ stored => exact h.claimed at_ stored
  | handed at_ found buffer => exact h.handed at_ found buffer
  | released at_ final => exact h.released at_ final
  | found at_ | failed at_ | unknown at_ | ended at_ | finished at_ =>
      intro i c hc waits
      refine (h i c hc waits).of_reader (fun j reply sending => ?_) rfl
      exact ReaderPhase.noConfusion (at_.symm.trans sending)

/-- After the loss there is no entry and no send left, so a registered call can receive. -/
theorem NoneForgotten.ready (h : NoneForgotten s) (flags : Flags s) (lost : s.reader.lost = true)
    {i : Nat} {c : Call} (found : s.calls[i]? = some c) (waits : c.phase.inSelect = true) :
    c.chan.Ready := by
  rcases h i c found waits with ready | ⟨reply, sending⟩ | ⟨r, _, stored⟩
  · exact ready
  · rw [sending] at lost
    cases lost
  · rw [flags.emptied (flags.lost.mpr lost)] at stored
    cases stored

theorem receive_of_ready {i : Nat} {c : Call} (alive : s.panicked = false)
    (found : s.calls[i]? = some c) (at_ : c.phase = .selecting) (ready : c.chan.Ready) :
    ∃ t, s.next unmarshal (.receive i) = some t := by
  obtain ⟨⟨reply, chan⟩, received⟩ := ready.receive
  have enabled : ∃ t, s.receive i c = some t := by
    cases reply with
    | none => exact ⟨_, by rw [QmpClient.receive, at_, received]⟩
    | some reply => exact ⟨_, by rw [QmpClient.receive, at_, received]⟩
  simpa [QmpClient.next, alive, found] using enabled

/-- The loop ends once it is to blame the connection. -/
theorem Owned.ends (h : Owned s) {err : String} (at_ : s.reader = .failed err) :
    ∃ t u v, s.next unmarshal .release = some t ∧ t.next unmarshal .closeEvents = some u ∧
      u.next unmarshal .closeClosed = some v ∧ v.reader = .finished := by
  have released : s.next unmarshal .release = some (s.release err) := by
    simp [QmpClient.next, h.flags.alive, at_]
  have own := h.moves (QmpClient.moves_of_next h released)
  have opened : (s.release err).events.closed = false := by
    have reader : (s.release err).reader = .released := rfl
    simpa [reader] using own.flags.events
  have ended : (s.release err).next unmarshal .closeEvents = some (s.release err).closeEvents := by
    simp [QmpClient.next, own.flags.alive, show (s.release err).reader = .released from rfl]
  have own' := own.moves (QmpClient.moves_of_next own ended)
  have reader : (s.release err).closeEvents.reader = .ending := by
    simp [QmpClient.closeEvents, Channel.close_of_open opened]
  have opened' : (s.release err).closeEvents.closed.closed = false := by
    simpa [reader] using own'.flags.closed
  refine ⟨_, _, (s.release err).closeEvents.closeClosed, released, ended, ?_, ?_⟩
  · simp [QmpClient.next, own'.flags.alive, reader]
  · simp [QmpClient.closeClosed, Channel.close_of_open opened']

theorem register_lost {i : Nat} {encoded : Option String} (own : Owned s)
    (lost : s.reader.lost = true) (h : s.next unmarshal (.register i encoded) = some t) :
    ∃ c err, s.calls[i]? = some c ∧
      t = s.setCall i { c with phase := .returned (.error (.connection err)) none } ∧
      s.err = some err ∧ c.request = none := by
  obtain ⟨err, herr⟩ := Option.ne_none_iff_exists'.mp (own.flags.lost.mpr lost)
  obtain ⟨c, found, h⟩ : ∃ c, s.calls[i]? = some c ∧ s.register i encoded c = some t := by
    simpa [QmpClient.next, own.flags.alive, Option.bind_eq_some_iff] using h
  cases at_ : c.phase with
  | called =>
      refine ⟨c, err, found, ?_, herr, own.requests.fresh found at_⟩
      simpa [QmpClient.register, at_, herr] using h.symm
  | _ => simp [QmpClient.register, at_] at h

theorem closeReturns_iff (own : Owned s) {k : Nat} {err : Option String}
    (found : s.closers[k]? = some (.waiting err)) :
    (∃ t, s.next unmarshal (.closeReturns k) = some t) ↔ s.reader = .finished := by
  rw [← own.flags.closed]
  by_cases closed : s.closed.closed = true
  · obtain ⟨r, received⟩ := Channel.Ready.receive (.inr closed : s.closed.Ready)
    simp [QmpClient.next, own.flags.alive, found, QmpClient.closeReturns, received, closed]
  · have blocks := Channel.receive_blocks own.flags.unsent (Bool.eq_false_iff.mpr closed)
    simp [QmpClient.next, own.flags.alive, found, QmpClient.closeReturns, blocks, closed]

/-- In every run of the client no channel operation is an error; after a read error the loop runs
to its end, every registered call can receive, later calls fail without registering, and `Close`
returns. -/
theorem releases_all (x : Execution (qmpSystem unmarshal)) : x.Always (ReleasesAll unmarshal) := by
  have held : x.Always fun s => Owned s ∧ NoneForgotten s := by
    refine x.run.invariant ?_ ?_
    · rintro s rfl
      exact ⟨owned_dialled, fun i c hc => by simp [QmpClient.dialled] at hc⟩
    · rintro s a t ⟨own, covered⟩ h
      have move := QmpClient.moves_of_next own h
      exact ⟨own.moves move, covered.moves own.requests move⟩
  refine held.mono fun s held => ?_
  obtain ⟨own, covered⟩ := held
  refine ⟨own.flags.alive, fun _ at_ => own.ends at_, fun lost i c found waits => ?_,
    fun lost _ _ _ h => register_lost own lost h, fun _ _ found => closeReturns_iff own found⟩
  have ready := covered.ready own.flags lost found waits
  exact ⟨ready, fun at_ => receive_of_ready own.flags.alive found at_ ready⟩

end VmServer.Vm
