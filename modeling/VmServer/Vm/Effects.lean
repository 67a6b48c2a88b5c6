import VmServer.Library.Contributions
import VmServer.Vm.Host

/-!
# What a step of the host can do

Most steps of a `Start` or stop call change nothing but the place the call is
at. `Effect` lists the others one by one, with the part of the state they
change and what was the case before.
-/

namespace VmServer.Vm

open TransitionSystem

/-- No process of the call is on its way. -/
def StartPc.betweenLaunches : StartPc → Bool
  | .spawning _ => true
  | .failing _ => true
  | _ => false

/-- The steps of `Start` call `t` between its critical sections. -/
inductive Moves (s : Host) (t : Nat) (c : StartCall) : Event → StartPc → Prop
  | passed {what what'} (at_ : c.pc = .checking what) :
      Moves s t c (.check t none) (.checking what')
  | ready (at_ : c.pc = .checking .vncPort) : Moves s t c (.check t none) (.spawning 0)
  | refused {what text err} (at_ : c.pc = .checking what) :
      Moves s t c (.check t (some text)) (.failing err)
  | notSpawned {i text pc} (at_ : c.pc = .spawning i) (next : pc.betweenLaunches) :
      Moves s t c (.spawn t (some text)) pc
  | sawExit {i p tail pc} (at_ : c.pc = .selecting i p) (closed : s.waiter p = some .closed)
      (next : pc.betweenLaunches) : Moves s t c (.sawExit t tail) pc
  | dialed {i p peer} (at_ : c.pc = .selecting i p) (alive : s.alive peer) :
      Moves s t c (.dialed t (.ok peer)) (.authenticating i p ⟨peer⟩)
  | notDialed {i p text} (at_ : c.pc = .selecting i p) :
      Moves s t c (.dialed t (.error text)) (.reaping i p (.dial text))
  | reaped {i p err pc} (at_ : c.pc = .reaping i p err) (closed : s.waiter p = some .closed)
      (next : pc.betweenLaunches) : Moves s t c (.reaped t) pc
  | passwordSet {i p q password} (at_ : c.pc = .authenticating i p q) (alive : s.alive q.peer) :
      Moves s t c (.passwordSet t (.ok password)) (.publishing i p q password)
  | gaveUp {i p q err pc} (at_ : c.pc = .authenticating i p q) (next : pc.betweenLaunches) :
      Moves s t c (.passwordSet t (.error err)) pc

/-- The steps of the `Wait` goroutine of process `p` after the critical section of `onExit`,
without a start. -/
inductive Waits (s : Host) (p : Nat) : Event → Waiter → Waiter → Prop
  | refused (busy : s.m.startEnter = none) : Waits s p (.restart p) .sleeping .handled
  | restarted {t c} (found : s.calls[t]? = some c) (past : c.pc.inProgress = false) :
      Waits s p (.restarted p) (.restarting t) .handled
  | closed : Waits s p (.close p) .handled .closed

/-- Whether the call is a `Stop` that has returned nil without its kill wait timing out. -/
def StopCall.stopped (x : StopCall) : Bool :=
  x.kind = .stop ∧ x.pc = .returned none false

/-- The steps of stop call `j` that leave the manager alone. -/
inductive StopMoves (s : Host) (j : Nat) (x : StopCall) : Event → StopCall → Prop
  | running {err} (at_ : x.pc = .checking) (running : s.m.state = .running) :
      StopMoves s j x (.stopStep j err) { x with exited := s.m.exited, pc := .client }
  | idle {err} (at_ : x.pc = .checking) (idle : s.m.state ≠ .running) :
      StopMoves s j x (.stopStep j err) { x with pc := .returned none false }
  | client {err q} (at_ : x.pc = .client) (found : s.m.qmpClient = some q) :
      StopMoves s j x (.stopStep j err) { x with pc := .marking q }
  | awaits {err q} (at_ : x.pc = .executing q) :
      StopMoves s j x (.stopStep j err) { x with pc := .awaiting }
  | forces {e} (event : (∃ err, e = .stopStep j err) ∨ e = .timeout j)
      (at_ : x.pc = .client ∨ (∃ q, x.pc = .executing q) ∨ x.pc = .awaiting) :
      StopMoves s j x e { x with pc := .forcing }
  | kills {err exited} (at_ : x.pc = .killing exited) :
      StopMoves s j x (.stopStep j err) { x with pc := .killWait exited }
  | exited (at_ : x.pc = .awaiting) {p} (channel : x.exited = some p)
      (closed : s.waiter p = some .closed) :
      StopMoves s j x (.sawClosed j) { x with pc := .returned none false }
  | killed {p} (at_ : x.pc = .killWait (some p)) (closed : s.waiter p = some .closed) :
      StopMoves s j x (.sawClosed j) { x with pc := .returned none false }
  /-- Any other return is no clean one of a `Stop`. -/
  | returned {e err timedOut} (event : (∃ err, e = .stopStep j err) ∨ e = .timeout j)
      (at_ : ∀ q, x.pc ≠ .marking q) (other : x.kind ≠ .stop ∨ err ≠ none ∨ timedOut = true) :
      StopMoves s j x e { x with pc := .returned err timedOut }

/-- The two places where a stop call writes the state. -/
inductive Marks (s : Host) (x : StopCall) : StopPc → Prop
  | shutdown {q} (at_ : x.pc = .marking q) : Marks s x (.executing q)
  | forceStop {p} (at_ : x.pc = .forcing) (cmd : s.m.cmd = some p) : Marks s x (.killing s.m.exited)

/-- What a step of the host can do. -/
inductive Effect (s : Host) : Event → Host → Prop
  | config {cfg} : Effect s (.updateConfig cfg) { s with cfg }
  | busy (h : s.m.startEnter = none) : Effect s .start s
  | admitted {m} (h : s.m.startEnter = some m) :
      Effect s .start { s with m, calls := s.calls ++ [({} : StartCall)], quiet := false }
  | moved {e t c c' pc} (found : s.calls[t]? = some c) (moves : Moves s t c e pc)
      (h : c'.pc = pc) : Effect s e { s with calls := s.calls.set t c' }
  | spawned {t c i} (found : s.calls[t]? = some c) (at_ : c.pc = .spawning i) :
      Effect s (.spawn t none) { s with procs := s.procs ++ [({} : Process)],
                                        calls := s.calls.set t
                                          { c with pc := .selecting i s.procs.length } }
  | published {t c i p q password now pc} (found : s.calls[t]? = some c)
      (at_ : c.pc = .publishing i p q password) (h : pc = .noting ∨ pc = .returned none) :
      Effect s (.publish t now) { s with m := s.m.publish p q password (c.accels.getD i "") now,
                                         calls := s.calls.set t { c with pc } }
  | noted {t c} (found : s.calls[t]? = some c) (at_ : c.pc = .noting) :
      Effect s (.note t) { s with m := s.m.note c.accels,
                                  calls := s.calls.set t { c with pc := .returned none } }
  | failed {t c err} (found : s.calls[t]? = some c) (at_ : c.pc = .failing err) :
      Effect s (.fail t) { s with m := s.m.fail err.text,
                                  calls := s.calls.set t { c with pc := .returned (some err) } }
  | exited {p x status} (found : s.procs[p]? = some x) (at_ : x.exit = none) :
      Effect s (.exit p status) { s with procs := s.procs.set p { x with exit := some status } }
  | handled {p x status tail waiter} (found : s.procs[p]? = some x) (gone : x.exit = some status)
      (at_ : x.waiter = .waiting)
      (h : waiter = if (s.m.onExit s.cfg p status tail).2 then .sleeping else .handled) :
      Effect s (.onExit p tail) { s with m := (s.m.onExit s.cfg p status tail).1,
                                         procs := s.procs.set p { x with waiter } }
  | restarted {p x m} (found : s.procs[p]? = some x) (at_ : x.waiter = .sleeping)
      (h : s.m.startEnter = some m) :
      Effect s (.restart p) { s with m, calls := s.calls ++ [({} : StartCall)],
                                     procs := s.procs.set p
                                       { x with waiter := .restarting s.calls.length } }
  | waited {e p x waiter} (found : s.procs[p]? = some x) (h : Waits s p e x.waiter waiter) :
      Effect s e { s with procs := s.procs.set p { x with waiter } }
  | called {kind} : Effect s (.stopCall kind)
      { s with stops := s.stops ++ [{ kind, pc := Host.firstStep kind }] }
  | stopped {e j x x'} (found : s.stops[j]? = some x) (h : StopMoves s j x e x') :
      Effect s e { s with stops := s.stops.set j x', quiet := s.quiet || x'.stopped }
  | marked {j err x pc} (found : s.stops[j]? = some x) (h : Marks s x pc) :
      Effect s (.stopStep j err) { s with m := s.m.markStopping,
                                          stops := s.stops.set j { x with pc } }

/-! ## Kinds of events -/

/-- A spawn that succeeds. -/
def Event.spawns : Event → Bool
  | .spawn _ none => true
  | _ => false

def Event.publishes : Event → Bool
  | .publish _ _ => true
  | _ => false

/-- The events by which a `Start` may be admitted. -/
def Event.starts : Event → Bool
  | .start => true
  | .restart _ => true
  | _ => false

/-- `onExit` for process `p`. -/
def Event.handles (p : Nat) : Event → Bool
  | .onExit q _ => q = p
  | _ => false

variable {goos : String} {s s' : Host} {e : Event}

theorem Waits.event {p : Nat} {w w' : Waiter} (h : Waits s p e w w') :
    (e = .restart p ∧ s.m.startEnter = none) ∨ e = .restarted p ∨ e = .close p := by
  cases h with
  | refused busy => exact Or.inl ⟨rfl, busy⟩
  | restarted _ _ => exact Or.inr (Or.inl rfl)
  | closed => exact Or.inr (Or.inr rfl)

theorem StopMoves.event {j : Nat} {x x' : StopCall} (h : StopMoves s j x e x') :
    (∃ err, e = .stopStep j err) ∨ e = .timeout j ∨ e = .sawClosed j := by
  cases h with
  | forces event _ => exact event.imp_right Or.inl
  | returned event _ _ => exact event.imp_right Or.inl
  | exited _ _ _ => exact Or.inr (Or.inr rfl)
  | killed _ _ => exact Or.inr (Or.inr rfl)
  | _ => exact Or.inl ⟨_, rfl⟩

theorem betweenLaunches_afterFailure (c : StartCall) (i : Nat) (err : StartError) :
    (c.afterFailure i err).betweenLaunches := by
  unfold StartCall.afterFailure
  split <;> rfl

theorem process_of_betweenLaunches {pc : StartPc} (h : pc.betweenLaunches) :
    pc.process = none ∧ pc.inProgress ∧ pc ≠ .noting := by
  cases pc with
  | spawning i => exact ⟨rfl, rfl, nofun⟩
  | failing err => exact ⟨rfl, rfl, nofun⟩
  | _ => cases h

/-! ## Inversion of the step functions -/

section Inversion

variable {t : Nat} {c : StartCall} (found : s.calls[t]? = some c)

include found

theorem effect_of_check {err : Option String} (h : s.check goos t c err = some s') :
    Effect s (.check t err) s' := by
  unfold Host.check at h
  split at h
  · rename_i at_
    obtain rfl := Option.some.inj h
    exact .moved found (.refused at_) rfl
  · rename_i at_
    obtain rfl := Option.some.inj h
    exact .moved found (.passed at_) rfl
  · rename_i at_
    obtain rfl := Option.some.inj h
    exact .moved found (.passed at_) rfl
  · rename_i at_
    obtain rfl := Option.some.inj h
    exact .moved found (.passed at_) rfl
  · rename_i at_
    obtain rfl := Option.some.inj h
    exact .moved found (.ready at_) rfl
  · cases h

theorem effect_of_spawn {err : Option String} (h : s.spawn t c err = some s') :
    Effect s (.spawn t err) s' := by
  unfold Host.spawn at h
  split at h
  · rename_i at_
    obtain rfl := Option.some.inj h
    exact .moved found (.notSpawned at_ (betweenLaunches_afterFailure ..)) rfl
  · rename_i at_
    obtain rfl := Option.some.inj h
    exact .spawned found at_
  · cases h

theorem effect_of_sawExit {tail : String} (h : s.sawExit t c tail = some s') :
    Effect s (.sawExit t tail) s' := by
  unfold Host.sawExit at h
  split at h
  · rename_i at_
    obtain ⟨closed, h⟩ := Option.ite_none_right_eq_some.mp h
    obtain rfl := Option.some.inj h
    exact .moved found (.sawExit at_ closed (betweenLaunches_afterFailure ..)) rfl
  · cases h

theorem effect_of_dialed {r : Except String Nat} (h : s.dialed t c r = some s') :
    Effect s (.dialed t r) s' := by
  unfold Host.dialed at h
  split at h
  · rename_i at_
    obtain ⟨alive, h⟩ := Option.ite_none_right_eq_some.mp h
    obtain rfl := Option.some.inj h
    exact .moved found (.dialed at_ alive) rfl
  · rename_i at_
    obtain rfl := Option.some.inj h
    exact .moved found (.notDialed at_) rfl
  · cases h

theorem effect_of_reaped (h : s.reaped t c = some s') : Effect s (.reaped t) s' := by
  unfold Host.reaped at h
  split at h
  · rename_i at_
    obtain ⟨closed, h⟩ := Option.ite_none_right_eq_some.mp h
    obtain rfl := Option.some.inj h
    exact .moved found (.reaped at_ closed (betweenLaunches_afterFailure ..)) rfl
  · cases h

theorem effect_of_passwordSet {r : Except StartError String} (h : s.passwordSet t c r = some s') :
    Effect s (.passwordSet t r) s' := by
  unfold Host.passwordSet at h
  split at h
  · rename_i at_
    obtain ⟨alive, h⟩ := Option.ite_none_right_eq_some.mp h
    obtain rfl := Option.some.inj h
    exact .moved found (.passwordSet at_ alive) rfl
  · rename_i at_
    obtain rfl := Option.some.inj h
    exact .moved found (.gaveUp at_ (betweenLaunches_afterFailure ..)) rfl
  · cases h

theorem effect_of_publish {now : Int} (h : s.publish t c now = some s') :
    Effect s (.publish t now) s' := by
  unfold Host.publish at h
  split at h
  · rename_i at_
    obtain rfl := Option.some.inj h
    refine .published found at_ ?_
    split
    · exact Or.inl rfl
    · exact Or.inr rfl
  · cases h

theorem effect_of_note (h : s.note t c = some s') : Effect s (.note t) s' := by
  unfold Host.note at h
  split at h
  · rename_i at_
    obtain rfl := Option.some.inj h
    exact .noted found at_
  · cases h

theorem effect_of_fail (h : s.fail t c = some s') : Effect s (.fail t) s' := by
  unfold Host.fail at h
  split at h
  · rename_i at_
    obtain rfl := Option.some.inj h
    exact .failed found at_
  · cases h

end Inversion

section Inversion

variable {p : Nat} {x : Process} (found : s.procs[p]? = some x)

include found

theorem effect_of_exit {status : ExitStatus} (h : s.exit p x status = some s') :
    Effect s (.exit p status) s' := by
  unfold Host.exit at h
  split at h
  · rename_i at_
    obtain rfl := Option.some.inj h
    exact .exited found at_
  · cases h

theorem effect_of_onExit {tail : String} (h : s.onExit p x tail = some s') :
    Effect s (.onExit p tail) s' := by
  unfold Host.onExit at h
  split at h
  · rename_i gone at_
    obtain rfl := Option.some.inj h
    exact .handled found gone at_ rfl
  · cases h

theorem effect_of_restart (h : s.restart p x = some s') : Effect s (.restart p) s' := by
  unfold Host.restart at h
  split at h
  · rename_i at_ enter
    obtain rfl := Option.some.inj h
    exact .restarted found at_ enter
  · rename_i at_ enter
    obtain rfl := Option.some.inj h
    exact .waited found (at_ ▸ .refused enter)
  · cases h

theorem effect_of_restarted (h : s.restarted p x = some s') : Effect s (.restarted p) s' := by
  unfold Host.restarted at h
  split at h
  · rename_i at_
    obtain ⟨past, h⟩ := Option.ite_none_right_eq_some.mp h
    obtain ⟨c, call, past⟩ := (Option.any_eq_true _ _).mp past
    obtain rfl := Option.some.inj h
    exact .waited found (at_ ▸ .restarted call (by simpa using past))
  · cases h

theorem effect_of_close (h : s.close p x = some s') : Effect s (.close p) s' := by
  unfold Host.close at h
  split at h
  · rename_i at_
    obtain rfl := Option.some.inj h
    exact .waited found (at_ ▸ .closed)
  · cases h

end Inversion

section Inversion

variable {j : Nat} {x x' : StopCall} (found : s.stops[j]? = some x)

include found

theorem effect_of_setStop (h : StopMoves s j x e x') (going : x'.stopped = false) :
    Effect s e { s with stops := s.stops.set j x' } := by
  have effect : Effect s e { s with stops := s.stops.set j x', quiet := s.quiet || x'.stopped } :=
    .stopped found h
  rwa [going, Bool.or_false] at effect

theorem effect_of_returnStop {err : Option String} {timedOut : Bool}
    (h : StopMoves s j x e { x with pc := .returned err timedOut }) :
    Effect s e (s.returnStop j x err timedOut) := by
  have effect : Effect s e _ := .stopped found h
  have same : ({ x with pc := .returned err timedOut } : StopCall).stopped =
      decide (x.kind = .stop ∧ err = none ∧ timedOut = false) := by
    simp [StopCall.stopped]
  rwa [same] at effect

/-- A `Shutdown` that a `Stop` has called goes on, any other returns. -/
theorem effect_of_shutdownDone {err outcome : Option String}
    (at_ : (x.pc = .client ∧ err ≠ none) ∨ ∃ q, x.pc = .executing q) :
    Effect s (.stopStep j outcome) (s.shutdownDone j x err) := by
  unfold Host.shutdownDone
  split
  · obtain ⟨_, absent⟩ | ⟨q, at_⟩ := at_
    · exact (absent rfl).elim
    · exact effect_of_setStop found (.awaits at_) (by simp [StopCall.stopped])
  · refine effect_of_setStop found (.forces (Or.inl ⟨_, rfl⟩) ?_) (by simp [StopCall.stopped])
    obtain ⟨at_, _⟩ | at_ := at_
    · exact Or.inl at_
    · exact Or.inr (Or.inl at_)
  · rename_i err _ _ notNone notSome
    refine effect_of_returnStop found (.returned (Or.inl ⟨_, rfl⟩) (fun q marking => ?_)
      (Or.inl fun kind => ?_))
    · obtain ⟨at_, _⟩ | ⟨_, at_⟩ := at_ <;> rw [at_] at marking <;> cases marking
    · cases err with
      | none => exact notNone kind rfl
      | some text => exact notSome text kind rfl

theorem effect_of_stopStep {err : Option String} (h : s.stopStep j x err = some s') :
    Effect s (.stopStep j err) s' := by
  unfold Host.stopStep at h
  split at h
  · rename_i at_
    split at h
    · rename_i running
      obtain rfl := Option.some.inj h
      exact effect_of_setStop found (.running at_ running) (by simp [StopCall.stopped])
    · rename_i idle
      obtain rfl := Option.some.inj h
      exact effect_of_returnStop found (.idle at_ idle)
  · rename_i at_
    split at h
    · rename_i q client
      obtain rfl := Option.some.inj h
      exact effect_of_setStop found (.client at_ client) (by simp [StopCall.stopped])
    · obtain rfl := Option.some.inj h
      exact effect_of_shutdownDone found (Or.inl ⟨at_, nofun⟩)
  · rename_i at_
    obtain rfl := Option.some.inj h
    exact .marked found (.shutdown at_)
  · rename_i q at_
    split at h
    · cases h
    · obtain rfl := Option.some.inj h
      exact effect_of_shutdownDone found (Or.inr ⟨q, at_⟩)
  · rename_i at_
    split at h
    · obtain rfl := Option.some.inj h
      exact effect_of_returnStop found (.returned (Or.inl ⟨_, rfl⟩) (by simp [at_])
        (Or.inr (Or.inl nofun)))
    · rename_i cmd
      obtain rfl := Option.some.inj h
      exact .marked found (.forceStop at_ cmd)
  · rename_i at_
    split at h
    · obtain rfl := Option.some.inj h
      exact effect_of_returnStop found (.returned (Or.inl ⟨_, rfl⟩) (by simp [at_])
        (Or.inr (Or.inl nofun)))
    · obtain rfl := Option.some.inj h
      exact effect_of_setStop found (.kills at_) (by simp [StopCall.stopped])
  · cases h

theorem effect_of_sawClosed (h : s.sawClosed j x = some s') : Effect s (.sawClosed j) s' := by
  unfold Host.sawClosed at h
  dsimp only at h
  split at h
  · rename_i at_
    obtain ⟨closed, h⟩ := Option.ite_none_right_eq_some.mp h
    obtain ⟨p, channel, closed⟩ := Option.bind_eq_some_iff.mp closed
    obtain rfl := Option.some.inj h
    exact effect_of_returnStop found (.exited at_ channel closed)
  · rename_i at_
    obtain ⟨closed, h⟩ := Option.ite_none_right_eq_some.mp h
    obtain ⟨p, channel, closed⟩ := Option.bind_eq_some_iff.mp closed
    obtain rfl := Option.some.inj h
    exact effect_of_returnStop found (.killed (channel ▸ at_) closed)
  · cases h

theorem effect_of_timeout (h : s.timeout j x = some s') : Effect s (.timeout j) s' := by
  unfold Host.timeout at h
  split at h
  · rename_i at_
    obtain rfl := Option.some.inj h
    exact effect_of_setStop found (.forces (Or.inr rfl) (Or.inr (Or.inr at_)))
      (by simp [StopCall.stopped])
  · rename_i at_
    obtain rfl := Option.some.inj h
    exact effect_of_returnStop found (.returned (Or.inr rfl) (by simp [at_]) (Or.inr (Or.inr rfl)))
  · cases h

end Inversion

/-- A step has one of the listed effects. -/
theorem effect_of_next (h : s.next goos e = some s') : Effect s e s' := by
  cases e with
  | updateConfig cfg =>
      obtain rfl := Option.some.inj h
      exact .config
  | start =>
      obtain rfl := Option.some.inj h
      unfold Host.start
      split
      · rename_i refused
        exact .busy refused
      · rename_i entered
        exact .admitted entered
  | check t err =>
      obtain ⟨c, found, h⟩ := Option.bind_eq_some_iff.mp h
      exact effect_of_check found h
  | spawn t err =>
      obtain ⟨c, found, h⟩ := Option.bind_eq_some_iff.mp h
      exact effect_of_spawn found h
  | sawExit t tail =>
      obtain ⟨c, found, h⟩ := Option.bind_eq_some_iff.mp h
      exact effect_of_sawExit found h
  | dialed t r =>
      obtain ⟨c, found, h⟩ := Option.bind_eq_some_iff.mp h
      exact effect_of_dialed found h
  | reaped t =>
      obtain ⟨c, found, h⟩ := Option.bind_eq_some_iff.mp h
      exact effect_of_reaped found h
  | passwordSet t r =>
      obtain ⟨c, found, h⟩ := Option.bind_eq_some_iff.mp h
      exact effect_of_passwordSet found h
  | publish t now =>
      obtain ⟨c, found, h⟩ := Option.bind_eq_some_iff.mp h
      exact effect_of_publish found h
  | note t =>
      obtain ⟨c, found, h⟩ := Option.bind_eq_some_iff.mp h
      exact effect_of_note found h
  | fail t =>
      obtain ⟨c, found, h⟩ := Option.bind_eq_some_iff.mp h
      exact effect_of_fail found h
  | exit p status =>
      obtain ⟨x, found, h⟩ := Option.bind_eq_some_iff.mp h
      exact effect_of_exit found h
  | onExit p tail =>
      obtain ⟨x, found, h⟩ := Option.bind_eq_some_iff.mp h
      exact effect_of_onExit found h
  | restart p =>
      obtain ⟨x, found, h⟩ := Option.bind_eq_some_iff.mp h
      exact effect_of_restart found h
  | restarted p =>
      obtain ⟨x, found, h⟩ := Option.bind_eq_some_iff.mp h
      exact effect_of_restarted found h
  | close p =>
      obtain ⟨x, found, h⟩ := Option.bind_eq_some_iff.mp h
      exact effect_of_close found h
  | stopCall kind =>
      obtain rfl := Option.some.inj h
      exact .called
  | stopStep j err =>
      obtain ⟨x, found, h⟩ := Option.bind_eq_some_iff.mp h
      exact effect_of_stopStep found h
  | sawClosed j =>
      obtain ⟨x, found, h⟩ := Option.bind_eq_some_iff.mp h
      exact effect_of_sawClosed found h
  | timeout j =>
      obtain ⟨x, found, h⟩ := Option.bind_eq_some_iff.mp h
      exact effect_of_timeout found h

end VmServer.Vm
