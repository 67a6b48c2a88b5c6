import VmServer.Vm.Progress

/-!
# A clean exit of the server

`Stop` compares the state field with `running` once. What it leaves behind
when it returns nil depends on what else is going on at that moment: a `Start`
that is pending, an exit that is yet to be handled, a restart that is waiting,
a guest that an earlier `Shutdown` has not stopped yet.

## Implementation notes

`Settled` is what a clean return needs, and what lasts until `Start` is called
from outside. `Ending` is what a `Stop` that found the guest running can rely
on until it returns.
-/

namespace VmServer.Vm

open TransitionSystem Contributions

/-- After a clean return of `Stop` no process is alive, until `Start` is called from outside. -/
def CleanExit (s : Host) : Prop := s.quiet = true → NoneAlive s

/-- No pending `Start` has a process to launch. -/
def Launched (s : Host) : Prop := ∀ pc ∈ s.pending, pc = .noting

/-- `onExit` has been through its critical section and will not restart the guest. -/
def Waiter.past : Waiter → Bool
  | .waiting => false
  | .sleeping => false
  | _ => true

/-- Nothing is alive, and nothing can start a process from within. -/
structure Settled (s : Host) : Prop where
  dead : NoneAlive s
  launched : Launched s
  awake : ∀ (q : Nat) (x : Process), s.procs[q]? = some x → x.waiter ≠ .sleeping
  stopping : ∀ (q : Nat) (x : Process), s.procs[q]? = some x → x.waiter = .waiting →
    s.m.stopping = true

/-- The guest of the manager is the only thing going on. -/
structure Alone (s : Host) : Prop where
  launched : Launched s
  past : ∀ (q : Nat) (x : Process), s.procs[q]? = some x → s.m.cmd ≠ some q →
    x.waiter.past = true

def StopPc.underway : StopPc → Bool
  | .checking => false
  | .returned _ _ => false
  | _ => true

/-- A `Stop` between its check and its return. -/
def StopCall.Underway (x : StopCall) : Prop := x.kind = .stop ∧ x.pc.underway = true

/-- `Stop` finds a running guest and nothing else, or nothing at all; and no `Start` is
admitted before it returns. -/
def Orderly (s : Host) : Event → Prop
  | .stopStep j _ => ∀ x, s.stops[j]? = some x → x.kind = .stop → x.pc = .checking →
      (s.m.state = .running → Alone s) ∧ (s.m.state ≠ .running → Settled s)
  | .start => s.m.startEnter ≠ none → ∀ x ∈ s.stops, ¬ x.Underway
  | .restart _ => s.m.startEnter ≠ none → ∀ x ∈ s.stops, ¬ x.Underway
  | _ => True

variable {goos : String} {s s' : Host} {e : Event}

/-! ## Steps without an admission -/

/-- What a step cannot undo as long as no `Start` is pending or admitted. -/
structure Continues (s s' : Host) : Prop where
  launched : Launched s'
  cmd : s'.m.cmd = s.m.cmd ∨ s'.m.cmd = none
  stopping : s.m.stopping = true → s'.m.stopping = true
  procs : ∀ q : Nat, s.procs[q]? = none → s'.procs[q]? = none

theorem Launched.not_early (launched : Launched s) {t : Nat} {c : StartCall}
    (found : s.calls[t]? = some c) (going : c.pc.inProgress = true) (early : c.pc ≠ .noting) :
    False := early (launched c.pc (mem_pending found going))

theorem continues_of_effect (effect : Effect s e s') (launched : Launched s)
    (refused : s.m.startEnter ≠ none → e.starts = false) : Continues s s' := by
  have idle {t : Nat} {c : StartCall} (found : s.calls[t]? = some c)
      (going : c.pc.inProgress = true) (early : c.pc ≠ .noting) : False :=
    launched.not_early found going early
  cases effect with
  | admitted h => cases refused (by simp [h])
  | restarted _ _ h => cases refused (by simp [h])
  | moved found moves _ => exact (idle found moves.going.1.1 moves.going.1.2).elim
  | spawned found at_ => exact (idle found (at_ ▸ rfl) (by simp [at_])).elim
  | published found at_ _ =>
      exact (idle found (at_ ▸ rfl) (by simp [at_])).elim
  | noted found at_ =>
      refine ⟨fun pc mem => ?_, Or.inl rfl, id, fun _ => id⟩
      obtain old | ⟨rfl, going⟩ := mem_pending_set found (at_ ▸ rfl) mem
      · exact launched pc old
      · cases going
  | failed found at_ => exact (idle found (at_ ▸ rfl) (by simp [at_])).elim
  | @handled p x status tail _ _ _ _ _ =>
      obtain ⟨cmd, stopping⟩ := Manager.onExit_keeps s.cfg p status tail
      exact ⟨launched, cmd, fun h => stopping.trans h, fun q h => by simpa using h⟩
  | exited _ _ => exact ⟨launched, Or.inl rfl, id, fun q h => by simpa using h⟩
  | waited _ _ => exact ⟨launched, Or.inl rfl, id, fun q h => by simpa using h⟩
  | marked _ _ => exact ⟨launched, Or.inl rfl, fun _ => rfl, fun _ => id⟩
  | _ => exact ⟨launched, Or.inl rfl, id, fun _ => id⟩

theorem Continues.process (continues : Continues s s') (effect : Effect s e s') {q : Nat}
    {x' : Process} (found' : s'.procs[q]? = some x') :
    ∃ x, s.procs[q]? = some x ∧ Process.Evolves s q e x x' := by
  cases found : s.procs[q]? with
  | none =>
      rw [continues.procs q found] at found'
      cases found'
  | some x =>
      obtain ⟨y, at_, evolves⟩ := effect.evolves found
      obtain rfl := Option.some.inj (at_.symm.trans found')
      exact ⟨x, rfl, evolves⟩

theorem Settled.keep (settled : Settled s) (effect : Effect s e s') (continues : Continues s s') :
    Settled s' where
  dead q alive := by
    obtain old | ⟨_, _, c, mem, i, at_⟩ := effect.alive alive
    · exact settled.dead q old
    · obtain ⟨t, found⟩ := List.getElem?_of_mem mem
      exact settled.launched.not_early found (at_ ▸ rfl) (by simp [at_])
  launched := continues.launched
  awake q x' found' := by
    obtain ⟨x, found, evolves⟩ := continues.process effect found'
    cases evolves with
    | same => exact settled.awake q x' found
    | exited _ _ => exact settled.awake q x found
    | handled _ _ waits _ sleeps =>
        intro sleeping
        have wanted := settled.stopping q x found waits
        rw [sleeps sleeping] at wanted
        cases wanted
    | waited _ _ awake => exact awake
  stopping q x' found' waits := by
    obtain ⟨x, found, evolves⟩ := continues.process effect found'
    refine continues.stopping (settled.stopping q _ found ?_)
    cases evolves with
    | same => exact waits
    | exited _ _ => exact waits
    | handled _ _ old _ _ => exact old
    | waited _ past _ => exact (past waits).elim

theorem sleeping_of_restart {p : Nat} (effect : Effect s (.restart p) s') :
    ∃ x, s.procs[p]? = some x ∧ x.waiter = .sleeping := by
  cases effect with
  | moved _ moves _ => cases moves
  | restarted found at_ _ => exact ⟨_, found, at_⟩
  | @waited _ p x waiter found h =>
      generalize old : x.waiter = w at h
      cases h
      exact ⟨x, found, old⟩
  | stopped _ h => obtain ⟨_, event⟩ | event | event := h.event <;> cases event

/-- What is settled stays so until `Start` is called from outside. -/
theorem Settled.step (settled : Settled s) (effect : Effect s e s')
    (outside : e = .start → s.m.startEnter = none) : Settled s' := by
  refine settled.keep effect (continues_of_effect effect settled.launched fun entered => ?_)
  cases e with
  | start => exact (entered (outside rfl)).elim
  | restart p =>
      obtain ⟨x, found, sleeping⟩ := sleeping_of_restart effect
      exact (settled.awake p x found sleeping).elim
  | _ => rfl

/-! ## A Stop that found the guest running -/

/-- The channel that the call waits for is that of the last process that may be alive. -/
structure Ending (s : Host) (x : StopCall) (p : Nat) : Prop where
  channel : x.exited = some p
  launched : Launched s
  past : ∀ (q : Nat) (y : Process), s.procs[q]? = some y → q ≠ p → y.waiter.past = true
  cmd : s.m.cmd = none ∨ s.m.cmd = some p
  kill : ∀ exited, x.pc = .killing exited ∨ x.pc = .killWait exited → exited = some p

variable {x x' : StopCall} {p : Nat}

theorem past_iff {w : Waiter} : w.past = true ↔ w ≠ .waiting ∧ w ≠ .sleeping := by
  cases w <;> simp [Waiter.past]

theorem Ending.keep (ending : Ending s x p) (effect : Effect s e s')
    (continues : Continues s s') : Ending s' x p where
  channel := ending.channel
  launched := continues.launched
  past q y' found' other := by
    obtain ⟨y, found, evolves⟩ := continues.process effect found'
    have past := ending.past q y found other
    cases evolves with
    | same => exact past
    | exited _ _ => exact past
    | handled _ _ waits _ _ => exact ((past_iff.mp past).1 waits).elim
    | waited _ past awake => exact past_iff.mpr ⟨past, awake⟩
  cmd := by
    obtain same | none := continues.cmd
    · exact same ▸ ending.cmd
    · exact Or.inl none
  kill := ending.kill

theorem Ending.goes (ending : Ending s x p) (channel : x'.exited = x.exited)
    (kill : ∀ exited, x'.pc = .killing exited ∨ x'.pc = .killWait exited → exited = some p) :
    Ending s x' p :=
  { ending with channel := channel.trans ending.channel, kill }

/-- Once the channel is closed, nothing is left. -/
theorem Ending.settled (ending : Ending s x p) (reaped : Reaped s)
    (closed : s.waiter p = some .closed) : Settled s := by
  have all (q : Nat) (y : Process) (found : s.procs[q]? = some y) :
      y.waiter ≠ .waiting ∧ y.waiter ≠ .sleeping := by
    by_cases same : q = p
    · subst same
      obtain ⟨z, found', closed⟩ := waiter_eq_some.mp closed
      obtain rfl := Option.some.inj (found.symm.trans found')
      simp [closed]
    · exact past_iff.mp (ending.past q y found same)
  refine ⟨fun q alive => ?_, ending.launched, fun q y found => (all q y found).2,
    fun q y found waits => ((all q y found).1 waits).elim⟩
  obtain ⟨y, found, _⟩ := alive_iff.mp alive
  exact reaped.not_alive (waiter_eq_some.mpr ⟨y, found, rfl⟩) (all q y found).1 alive

/-! ## Runs -/

/-- The command comes with its channel, and a running manager has one. -/
structure Stored (m : Manager) : Prop where
  channel : ∀ p, m.cmd = some p → m.exited = some p
  running : m.state = .running → m.cmd ≠ none

theorem Stored.step (stored : Stored s.m) (effect : Effect s e s') : Stored s'.m := by
  cases effect with
  | admitted h =>
      obtain ⟨_, rfl⟩ := Manager.startEnter_eq_some.mp h
      exact ⟨stored.channel, nofun⟩
  | restarted _ _ h =>
      obtain ⟨_, rfl⟩ := Manager.startEnter_eq_some.mp h
      exact ⟨stored.channel, nofun⟩
  | published _ _ _ => exact ⟨fun _ => id, fun _ => nofun⟩
  | noted _ _ => exact ⟨stored.channel, stored.running⟩
  | failed _ _ => exact ⟨stored.channel, nofun⟩
  | @handled p x status tail _ _ _ _ _ =>
      by_cases ignored : s.m.ignores p = true
      · rwa [Manager.onExit_of_ignores ignored]
      · obtain ⟨noCmd, off⟩ := Manager.onExit_of_not_ignores s.cfg status tail
          (Bool.eq_false_iff.mpr ignored)
        refine ⟨fun q cmd => ?_, fun running => ?_⟩
        · rw [noCmd] at cmd
          cases cmd
        · obtain off | off := off <;> rw [off] at running <;> cases running
  | marked _ _ => exact ⟨stored.channel, nofun⟩
  | _ => exact stored

/-- What every orderly step keeps. -/
structure Orderliness (s : Host) : Prop where
  reaped : Reaped s
  stored : Stored s.m
  quiet : s.quiet = true → Settled s
  ending : ∀ (j : Nat) (x : StopCall), s.stops[j]? = some x → x.Underway → ∃ p, Ending s x p

/-- No `Start` is admitted before a `Stop` has returned. -/
theorem continues_of_orderly (orderly : Orderly s e) {j : Nat} (found : s.stops[j]? = some x)
    (h : x.Underway) (ending : Ending s x p) (effect : Effect s e s') : Continues s s' := by
  have mem := List.mem_of_getElem? found
  apply continues_of_effect effect ending.launched
  intro entered
  cases e with
  | start => exact (orderly entered x mem h).elim
  | restart p => exact (orderly entered x mem h).elim
  | _ => rfl

/-- A `Stop` that returns nil, and not because its kill wait timed out, leaves nothing behind. -/
theorem settled_of_stopped {j : Nat} (inv : Orderliness s) (orderly : Orderly s e)
    (found : s.stops[j]? = some x) (moves : StopMoves s j x e x') (h : x'.stopped = true) :
    Settled s := by
  obtain ⟨kind, at'⟩ := of_decide_eq_true h
  cases moves with
  | idle at_ idle => exact (orderly x found kind at_).2 idle
  | exited at_ channel closed =>
      obtain ⟨p, ending⟩ := inv.ending j x found ⟨kind, by rw [at_]; rfl⟩
      obtain rfl := Option.some.inj (channel.symm.trans ending.channel)
      exact ending.settled inv.reaped closed
  | killed at_ closed =>
      obtain ⟨p, ending⟩ := inv.ending j x found ⟨kind, by rw [at_]; rfl⟩
      obtain rfl := Option.some.inj (ending.kill _ (Or.inr at_))
      exact ending.settled inv.reaped closed
  | returned _ _ other =>
      obtain ⟨rfl, rfl⟩ := StopPc.returned.inj at'
      obtain other | other | other := other
      · exact (other kind).elim
      · exact (other rfl).elim
      · cases other
  | _ => cases at'

/-- A `Stop` that is under way after the step waits for a process that was the only one left. -/
theorem ending_of_moves {j : Nat} (inv : Orderliness s) (orderly : Orderly s e)
    (found : s.stops[j]? = some x) (moves : StopMoves s j x e x') (h : x'.Underway) :
    ∃ p, Ending s x' p := by
  obtain ⟨kind, going⟩ := h
  have before (at_ : x.pc.underway = true) (channel : x'.exited = x.exited)
      (kill : ∀ exited, x'.pc = .killing exited ∨ x'.pc = .killWait exited →
        x.pc = .killing exited) (kind : x.kind = .stop) : ∃ p, Ending s x' p := by
    obtain ⟨p, ending⟩ := inv.ending j x found ⟨kind, at_⟩
    exact ⟨p, ending.goes channel fun exited at' => ending.kill exited (Or.inl (kill exited at'))⟩
  cases moves with
  | running at_ running =>
      have alone := (orderly x found kind at_).1 running
      obtain ⟨p, cmd⟩ := Option.ne_none_iff_exists'.mp (inv.stored.running running)
      refine ⟨p, inv.stored.channel p cmd, alone.launched, fun q y found other => ?_,
        Or.inr cmd, by simp⟩
      refine alone.past q y found fun own => other ?_
      exact Option.some.inj (own.symm.trans cmd)
  | client at_ _ => exact before (by rw [at_]; rfl) rfl (by simp) kind
  | awaits at_ => exact before (by rw [at_]; rfl) rfl (by simp) kind
  | forces _ at_ =>
      refine before ?_ rfl (by simp) kind
      obtain at_ | ⟨_, at_⟩ | at_ := at_ <;> rw [at_] <;> rfl
  | kills at_ =>
      refine before (by rw [at_]; rfl) rfl (fun exited at' => ?_) kind
      obtain at' | at' := at'
      · cases at'
      · rw [at_, StopPc.killWait.inj at']
  | _ => cases going

theorem ending_of_marks {j : Nat} {pc : StopPc} (inv : Orderliness s)
    (found : s.stops[j]? = some x) (marks : Marks s x pc) (kind : x.kind = .stop) :
    ∃ p, Ending s { x with pc } p := by
  cases marks with
  | shutdown at_ =>
      obtain ⟨p, ending⟩ := inv.ending j x found ⟨kind, by rw [at_]; rfl⟩
      exact ⟨p, ending.goes rfl (by simp)⟩
  | @forceStop q at_ cmd =>
      obtain ⟨p, ending⟩ := inv.ending j x found ⟨kind, by rw [at_]; rfl⟩
      refine ⟨p, ending.goes rfl fun exited at' => ?_⟩
      obtain none | own := ending.cmd
      · rw [none] at cmd
        cases cmd
      · obtain at' | at' := at'
        · rw [← StopPc.killing.inj at', inv.stored.channel p own]
        · cases at'

/-- Every call that is under way waits for a process that is the only one left. -/
theorem ending_step (inv : Orderliness s) (orderly : Orderly s e) (effect : Effect s e s')
    {j : Nat} (found : s'.stops[j]? = some x) (h : x.Underway) : ∃ p, Ending s' x p := by
  have stays (old : s.stops[j]? = some x) : ∃ p, Ending s' x p := by
    obtain ⟨p, ending⟩ := inv.ending j x old h
    exact ⟨p, ending.keep effect (continues_of_orderly orderly old h ending effect)⟩
  have goes (own : ∃ p, Ending s x p) (other : e.starts = false) :
      ∃ p, Ending s' x p := by
    obtain ⟨p, ending⟩ := own
    exact ⟨p, ending.keep effect (continues_of_effect effect ending.launched fun _ => other)⟩
  cases effect with
  | @called kind =>
      obtain ⟨_, rfl⟩ | old := of_getElem?_concat found
      · obtain ⟨rfl, going⟩ := h
        cases going
      · exact stays old
  | stopped call moves =>
      obtain ⟨_, rfl⟩ | ⟨_, old⟩ := of_getElem?_set call found
      · apply goes (ending_of_moves inv orderly call moves h)
        obtain ⟨_, rfl⟩ | rfl | rfl := moves.event <;> rfl
      · exact stays old
  | marked call marks =>
      obtain ⟨_, rfl⟩ | ⟨_, old⟩ := of_getElem?_set call found
      · exact goes (ending_of_marks inv call marks h.1) rfl
      · exact stays old
  | _ => exact stays found

/-- A quiet host is settled. -/
theorem quiet_step (inv : Orderliness s) (orderly : Orderly s e) (effect : Effect s e s')
    (quiet : s'.quiet = true) : Settled s' := by
  have stays (old : s.quiet = true) (outside : e = .start → s.m.startEnter = none) :
      Settled s' := (inv.quiet old).step effect outside
  cases effect with
  | admitted _ => cases quiet
  | busy h => exact stays quiet fun _ => h
  | @stopped e j x x' found moves =>
      have settled : Settled s := by
        obtain old | new := Bool.or_eq_true_iff.mp quiet
        · exact inv.quiet old
        · exact settled_of_stopped inv orderly found moves new
      exact ⟨settled.dead, settled.launched, settled.awake, settled.stopping⟩
  | moved _ moves _ =>
      apply stays quiet
      cases moves <;> nofun
  | waited _ h =>
      apply stays quiet
      obtain ⟨rfl, _⟩ | rfl | rfl := h.event <;> nofun
  | _ => exact stays quiet nofun

theorem orderliness_step (inv : Orderliness s) (orderly : Orderly s e) (effect : Effect s e s') :
    Orderliness s' where
  reaped := inv.reaped.keep effect
  stored := inv.stored.step effect
  quiet := quiet_step inv orderly effect
  ending _ _ found h := ending_step inv orderly effect found h

/-- In a run of orderly steps, no process is alive after a `Stop` has returned nil without its
kill wait timing out, until `Start` is called from outside. -/
theorem clean_exit_of_orderly (x : Execution (hostSystem goos)) :
    x.Meets Orderly → x.Always CleanExit := by
  intro orderly
  have inv : x.Always Orderliness := by
    refine x.run.always ?_
      (fun inv guard h => orderliness_step inv guard (effect_of_next h)) orderly
    rintro s ⟨cfg, rfl⟩
    exact ⟨nofun, ⟨nofun, nofun⟩, nofun, nofun⟩
  exact inv.mono fun _ h quiet => (h.quiet quiet).dead

/-- The host with one booted guest and one stop call. -/
def stopRun (m : Manager) (guest : Process) (x : StopCall) : Host :=
  { cfg := sampleConfig, m, procs := [guest], stops := [x],
    calls := [{ accels := ["kvm", "tcg"], pc := .returned none }] }

/-- A manager whose guest has booted. -/
def bootedManager : Manager :=
  { state := .running, cmd := some 0, qmp := some ⟨0⟩, vncPassword := "secret",
    accelUsed := "kvm", exited := some 0 }

theorem orderly_stopRun {m : Manager} {guest : Process} {x : StopCall} (h : x.pc ≠ .checking)
    {err : Option String} : Orderly (stopRun m guest x) (.stopStep 0 err) := by
  intro y found _ at_
  obtain rfl := Option.some.inj found
  exact (h at_).elim

/-- The server stops while the guest runs, and the guest powers off in time. -/
theorem clean_exit_while_running :
    ∃ x : Execution (hostSystem "linux"), x.final.quiet = true ∧ x.Always CleanExit := by
  have booted : Leads (hostSystem "linux") Orderly { cfg := sampleConfig }
      (boot ++ [.stopCall .stop])
      (stopRun bootedManager {} { kind := .stop, pc := .checking }) := by
    refine ⟨nofun, _, rfl, ?_⟩
    iterate 9 refine ⟨trivial, _, rfl, ?_⟩
    rfl
  have alone : Alone (stopRun bootedManager {} { kind := .stop, pc := .checking }) := by
    refine ⟨nofun, fun q y found other => ?_⟩
    cases q with
    | zero => exact (other rfl).elim
    | succ q => cases found
  have asks : Leads (hostSystem "linux") Orderly
      (stopRun bootedManager {} { kind := .stop, pc := .checking })
      [.stopStep 0 none, .stopStep 0 none, .stopStep 0 none, .stopStep 0 none]
      (stopRun bootedManager.markStopping {}
        { kind := .stop, exited := some 0, pc := .awaiting }) := by
    refine ⟨?_, stopRun bootedManager {} { kind := .stop, exited := some 0, pc := .client }, rfl,
      orderly_stopRun (by nofun), stopRun bootedManager {}
        { kind := .stop, exited := some 0, pc := .marking ⟨0⟩ }, rfl,
      orderly_stopRun (by nofun), stopRun bootedManager.markStopping {}
        { kind := .stop, exited := some 0, pc := .executing ⟨0⟩ }, rfl,
      orderly_stopRun (by nofun), _, rfl, rfl⟩
    exact fun y found _ _ => ⟨fun _ => alone, fun idle => (idle rfl).elim⟩
  have closed : Leads (hostSystem "linux") Orderly
      (stopRun bootedManager.markStopping {} { kind := .stop, exited := some 0, pc := .awaiting })
      [.exit 0 .success, .onExit 0 "", .close 0, .sawClosed 0]
      { stopRun { accelUsed := "kvm", exited := some 0, stopping := true }
          { exit := some .success, waiter := .closed }
          { kind := .stop, exited := some 0, pc := .returned none false } with quiet := true } := by
    iterate 4 refine ⟨trivial, _, rfl, ?_⟩
    rfl
  have start : ({ cfg := sampleConfig } : Host) ∈ (hostSystem "linux").initial :=
    ⟨sampleConfig, rfl⟩
  obtain ⟨x, meets, last⟩ := Execution.exists_meets start ((booted.append asks).append closed)
  exact ⟨x, by rw [last], clean_exit_of_orderly x meets⟩

/-- After a `Shutdown` from the API the guest is still powering off when the server stops. -/
def stopWhileStopping : List Event :=
  boot ++ [.stopCall .shutdown, .stopStep 0 none, .stopStep 0 none, .stopStep 0 none,
    .stopCall .stop, .stopStep 1 none]

/-- `Stop` then returns nil at once and leaves the guest running. -/
theorem orphan_after_shutdown :
    ∃ x : Execution (hostSystem "linux"), ¬ x.Always CleanExit := by
  refine Execution.exists_not_always (s := { cfg := sampleConfig }) ⟨sampleConfig, rfl⟩
    (show exec _ _ stopWhileStopping = some _ from rfl) fun held => ?_
  exact held rfl 0 rfl

end VmServer.Vm
