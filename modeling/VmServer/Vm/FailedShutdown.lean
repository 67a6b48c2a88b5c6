import VmServer.Vm.CleanExit
import VmServer.Vm.Operations

/-!
# A `Shutdown` that fails

`Shutdown` marks the manager as stopping before it sends the power button
press, and no path takes the mark back. So a call that has got as far as the
QMP exchange leaves a live guest that no operation reaches any more, and a
call that fails leaves everything as it was exactly when it found no client.
-/

namespace VmServer.Vm

open TransitionSystem Contributions

/-- What later operations and exits depend on. -/
def Manager.standing (m : Manager) : VmState × Bool × Option Nat × Option Qmp × String :=
  (m.state, m.stopping, m.cmd, m.qmp, m.vncPassword)

/-- State and stopping flag are as before, every operation is available as before, and every
exit is classified as before. -/
structure Unchanged (m m' : Manager) : Prop where
  state : m'.state = m.state
  stopping : m'.stopping = m.stopping
  operations : ∀ cfg op, m'.perform cfg op = m.perform cfg op
  exits : ∀ cfg p status tail,
    (m'.onExit cfg p status tail).1.state = (m.onExit cfg p status tail).1.state ∧
      (m'.onExit cfg p status tail).2 = (m.onExit cfg p status tail).2

/-- Only stop call `j` writes what the operations depend on. -/
def OnlyWriter (goos : String) (j : Nat) (s : Host) (e : Event) : Prop :=
  (∃ err, e = .stopStep j err) ∨ ∀ t, s.next goos e = some t → t.m.standing = s.m.standing

/-- A `Shutdown` of stop call `j` starts in `s` and fails in `t` with the guest alive: it finds no
client, or the QMP exchange ends with an error. In between no other call writes the manager. -/
structure ShutdownFails (goos : String) (j : Nat) (s t : Host) : Prop where
  called : ∃ x ∈ s.stops[j]?, x.pc = .client
  failed : ∃ events u err, Leads (hostSystem goos) (OnlyWriter goos j) s events u ∧
    u.next goos (.stopStep j err) = some t ∧ ∃ y ∈ u.stops[j]?,
      (y.pc = .client ∧ u.m.qmpClient = none) ∨ ∃ q, y.pc = .executing q ∧ err ≠ none
  alive : ∃ p ∈ t.m.cmd, t.alive p

/-- The call has left `Shutdown`. -/
def StopPc.past : StopPc → Bool
  | .checking => false
  | .client => false
  | .marking _ => false
  | .executing _ => false
  | _ => true

/-- How far a `Shutdown` that started with the manager `m` is, and what it has written. -/
def Progress (m : Manager) (s : Host) (pc : StopPc) : Prop :=
  match pc with
  | .checking => False
  | .client => s.m.standing = m.standing
  | .marking q => s.m.standing = m.standing ∧ m.qmpClient = some q
  | .executing q => s.m.standing = m.markStopping.standing ∧ m.qmpClient = some q
  | _ => True

variable {goos : String} {m m' : Manager} {s s' : Host} {j : Nat} {x : StopCall} {e : Event}

theorem standing_eq : m'.standing = m.standing ↔ m'.state = m.state ∧ m'.stopping = m.stopping ∧
    m'.cmd = m.cmd ∧ m'.qmp = m.qmp ∧ m'.vncPassword = m.vncPassword := by
  simp [Manager.standing]

theorem qmpClient_of_standing (h : m'.standing = m.standing) : m'.qmpClient = m.qmpClient := by
  obtain ⟨state, _, _, qmp, _⟩ := standing_eq.mp h
  rw [Manager.qmpClient, state, qmp, Manager.qmpClient]

theorem markStopping_standing (h : m'.standing = m.standing) :
    m'.markStopping.standing = m.markStopping.standing := by
  obtain ⟨_, _, cmd, qmp, password⟩ := standing_eq.mp h
  exact standing_eq.mpr ⟨rfl, rfl, cmd, qmp, password⟩

theorem Unchanged.of_standing (h : m'.standing = m.standing) : Unchanged m m' := by
  obtain ⟨state, stopping, cmd, qmp, password⟩ := standing_eq.mp h
  refine ⟨state, stopping, Manager.perform_congr (qmpClient_of_standing h) fun cfg => ?_,
    fun cfg p status tail => ?_⟩
  · rw [Manager.vncCredentials, state, password, Manager.vncCredentials]
  · have same : m'.ignores p = m.ignores p := by rw [Manager.ignores, cmd, Manager.ignores]
    unfold Manager.onExit
    rw [same, stopping]
    split
    · exact ⟨state, rfl⟩
    · cases status with
      | success => exact ⟨rfl, rfl⟩
      | failure text =>
          dsimp only
          split <;> exact ⟨rfl, rfl⟩

/-- A running manager that has been marked is not what it was. -/
theorem not_unchanged_markStopping {q : Qmp} (client : m.qmpClient = some q)
    (h : m'.standing = m.markStopping.standing) : ¬ Unchanged m m' := by
  intro same
  have running : m.state = .running := by
    by_contra idle
    rw [Manager.qmpClient, if_neg idle] at client
    cases client
  have marked := (standing_eq.mp h).1
  rw [same.state, running] at marked
  cases marked

theorem Progress.of_past {pc : StopPc} (h : pc.past) : Progress m s pc := by
  cases pc with
  | checking | client | marking q | executing q => cases h
  | _ => trivial

theorem Progress.same {pc : StopPc} (h : Progress m s pc) (same : s'.m.standing = s.m.standing) :
    Progress m s' pc := by
  cases pc with
  | client => exact same.trans h
  | marking q => exact ⟨same.trans h.1, h.2⟩
  | executing q => exact ⟨same.trans h.1, h.2⟩
  | checking => exact h
  | _ => trivial

theorem stops_setStop {t : Host} (found : s.stops[j]? = some x) (stops : t.stops = s.stops)
    (y : StopCall) (pc : StopPc) : (t.setStop j y pc).stops[j]? = some { y with pc } := by
  rw [Host.setStop, stops, getElem?_set found, if_pos rfl]

/-- The end of `Shutdown` leaves the manager alone. -/
theorem shutdownDone_past (found : s.stops[j]? = some x) (err : Option String) :
    (s.shutdownDone j x err).m = s.m ∧
      ∃ y ∈ (s.shutdownDone j x err).stops[j]?, y.pc.past := by
  unfold Host.shutdownDone
  split
  · exact ⟨rfl, _, stops_setStop found rfl x _, rfl⟩
  · exact ⟨rfl, _, stops_setStop found rfl x _, rfl⟩
  · exact ⟨rfl, _, stops_setStop found rfl x _, rfl⟩

/-- The call's own steps: the client, the mark, the exchange. -/
theorem progress_own {err : Option String} (found : s.stops[j]? = some x)
    (h : Progress m s x.pc) (step : s.stopStep j x err = some s') :
    ∃ y ∈ s'.stops[j]?, Progress m s' y.pc := by
  unfold Host.stopStep at step
  split at step
  · rename_i at_
    rw [at_] at h
    exact h.elim
  · rename_i at_
    rw [at_] at h
    split at step
    · rename_i q client
      obtain rfl := Option.some.inj step
      exact ⟨_, stops_setStop found rfl x _, h, (qmpClient_of_standing h).symm.trans client⟩
    · obtain rfl := Option.some.inj step
      obtain ⟨_, y, hy, past⟩ := shutdownDone_past found (some errNotRunning)
      exact ⟨y, hy, .of_past past⟩
  · rename_i q at_
    rw [at_] at h
    obtain rfl := Option.some.inj step
    exact ⟨_, stops_setStop (t := { s with m := s.m.markStopping }) found rfl x _,
      markStopping_standing h.1, h.2⟩
  · split at step
    · cases step
    · obtain rfl := Option.some.inj step
      obtain ⟨_, y, hy, past⟩ := shutdownDone_past found err
      exact ⟨y, hy, .of_past past⟩
  · split at step
    · obtain rfl := Option.some.inj step
      exact ⟨_, stops_setStop found rfl x _, trivial⟩
    · obtain rfl := Option.some.inj step
      exact ⟨_, stops_setStop found rfl x _, trivial⟩
  · split at step
    · obtain rfl := Option.some.inj step
      exact ⟨_, stops_setStop found rfl x _, trivial⟩
    · obtain rfl := Option.some.inj step
      exact ⟨_, stops_setStop found rfl x _, trivial⟩
  · cases step

theorem StopMoves.past {i : Nat} {x' : StopCall} (h : StopMoves s i x e x')
    (other : ∀ err, e ≠ .stopStep i err) : x'.pc.past := by
  cases h with
  | exited | killed => rfl
  | forces event _ => rfl
  | returned event _ _ => rfl
  | _ => exact absurd rfl (other _)

/-- Other steps leave the call where it is, or it was past `Shutdown` before. -/
theorem stops_other (effect : Effect s e s') (found : s.stops[j]? = some x)
    (other : ∀ err, e ≠ .stopStep j err) : ∃ y ∈ s'.stops[j]?, y = x ∨ y.pc.past := by
  have unchanged : ∃ y ∈ s.stops[j]?, y = x ∨ y.pc.past := ⟨x, found, Or.inl rfl⟩
  cases effect with
  | called =>
      have inside := (List.getElem?_eq_some_iff.mp found).1
      exact ⟨x, (List.getElem?_append_left inside).trans found, Or.inl rfl⟩
  | @stopped _ i z z' found' moves =>
      rw [getElem?_set found']
      split
      · rename_i here
        exact ⟨z', rfl, Or.inr (moves.past (here ▸ other))⟩
      · exact unchanged
  | @marked i err z pc found' marks =>
      rw [getElem?_set found', if_neg]
      · exact unchanged
      · rintro rfl
        exact other err rfl
  | _ => exact unchanged

/-- While only the call writes the manager, what is written is what the call has done. -/
theorem progress_next (h : ∃ y ∈ s.stops[j]?, Progress m s y.pc) (only : OnlyWriter goos j s e)
    (next : s.next goos e = some s') : ∃ y ∈ s'.stops[j]?, Progress m s' y.pc := by
  obtain ⟨x, found, progress⟩ := h
  by_cases own : ∃ err, e = .stopStep j err
  · obtain ⟨err, rfl⟩ := own
    obtain ⟨z, found', step⟩ := Option.bind_eq_some_iff.mp next
    obtain rfl := Option.some.inj (found.symm.trans found')
    exact progress_own found progress step
  · have same := (only.resolve_left own) s' next
    obtain ⟨y, hy, rfl | past⟩ :=
      stops_other (effect_of_next next) found fun err at_ => own ⟨err, at_⟩
    · exact ⟨y, hy, progress.same same⟩
    · exact ⟨y, hy, .of_past past⟩

/-- A failed `Shutdown` has either written nothing, or the mark. -/
theorem ShutdownFails.standing (fails : ShutdownFails goos j s s') :
    (s.m.qmpClient = none ∧ s'.m.standing = s.m.standing) ∨
      ∃ q, s.m.qmpClient = some q ∧ s'.m.standing = s.m.markStopping.standing := by
  obtain ⟨⟨x, found, at_⟩, ⟨events, u, err, leads, next, y, hy, end_⟩, _⟩ := fails
  have start : ∃ y ∈ s.stops[j]?, Progress s.m s y.pc := ⟨x, found, by rw [at_]; exact rfl⟩
  obtain ⟨z, hz, progress⟩ := leads.keeps progress_next start
  obtain rfl := Option.some.inj (hy.symm.trans hz)
  obtain ⟨w, hw, step⟩ := Option.bind_eq_some_iff.mp next
  obtain rfl := Option.some.inj (hy.symm.trans hw)
  unfold Host.stopStep at step
  obtain ⟨client, none⟩ | ⟨q, executing, failed⟩ := end_
  · rw [client] at step progress
    simp only [none] at step
    obtain rfl := Option.some.inj step
    refine Or.inl ⟨(qmpClient_of_standing progress).symm.trans none, ?_⟩
    rw [(shutdownDone_past hy _).1]
    exact progress
  · rw [executing] at step progress
    dsimp only at step
    rw [if_neg fun h => failed h.1] at step
    obtain rfl := Option.some.inj step
    refine Or.inr ⟨q, progress.2, ?_⟩
    rw [(shutdownDone_past hy _).1]
    exact progress.1

/-- In every reachable state, a `Shutdown` that fails while the guest is alive changes nothing
exactly when it has found no QMP client. -/
theorem failed_shutdown_iff (x : Execution (hostSystem goos)) {t : Host}
    (fails : ShutdownFails goos j x.final t) :
    Unchanged x.final.m t.m ↔ x.final.m.qmpClient = none := by
  obtain ⟨none, same⟩ | ⟨q, client, marked⟩ := fails.standing
  · exact iff_of_true (.of_standing same) none
  · refine iff_of_false (not_unchanged_markStopping client marked) ?_
    rw [client]
    exact Option.some_ne_none q

/-- A booted guest that was asked to power off, and a second `Shutdown`. -/
def askedTwice (pc : StopPc) : Host :=
  { stopRun bootedManager.markStopping {} { kind := .shutdown, pc } with
    stops := [{ kind := .shutdown, pc := .returned none false }, { kind := .shutdown, pc }] }

/-- A second `Shutdown` while the guest powers off finds no client. -/
theorem failed_shutdown_while_stopping :
    ∃ x : Execution (hostSystem "linux"), ∃ t,
      ShutdownFails "linux" 1 x.final t ∧ Unchanged x.final.m t.m := by
  obtain ⟨x, last, _⟩ := Execution.of_exec (M := hostSystem "linux") (s := { cfg := sampleConfig })
    (t := askedTwice .client) ⟨sampleConfig, rfl⟩ (show exec _ _ (boot ++ [.stopCall .shutdown,
      .stopStep 0 none, .stopStep 0 none, .stopStep 0 none, .stopCall .shutdown]) = _ from rfl)
  have fails : ShutdownFails "linux" 1 x.final
      (askedTwice (.returned (some errNotRunning) false)) := by
    rw [last]
    exact ⟨⟨_, rfl, rfl⟩, ⟨[], _, none, rfl, rfl, _, rfl, Or.inl ⟨rfl, rfl⟩⟩, 0, rfl, rfl⟩
  refine ⟨x, _, fails, (failed_shutdown_iff x fails).mpr ?_⟩
  rw [last]
  rfl

/-- The request for a power off is aborted during the exchange; the guest stays stopping. -/
theorem aborted_shutdown_sticks :
    ∃ x : Execution (hostSystem "linux"), ∃ t,
      ShutdownFails "linux" 0 x.final t ∧ ¬ Unchanged x.final.m t.m := by
  obtain ⟨x, last, _⟩ := Execution.of_exec (M := hostSystem "linux") (s := { cfg := sampleConfig })
    (t := stopRun bootedManager {} { kind := .shutdown, pc := .client })
    ⟨sampleConfig, rfl⟩ (show exec _ _ (boot ++ [.stopCall .shutdown]) = _ from rfl)
  have exchange : Leads (hostSystem "linux") (OnlyWriter "linux" 0) x.final
      [.stopStep 0 none, .stopStep 0 none]
      (stopRun bootedManager.markStopping {} { kind := .shutdown, pc := .executing ⟨0⟩ }) := by
    rw [last]
    exact ⟨Or.inl ⟨none, rfl⟩, _, rfl, Or.inl ⟨none, rfl⟩, _, rfl, rfl⟩
  have fails : ShutdownFails "linux" 0 x.final (stopRun bootedManager.markStopping {}
      { kind := .shutdown, pc := .returned (some "context canceled") false }) := by
    refine ⟨?_, ⟨_, _, some "context canceled", exchange, rfl, _, rfl,
      Or.inr ⟨⟨0⟩, rfl, by simp⟩⟩, 0, rfl, rfl⟩
    rw [last]
    exact ⟨_, rfl, rfl⟩
  refine ⟨x, _, fails, fun same => ?_⟩
  have state := same.state
  rw [last] at state
  cases state

end VmServer.Vm
