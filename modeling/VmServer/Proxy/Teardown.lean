import VmServer.Proxy.Bridge

/-!
# When the watcher of a bridge is gone

A bridge is before its start, or it relays and nobody has reported, or
someone has reported. Only in the middle phase does the watcher matter, and
there the caller still waits and has not cancelled its own context. So the
watcher leaves the relays unwatched exactly when it observes the cancellation
of the passed-in context.
-/

namespace VmServer.Proxy

open TransitionSystem

namespace Bridge

/-- The caller has not started the goroutines yet. -/
def settingUp (b : Bridge) : Bool :=
  b.caller = .dialing || b.caller = .authenticating || b.caller = .handshaking

/-- The goroutines have not been started. -/
structure Before (b : Bridge) : Prop where
  serverRelay : b.serverRelay = .notStarted
  clientRelay : b.clientRelay = .notStarted
  watcher : b.watcher = .notStarted
  errc : b.errc = []
  ctx : b.ctxCancelled = false
  caller : b.settingUp ∨ b.hasReturned

/-- Both relays run and the caller waits. -/
structure Relaying (b : Bridge) : Prop where
  serverRelay : b.serverRelay = .running
  clientRelay : b.clientRelay = .running
  watcher : b.watcher = .running ∨ b.watcher = .exited
  errc : b.errc = []
  ctx : b.ctxCancelled = false
  caller : b.caller = .receiving

/-- A goroutine has told the caller to stop waiting. -/
structure Told (b : Bridge) : Prop where
  report : b.serverRelay = .reported ∨ b.clientRelay = .reported ∨ b.watcher = .reported
  caller : b.settingUp = false

/-- The three phases of a bridge. -/
def Inv (b : Bridge) : Prop := b.Before ∨ b.Relaying ∨ b.Told

theorem before_initial {b : Bridge} (h : b ∈ bridgeSystem.initial) : b.Before := by
  obtain ⟨viewOnly, rfl⟩ := h
  exact ⟨rfl, rfl, rfl, rfl, rfl, Or.inl rfl⟩

/-- A bridge whose setup is over takes no further step of it. -/
theorem not_setup {b t : Bridge} {err : Option BridgeError} (ended : b.settingUp = false) :
    b.next (.setup err) ≠ some t := by
  intro h
  cases moves_of_next h with
  | dialled caller | authenticated caller | started caller => simp [settingUp, caller] at ended
  | failed err caller => rcases caller with c | c | c <;> simp [settingUp, c] at ended

theorem Before.cancelCaller {b : Bridge} (before : b.Before) :
    ({ b with callerDone := true } : Bridge).Before :=
  ⟨before.serverRelay, before.clientRelay, before.watcher, before.errc, before.ctx, before.caller⟩

theorem Before.giveUp {b : Bridge} (before : b.Before) (err : BridgeError) :
    (b.giveUp err).Before :=
  ⟨before.serverRelay, before.clientRelay, before.watcher, before.errc, before.ctx, Or.inr rfl⟩

/-- Before the start there is the setup, and the caller's context. -/
theorem Before.next_cases {b t : Bridge} {e : BridgeEvent} (before : b.Before)
    (h : b.next e = some t) :
    (∃ err, e = .setup err) ∨ e = .cancelCaller ∧ t = { b with callerDone := true } := by
  obtain ⟨server, client, watcher, errc, _, caller⟩ := before
  cases moves_of_next h with
  | dialled | authenticated | started | failed => exact Or.inl ⟨_, rfl⟩
  | cancelCaller => exact Or.inr ⟨rfl, rfl⟩
  | serverData running | serverEnds _ running => cases server.symm.trans running
  | clientMessage running | clientEnds _ running => cases client.symm.trans running
  | watcherDone running | sessionValid running | sessionExpired running =>
      cases watcher.symm.trans running
  | receive err rest _ sent => cases errc.symm.trans sent
  | cancel err step | closeVnc err step | closeSocket err step =>
      simp [settingUp, hasReturned, step] at caller

/-- The setup leads to the relays, or the goroutines are never started. -/
theorem Before.next {b t : Bridge} {e : BridgeEvent} (before : b.Before)
    (h : b.next e = some t) : t.Before ∨ t.Relaying ∧ t.watcher = .running := by
  rcases before.next_cases h with ⟨err, rfl⟩ | ⟨rfl, rfl⟩
  · have gone := before.giveUp
    obtain ⟨server, client, watcher, errc, ctx, _⟩ := before
    cases moves_of_next h with
    | dialled | authenticated =>
        exact Or.inl ⟨server, client, watcher, errc, ctx, Or.inl rfl⟩
    | started => exact Or.inr ⟨⟨rfl, rfl, Or.inl rfl, errc, ctx, rfl⟩, rfl⟩
    | failed err => exact Or.inl (gone err)
  · exact Or.inl before.cancelCaller

/-- While the bridge relays, a report ends the phase; the watcher leaves it only by way of a
cancelled caller's context. -/
theorem Relaying.next {b t : Bridge} {e : BridgeEvent} (relaying : b.Relaying)
    (h : b.next e = some t) :
    (t.Relaying ∧ (t.watcher = b.watcher ∨ e = .watcherDone ∧ b.callerDone)) ∨ t.Told := by
  obtain ⟨server, client, watcher, errc, ctx, caller⟩ := relaying
  have ended : b.settingUp = false := by simp [settingUp, caller]
  cases moves_of_next h with
  | dialled | authenticated | started | failed => exact absurd h (not_setup ended)
  | cancelCaller | serverData | clientMessage | sessionValid =>
      exact Or.inl ⟨⟨server, client, watcher, errc, ctx, caller⟩, Or.inl rfl⟩
  | serverEnds => exact Or.inr ⟨Or.inl rfl, ended⟩
  | clientEnds => exact Or.inr ⟨Or.inr (Or.inl rfl), ended⟩
  | watcherDone running done =>
      have cancelled : b.callerDone := by simpa [ctxDone, ctx] using done
      exact Or.inl ⟨⟨server, client, Or.inr rfl, errc, ctx, caller⟩, Or.inr ⟨rfl, cancelled⟩⟩
  | sessionExpired => exact Or.inr ⟨Or.inr (Or.inr rfl), ended⟩
  | receive err rest _ sent => cases errc.symm.trans sent
  | cancel err step | closeVnc err step | closeSocket err step => cases caller.symm.trans step

/-- A report stays, and the caller never sets up again. -/
theorem Told.next {b t : Bridge} {e : BridgeEvent} (told : b.Told) (h : b.next e = some t) :
    t.Told := by
  obtain ⟨report, ended⟩ := told
  cases moves_of_next h with
  | dialled | authenticated | started | failed => exact absurd h (not_setup ended)
  | cancelCaller | serverData | clientMessage | sessionValid => exact ⟨report, ended⟩
  | serverEnds => exact ⟨Or.inl rfl, ended⟩
  | clientEnds => exact ⟨Or.inr (Or.inl rfl), ended⟩
  | watcherDone running =>
      -- A watcher that still runs is not the one that reported.
      rcases report with report | report | report
      · exact ⟨Or.inl report, ended⟩
      · exact ⟨Or.inr (Or.inl report), ended⟩
      · cases running.symm.trans report
  | sessionExpired => exact ⟨Or.inr (Or.inr rfl), ended⟩
  | receive | cancel | closeVnc | closeSocket => exact ⟨report, rfl⟩

theorem inv_next {b t : Bridge} {e : BridgeEvent} (inv : b.Inv) (h : b.next e = some t) :
    t.Inv := by
  rcases inv with before | relaying | told
  · exact (before.next h).imp_right fun started => Or.inl started.1
  · exact Or.inr ((relaying.next h).imp_left And.left)
  · exact Or.inr (Or.inr (told.next h))

/-- While the call has not returned and both relays run, the watcher runs or has reported. -/
def Supervised (b : Bridge) : Prop :=
  b.hasReturned = false → b.serverRelay = .running → b.clientRelay = .running →
    b.watcher = .running ∨ b.watcher = .reported

/-- The watcher does not observe the cancellation of the passed-in context while both relays
run. -/
def CallerKeepsWatcher (b : Bridge) (e : BridgeEvent) : Prop :=
  e = .watcherDone → ¬ (b.callerDone ∧ b.serverRelay = .running ∧ b.clientRelay = .running)

theorem Before.supervised {b : Bridge} (before : b.Before) : b.Supervised := by
  intro _ running
  simp [before.serverRelay] at running

theorem Told.supervised {b : Bridge} (told : b.Told) : b.Supervised := by
  intro _ server client
  rcases told.report with report | report | report
  · simp [server] at report
  · simp [client] at report
  · exact Or.inr report

theorem Relaying.supervised_iff {b : Bridge} (relaying : b.Relaying) :
    b.Supervised ↔ b.watcher = .running := by
  have waiting : b.hasReturned = false := by simp [hasReturned, relaying.caller]
  constructor
  · intro supervised
    rcases supervised waiting relaying.serverRelay relaying.clientRelay with running | reported
    · exact running
    · rcases relaying.watcher with w | w <;> simp [w] at reported
  · exact fun running _ _ _ => Or.inl running

/-- A step loses the supervision exactly when it is the watcher's unguarded exit. -/
theorem supervised_next {b t : Bridge} {e : BridgeEvent} (inv : b.Inv) (held : b.Supervised)
    (h : b.next e = some t) : t.Supervised ↔ b.CallerKeepsWatcher e := by
  rcases inv with before | relaying | told
  · refine iff_of_true ?_ fun done => ?_
    · rcases before.next h with before' | ⟨relaying', running⟩
      · exact before'.supervised
      · exact relaying'.supervised_iff.mpr running
    · simp [done, Bridge.next, before.watcher] at h
  · have running := relaying.supervised_iff.mp held
    by_cases done : e = .watcherDone
    · subst done
      obtain ⟨⟨_, ctx⟩, h⟩ := Option.ite_none_right_eq_some.mp h
      obtain rfl := Option.some.inj h
      have cancelled : b.callerDone := by simpa [ctxDone, relaying.ctx] using ctx
      refine iff_of_false (fun supervised => ?_) fun guard =>
        guard rfl ⟨cancelled, relaying.serverRelay, relaying.clientRelay⟩
      rcases supervised (by simp [hasReturned, relaying.caller]) relaying.serverRelay
        relaying.clientRelay with w | w <;> cases w
    · refine iff_of_true ?_ fun d => absurd d done
      rcases relaying.next h with ⟨relaying', same | ⟨d, _⟩⟩ | told
      · exact relaying'.supervised_iff.mpr (same.trans running)
      · exact absurd d done
      · exact told.supervised
  · apply iff_of_true (told.next h).supervised
    intro done bad
    subst done
    obtain ⟨⟨running, _⟩, _⟩ := Option.ite_none_right_eq_some.mp h
    rcases told.report with report | report | report
    · simp [bad.2.1] at report
    · simp [bad.2.2] at report
    · simp [running] at report

end Bridge

/-- A bridge stays supervised throughout exactly when its watcher never observes the
cancellation of the caller's context while both relays run. -/
theorem bridge_supervised_iff (x : Execution bridgeSystem) :
    x.Always Bridge.Supervised ↔ x.Meets Bridge.CallerKeepsWatcher :=
  x.run.always_iff
    (fun _ h => ⟨Or.inl (Bridge.before_initial h), (Bridge.before_initial h).supervised⟩)
    (fun inv _ _ h => Bridge.inv_next inv h)
    (fun inv held h => Bridge.supervised_next inv held h)

/-- A caller that cancels its context, a watcher that leaves, and relays that carry on. -/
def cancelledCaller : List BridgeEvent :=
  [.setup none, .setup none, .setup none, .cancelCaller, .watcherDone, .clientMessage]

theorem bridge_unsupervised_after_cancel :
    ∃ x : Execution bridgeSystem, ¬ x.Always Bridge.Supervised ∧
      x.history.map Prod.snd = cancelledCaller := by
  have run : exec bridgeSystem { viewOnly := false } cancelledCaller = some
      { viewOnly := false, caller := .receiving, callerDone := true, serverRelay := .running,
        clientRelay := .running, watcher := .exited, vncOpen := true } := rfl
  have start : { viewOnly := false } ∈ bridgeSystem.initial := ⟨false, rfl⟩
  obtain ⟨x, last, events⟩ := Execution.of_exec start run
  refine ⟨x, fun supervised => ?_, events⟩
  have held := supervised.2
  rw [last] at held
  rcases held rfl rfl rfl with w | w <;> cases w

end VmServer.Proxy
