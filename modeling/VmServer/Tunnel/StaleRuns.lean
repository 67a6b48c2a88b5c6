import VmServer.Library.Contributions
import VmServer.Tunnel.Manager

/-!
# Runs of earlier calls

A run goes on for a while after its context has been cancelled, and nothing
tells it that the manager now belongs to another run. `Stop` does not wait for
the goroutine of a run, only for its process, and not for long. The runs of
earlier calls are inert where the calls return no earlier than they are done
with what they write.

## Implementation notes

What a cancelled run may still write is read off its phase. A run that is past
the search for the binary, and not in `runOnce`, leaves the loop of
`supervise`. One in `runOnce` that has no process to publish and no line to
look at, or that waits to retry, has one thing left to write, that the tunnel
is stopped; `Stop` itself has written that already.
-/

namespace VmServer.Tunnel

open Config TransitionSystem

/-- The fields that a run of an earlier call must leave alone. -/
def Manager.report (m : Manager) : State × String × Option String × Option Nat :=
  (m.state, m.url, m.err, m.cmd)

/-- A cancelled run in this phase has nothing left to write. -/
def Phase.spent : Phase → Bool
  | .found _ | .looping | .done => true
  | _ => false

/-- A cancelled run in this phase has nothing left to write but that the tunnel is stopped. -/
def Phase.winding : Phase → Bool
  | .launching | .waiting | .returned _ | .backingOff => true
  | .setting state url err next => state = .stopped && url = "" && err = none && next = .done
  | phase => phase.spent

/-- A call may return like this while an earlier run is in this phase. -/
def Returned.allows : Returned → Phase → Bool
  | .stopped, phase => phase.winding
  | .disabled, phase => phase.spent
  | .started, phase => phase.spent

/-- How a call of `Start` returns from its last critical section. -/
def Returned.ofStart (cfg : Config.Tunnel) : Returned := if cfg.enabled then .started else .disabled

variable (find : String → String)

namespace Tunnels

/-- How a call returns by this step, if it does. -/
def returns (s : Tunnels) : TunnelEvent → Option Returned
  | .start cfg =>
      if s.call.isSome || s.manager.cancel.isSome then none else some (.ofStart cfg)
  | .call =>
      match s.call with
      | some (.marking none) => some .stopped
      | some (.resuming cfg) => some (.ofStart cfg)
      | _ => none
  | _ => none

/-- A call returns only once all runs that have begun are done with what they write. -/
def returnsLate (s : Tunnels) (e : TunnelEvent) : Bool :=
  (s.returns e).all fun how => s.runs.all fun r => how.allows r.phase

/-- A run that began before the last call returned does not change what is reported. -/
def Inert (s : Tunnels) (e : TunnelEvent) : Prop :=
  ∀ i step, e = .run i step → i < s.settled →
    ∀ t, s.next find e = some t → t.manager.report = s.manager.report

/-- Between two calls a stopped manager stays stopped and a disabled one disabled, and after a
`Start` only the run of its configuration is left to report anything. -/
def StatusCurrent (s : Tunnels) : Prop :=
  s.call = none →
    match s.last with
    | none => s.runs = []
    | some .stopped =>
        s.runs.length = s.settled ∧ s.manager.state = .stopped ∧ s.manager.err = none
    | some .disabled =>
        s.runs.length = s.settled ∧ s.manager.state = .disabled ∧ s.manager.err = none ∧
          s.manager.url = ""
    | some .started =>
        s.runs.length = s.settled + 1 ∧
          s.runs[s.settled]?.map (·.cfg) = some s.manager.cfg

end Tunnels

/-- Runs of earlier calls are inert, so the status is that of the last call. -/
def StaleRunsInert (x : Execution (tunnelSystem find)) : Prop :=
  x.Meets (Tunnels.Inert find) ∧ x.Always Tunnels.StatusCurrent

variable {find}

/-! ## Cancelled runs -/

section Cancelled

variable {m m' : Manager} {r : Run} {e : RunEvent} {phase : Phase}

/-- A cancelled run that is past its writes stays there. -/
theorem Run.Moves.spent (h : Run.Moves find m r e m' phase) (cancelled : r.cancelled = true)
    (here : r.phase.spent = true) : phase.spent = true ∧ m'.report = m.report := by
  cases h with
  | keeps at_ => exact ⟨rfl, rfl⟩
  | ends at_ => exact ⟨rfl, rfl⟩
  | goesOn at_ going => simp [cancelled] at going
  | found at_ | downloads at_ | notFound at_ | downloaded at_ | notDownloaded at_ | launched at_
  | notLaunched at_ | publishes at_ | announced at_ | printed at_ | registers at_ | skips at_
  | closed at_ | exited at_ | stops at_ | fails at_ | givesUp at_ | retries at_ | reports at_ =>
      simp [at_, Phase.spent] at here

/-- A cancelled run that ends writes again what `Stop` has written. -/
theorem Run.Moves.winding (h : Run.Moves find m r e m' phase) (cancelled : r.cancelled = true)
    (here : r.phase.winding = true) (state : m.state = .stopped) (err : m.err = none) :
    phase.winding = true ∧ m'.report = m.report := by
  cases h with
  | keeps at_ => exact ⟨rfl, rfl⟩
  | ends at_ => exact ⟨rfl, rfl⟩
  | notLaunched at_ => exact ⟨rfl, rfl⟩
  | exited at_ => exact ⟨rfl, rfl⟩
  | stops at_ => exact ⟨by decide, rfl⟩
  | givesUp at_ => exact ⟨by decide, rfl⟩
  | retries at_ => exact ⟨rfl, rfl⟩
  | reports at_ =>
      obtain ⟨⟨⟨rfl, rfl⟩, rfl⟩, rfl⟩ := by simpa [at_, Phase.winding] using here
      exact ⟨rfl, by simp [Manager.report, Manager.setState, state, err]⟩
  | goesOn at_ going | launched at_ going | fails at_ going => simp [cancelled] at going
  | found at_ | downloads at_ | notFound at_ | downloaded at_ | notDownloaded at_ | publishes at_
  | announced at_ | printed at_ | registers at_ | skips at_ | closed at_ =>
      simp [at_, Phase.winding, Phase.spent] at here

/-- A run leaves the configuration and the cancel function to the calls. -/
theorem Run.Moves.keeps_calls (h : Run.Moves find m r e m' phase) :
    m'.cfg = m.cfg ∧ m'.cancel = m.cancel := by
  cases h with
  | registers at_ =>
      unfold Manager.registered
      dsimp only
      split
      · exact ⟨rfl, rfl⟩
      · split <;> exact ⟨rfl, rfl⟩
  | _ => exact ⟨rfl, rfl⟩

end Cancelled

namespace Tunnels

variable {s t : Tunnels} {e : TunnelEvent}

/-- Every run is cancelled, or the one that a call in progress or the next one cancels. -/
structure Cancels (s : Tunnels) : Prop where
  runs : ∀ i r, s.runs[i]? = some r → r.cancelled = true ∨ s.manager.cancel = some i ∨
    ∃ resume, s.call = some (.cancelling (some i) resume)
  taken : ∀ phase, s.call = some phase → (∀ resume, phase ≠ .detaching resume) →
    s.manager.cancel = none

/-- The runs that had begun before the last call returned are cancelled and done with what they
write. -/
structure Settled (s : Tunnels) : Prop where
  first : s.last = none → s.settled = 0
  allowed : ∀ i r how, i < s.settled → s.runs[i]? = some r → s.last = some how →
    how.allows r.phase = true ∧ r.cancelled = true
  stopped : s.last = some .stopped →
    s.runs.length = s.settled ∧ s.manager.state = .stopped ∧ s.manager.err = none

/-- With no cancel function left, all runs are cancelled. -/
theorem Cancels.all (h : s.Cancels) (cancel : s.manager.cancel = none)
    (here : ∀ run resume, s.call ≠ some (.cancelling run resume)) (i : Nat) (r : Run)
    (found : s.runs[i]? = some r) : r.cancelled = true := by
  rcases h.runs i r found with yes | there | ⟨resume, called⟩
  · exact yes
  · simp [cancel] at there
  · exact absurd called (here _ _)

theorem Cancels.begun (h : s.Cancels) (cancel : s.manager.cancel = none)
    (here : ∀ run resume, s.call ≠ some (.cancelling run resume)) (cfg : Config.Tunnel) :
    (s.begun cfg).Cancels := by
  refine ⟨fun i r found => ?_, nofun⟩
  have old := h.all cancel here
  by_cases enabled : cfg.enabled
  · simp only [Tunnels.begun, enabled, if_true] at found ⊢
    rcases Contributions.of_getElem?_concat found with ⟨rfl, _⟩ | before
    · exact .inr (.inl (by simp [Manager.begin, enabled]))
    · exact .inl (old i r before)
  · simp only [Tunnels.begun, enabled, if_false, Bool.false_eq_true] at found
    exact .inl (old i r found)

theorem Cancels.run {i : Nat} {step : RunEvent} (h : s.Cancels)
    (next : s.next find (.run i step) = some t) : t.Cancels := by
  obtain ⟨r, m, phase, found, stepped, rfl⟩ := next_run next
  obtain ⟨_, cancel⟩ := (Run.moves_of_step stepped).keeps_calls
  constructor
  · intro j r' found'
    dsimp only at found' ⊢
    rw [cancel]
    rcases Contributions.of_getElem?_set found found' with ⟨rfl, rfl⟩ | ⟨_, old⟩
    · exact h.runs i r found
    · exact h.runs j r' old
  · intro phase called other
    exact cancel.trans (h.taken phase called other)

theorem Cancels.cancelRun (h : s.Cancels) {run : Option Nat} {resume : Option Config.Tunnel}
    (here : s.call = some (.cancelling run resume)) :
    ({ s.cancelRun run with call := some (.waiting resume) } : Tunnels).Cancels := by
  have cancel := h.taken _ here nofun
  have manager : (s.cancelRun run).manager = s.manager := by cases run <;> rfl
  refine ⟨fun i r found => .inl ?_, fun _ _ _ => manager ▸ cancel⟩
  have old : ∀ r : Run, s.runs[i]? = some r → r.cancelled = true ∨ run = some i := by
    intro r found
    rcases h.runs i r found with yes | there | ⟨resume', called⟩
    · exact .inl yes
    · simp [cancel] at there
    · obtain ⟨rfl, _⟩ := CallPhase.cancelling.inj (Option.some.inj (here.symm.trans called))
      exact .inr rfl
  cases run with
  | none => exact (old r found).resolve_right nofun
  | some j =>
      simp only [Tunnels.cancelRun, List.getElem?_modify] at found
      obtain ⟨r', found', rfl⟩ := Option.map_eq_some_iff.mp found
      by_cases same : j = i
      · simp [same]
      · simpa [same] using (old r' found').resolve_right fun h => same (Option.some.inj h)

theorem Cancels.next (h : s.Cancels) (next : s.next find e = some t) : t.Cancels := by
  cases e with
  | start cfg =>
      obtain ⟨idle, next⟩ := Option.ite_none_left_eq_some.mp next
      split at next
      · obtain rfl := Option.some.inj next
        refine ⟨fun i r found => ?_, fun phase called other => ?_⟩
        · rcases h.runs i r found with yes | there | ⟨resume, called⟩
          · exact .inl yes
          · exact .inr (.inl there)
          · simp [called] at idle
        · exact absurd (Option.some.inj called).symm (other _)
      · rename_i absent
        obtain rfl := Option.some.inj next
        exact h.begun (by simpa using absent) (fun run resume called => by simp [called] at idle)
          cfg
  | stop =>
      obtain ⟨idle, next⟩ := Option.ite_none_left_eq_some.mp next
      obtain rfl := Option.some.inj next
      refine ⟨fun i r found => ?_, fun phase called other => ?_⟩
      · rcases h.runs i r found with yes | there | ⟨resume, called⟩
        · exact .inl yes
        · exact .inr (.inl there)
        · simp [called] at idle
      · exact absurd (Option.some.inj called).symm (other _)
  | call =>
      obtain ⟨phase, here, rfl⟩ := Option.map_eq_some_iff.mp next
      have at_ : ∀ {phase'}, phase ≠ phase' → s.call ≠ some phase' := fun ne called =>
        ne (Option.some.inj (here.symm.trans called))
      cases phase with
      | detaching resume =>
          refine ⟨fun i r found => ?_, fun _ _ _ => rfl⟩
          rcases h.runs i r found with yes | there | ⟨resume', called⟩
          · exact .inl yes
          · exact .inr (.inr
              ⟨resume, congrArg some (congrArg (CallPhase.cancelling · resume) there)⟩)
          · exact absurd called (at_ nofun)
      | cancelling run resume => exact h.cancelRun here
      | waiting resume =>
          have cancel := h.taken _ here nofun
          exact ⟨fun i r found => .inl (h.all cancel (fun _ _ => at_ nofun) i r found),
            fun _ _ _ => cancel⟩
      | marking resume =>
          have cancel := h.taken _ here nofun
          cases resume <;>
            exact ⟨fun i r found => .inl (h.all cancel (fun _ _ => at_ nofun) i r found),
              fun _ _ _ => cancel⟩
      | resuming cfg => exact h.begun (h.taken _ here nofun) (fun _ _ => at_ nofun) cfg
  | run i step => exact h.run next

/-- A call that returns has left the runs cancelled that had begun. -/
theorem Cancels.of_returns (h : s.Cancels) {how : Returned} (ends : s.returns e = some how)
    (i : Nat)
    (r : Run) (found : s.runs[i]? = some r) : r.cancelled = true := by
  cases e with
  | start cfg =>
      obtain ⟨idle, _⟩ := Option.ite_none_left_eq_some.mp ends
      obtain ⟨uncalled, absent⟩ : s.call = none ∧ s.manager.cancel = none := by simpa using idle
      exact h.all absent (fun _ _ called => by simp [uncalled] at called) i r found
  | call =>
      simp only [returns] at ends
      split at ends
      · rename_i here
        exact h.all (h.taken _ here nofun) (fun _ _ called => by simp [here] at called) i r found
      · rename_i here
        exact h.all (h.taken _ here nofun) (fun _ _ called => by simp [here] at called) i r found
      · cases ends
  | stop => cases ends
  | run i step => cases ends

/-- The state that a returning call leaves. -/
theorem settled_of_returns (h : s.Cancels) (late : s.returnsLate e = true) {how : Returned}
    (ends : s.returns e = some how)
    (before : ∀ i r, i < s.runs.length → t.runs[i]? = some r → s.runs[i]? = some r)
    (settled : t.settled = s.runs.length) (last : t.last = some how)
    (stopped : how = .stopped →
      t.runs.length = t.settled ∧ t.manager.state = .stopped ∧ t.manager.err = none) :
    t.Settled := by
  refine ⟨fun none => ?_, fun i r how' old found is => ?_, fun is => ?_⟩
  · simp [last] at none
  · obtain rfl := Option.some.inj (last.symm.trans is)
    have here := before i r (settled ▸ old) found
    have all : s.runs.all (fun r => how.allows r.phase) = true := by
      simpa [returnsLate, ends] using late
    exact ⟨List.all_eq_true.mp all r (List.mem_of_getElem? here), h.of_returns ends i r here⟩
  · exact stopped (Option.some.inj (last.symm.trans is))

theorem Settled.begun (h : s.Cancels) (late : s.returnsLate e = true) {cfg : Config.Tunnel}
    (ends : s.returns e = some (.ofStart cfg)) : (s.begun cfg).Settled := by
  refine settled_of_returns h late ends (fun i r inside found => ?_) rfl ?_ ?_
  · simp only [Tunnels.begun] at found
    split at found
    · rwa [List.getElem?_append_left inside] at found
    · exact found
  · simp only [Tunnels.begun, Returned.ofStart]
  · unfold Returned.ofStart
    split <;> nofun

/-- A step of an earlier run changes nothing that is reported, and leaves it where it may be. -/
theorem Settled.stale (h : s.Settled) {i : Nat} {step : RunEvent} {r : Run} {m : Manager}
    {phase : Phase} (old : i < s.settled) (found : s.runs[i]? = some r)
    (stepped : r.step find s.manager step = some (m, phase)) :
    m.report = s.manager.report ∧ ∀ how, s.last = some how → how.allows phase = true := by
  have moves := Run.moves_of_step stepped
  cases last : s.last with
  | none => simp [h.first last] at old
  | some how =>
      obtain ⟨allowed, cancelled⟩ := h.allowed i r how old found last
      cases how with
      | stopped =>
          obtain ⟨_, state, err⟩ := h.stopped last
          obtain ⟨stays, same⟩ := moves.winding cancelled allowed state err
          exact ⟨same, fun _ is => Option.some.inj is ▸ stays⟩
      | disabled =>
          obtain ⟨stays, same⟩ := moves.spent cancelled allowed
          exact ⟨same, fun _ is => Option.some.inj is ▸ stays⟩
      | started =>
          obtain ⟨stays, same⟩ := moves.spent cancelled allowed
          exact ⟨same, fun _ is => Option.some.inj is ▸ stays⟩

theorem Settled.inert (h : s.Settled) : s.Inert find e := by
  rintro i step rfl old t next
  obtain ⟨r, m, phase, found, stepped, rfl⟩ := next_run next
  exact (h.stale old found stepped).1

theorem Settled.run {i : Nat} {step : RunEvent} (h : s.Settled)
    (next : s.next find (.run i step) = some t) : t.Settled := by
  obtain ⟨r, m, phase, found, stepped, rfl⟩ := next_run next
  refine ⟨h.first, fun j r' how old found' last => ?_, fun last => ?_⟩
  · rcases Contributions.of_getElem?_set found found' with ⟨rfl, rfl⟩ | ⟨_, before⟩
    · exact ⟨(h.stale old found stepped).2 how last, (h.allowed i r how old found last).2⟩
    · exact h.allowed j r' how old before last
  · obtain ⟨length, state, err⟩ := h.stopped last
    have inside : i < s.settled := length ▸ (List.getElem?_eq_some_iff.mp found).1
    have same := (h.stale inside found stepped).1
    obtain ⟨state', _, err', _⟩ := by simpa [Manager.report] using same
    exact ⟨by simpa using length, state'.trans state, err'.trans err⟩

/-- A step of a call that does not return, and that leaves the runs where they are. -/
theorem Settled.of_same (h : s.Settled) (settled : t.settled = s.settled) (last : t.last = s.last)
    (length : t.runs.length = s.runs.length)
    (runs : ∀ (i : Nat) (r : Run), t.runs[i]? = some r →
      ∃ r' : Run, s.runs[i]? = some r' ∧ r.phase = r'.phase ∧
        (r'.cancelled = true → r.cancelled = true))
    (state : t.manager.state = s.manager.state ∨ t.manager.state = .stopped)
    (err : t.manager.err = s.manager.err ∨ t.manager.err = none) : t.Settled := by
  refine ⟨fun none => ?_, fun i r how old found is => ?_, fun is => ?_⟩
  · rw [settled]
    exact h.first (last ▸ none)
  · obtain ⟨r', found', phase, cancelled⟩ := runs i r found
    obtain ⟨allowed, yes⟩ := h.allowed i r' how (settled ▸ old) found' (last ▸ is)
    exact ⟨phase ▸ allowed, cancelled yes⟩
  · obtain ⟨all, stopped, none⟩ := h.stopped (last ▸ is)
    refine ⟨length.trans (all.trans settled.symm), ?_, ?_⟩
    · rcases state with same | now
      · exact same.trans stopped
      · exact now
    · rcases err with same | now
      · exact same.trans none
      · exact now

theorem Settled.next (h : s.Settled) (cancels : s.Cancels) (late : s.returnsLate e = true)
    (next : s.next find e = some t) : t.Settled := by
  cases e with
  | start cfg =>
      obtain ⟨idle, next⟩ := Option.ite_none_left_eq_some.mp next
      split at next
      · obtain rfl := Option.some.inj next
        exact h.of_same rfl rfl rfl (fun i r found => ⟨r, found, rfl, id⟩) (.inl rfl) (.inl rfl)
      · rename_i absent
        obtain rfl := Option.some.inj next
        exact Settled.begun cancels late (by simp [returns, idle, absent])
  | stop =>
      obtain ⟨_, next⟩ := Option.ite_none_left_eq_some.mp next
      obtain rfl := Option.some.inj next
      exact h.of_same rfl rfl rfl (fun i r found => ⟨r, found, rfl, id⟩) (.inl rfl) (.inl rfl)
  | call =>
      obtain ⟨phase, here, rfl⟩ := Option.map_eq_some_iff.mp next
      cases phase with
      | detaching resume =>
          exact h.of_same rfl rfl rfl (fun i r found => ⟨r, found, rfl, id⟩) (.inl rfl) (.inl rfl)
      | cancelling run resume =>
          cases run with
          | none =>
              exact h.of_same rfl rfl rfl (fun i r found => ⟨r, found, rfl, id⟩) (.inl rfl)
                (.inl rfl)
          | some j =>
              refine h.of_same rfl rfl (List.length_modify ..) (fun i r found => ?_) (.inl rfl)
                (.inl rfl)
              simp only [callStep, cancelRun, List.getElem?_modify] at found
              obtain ⟨r', found', rfl⟩ := Option.map_eq_some_iff.mp found
              refine ⟨r', found', ?_, ?_⟩ <;> split <;> simp
      | waiting resume =>
          exact h.of_same rfl rfl rfl (fun i r found => ⟨r, found, rfl, id⟩) (.inl rfl) (.inl rfl)
      | marking resume =>
          cases resume with
          | none =>
              have ends : s.returns .call = some .stopped := by simp [returns, here]
              exact settled_of_returns cancels late ends (fun _ _ _ found => found) rfl rfl
                fun _ => ⟨rfl, rfl, rfl⟩
          | some cfg =>
              exact h.of_same rfl rfl rfl (fun i r found => ⟨r, found, rfl, id⟩) (.inr rfl)
                (.inr rfl)
      | resuming cfg => exact Settled.begun cancels late (by simp [returns, here])
  | run i step => exact h.run next

theorem statusCurrent_begun (cfg : Config.Tunnel) : (s.begun cfg).StatusCurrent := by
  intro _
  by_cases enabled : cfg.enabled
  · simp [begun, enabled, Manager.begin]
  · simp [begun, enabled, Manager.begin]

theorem statusCurrent_run {i : Nat} {step : RunEvent} (current : s.StatusCurrent)
    (inert : s.Inert find (.run i step)) (h : s.next find (.run i step) = some t) :
    t.StatusCurrent := by
  obtain ⟨r, m, phase, found, stepped, rfl⟩ := next_run h
  have inside := (List.getElem?_eq_some_iff.mp found).1
  intro idle
  have before := current idle
  dsimp only
  have kept (stale : s.runs.length = s.settled) : m.report = s.manager.report :=
    inert i step rfl (stale ▸ inside) _ h
  cases last : s.last with
  | none =>
      rw [last] at before
      simp [before] at inside
  | some returned =>
      rw [last] at before
      cases returned with
      | stopped =>
          obtain ⟨stale, state, err⟩ := before
          obtain ⟨state', _, err', _⟩ := by simpa [Manager.report] using kept stale
          exact ⟨by simpa using stale, state'.trans state, err'.trans err⟩
      | disabled =>
          obtain ⟨stale, state, err, url⟩ := before
          obtain ⟨state', url', err', _⟩ := by simpa [Manager.report] using kept stale
          exact ⟨by simpa using stale, state'.trans state, err'.trans err, url'.trans url⟩
      | started =>
          obtain ⟨length, cfg⟩ := before
          refine ⟨by simpa using length, ?_⟩
          rw [(Run.moves_of_step stepped).keeps_calls.1, ← cfg]
          by_cases own : i = s.settled
          · subst own
            rw [List.getElem?_set_self inside, found]
            rfl
          · rw [List.getElem?_set_ne own]

/-- While a call is in progress nothing is said about the status. -/
theorem statusCurrent_of_busy {phase : CallPhase} (busy : s.call = some phase) :
    s.StatusCurrent := by
  intro idle
  cases busy.symm.trans idle

theorem statusCurrent_next (current : s.StatusCurrent) (inert : s.Inert find e)
    (h : s.next find e = some t) : t.StatusCurrent := by
  cases e with
  | start cfg =>
      obtain ⟨_, h⟩ := Option.ite_none_left_eq_some.mp h
      split at h
      · obtain rfl := Option.some.inj h
        exact statusCurrent_of_busy rfl
      · exact Option.some.inj h ▸ statusCurrent_begun cfg
  | stop =>
      obtain ⟨_, h⟩ := Option.ite_none_left_eq_some.mp h
      obtain rfl := Option.some.inj h
      exact statusCurrent_of_busy rfl
  | call =>
      obtain ⟨phase, _, rfl⟩ := Option.map_eq_some_iff.mp h
      cases phase with
      | resuming cfg => exact statusCurrent_begun cfg
      | marking resume =>
          cases resume with
          | none => exact fun _ => ⟨rfl, rfl, rfl⟩
          | some cfg => exact statusCurrent_of_busy rfl
      | detaching resume => exact statusCurrent_of_busy rfl
      | cancelling run resume => exact statusCurrent_of_busy rfl
      | waiting resume => exact statusCurrent_of_busy rfl
  | run i step => exact statusCurrent_run current inert h

/-- What holds as long as every call returns late. -/
structure Orderly (s : Tunnels) : Prop where
  cancels : s.Cancels
  settled : s.Settled
  current : s.StatusCurrent

end Tunnels

/-- Where every call returns only once the runs of earlier calls are done with what they write,
these runs are inert, and the status is that of the last call. -/
theorem stale_runs_inert (x : Execution (tunnelSystem find))
    (late : x.Meets fun s e => s.returnsLate e = true) : StaleRunsInert find x := by
  have all : x.Always Tunnels.Orderly := by
    refine x.run.always ?_ ?_ late
    · rintro s ⟨cfg, rfl⟩
      exact ⟨⟨nofun, nofun⟩, ⟨fun _ => rfl, nofun, nofun⟩, fun _ => rfl⟩
    · intro s e t h late next
      exact ⟨h.cancels.next next, h.settled.next h.cancels late next,
        Tunnels.statusCurrent_next h.current h.settled.inert next⟩
  exact ⟨fun p member => (all.1 p member).settled.inert, all.mono fun _ h => h.current⟩

/-- A quick tunnel whose binary is downloaded when it is missing. -/
def quickTunnel : Config.Tunnel where
  enabled := true
  mode := "quick"
  token := ""
  hostname := ""
  binaryPath := ""
  autoDownload := true

/-- The tunnel is stopped when its run is about to launch cloudflared, and started again once
the run has ended. -/
def stopBeforeLaunch : List TunnelEvent :=
  [.start quickTunnel, .run 0 (.find (.ok "cloudflared")), .run 0 .go, .stop, .call, .call, .call,
    .call, .run 0 .go, .start quickTunnel]

theorem stale_runs_inert_stopBeforeLaunch :
    ∃ x : Execution (tunnelSystem fun _ => ""),
      x.final.runs.length = 2 ∧ StaleRunsInert (fun _ => "") x := by
  have run : exec ((tunnelSystem fun _ => "").restrict Tunnels.returnsLate)
      { manager := { cfg := quickTunnel } } stopBeforeLaunch = some _ := rfl
  obtain ⟨x, late, last⟩ := Execution.exists_meets (M := tunnelSystem fun _ => "")
    ⟨quickTunnel, rfl⟩ (Leads.of_exec run)
  exact ⟨x, last ▸ rfl, stale_runs_inert x late⟩

/-- The tunnel is stopped while its run downloads cloudflared; the download is then cancelled. -/
def stopWhileDownloading : List TunnelEvent :=
  [.start quickTunnel, .run 0 (.find (.error "cloudflared not found")), .run 0 .go,
    .stop, .call, .call, .call, .call,
    .run 0 (.download (.error "download cloudflared: context canceled"))]

/-- The stopped manager is about to report the error of the cancelled download. -/
def downloadFailed : Tunnels where
  manager := { cfg := quickTunnel, state := .stopped }
  runs := [{
    cfg := quickTunnel
    cancelled := true
    phase := .setting .error "" (some "download cloudflared: context canceled") .done }]
  last := some .stopped
  settled := 1

theorem error_after_stop :
    ∃ x : Execution (tunnelSystem fun _ => ""), ¬ StaleRunsInert (fun _ => "") x := by
  have run : exec (tunnelSystem fun _ => "") { manager := { cfg := quickTunnel } }
      stopWhileDownloading = some downloadFailed := rfl
  have disturbs : ¬ downloadFailed.Inert (fun _ => "") (.run 0 .go) := by
    intro inert
    have same := inert 0 .go rfl (by decide) _ rfl
    revert same
    decide
  obtain ⟨x, hx⟩ := Execution.exists_not_meets (M := tunnelSystem fun _ => "")
    ⟨quickTunnel, rfl⟩ run rfl disturbs
  exact ⟨x, fun held => hx held.1⟩

end VmServer.Tunnel
