import VmServer.Vm.HiddenGuest

/-!
# A running manager has a guest

`onExit` runs once for each process, possibly before `launch` has stored the
command or between the two critical sections of `Shutdown`. A manager that is
then marked running or stopping has no event left that would correct it.
-/

namespace VmServer.Vm

open TransitionSystem

/-- The states in which the manager says that it has a process. -/
def VmState.on : VmState → Bool
  | .running => true
  | .stopping => true
  | _ => false

/-- A running or stopping manager has a command whose exit is still to be handled, and
handling it leads to `stopped` or `crashed`. -/
def NoGhostGuest (goos : String) (s : Host) : Prop :=
  s.m.state.on = true → ∃ p, s.m.cmd = some p ∧ s.waiter p = some .waiting ∧
    ∀ tail t, s.next goos (.onExit p tail) = some t → t.m.state.off = true

/-- `launch` publishes no process whose exit has been handled, and `Shutdown` marks no
manager without a command. -/
def Attending (s : Host) : Event → Prop
  | .publish t _ => ∀ c i p q password, s.calls[t]? = some c →
      c.pc = .publishing i p q password → s.waiter p = some .waiting
  | .stopStep j _ => ∀ x q, s.stops[j]? = some x → x.pc = .marking q → s.m.cmd ≠ none
  | _ => True

/-- The exit of the command is still to be handled. -/
def Attended (s : Host) : Prop := ∀ p, s.m.cmd = some p → s.waiter p = some .waiting

variable {goos : String} {s s' : Host} {e : Event}

/-- `onExit` for the command is never ignored. -/
theorem off_of_onExit {p : Nat} {tail : String} (cmd : s.m.cmd = some p)
    (h : s.next goos (.onExit p tail) = some s') : s'.m.state.off = true := by
  obtain ⟨x, _, h⟩ := Option.bind_eq_some_iff.mp h
  unfold Host.onExit at h
  split at h
  · obtain rfl := Option.some.inj h
    exact off_iff.mpr (Manager.onExit_of_not_ignores _ _ _
      (Manager.ignores_eq_false.mpr (Or.inl cmd))).2
  · cases h

theorem noGhostGuest_iff (attended : Attended s) :
    NoGhostGuest goos s ↔ (s.m.state.on = true → s.m.cmd ≠ none) := by
  constructor
  · intro held on absent
    obtain ⟨p, cmd, _⟩ := held on
    rw [cmd] at absent
    cases absent
  · intro held on
    obtain ⟨p, cmd⟩ := Option.ne_none_iff_exists'.mp (held on)
    exact ⟨p, cmd, attended p cmd, fun tail t => off_of_onExit cmd⟩

/-- A step that sets no command keeps the one there is attended, unless it handles its exit. -/
theorem Attended.keep (attended : Attended s) (effect : Effect s e s')
    (cmd : ∀ p, s'.m.cmd = some p → s.m.cmd = some p ∧ e.handles p = false) :
    Attended s' := by
  intro p h
  obtain ⟨old, other⟩ := cmd p h
  obtain still | event := effect.waiting (attended p old)
  · exact still
  · rw [event] at other
    cases other

theorem StopMoves.not_marking {j : Nat} {x x' : StopCall} (h : StopMoves s j x e x') :
    ∀ q, x.pc ≠ .marking q := by
  intro q
  cases h with
  | returned _ at_ _ => exact at_ q
  | forces _ at_ => obtain at_ | ⟨_, at_⟩ | at_ := at_ <;> simp [at_]
  | running at_ _ => simp [at_]
  | idle at_ _ => simp [at_]
  | client at_ _ => simp [at_]
  | awaits at_ => simp [at_]
  | kills at_ => simp [at_]
  | exited at_ _ _ => simp [at_]
  | killed at_ _ => simp [at_]

/-- The command stays attended, as long as the published one is. -/
theorem attended_step (goos : String) (attended : Attended s) (effect : Effect s e s')
    (published : NoGhostGuest goos s' ∨ e.publishes = false) : Attended s' := by
  have kept := attended.keep effect
  cases effect with
  | published _ _ _ =>
      obtain ⟨p, cmd, waits, _⟩ := published.resolve_right (by simp [Event.publishes]) rfl
      intro q cmd'
      obtain rfl := Option.some.inj (cmd.symm.trans cmd')
      exact waits
  | spawned _ _ => exact kept fun p cmd => ⟨cmd, rfl⟩
  | admitted h =>
      obtain ⟨_, rfl⟩ := Manager.startEnter_eq_some.mp h
      exact kept fun p cmd => ⟨cmd, rfl⟩
  | restarted _ _ h =>
      obtain ⟨_, rfl⟩ := Manager.startEnter_eq_some.mp h
      exact kept fun p cmd => ⟨cmd, rfl⟩
  | moved _ moves _ => exact attended
  | waited _ h =>
      obtain ⟨rfl, _⟩ | rfl | rfl := h.event
      all_goals exact kept fun p cmd => ⟨cmd, rfl⟩
  | @handled p x status tail waiter found gone at_ h =>
      apply kept
      intro q cmd
      by_cases ignored : s.m.ignores p = true
      · simp only [Manager.onExit_of_ignores ignored] at cmd
        refine ⟨cmd, decide_eq_false ?_⟩
        rintro rfl
        simp [Manager.ignores, cmd] at ignored
      · obtain ⟨noCmd, _⟩ := Manager.onExit_of_not_ignores s.cfg status tail
          (Bool.eq_false_iff.mpr ignored)
        rw [noCmd] at cmd
        cases cmd
  | stopped _ _ => exact attended
  | exited _ _ => exact kept fun p cmd => ⟨cmd, rfl⟩
  | _ => exact attended

/-- `launch` must not publish a process whose exit has been handled. -/
theorem noGhostGuest_published {t i p : Nat} {c : StartCall} {q : Qmp} {password : String}
    {now : Int} (found : s.calls[t]? = some c) (at_ : c.pc = .publishing i p q password)
    (cmd : s'.m.cmd = some p) (state : s'.m.state = .running) (waiter : s'.waiter p = s.waiter p) :
    NoGhostGuest goos s' ↔ Attending s (.publish t now) := by
  constructor
  · intro held' c' i' p' q' password' found' at'
    obtain rfl := Option.some.inj (found.symm.trans found')
    obtain ⟨_, rfl, _, _⟩ := StartPc.publishing.inj (at_.symm.trans at')
    obtain ⟨p', cmd', waits, _⟩ := held' (by rw [state]; rfl)
    obtain rfl := Option.some.inj (cmd.symm.trans cmd')
    exact waiter ▸ waits
  · intro attending _
    have waits := attending c i p q password found at_
    exact ⟨p, cmd, waiter.trans waits, fun tail t => off_of_onExit cmd⟩

/-- `Shutdown` must not mark a manager that has lost its command. -/
theorem noGhostGuest_marked {j : Nat} {err : Option String} {x : StopCall} {pc : StopPc}
    (found : s.stops[j]? = some x) (marks : Marks s x pc) (attended : Attended s')
    (cmd : s'.m.cmd = s.m.cmd) (state : s'.m.state = .stopping) :
    NoGhostGuest goos s' ↔ Attending s (.stopStep j err) := by
  rw [noGhostGuest_iff attended, cmd, state]
  cases marks with
  | shutdown at_ =>
      constructor
      · intro held' _ _ _ _
        exact held' rfl
      · intro attending _
        exact attending x _ found at_
  | forceStop at_ stored =>
      refine iff_of_true (fun _ => by simp [stored]) ?_
      intro y q found' at'
      obtain rfl := Option.some.inj (found.symm.trans found')
      rw [at_] at at'
      cases at'

/-- The other steps of a stop call write nothing. -/
theorem attending_of_moves {j : Nat} {x x' : StopCall} (found : s.stops[j]? = some x)
    (moves : StopMoves s j x e x') : Attending s e := by
  obtain ⟨_, rfl⟩ | rfl | rfl := moves.event
  · intro y q found' at_
    obtain rfl := Option.some.inj (found.symm.trans found')
    exact (moves.not_marking q at_).elim
  all_goals trivial

theorem noGhostGuest_step (attended : Attended s) (held : NoGhostGuest goos s)
    (effect : Effect s e s') : NoGhostGuest goos s' ↔ Attending s e := by
  have guest := (noGhostGuest_iff attended).mp held
  -- every step but a publication keeps the command attended, so only the state matters
  have attended' (other : e.publishes = false) : Attended s' :=
    attended_step goos attended effect (Or.inr other)
  have kept (other : e.publishes = false) (guest : s'.m.state.on = true → s'.m.cmd ≠ none) :
      NoGhostGuest goos s' := (noGhostGuest_iff (attended' other)).mpr guest
  cases effect with
  | config => exact iff_of_true (kept rfl guest) trivial
  | busy _ => exact iff_of_true held trivial
  | admitted h =>
      obtain ⟨_, rfl⟩ := Manager.startEnter_eq_some.mp h
      exact iff_of_true (kept rfl nofun) trivial
  | moved _ moves _ =>
      refine iff_of_true (kept ?_ guest) ?_
      · cases moves <;> rfl
      · cases moves <;> trivial
  | spawned _ _ => exact iff_of_true (kept rfl guest) trivial
  | published found at_ _ => exact noGhostGuest_published found at_ rfl rfl rfl
  | noted _ _ => exact iff_of_true (kept rfl guest) trivial
  | failed _ _ => exact iff_of_true (kept rfl nofun) trivial
  | exited _ _ => exact iff_of_true (kept rfl guest) trivial
  | @handled p x status tail waiter found gone at_ h =>
      refine iff_of_true (kept rfl ?_) trivial
      by_cases ignored : s.m.ignores p = true
      · simpa only [Manager.onExit_of_ignores ignored] using guest
      · obtain ⟨_, off | off⟩ := Manager.onExit_of_not_ignores s.cfg status tail
          (Bool.eq_false_iff.mpr ignored)
        all_goals
          intro on
          rw [off] at on
          cases on
  | restarted _ _ h =>
      obtain ⟨_, rfl⟩ := Manager.startEnter_eq_some.mp h
      exact iff_of_true (kept rfl nofun) trivial
  | waited _ h =>
      obtain ⟨rfl, _⟩ | rfl | rfl := h.event
      all_goals exact iff_of_true (kept rfl guest) trivial
  | called => exact iff_of_true (kept rfl guest) trivial
  | stopped found moves =>
      refine iff_of_true (kept ?_ guest) (attending_of_moves found moves)
      obtain ⟨_, rfl⟩ | rfl | rfl := moves.event <;> rfl
  | marked found marks => exact noGhostGuest_marked found marks (attended' rfl) rfl rfl

/-- In a run, a running or stopping manager always has a process whose exit is still to be
handled, exactly when no handled process is published and `Shutdown` marks no manager that
has lost its command. -/
theorem no_ghost_guest_iff (x : Execution (hostSystem goos)) :
    x.Always (NoGhostGuest goos) ↔ x.Meets Attending := by
  refine x.run.always_iff (I := Attended) ?_
    (fun attended _ held' h => attended_step goos attended (effect_of_next h) (Or.inl held'))
    fun attended held h => noGhostGuest_step attended held (effect_of_next h)
  rintro s ⟨cfg, rfl⟩
  exact ⟨nofun, nofun⟩

/-- The guest exits, and its exit is handled, after its password is set and before it is
published. -/
def exitBeforePublish : List Event :=
  .start :: checked 0 ++ [.spawn 0 none, .dialed 0 (.ok 0), .passwordSet 0 (.ok "secret"),
    .exit 0 (.failure "exit status 1"), .onExit 0 "", .publish 0 0]

/-- The manager is then running with a process that is gone. -/
theorem ghost_published_after_exit :
    ∃ x : Execution (hostSystem "linux"), ¬ x.Always (NoGhostGuest "linux") := by
  refine Execution.exists_not_always (s := { cfg := sampleConfig }) ⟨sampleConfig, rfl⟩
    (show exec _ _ exitBeforePublish = some _ from rfl) fun held => ?_
  obtain ⟨p, cmd, waits, _⟩ := held rfl
  obtain rfl := Option.some.inj cmd
  cases waits

end VmServer.Vm
