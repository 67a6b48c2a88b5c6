import VmServer.Vm.Progress

/-!
# A stopped manager hides no guest

`Status` reports `stopped` or `crashed` from one field. That field is written
by every failed `Start` and by every `onExit` that is not ignored, whether or
not another process is alive.
-/

namespace VmServer.Vm

open TransitionSystem

/-- The states in which `Status` says that there is no guest. -/
def VmState.off : VmState → Bool
  | .stopped => true
  | .crashed => true
  | _ => false

theorem off_iff {state : VmState} : state.off = true ↔ state = .stopped ∨ state = .crashed := by
  cases state <;> simp [VmState.off]

/-- A manager that reports no guest has no command, and no process is running. -/
def NoHiddenGuest (s : Host) : Prop :=
  s.m.state.off = true → s.m.cmd = none ∧ NoneAlive s

/-- A process is spawned only while the manager reports a guest, and the manager stops
reporting one only when there is none left. -/
def Unhidden (s : Host) : Event → Prop
  | .spawn _ none => s.m.state.off = false
  | .fail _ => s.m.cmd = none ∧ NoneAlive s
  | .onExit p _ => s.m.ignores p = true ∨ NoneAlive s
  | _ => True

variable {s s' : Host} {e : Event}

theorem noHiddenGuest_of_on (on : s.m.state.off = false) : NoHiddenGuest s := by
  intro off
  rw [on] at off
  cases off

/-- A step with the same state and command, and with no new process. -/
theorem NoHiddenGuest.keep (held : NoHiddenGuest s) (effect : Effect s e s')
    (state : s'.m.state = s.m.state) (cmd : s'.m.cmd = s.m.cmd)
    (other : e.spawns = false) : NoHiddenGuest s' := by
  intro off
  rw [state] at off
  obtain ⟨noCmd, dead⟩ := held off
  exact ⟨cmd.trans noCmd, dead.keep effect other⟩

/-- When `onExit` clears the command it must not leave another process behind. -/
theorem noHiddenGuest_handled {p : Nat} {status : ExitStatus} {tail : String}
    (effect : Effect s (.onExit p tail) s') (h : s'.m = (s.m.onExit s.cfg p status tail).1)
    (handled : s.m.ignores p = false) : NoHiddenGuest s' ↔ NoneAlive s := by
  obtain ⟨noCmd, off⟩ := Manager.onExit_of_not_ignores s.cfg status tail handled
  rw [← h] at noCmd off
  constructor
  · intro held q alive
    obtain still | ⟨_, event⟩ := effect.stays_alive alive
    · exact (held (off_iff.mpr off)).2 q still
    · cases event
  · exact fun dead _ => ⟨noCmd, dead.keep effect rfl⟩

theorem noHiddenGuest_step (held : NoHiddenGuest s) (effect : Effect s e s') :
    NoHiddenGuest s' ↔ Unhidden s e := by
  have kept := held.keep effect
  cases effect with
  | config => exact iff_of_true held trivial
  | busy _ => exact iff_of_true held trivial
  | admitted h =>
      obtain ⟨_, rfl⟩ := Manager.startEnter_eq_some.mp h
      exact iff_of_true (noHiddenGuest_of_on rfl) trivial
  | moved _ moves _ =>
      apply iff_of_true held
      cases moves <;> trivial
  | spawned _ _ =>
      constructor
      · intro held'
        rw [Unhidden, Bool.eq_false_iff]
        intro off
        have dead := (held' off).2 s.procs.length
        simp [Host.alive] at dead
      · exact fun on => noHiddenGuest_of_on on
  | published _ _ _ => exact iff_of_true (noHiddenGuest_of_on rfl) trivial
  | noted _ _ => exact iff_of_true (kept rfl rfl rfl) trivial
  | failed _ _ => exact ⟨fun held' => held' rfl, fun noGuest _ => noGuest⟩
  | exited _ _ => exact iff_of_true (kept rfl rfl rfl) trivial
  | @handled p x status tail waiter found gone at_ h =>
      have effect : Effect s (.onExit p tail) _ := .handled found gone at_ h
      by_cases ignored : s.m.ignores p = true
      · refine iff_of_true (kept ?_ ?_ rfl) (Or.inl ignored)
        · simp only [Manager.onExit_of_ignores ignored]
        · simp only [Manager.onExit_of_ignores ignored]
      · rw [noHiddenGuest_handled effect rfl (Bool.eq_false_iff.mpr ignored)]
        exact (or_iff_right ignored).symm
  | restarted _ _ h =>
      obtain ⟨_, rfl⟩ := Manager.startEnter_eq_some.mp h
      exact iff_of_true (noHiddenGuest_of_on rfl) trivial
  | waited _ h =>
      obtain ⟨rfl, _⟩ | rfl | rfl := h.event
      all_goals exact iff_of_true (kept rfl rfl rfl) trivial
  | called => exact iff_of_true held trivial
  | stopped _ h =>
      obtain ⟨_, rfl⟩ | rfl | rfl := h.event
      all_goals exact iff_of_true held trivial
  | marked _ _ => exact iff_of_true (noHiddenGuest_of_on rfl) trivial

variable {goos : String}

/-- In a run, a manager that reports no guest hides none, exactly when nothing is spawned
while it reports none and it stops reporting one only when none is left. -/
theorem no_hidden_guest_iff (x : Execution (hostSystem goos)) :
    x.Always NoHiddenGuest ↔ x.Meets Unhidden := by
  refine x.run.always_iff (I := fun _ => True) ?_ (fun _ _ _ _ => trivial)
    fun _ held h => noHiddenGuest_step held (effect_of_next h)
  rintro s ⟨cfg, rfl⟩
  exact ⟨trivial, fun _ => ⟨rfl, fun p alive => by cases alive⟩⟩

/-- A `Start` while a shutdown is pending finds the port of the guest in use. -/
def startWhileStopping : List Event :=
  boot ++ [.stopCall .shutdown, .stopStep 0 none, .stopStep 0 none, .start, .check 1 none,
    .check 1 none, .check 1 (some "in use"), .fail 1]

/-- The manager then reports `stopped` while its guest is running. -/
theorem guest_hidden_by_failed_start :
    ∃ x : Execution (hostSystem "linux"), ¬ x.Always NoHiddenGuest := by
  refine Execution.exists_not_always (s := { cfg := sampleConfig }) ⟨sampleConfig, rfl⟩
    (show exec _ _ startWhileStopping = some _ from rfl) fun held => ?_
  exact (held rfl).2 0 rfl

end VmServer.Vm
