import VmServer.Vm.Progress

/-!
# One Start and one guest at a time

The only guard of `Start` is the state field, and `onExit`, `Shutdown` and
`ForceStop` write it too. The exact condition on the steps of a run is about
what an admission and a spawn find; the run lemma below it says when the state
field is guard enough.
-/

namespace VmServer.Vm

open TransitionSystem

/-- One `Start` call is between its admission and its return, and one process is alive, at
most. -/
def OneGuest (s : Host) : Prop :=
  s.pending.length ≤ 1 ∧ ∀ p q, s.alive p = true → s.alive q = true → p = q

/-- No `Start` is admitted while another is pending, and QEMU is spawned only when no process
is alive. -/
def Exclusive (s : Host) : Event → Prop
  | .start => s.m.startEnter ≠ none → s.pending = []
  | .restart _ => s.m.startEnter ≠ none → s.pending = []
  | .spawn _ none => NoneAlive s
  | _ => True

variable {goos : String} {s s' : Host} {e : Event}

theorem OneGuest.alive_unique (held : OneGuest s) (effect : Effect s e s')
    (other : e.spawns = false) : ∀ p q, s'.alive p = true → s'.alive q = true → p = q :=
  fun p q hp hq => held.2 p q (effect.was_alive other hp) (effect.was_alive other hq)

/-- An admission adds a pending `Start`. -/
theorem oneGuest_admitted (held : OneGuest s) (effect : Effect s e s')
    (pending : s'.pending = s.pending ++ [.checking .disk]) (other : e.spawns = false) :
    OneGuest s' ↔ s.pending = [] := by
  constructor
  · rintro ⟨one, _⟩
    rw [pending, List.length_append, List.length_singleton] at one
    exact List.eq_nil_of_length_eq_zero (by omega)
  · intro free
    refine ⟨?_, held.alive_unique effect other⟩
    rw [pending, free]
    exact Nat.le_refl 1

/-- A spawn adds a process that is alive. -/
theorem oneGuest_spawned (held : OneGuest s) {t : Nat} (effect : Effect s (.spawn t none) s')
    (pending : s'.pending.length ≤ s.pending.length) (new : s'.alive s.procs.length = true) :
    OneGuest s' ↔ NoneAlive s := by
  constructor
  · intro held' q alive
    obtain still | ⟨_, event⟩ := effect.stays_alive alive
    · have same := held'.2 q _ still new
      obtain ⟨_, found, _⟩ := alive_iff.mp alive
      have inside := (List.getElem?_eq_some_iff.mp found).1
      omega
    · cases event
  · intro dead
    refine ⟨pending.trans held.1, fun p q hp hq => ?_⟩
    obtain hp | ⟨rfl, _⟩ := effect.alive hp
    · exact (dead p hp).elim
    · obtain hq | ⟨rfl, _⟩ := effect.alive hq
      · exact (dead q hq).elim
      · rfl

theorem oneGuest_step (held : OneGuest s) (effect : Effect s e s') :
    OneGuest s' ↔ Exclusive s e := by
  have kept (pending : s'.pending.length ≤ s.pending.length) (other : e.spawns = false) :
      OneGuest s' := ⟨pending.trans held.1, held.alive_unique effect other⟩
  cases effect with
  | config => exact iff_of_true held trivial
  | busy h => exact iff_of_true held fun entered => (entered h).elim
  | admitted h =>
      rw [oneGuest_admitted held (.admitted h) pending_admitted rfl]
      exact ⟨fun free _ => free, fun exclusive => exclusive (by simp [h])⟩
  | moved found moves h =>
      refine iff_of_true (kept (pending_length_set found moves.going.1.1) ?_) ?_
      · cases moves <;> rfl
      · cases moves <;> trivial
  | spawned found at_ =>
      refine oneGuest_spawned held (.spawned found at_) (pending_length_set found ?_) ?_
      · simp [at_, StartPc.inProgress]
      · simp [Host.alive]
  | published found at_ h =>
      refine iff_of_true (kept (pending_length_set found ?_) rfl) trivial
      simp [at_, StartPc.inProgress]
  | noted found at_ =>
      refine iff_of_true (kept (pending_length_set found ?_) rfl) trivial
      simp [at_, StartPc.inProgress]
  | failed found at_ =>
      refine iff_of_true (kept (pending_length_set found ?_) rfl) trivial
      simp [at_, StartPc.inProgress]
  | exited _ _ => exact iff_of_true (kept (Nat.le_refl _) rfl) trivial
  | handled _ _ _ _ => exact iff_of_true (kept (Nat.le_refl _) rfl) trivial
  | restarted found at_ h =>
      rw [oneGuest_admitted held (.restarted found at_ h) pending_admitted rfl]
      exact ⟨fun free _ => free, fun exclusive => exclusive (by simp [h])⟩
  | waited _ h =>
      obtain ⟨rfl, busy⟩ | rfl | rfl := h.event
      · exact iff_of_true (kept (Nat.le_refl _) rfl) fun entered => (entered busy).elim
      all_goals exact iff_of_true (kept (Nat.le_refl _) rfl) trivial
  | called => exact iff_of_true held trivial
  | stopped _ h =>
      obtain ⟨_, rfl⟩ | rfl | rfl := h.event
      all_goals exact iff_of_true held trivial
  | marked _ _ => exact iff_of_true held trivial

/-! ## When the state field is guard enough -/

/-- The state field is not written, and no guest left alive, while a `Start` is pending. -/
def Undisturbed (s : Host) : Event → Prop
  | .start => s.m.startEnter ≠ none → NoneAlive s
  | .restart _ => s.m.startEnter ≠ none → NoneAlive s
  | .onExit p _ => s.m.ignores p = true ∨ s.pending = []
  | .stopStep j _ => ∀ x, s.stops[j]? = some x →
      (∃ q, x.pc = .marking q) ∨ (x.pc = .forcing ∧ s.m.cmd ≠ none) → s.pending = []
  | .passwordSet t (.error _) => ∀ c p, s.calls[t]? = some c → c.pc.process = some p →
      ¬ s.alive p = true
  | _ => True

/-- A single pending `Start` shows in the state field, and until it has published its guest
only the process it is launching is alive. -/
def Launching (s : Host) : Prop :=
  s.pending = [] ∨ ∃ pc, s.pending = [pc] ∧
    (s.m.state = .starting ∨ pc = .noting ∧ s.m.state = .running) ∧
    (pc ≠ .noting → ∀ p, s.alive p = true → pc.process = some p)

/-- A pending call in a state that has one. -/
theorem Launching.at_ {t : Nat} {c : StartCall} (launching : Launching s)
    (found : s.calls[t]? = some c) (going : c.pc.inProgress = true) :
    (s.m.state = .starting ∨ c.pc = .noting ∧ s.m.state = .running) ∧
      (c.pc ≠ .noting → ∀ p, s.alive p = true → c.pc.process = some p) ∧
      ∀ c', (s.calls.set t c').flatMap (·.pc.pending) = c'.pc.pending := by
  have one : s.pending.length ≤ 1 := by
    obtain free | ⟨pc, single, _⟩ := launching
    · simp [free]
    · simp [single]
  obtain ⟨single, rest⟩ := pending_single one found going
  obtain free | ⟨pc, single', state, only⟩ := launching
  · rw [free] at single
    cases single
  · obtain rfl := List.singleton_inj.mp (single.symm.trans single')
    exact ⟨state, only, rest⟩

theorem Launching.keep (launching : Launching s) (effect : Effect s e s')
    (pending : s'.pending = s.pending) (state : s'.m.state = s.m.state)
    (other : e.spawns = false) : Launching s' := by
  obtain free | ⟨pc, single, going, only⟩ := launching
  · exact Or.inl (pending.trans free)
  · refine Or.inr ⟨pc, pending.trans single, state ▸ going, fun early p alive => ?_⟩
    exact only early p (effect.was_alive other alive)

/-- `Start` is refused while another is pending. -/
theorem Launching.free (launching : Launching s) (entered : s.m.startEnter ≠ none) :
    s.pending = [] := by
  obtain free | ⟨pc, _, state, _⟩ := launching
  · exact free
  · obtain ⟨m, h⟩ := Option.ne_none_iff_exists'.mp entered
    obtain ⟨⟨notRunning, notStarting⟩, _⟩ := Manager.startEnter_eq_some.mp h
    obtain starting | ⟨_, running⟩ := state
    · exact (notStarting starting).elim
    · exact (notRunning running).elim

theorem launching_admitted (effect : Effect s e s') (dead : NoneAlive s)
    (other : e.spawns = false) (pending : s'.pending = [.checking .disk])
    (state : s'.m.state = .starting) : Launching s' := by
  refine Or.inr ⟨_, pending, Or.inl state, fun _ p alive => ?_⟩
  exact (dead.keep effect other p alive).elim

/-- A move of the pending `Start` gives up its process only when that is dead. -/
theorem launching_moved (reaped : Reaped s) (launching : Launching s)
    (undisturbed : Undisturbed s e) {t : Nat} {c c' : StartCall} (found : s.calls[t]? = some c)
    (moves : Moves s t c e c'.pc) :
    Launching { s with calls := s.calls.set t c' } := by
  obtain ⟨⟨going, early⟩, going', _⟩ := moves.going
  obtain ⟨state, only, rest⟩ := launching.at_ found going
  have starting : s.m.state = .starting :=
    state.resolve_right fun noting => early noting.1
  refine Or.inr ⟨c'.pc, (rest c').trans (pending_of_inProgress going'), Or.inl starting,
    fun _ p alive => ?_⟩
  have launched := only early p alive
  obtain same | ⟨_, ⟨q, process, closed⟩ | ⟨i, q, _, err, at_, rfl⟩⟩ := moves.process
  · exact same.trans launched
  · obtain rfl := Option.some.inj (process.symm.trans launched)
    exact (reaped.not_alive closed nofun alive).elim
  · exact (undisturbed c p found launched alive).elim

theorem launching_step (reaped : Reaped s) (launching : Launching s) (undisturbed : Undisturbed s e)
    (effect : Effect s e s') : Launching s' := by
  have kept := launching.keep effect
  cases effect with
  | config => exact launching
  | busy _ => exact launching
  | admitted h =>
      have entered : s.m.startEnter ≠ none := by simp [h]
      refine launching_admitted (.admitted h) (undisturbed entered) rfl ?_ ?_
      · exact pending_admitted.trans (by rw [launching.free entered, List.nil_append])
      · obtain ⟨_, rfl⟩ := Manager.startEnter_eq_some.mp h
        rfl
  | moved found moves h => exact launching_moved reaped launching undisturbed found (h ▸ moves)
  | @spawned t c i found at_ =>
      obtain ⟨state, only, rest⟩ := launching.at_ found (at_ ▸ rfl)
      have effect : Effect s (.spawn t none) _ := .spawned found at_
      refine Or.inr ⟨_, rest _, Or.inl (state.resolve_right (by simp [at_])), fun _ p alive => ?_⟩
      obtain old | ⟨rfl, _⟩ := effect.alive alive
      · have launched := only (by simp [at_]) p old
        rw [at_] at launched
        cases launched
      · rfl
  | published found at_ h =>
      obtain ⟨_, _, rest⟩ := launching.at_ found (at_ ▸ rfl)
      obtain rfl | rfl := h
      · exact Or.inr ⟨_, rest _, Or.inr ⟨rfl, rfl⟩, fun late => (late rfl).elim⟩
      · exact Or.inl (rest _)
  | noted found at_ =>
      obtain ⟨_, _, rest⟩ := launching.at_ found (at_ ▸ rfl)
      exact Or.inl (rest _)
  | failed found at_ =>
      obtain ⟨_, _, rest⟩ := launching.at_ found (at_ ▸ rfl)
      exact Or.inl (rest _)
  | exited _ _ => exact kept rfl rfl rfl
  | handled _ _ _ _ =>
      obtain ignored | free := undisturbed
      · exact kept rfl (by simp only [Manager.onExit_of_ignores ignored]) rfl
      · exact Or.inl free
  | restarted found at_ h =>
      have entered : s.m.startEnter ≠ none := by simp [h]
      refine launching_admitted (.restarted found at_ h) (undisturbed entered) rfl ?_ ?_
      · exact pending_admitted.trans (by rw [launching.free entered, List.nil_append])
      · obtain ⟨_, rfl⟩ := Manager.startEnter_eq_some.mp h
        rfl
  | waited _ h =>
      obtain ⟨rfl, _⟩ | rfl | rfl := h.event
      all_goals exact kept rfl rfl rfl
  | called => exact launching
  | stopped _ _ => exact launching
  | marked found h =>
      refine Or.inl (undisturbed _ found ?_)
      cases h with
      | shutdown at_ => exact Or.inl ⟨_, at_⟩
      | forceStop at_ cmd => exact Or.inr ⟨at_, by simp [cmd]⟩

theorem exclusive_of_launching (launching : Launching s) (effect : Effect s e s') :
    Exclusive s e := by
  cases effect with
  | busy _ => exact launching.free
  | admitted _ => exact launching.free
  | moved _ moves _ => cases moves <;> trivial
  | spawned found at_ =>
      obtain ⟨_, only, _⟩ := launching.at_ found (at_ ▸ rfl)
      intro p alive
      have launched := only (by simp [at_]) p alive
      rw [at_] at launched
      cases launched
  | restarted _ _ _ => exact launching.free
  | waited _ h =>
      obtain ⟨rfl, _⟩ | rfl | rfl := h.event
      · exact launching.free
      all_goals trivial
  | stopped _ h =>
      obtain ⟨_, rfl⟩ | rfl | rfl := h.event
      all_goals trivial
  | _ => trivial

theorem oneGuest_init (cfg : Config) : OneGuest { cfg } :=
  ⟨Nat.zero_le 1, fun p q hp => by cases hp⟩

/-- In a run, there is one `Start` and one guest at a time exactly when every admission finds
no pending `Start` and every spawn no process alive. That is so when the state field is not
written, and no guest left alive, while a `Start` is pending. -/
theorem one_guest_iff (x : Execution (hostSystem goos)) :
    (x.Always OneGuest ↔ x.Meets Exclusive) ∧ (x.Meets Undisturbed → x.Always OneGuest) := by
  refine ⟨x.run.always_iff (I := fun _ => True) ?_ (fun _ _ _ _ => trivial)
    fun _ held h => oneGuest_step held (effect_of_next h), fun undisturbed => ?_⟩
  · rintro s ⟨cfg, rfl⟩
    exact ⟨trivial, oneGuest_init cfg⟩
  · have both := x.run.always (I := fun s => OneGuest s ∧ Launching s ∧ Reaped s) ?_ ?_ undisturbed
    · exact Execution.Always.mono both fun _ h => h.1
    · rintro s ⟨cfg, rfl⟩
      exact ⟨oneGuest_init cfg, Or.inl rfl, fun q x found => by cases found⟩
    · rintro s e t ⟨held, launching, reaped⟩ guard h
      have effect := effect_of_next h
      exact ⟨(oneGuest_step held effect).mpr (exclusive_of_launching launching effect),
        launching_step reaped launching guard effect, reaped.keep effect⟩

/-- QEMU exits while `launch` waits for it, `onExit` writes `crashed`, and a second `Start` is
admitted before the first goes on to its next accelerator. -/
def startWhileFallingBack : List Event :=
  .start :: checked 0 ++
    [.spawn 0 none, .exit 0 (.failure "exit status 1"), .onExit 0 "", .start] ++ checked 1 ++
    [.spawn 1 none, .restart 0, .close 0, .sawExit 0 "", .spawn 0 none]

/-- Two calls are then pending, and two guests are alive on the disk image. -/
theorem two_guests_after_early_exit :
    ∃ x : Execution (hostSystem "linux"), ¬ x.Always OneGuest := by
  refine Execution.exists_not_always (s := { cfg := sampleConfig }) ⟨sampleConfig, rfl⟩
    (show exec _ _ startWhileFallingBack = some _ from rfl) fun held => ?_
  exact absurd (held.2 1 2 rfl rfl) (by decide)

end VmServer.Vm
