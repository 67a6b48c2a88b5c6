import VmServer.Tailnet.Orphans

/-!
# The last saved setting

Settings are saved in the order of the configuration's lock, but each `Start`
runs in a goroutine of its own. What is left when all of them have returned
is decided by the `Start` that was the last to enter its second critical
section, and by the runs that were still uncancelled then.
-/

namespace VmServer.Tailnet

open Config TransitionSystem

/-- The phase belongs to a `Start`, or to a call that has returned. -/
def CallPhase.starts : CallPhase → Bool
  | .stopping resume => resume.isSome
  | .cancelling _ _ resume => resume.isSome
  | .waiting _ resume => resume.isSome
  | .marking resume => resume.isSome
  | .resuming _ => true
  | .returned => true

namespace Nodes

/-- All calls of `Start` have returned. -/
def Quiescent (s : Nodes) : Prop := ∀ phase ∈ s.calls, phase = .returned

/-- Every uncancelled run serves this configuration, which is enabled. -/
def OnlyServes (s : Nodes) (cfg : Tailscale) : Prop :=
  ∀ (i : Nat) (r : Run), s.runs[i]? = some r → r.cancelled = false →
    r.cfg = cfg ∧ cfg.enabled = true

/-- Once all calls have returned, the manager has the last saved configuration, and a run of
it is active exactly if it is enabled. -/
def LastSavedWins (s : Nodes) : Prop :=
  s.Quiescent → ∀ cfg, s.saved = some cfg →
    s.manager.cfg = cfg ∧ (cfg.enabled = true → ∃ i, s.Live i) ∧ s.OnlyServes cfg

/-- The last call to begin has the last saved configuration, and no uncancelled run has
another one. -/
def LastBegins (s : Nodes) (e : TailnetEvent) : Prop :=
  ∀ k cfg last, e = .call k → s.calls[k]? = some (.resuming cfg) →
    (∀ j phase, j ≠ k → s.calls[j]? = some phase → phase = .returned) →
      s.saved = some last → cfg = last ∧ s.OnlyServes last

/-- All calls are those of saved settings. -/
def OnlyStarts (s : Nodes) : Prop := ∀ phase ∈ s.calls, phase.starts = true

variable {s t : Nodes}

theorem quiescent_move {k : Nat} {phase new : CallPhase} (here : s.calls[k]? = some phase) :
    (s.move k new).Quiescent ↔ new = .returned ∧
      ∀ j other, j ≠ k → s.calls[j]? = some other → other = .returned := by
  unfold Quiescent move
  simp only [List.mem_iff_getElem?, forall_exists_index]
  constructor
  · intro all
    constructor
    · exact all new k (by rw [Contributions.getElem?_set here, if_pos rfl])
    · intro j other different found
      exact all other j (by rw [Contributions.getElem?_set here, if_neg (Ne.symm different), found])
  · rintro ⟨rfl, others⟩ x j found
    obtain ⟨_, new⟩ | ⟨different, old⟩ := Contributions.of_getElem?_set here found
    · exact new
    · exact others j x (Ne.symm different) old

/-- A `Start` goes through phases of a `Start`, and returns from its last critical section. -/
theorem callStep_calls {k : Nat} {phase : CallPhase} (isStart : phase.starts = true)
    (h : s.callStep k phase = some t) : ∃ new, t.calls = s.calls.set k new ∧
      new.starts = true ∧ (new = .returned → ∃ cfg, phase = .resuming cfg) := by
  cases phase with
  | stopping resume =>
      obtain ⟨cfg, rfl⟩ := Option.isSome_iff_exists.mp isStart
      simp only [callStep] at h
      split at h
      · obtain rfl := Option.some.inj h
        exact ⟨_, rfl, rfl, by simp [afterStop]⟩
      · obtain rfl := Option.some.inj h
        exact ⟨_, rfl, rfl, by simp⟩
  | cancelling i done resume =>
      obtain rfl := Option.some.inj h
      exact ⟨_, rfl, isStart, by simp⟩
  | waiting done resume =>
      obtain rfl := Option.some.inj h
      exact ⟨_, rfl, isStart, by simp⟩
  | marking resume =>
      obtain ⟨cfg, rfl⟩ := Option.isSome_iff_exists.mp isStart
      obtain rfl := Option.some.inj h
      exact ⟨_, rfl, rfl, by simp [afterStop]⟩
  | resuming cfg =>
      obtain rfl := Option.some.inj h
      refine ⟨.returned, ?_, rfl, fun _ => ⟨cfg, rfl⟩⟩
      simp only [move, begin]
      split <;> rfl
  | returned => cases h

theorem onlyServes_close (i : Nat) (cfg : Tailscale) :
    ({ s with runs := s.runs.modify i fun r => { r with closed := true } } : Nodes).OnlyServes
      cfg ↔ s.OnlyServes cfg := by
  unfold OnlyServes
  apply forall_congr'
  intro j
  dsimp only
  rw [List.getElem?_modify]
  cases s.runs[j]? with
  | none => simp
  | some r => by_cases same : i = j <;> simp [same]

/-- A run that begins with the configuration adds no other one. -/
theorem onlyServes_begin (cfg : Tailscale) :
    (s.begin cfg).OnlyServes cfg ↔ s.OnlyServes cfg := by
  cases enabled : cfg.enabled with
  | false => simp [OnlyServes, begin, enabled]
  | true =>
      simp only [OnlyServes, begin, enabled, if_true, Contributions.getElem?_concat]
      constructor
      · intro all i r found alive
        apply all i r _ alive
        rw [if_neg (List.getElem?_eq_some_iff.mp found).1.ne', found]
      · intro all i r found alive
        split at found
        · obtain rfl := Option.some.inj found
          exact ⟨rfl, trivial⟩
        · exact all i r found alive

theorem begin_cfg (cfg : Tailscale) : (s.begin cfg).manager.cfg = cfg := by
  unfold begin
  split <;> rfl

end Nodes

/-- The `Start` calls of saved settings, from a manager that `main` has started or not. -/
def savedSystem : System Nodes TailnetEvent where
  initial := {s | ∃ cfg, s = { manager := { cfg } } ∨ cfg.enabled = true ∧
    s = { manager := { cfg, cancel := some 0, done := some 0 }, runs := [{ cfg }] }}
  next := fun s e =>
    match e with
    | .stop => none
    | e => s.next e

namespace Nodes

variable {s t : Nodes}

/-- The critical section of the last `Start` that has not returned decides what is left. -/
theorem lastSavedWins_begin_iff {k : Nat} {cfg : Tailscale}
    (here : s.calls[k]? = some (.resuming cfg)) :
    ((s.begin cfg).move k .returned).LastSavedWins ↔ s.LastBegins (.call k) := by
  have calls : (s.begin cfg).calls = s.calls := by
    unfold begin
    split <;> rfl
  have saved : (s.begin cfg).saved = s.saved := by
    unfold begin
    split <;> rfl
  have quiet : ((s.begin cfg).move k .returned).Quiescent ↔
      ∀ j phase, j ≠ k → s.calls[j]? = some phase → phase = .returned := by
    rw [quiescent_move (calls ▸ here), calls]
    simp
  constructor
  · intro wins k' cfg' last called at_ others wanted
    cases called
    obtain rfl := CallPhase.resuming.inj (Option.some.inj (here.symm.trans at_))
    obtain ⟨settled, _, serves⟩ := wins (quiet.mpr others) last (saved.trans wanted)
    obtain rfl : cfg = last := (begin_cfg cfg).symm.trans settled
    exact ⟨rfl, (onlyServes_begin cfg).mp serves⟩
  · intro begins settled last wanted
    obtain ⟨rfl, serves⟩ :=
      begins k cfg last rfl here (quiet.mp settled) (saved.symm.trans wanted)
    refine ⟨begin_cfg cfg, fun enabled => ?_, (onlyServes_begin cfg).mpr serves⟩
    exact ⟨s.runs.length, (live_begin enabled _).mpr (Or.inr rfl)⟩

/-- A step after which some call has not returned claims nothing. -/
theorem lastSavedWins_of_busy {phase : CallPhase} (busy : phase ∈ t.calls)
    (unreturned : phase ≠ .returned) : t.LastSavedWins := by
  intro settled
  exact absurd (settled phase busy) unreturned

theorem lastBegins_of_phase {k : Nat} {phase : CallPhase} (here : s.calls[k]? = some phase)
    (other : ∀ cfg, phase ≠ .resuming cfg) : s.LastBegins (.call k) := by
  intro k' cfg last called at_
  cases called
  exact absurd (Option.some.inj (here.symm.trans at_)) (other cfg)

theorem lastSavedWins_next_iff {e : TailnetEvent} (starts : s.OnlyStarts)
    (wins : s.LastSavedWins) (h : savedSystem.next s e = some t) :
    t.LastSavedWins ↔ s.LastBegins e := by
  cases e with
  | start cfg =>
      obtain rfl := Option.some.inj h
      apply iff_of_true
      · exact lastSavedWins_of_busy (List.mem_append_right _ (List.mem_singleton_self _)) (by simp)
      · intro k cfg last called
        cases called
  | stop => cases h
  | close i =>
      obtain rfl := Option.some.inj h
      apply iff_of_true
      · intro settled cfg wanted
        obtain ⟨same, active, serves⟩ := wins settled cfg wanted
        refine ⟨same, fun enabled => ?_, (onlyServes_close i cfg).mpr serves⟩
        obtain ⟨j, alive⟩ := active enabled
        exact ⟨j, (live_close i j).mpr alive⟩
      · intro k cfg last called
        cases called
  | call k =>
      obtain ⟨phase, here, h⟩ := Option.bind_eq_some_iff.mp h
      by_cases begins : ∃ cfg, phase = .resuming cfg
      · obtain ⟨cfg, rfl⟩ := begins
        obtain rfl := Option.some.inj h
        exact lastSavedWins_begin_iff here
      · obtain ⟨new, calls, _, returns⟩ :=
          callStep_calls (starts phase (List.mem_of_getElem? here)) h
        apply iff_of_true
        · have busy : new ∈ t.calls :=
            calls ▸ List.mem_set (List.getElem?_eq_some_iff.mp here).1 new
          apply lastSavedWins_of_busy busy
          intro returned
          exact begins (returns returned)
        · apply lastBegins_of_phase here
          rintro cfg rfl
          exact begins ⟨cfg, rfl⟩

theorem onlyStarts_next {e : TailnetEvent} (starts : s.OnlyStarts)
    (h : savedSystem.next s e = some t) : t.OnlyStarts := by
  cases e with
  | start cfg =>
      obtain rfl := Option.some.inj h
      intro phase member
      rcases List.mem_append.mp member with old | new
      · exact starts phase old
      · obtain rfl := List.mem_singleton.mp new
        rfl
  | stop => cases h
  | close i =>
      obtain rfl := Option.some.inj h
      exact starts
  | call k =>
      obtain ⟨phase, here, h⟩ := Option.bind_eq_some_iff.mp h
      obtain ⟨new, calls, isStart, _⟩ :=
        callStep_calls (starts phase (List.mem_of_getElem? here)) h
      intro other member
      rw [calls] at member
      rcases List.mem_or_eq_of_mem_set member with old | rfl
      · exact starts other old
      · exact isStart

end Nodes

/-- The last saved setting is in force whenever all calls have returned, exactly in the runs
where the last call to begin is that of the last saved setting and finds no other run. -/
theorem last_saved_wins_iff (x : Execution savedSystem) :
    x.Always Nodes.LastSavedWins ↔ x.Meets Nodes.LastBegins := by
  apply x.run.always_iff (I := Nodes.OnlyStarts)
  · rintro s ⟨cfg, initial⟩
    have idle : s.calls = [] ∧ s.saved = none := by
      rcases initial with rfl | ⟨_, rfl⟩
      · exact ⟨rfl, rfl⟩
      · exact ⟨rfl, rfl⟩
    constructor
    · intro phase member
      simp [idle.1] at member
    · intro _ cfg wanted
      simp [idle.2] at wanted
  · intro s e t starts _ _ step
    exact Nodes.onlyStarts_next starts step
  · intro s e t starts wins step
    exact Nodes.lastSavedWins_next_iff starts wins step

/-- Funnel is saved as on and then as off, and the second `Start` overtakes the first one. -/
def overtakenStart : List TailnetEvent :=
  [.start (shared true), .start (shared false), .call 1, .call 1,
    .call 0, .call 0, .call 0, .call 0, .call 0]

/-- Funnel was saved as off, and the node is published. -/
theorem funnel_after_saved_off :
    ∃ x : Execution savedSystem, ¬ x.Always Nodes.LastSavedWins := by
  have run : exec savedSystem { manager := { cfg := shared false } } overtakenStart =
      some {
        manager := { cfg := shared true, cancel := some 1, done := some 1 }
        runs := [{ cfg := shared false, cancelled := true }, { cfg := shared true }]
        calls := [.returned, .returned]
        saved := some (shared false) } := rfl
  apply Execution.exists_not_always (M := savedSystem) ⟨shared false, Or.inl rfl⟩ run
  intro wins
  have settled := (wins (by simp [Nodes.Quiescent]) _ rfl).1
  revert settled
  decide

end VmServer.Tailnet
