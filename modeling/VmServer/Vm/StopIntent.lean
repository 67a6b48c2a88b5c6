import VmServer.Vm.Effects

/-!
# Requested stops and crashes

`ForceStop` and `Shutdown` leave a mark in the manager, by which `onExit`
tells a requested stop from a crash. The mark is not one of the process: an
admitted `Start` takes it away, also while the process it was made for is
still to exit.

## Implementation notes

The history variable `Intent` keeps which processes were asked to stop and
still have to be handled by `onExit`, which handles each process once, and
whether a mark was made after the last admitted `Start`. That the latter
agrees with the flag of the manager is the invariant.
-/

namespace VmServer.Vm

open TransitionSystem

/-- The requests of a run so far. -/
structure Intent where
  /-- The processes that were asked to stop, until `onExit` runs for them. -/
  asked : List Nat := []
  /-- A mark was made after the last admitted `Start`. -/
  standing : Bool := false
  deriving DecidableEq, Repr

namespace Host

variable (s : Host)

/-- `ForceStop` or `Shutdown` enters its marking critical section. -/
def marks : Event → Bool
  | .stopStep j _ => (s.stops[j]?).any fun x =>
      match x.pc with
      | .marking _ => true
      | .forcing => s.m.cmd.isSome
      | _ => false
  | _ => false

/-- The process for which `ForceStop` is issued, or that has accepted `system_powerdown`. -/
def asks : Event → Option Nat
  | .stopStep j err => (s.stops[j]?).bind fun x =>
      match x.pc with
      | .forcing => s.m.cmd
      | .executing q => if err = none then some q.peer else none
      | _ => none
  | _ => none

/-- A `Start`, from outside or after a crash, gets past its first critical section. -/
def admits (e : Event) : Bool := e.starts && s.m.startEnter.isSome

def noteIntent (e : Event) (i : Intent) : Intent where
  asked := (s.asks e).toList ++ i.asked.filter fun p => !e.handles p
  standing := (i.standing || s.marks e) && !s.admits e

/-- The process has exited with a failure. -/
def failed (p : Nat) : Prop := ∃ x text, s.procs[p]? = some x ∧ x.exit = some (.failure text)

end Host

/-- The host with the requests made so far. -/
def intentSystem (goos : String) : System (Host × Intent) Event :=
  (hostSystem goos).noting {} Host.noteIntent

/-- How `onExit` leaves an intentional stop of `p`: the state is not crashed, the last error is
kept and no restart follows. Nothing at all changes where another process has replaced `p`. -/
def StoppedOnRequest (s : Host) (p : Nat) (t : Host) : Prop :=
  t.waiter p = some .handled ∧
    ((s.m.ignores p = true ∧ t.m = s.m) ∨ (t.m.state = .stopped ∧ t.m.lastErr = s.m.lastErr))

/-- The exit of a process that was asked to stop is no crash. -/
def NoCrash (goos : String) (s : Host × Intent) (e : Event) : Prop :=
  ∀ p ∈ s.2.asked, e.handles p = true → ∀ t, s.1.next goos e = some t → StoppedOnRequest s.1 p t

/-- When `onExit` runs for a failed process that was asked to stop and has not been replaced, no
`Start` has been admitted after the last mark. -/
def MarkStands (s : Host × Intent) (e : Event) : Prop :=
  ∀ p ∈ s.2.asked, e.handles p = true → s.1.failed p → s.1.m.ignores p = false →
    s.2.standing = true

/-- No `Start` is admitted between a mark and the exit of the process it was made for. -/
def StartWaits (s : Host × Intent) (e : Event) : Prop :=
  s.1.admits e = true → s.2.asked = [] ∧ ∀ x ∈ s.1.stops, ∀ q, x.pc ≠ .executing q

variable {goos : String} {s t : Host} {e : Event} {i : Intent}

/-! ## The flag of the manager -/

theorem admits_eq_false (h : e.starts = false) : s.admits e = false := by
  rw [Host.admits, h, Bool.false_and]

theorem admits_of_enter {m : Manager} (h : s.m.startEnter = some m) :
    s.admits e = e.starts := by
  rw [Host.admits, h, Option.isSome_some, Bool.and_true]

theorem shutdownDone_manager {j : Nat} {x : StopCall} {err : Option String} :
    (s.shutdownDone j x err).m = s.m := by
  unfold Host.shutdownDone
  split <;> rfl

/-- A step of a stop call writes the manager exactly where it marks it. -/
theorem stopStep_marks {j : Nat} {x : StopCall} {err : Option String}
    (found : s.stops[j]? = some x) (h : s.stopStep j x err = some t) :
    t.m = if s.marks (.stopStep j err) then s.m.markStopping else s.m := by
  simp only [Host.marks, found, Option.any_some]
  unfold Host.stopStep at h
  cases at_ : x.pc with
  | checking =>
      rw [at_] at h
      dsimp only at h
      split at h <;> exact Option.some.inj h ▸ rfl
  | client =>
      rw [at_] at h
      dsimp only at h
      split at h
      · exact Option.some.inj h ▸ rfl
      · exact Option.some.inj h ▸ shutdownDone_manager
  | marking q =>
      rw [at_] at h
      exact Option.some.inj h ▸ rfl
  | executing q =>
      rw [at_] at h
      obtain ⟨_, h⟩ := Option.ite_none_left_eq_some.mp h
      exact Option.some.inj h ▸ shutdownDone_manager
  | forcing =>
      rw [at_] at h
      dsimp only at h
      cases cmd : s.m.cmd with
      | none =>
          rw [cmd] at h
          exact Option.some.inj h ▸ rfl
      | some p =>
          rw [cmd] at h
          exact Option.some.inj h ▸ rfl
  | killing exited =>
      rw [at_] at h
      dsimp only at h
      split at h <;> exact Option.some.inj h ▸ rfl
  | _ =>
      rw [at_] at h
      cases h

/-- The other steps leave the flag alone, but for an admitted `Start`. -/
theorem stopping_of_effect (effect : Effect s e t) (other : ∀ j err, e ≠ .stopStep j err) :
    t.m.stopping = (s.m.stopping && !s.admits e) := by
  have keeps (same : t.m.stopping = s.m.stopping) (no : e.starts = false) :
      t.m.stopping = (s.m.stopping && !s.admits e) := by
    rw [same, admits_eq_false no, Bool.not_false, Bool.and_true]
  cases effect with
  | busy h => simp [Host.admits, h]
  | admitted h =>
      obtain ⟨_, rfl⟩ := Manager.startEnter_eq_some.mp h
      simp [admits_of_enter h, Event.starts]
  | restarted _ _ h =>
      obtain ⟨_, rfl⟩ := Manager.startEnter_eq_some.mp h
      simp [admits_of_enter h, Event.starts]
  | moved _ moves _ =>
      apply keeps rfl
      cases moves <;> rfl
  | @handled p x status tail _ _ _ _ _ =>
      exact keeps (Manager.onExit_keeps s.cfg p status tail).2 rfl
  | waited _ h =>
      obtain ⟨rfl, busy⟩ | rfl | rfl := h.event
      · simp [Host.admits, busy]
      · exact keeps rfl rfl
      · exact keeps rfl rfl
  | @stopped e j x x' _ moves =>
      obtain ⟨err, rfl⟩ | rfl | rfl := moves.event
      · exact (other j err rfl).elim
      · exact keeps rfl rfl
      · exact keeps rfl rfl
  | @marked j err _ _ _ _ => exact (other j err rfl).elim
  | _ => exact keeps rfl rfl

theorem stopping_of_next (h : s.next goos e = some t) :
    t.m.stopping = ((s.m.stopping || s.marks e) && !s.admits e) := by
  cases e with
  | stopStep j err =>
      obtain ⟨x, found, step⟩ := Option.bind_eq_some_iff.mp h
      rw [stopStep_marks found step, admits_eq_false rfl]
      cases s.marks (.stopStep j err) <;> simp [Manager.markStopping]
  | _ =>
      rw [stopping_of_effect (effect_of_next h) (by simp)]
      simp [Host.marks]

/-! ## The exit callback -/

/-- `onExit` stops `p` on request unless `p` has failed, is not ignored and finds no mark. -/
theorem stoppedOnRequest_iff {p : Nat} {tail : String} (h : s.next goos (.onExit p tail) = some t) :
    StoppedOnRequest s p t ↔ (s.failed p → s.m.ignores p = false → s.m.stopping = true) := by
  obtain ⟨x, found, step⟩ := Option.bind_eq_some_iff.mp h
  cases effect_of_onExit found step with
  | moved _ moves _ => cases moves
  | waited _ waits => cases waits
  | stopped _ moves => obtain ⟨_, event⟩ | event | event := moves.event <;> cases event
  | @handled p x' status tail waiter found' gone at_ go =>
      obtain rfl : x' = x := Option.some.inj (found'.symm.trans found)
      have waits : (({ s with m := (s.m.onExit s.cfg p status tail).1,
                              procs := s.procs.set p { x' with waiter } } : Host).waiter p =
          some .handled) ↔ (s.m.onExit s.cfg p status tail).2 = false := by
        obtain ⟨here, _⟩ := List.getElem?_eq_some_iff.mp found
        cases restart : (s.m.onExit s.cfg p status tail).2 <;>
          simp [Host.waiter, here, go, restart]
      have failed : s.failed p ↔ status ≠ .success := by
        constructor
        · rintro ⟨y, text, found'', gone'⟩ rfl
          obtain rfl := Option.some.inj (found''.symm.trans found)
          cases gone.symm.trans gone'
        · intro failure
          cases status with
          | success => exact (failure rfl).elim
          | failure text => exact ⟨x', text, found, gone⟩
      rw [StoppedOnRequest, waits, failed]
      cases ignored : s.m.ignores p with
      | true => simp [Manager.onExit_of_ignores ignored]
      | false =>
          cases status with
          | success => simp [Manager.onExit, ignored]
          | failure text =>
              cases mark : s.m.stopping <;> simp [Manager.onExit, ignored, mark]

/-- A step spares the processes that were asked to stop exactly when the mark stands. -/
theorem noCrash_iff (standing : i.standing = s.m.stopping) (h : s.next goos e = some t) :
    NoCrash goos (s, i) e ↔ MarkStands (s, i) e := by
  refine forall₃_congr fun p _ handles => ?_
  cases e with
  | onExit q tail =>
      obtain rfl : q = p := of_decide_eq_true handles
      have same : (∀ t, s.next goos (.onExit q tail) = some t → StoppedOnRequest s q t) ↔
          StoppedOnRequest s q t :=
        ⟨fun all => all t h, fun one u h' => Option.some.inj (h.symm.trans h') ▸ one⟩
      rw [same, stoppedOnRequest_iff h, standing]
  | _ => cases handles

/-! ## Runs -/

theorem standing_step {x y : Host × Intent} (standing : x.2.standing = x.1.m.stopping)
    (h : (intentSystem goos).next x e = some y) : y.2.standing = y.1.m.stopping := by
  obtain ⟨next, later⟩ := System.noting_next.mp h
  rw [later, stopping_of_next next, ← standing]
  rfl

theorem standing_invariant (x : Execution (intentSystem goos)) :
    x.Always fun y => y.2.standing = y.1.m.stopping := by
  refine x.run.invariant ?_ standing_step
  rintro ⟨s, i⟩ ⟨⟨cfg, rfl⟩, rfl⟩
  rfl

/-- A process that is asked, and a powerdown that is under way, have their mark. -/
def Backed (y : Host × Intent) : Prop :=
  (y.2.asked ≠ [] ∨ ∃ x ∈ y.1.stops, ∃ q, x.pc = .executing q) → y.2.standing = true

/-- Only a mark leads to a powerdown. -/
theorem executing_of_next (h : s.next goos e = some t) {x : StopCall} (mem : x ∈ t.stops) {q : Qmp}
    (at_ : x.pc = .executing q) : (∃ x ∈ s.stops, ∃ q, x.pc = .executing q) ∨ s.marks e = true := by
  have old (mem : x ∈ s.stops) : (∃ x ∈ s.stops, ∃ q, x.pc = .executing q) ∨ s.marks e = true :=
    Or.inl ⟨x, mem, q, at_⟩
  cases effect_of_next h with
  | @called kind =>
      obtain before | new := List.mem_append.mp mem
      · exact old before
      · obtain rfl := List.mem_singleton.mp new
        cases kind <;> cases at_
  | stopped _ moves =>
      obtain before | rfl := List.mem_or_eq_of_mem_set mem
      · exact old before
      · cases moves <;> cases at_
  | marked found marks =>
      obtain before | rfl := List.mem_or_eq_of_mem_set mem
      · exact old before
      · cases marks with
        | shutdown at_' => exact Or.inr (by simp [Host.marks, found, at_'])
        | forceStop _ _ => cases at_
  | _ => exact old mem

/-- A request comes with its mark or from a powerdown that is under way. -/
theorem marked_of_asks {p : Nat} (h : s.asks e = some p) :
    (∃ x ∈ s.stops, ∃ q, x.pc = .executing q) ∨ s.marks e = true := by
  cases e with
  | stopStep j err =>
      obtain ⟨x, found, asked⟩ := Option.bind_eq_some_iff.mp h
      cases at_ : x.pc with
      | executing q => exact Or.inl ⟨x, List.mem_of_getElem? found, q, at_⟩
      | forcing =>
          rw [at_] at asked
          dsimp only at asked
          exact Or.inr (by simp [Host.marks, found, at_, asked])
      | _ => simp [at_] at asked
  | _ => cases h

/-- What is asked or under way after a step had its mark before the step or gets it in it. -/
theorem marked_of_backed {y z : Host × Intent} (backed : Backed y)
    (h : (intentSystem goos).next y e = some z)
    (want : z.2.asked ≠ [] ∨ ∃ x ∈ z.1.stops, ∃ q, x.pc = .executing q) :
    (y.2.standing || y.1.marks e) = true := by
  obtain ⟨next, later⟩ := System.noting_next.mp h
  have settle : (∃ x ∈ y.1.stops, ∃ q, x.pc = .executing q) ∨ y.1.marks e = true →
      (y.2.standing || y.1.marks e) = true := by
    rintro (going | marks)
    · rw [backed (Or.inr going), Bool.true_or]
    · rw [marks, Bool.or_true]
  obtain asked | ⟨x, mem, q, at_⟩ := want
  · cases new : y.1.asks e with
    | some p => exact settle (marked_of_asks new)
    | none =>
        have before : y.2.asked ≠ [] := fun nobody => asked (by
          rw [later, Host.noteIntent, new, nobody]
          rfl)
        rw [backed (Or.inl before), Bool.true_or]
  · exact settle (executing_of_next next mem at_)

/-- After a `Start` that has waited, nobody is asked and nothing is under way. -/
theorem nobody_of_admitted {y z : Host × Intent} (waits : StartWaits y e)
    (h : (intentSystem goos).next y e = some z) (admitted : y.1.admits e = true) :
    z.2.asked = [] ∧ ¬ ∃ x ∈ z.1.stops, ∃ q, x.pc = .executing q := by
  obtain ⟨next, later⟩ := System.noting_next.mp h
  obtain ⟨nobody, idle⟩ := waits admitted
  have quiet : y.1.asks e = none ∧ y.1.marks e = false := by
    have start : e.starts = true := (Bool.and_eq_true_iff.mp admitted).1
    cases e with
    | start => exact ⟨rfl, rfl⟩
    | restart p => exact ⟨rfl, rfl⟩
    | _ => cases start
  refine ⟨?_, ?_⟩
  · rw [later, Host.noteIntent, quiet.1, nobody]
    rfl
  · rintro ⟨x, mem, q, at_⟩
    obtain ⟨x, mem, q, at_⟩ | marks := executing_of_next next mem at_
    · exact idle x mem q at_
    · rw [quiet.2] at marks
      cases marks

theorem backed_step {y z : Host × Intent} (backed : Backed y) (waits : StartWaits y e)
    (h : (intentSystem goos).next y e = some z) : Backed z := by
  intro want
  have marked := marked_of_backed backed h want
  have refused : y.1.admits e = false := by
    refine Bool.eq_false_iff.mpr fun admitted => ?_
    obtain ⟨nobody, idle⟩ := nobody_of_admitted waits h admitted
    exact want.elim (fun asked => asked nobody) idle
  rw [(System.noting_next.mp h).2, Host.noteIntent, marked, refused]
  rfl

/-- Where a `Start` waits for the exit of every process that was asked to stop, the mark stands. -/
theorem mark_stands_of_start_waits (x : Execution (intentSystem goos)) :
    x.Meets StartWaits → x.Meets MarkStands := by
  intro waits
  have backed : x.Always Backed := by
    refine x.run.always ?_ backed_step waits
    rintro ⟨s, i⟩ ⟨⟨cfg, rfl⟩, rfl⟩
    rintro (asked | ⟨x, mem, _⟩)
    · exact (asked rfl).elim
    · cases mem
  intro p mem q asked _ _ _
  exact backed.1 p mem (Or.inl (List.ne_nil_of_mem asked))

/-- In every run, no process that was asked to stop is taken for a crash exactly when no failed
one is handled after a `Start` was admitted behind the last mark; a run whose `Start` calls wait
for the exits is such a run. -/
theorem requested_stop_iff (x : Execution (intentSystem goos)) :
    (x.Meets (NoCrash goos) ↔ x.Meets MarkStands) ∧
      (x.Meets StartWaits → x.Meets (NoCrash goos)) := by
  have same : x.Meets (NoCrash goos) ↔ x.Meets MarkStands := by
    refine forall₂_congr fun p mem => ?_
    obtain ⟨t, h⟩ := x.run.enabled p mem
    exact noCrash_iff ((standing_invariant x).1 p mem) (System.noting_next.mp h).1
  exact ⟨same, fun waits => same.mpr (mark_stands_of_start_waits x waits)⟩

/-- The guest is stopped by force; before its exit is noticed, `Start` is called. -/
def startAfterForceStop : List Event :=
  boot ++ [.stopCall .forceStop, .stopStep 0 none, .stopStep 0 none, .start,
    .exit 0 (.failure "signal: killed")]

/-- The killed guest is then taken for a crash. -/
theorem force_stop_taken_for_crash :
    ∃ x : Execution (intentSystem "linux"), ¬ x.Meets (NoCrash "linux") := by
  refine Execution.exists_not_meets (s := ({ cfg := sampleConfig }, {})) (e := .onExit 0 "")
    ⟨⟨sampleConfig, rfl⟩, rfl⟩ (show exec _ _ startAfterForceStop = some _ from rfl) rfl
    fun spared => ?_
  obtain ⟨handled, _⟩ := spared 0 (List.mem_singleton.mpr rfl) rfl _ rfl
  cases handled

end VmServer.Vm
