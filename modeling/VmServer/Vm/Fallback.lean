import VmServer.Vm.Progress

/-!
# The first accelerator fails

`launch` reports an early exit as an error, so that `Start` can go on to the
next accelerator. The exit is also seen by `onExit`, which has no means of
telling a process that is still being launched from a guest that crashed: its
command is not stored yet, and nobody has asked for a stop. It spares the
process only if it runs so late that the command of another one is stored.

## Implementation notes

`firstLaunchSystem` notes the `Start` call whose first accelerator process `n`
was when it exited with a failure before its launch had completed. The runs of
`idleSystem` begin in any state in which a `Start` would find the manager idle,
and `n` is the number of processes there were before, so that process `n` is the
first one that `Start` launches, whatever happens beside it.
-/

namespace VmServer.Vm

open TransitionSystem Contributions

/-- The accelerator and the process of a launch in progress. -/
def StartPc.launch : StartPc → Option (Nat × Nat)
  | .selecting i p => some (i, p)
  | .reaping i p _ => some (i, p)
  | .authenticating i p _ => some (i, p)
  | .publishing i p _ _ => some (i, p)
  | _ => none

/-- The call is past the checks of `Start`. -/
def StartPc.checked : StartPc → Bool
  | .checking _ => false
  | _ => true

/-- What a step makes of call `k` that is past its checks: its accelerators stay, and a launch
goes on, has failed, or is published. -/
structure StartCall.Follows (e : Event) (k : Nat) (c c' : StartCall) : Prop where
  accels : c'.accels = c.accels
  checked : c'.pc.checked = true
  launch : ∀ i p, c.pc.launch = some (i, p) → c'.pc.launch = some (i, p) ∨
    (∃ err, c'.pc = c.afterFailure i err) ∨ ∃ now, e = .publish k now

/-- The call is launching process `n` with the first one of the accelerators of "auto". -/
def StartCall.launchesFirst (goos : String) (n : Nat) (c : StartCall) : Bool :=
  c.accels = [defaultAccel goos, "tcg"] && c.pc.launch = some (0, n)

/-- Notes the call whose first process `n` exits with a failure during its launch. -/
def Host.noteEarly (goos : String) (n : Nat) (s : Host) (e : Event) (early : Option Nat) :
    Option Nat :=
  match e with
  | .exit p (.failure _) => if p = n then s.calls.findIdx? (·.launchesFirst goos n) else early
  | _ => early

def firstLaunchSystem (goos : String) (n : Nat) : System (Host × Option Nat) Event :=
  (hostSystem goos).noting none (Host.noteEarly goos n)

/-- The step leads to `crashed`, and to a nested `Start` where the configuration says so. -/
def CrashPath (goos : String) (n : Nat) (s : Host) (e : Event) : Prop :=
  ∃ t, s.next goos e = some t ∧ t.m.state = .crashed ∧
    t.waiter n = some (if s.cfg.restartOnCrash then .sleeping else .handled)

/-- What is asked of a step to `t` after the first process `n` of call `k` has exited early. -/
structure GoesOn (goos : String) (n : Nat) (s : Host) (e : Event) (t : Host) (k : Nat)
    (c : StartCall) : Prop where
  /-- `onExit` does not take the exit for a crash of the guest. -/
  spared : ∀ tail, e = .onExit n tail → ¬ CrashPath goos n s e
  /-- `launch` returns its error, and `Start` goes on to the second accelerator. -/
  fails : c.pc.launch = some (0, n) →
    ∃ c', t.calls[k]? = some c' ∧ (c'.pc.launch = some (0, n) ∨ c'.pc = .spawning 1)
  /-- If the second launch succeeds, the guest runs under TCG. -/
  runs : ∀ now p q password, e = .publish k now → c.pc = .publishing 1 p q password →
    t.m.state = .running ∧ t.m.accelUsed = "tcg" ∧ t.calls[k]? = some { c with pc := .noting }
  /-- `Start` then writes its note and returns nil. -/
  noted : e = .note k → t.m.accelNote = fallbackNote [defaultAccel goos, "tcg"] ∧
    t.calls[k]? = some { c with pc := .returned none }

/-- After an early exit of the first process, `Start` falls back to the second accelerator. -/
def FallsBack (goos : String) (n : Nat) (s : Host × Option Nat) (e : Event) : Prop :=
  ∀ k c t, s.2 = some k → s.1.calls[k]? = some c → s.1.next goos e = some t →
    GoesOn goos n s.1 e t k c

/-- The exit is handled only once the command of another process is stored or a stop has been
asked for, and the launch of the process that is gone is not published. -/
def Spares (n : Nat) (s : Host × Option Nat) (e : Event) : Prop :=
  ∀ k, s.2 = some k →
    (∀ tail, e = .onExit n tail → s.1.m.ignores n = true ∨ s.1.m.stopping = true) ∧
      ∀ now c, e = .publish k now → s.1.calls[k]? = some c → c.pc.launch ≠ some (0, n)

variable {goos : String} {n : Nat} {s s' : Host} {e : Event}

/-! ## The calls of Start across a step -/

section Follows

variable {j k : Nat} {c : StartCall}

theorem afterFailure_checked (c : StartCall) (i : Nat) (err : StartError) :
    (c.afterFailure i err).checked = true := by
  unfold StartCall.afterFailure
  split <;> rfl

/-- A call stays where it is. -/
theorem StartCall.follows_self (checked : c.pc.checked = true) : c.Follows e k c :=
  ⟨rfl, checked, fun _ _ launch => .inl launch⟩

/-- A launch goes on, or none is in progress. -/
theorem StartCall.follows_on {pc : StartPc} (checked : pc.checked = true)
    (same : c.pc.launch = none ∨ pc.launch = c.pc.launch) : c.Follows e k { c with pc } := by
  refine ⟨rfl, checked, fun i p launch => .inl ?_⟩
  rcases same with none | same
  · simp [none] at launch
  · exact same.trans launch

/-- The launch with accelerator `i` fails, or has not begun. -/
theorem StartCall.follows_failed {i : Nat} (at_ : ∀ j p, c.pc.launch = some (j, p) → j = i)
    (err : StartError) : c.Follows e k { c with pc := c.afterFailure i err } := by
  refine ⟨rfl, afterFailure_checked c i err, fun j p launch => .inr (.inl ⟨err, ?_⟩)⟩
  rw [at_ j p launch]

/-- What a step of a call does to it. -/
def Host.Follows (s : Host) (e : Event) (j : Nat) (c : StartCall) (t : Host) : Prop :=
  ∃ c', t.calls = s.calls.set j c' ∧ (c.pc.checked = true → c.Follows e j c')

theorem follows_check {err : Option String} (h : s.check goos j c err = some s') :
    s.Follows (.check j err) j c s' := by
  unfold Host.check at h
  split at h
  case h_6 => cases h
  all_goals
    rename_i at_
    obtain rfl := Option.some.inj h
    refine ⟨_, rfl, fun checked => ?_⟩
    simp [at_, StartPc.checked] at checked

theorem follows_spawn {err : Option String} (h : s.spawn j c err = some s') :
    s.Follows (.spawn j err) j c s' := by
  unfold Host.spawn at h
  split at h
  · rename_i at_
    obtain rfl := Option.some.inj h
    exact ⟨_, rfl, fun _ => StartCall.follows_failed (by simp [at_, StartPc.launch]) _⟩
  · rename_i at_
    obtain rfl := Option.some.inj h
    exact ⟨_, rfl, fun _ => StartCall.follows_on rfl (.inl (at_ ▸ rfl))⟩
  · cases h

theorem follows_sawExit {tail : String} (h : s.sawExit j c tail = some s') :
    s.Follows (.sawExit j tail) j c s' := by
  unfold Host.sawExit at h
  split at h
  · rename_i at_
    obtain ⟨_, h⟩ := Option.ite_none_right_eq_some.mp h
    obtain rfl := Option.some.inj h
    exact ⟨_, rfl, fun _ => StartCall.follows_failed (by simp +contextual [at_, StartPc.launch]) _⟩
  · cases h

theorem follows_dialed {r : Except String Nat} (h : s.dialed j c r = some s') :
    s.Follows (.dialed j r) j c s' := by
  unfold Host.dialed at h
  split at h
  · rename_i at_
    obtain ⟨_, h⟩ := Option.ite_none_right_eq_some.mp h
    obtain rfl := Option.some.inj h
    exact ⟨_, rfl, fun _ => StartCall.follows_on rfl (.inr (at_ ▸ rfl))⟩
  · rename_i at_
    obtain rfl := Option.some.inj h
    exact ⟨_, rfl, fun _ => StartCall.follows_on rfl (.inr (at_ ▸ rfl))⟩
  · cases h

theorem follows_reaped (h : s.reaped j c = some s') : s.Follows (.reaped j) j c s' := by
  unfold Host.reaped at h
  split at h
  · rename_i at_
    obtain ⟨_, h⟩ := Option.ite_none_right_eq_some.mp h
    obtain rfl := Option.some.inj h
    exact ⟨_, rfl, fun _ => StartCall.follows_failed (by simp +contextual [at_, StartPc.launch]) _⟩
  · cases h

theorem follows_passwordSet {r : Except StartError String} (h : s.passwordSet j c r = some s') :
    s.Follows (.passwordSet j r) j c s' := by
  unfold Host.passwordSet at h
  split at h
  · rename_i at_
    obtain ⟨_, h⟩ := Option.ite_none_right_eq_some.mp h
    obtain rfl := Option.some.inj h
    exact ⟨_, rfl, fun _ => StartCall.follows_on rfl (.inr (at_ ▸ rfl))⟩
  · rename_i at_
    obtain rfl := Option.some.inj h
    exact ⟨_, rfl, fun _ => StartCall.follows_failed (by simp +contextual [at_, StartPc.launch]) _⟩
  · cases h

theorem follows_publish {now : Int} (h : s.publish j c now = some s') :
    s.Follows (.publish j now) j c s' := by
  unfold Host.publish at h
  split at h
  · obtain rfl := Option.some.inj h
    refine ⟨_, rfl, fun _ => ⟨rfl, ?_, fun _ _ _ => .inr (.inr ⟨now, rfl⟩)⟩⟩
    split <;> rfl
  · cases h

theorem follows_note (h : s.note j c = some s') : s.Follows (.note j) j c s' := by
  unfold Host.note at h
  split at h
  · rename_i at_
    obtain rfl := Option.some.inj h
    exact ⟨_, rfl, fun _ => StartCall.follows_on rfl (.inl (at_ ▸ rfl))⟩
  · cases h

theorem follows_fail (h : s.fail j c = some s') : s.Follows (.fail j) j c s' := by
  unfold Host.fail at h
  split at h
  · rename_i at_
    obtain rfl := Option.some.inj h
    exact ⟨_, rfl, fun _ => StartCall.follows_on rfl (.inl (at_ ▸ rfl))⟩
  · cases h

/-- The events of `Start` calls. -/
def Event.ofStart : Event → Bool
  | .check _ _ | .spawn _ _ | .sawExit _ _ | .dialed _ _ | .reaped _ | .passwordSet _ _
  | .publish _ _ | .note _ | .fail _ => true
  | _ => false

theorem calls_of_effect (effect : Effect s e s') (other : e.ofStart = false) :
    s'.calls = s.calls ∨ s'.calls = s.calls ++ [({} : StartCall)] := by
  cases effect with
  | moved _ moves _ => cases moves <;> cases other
  | spawned | published | noted | failed => cases other
  | admitted | restarted => exact .inr rfl
  | _ => exact .inl rfl

/-- What a step makes of a call that is past its checks. -/
theorem follows_of_next (h : s.next goos e = some s') (found : s.calls[k]? = some c)
    (checked : c.pc.checked = true) : ∃ c', s'.calls[k]? = some c' ∧ c.Follows e k c' := by
  have own {j : Nat} {d : StartCall} (at_ : s.calls[j]? = some d) (step : s.Follows e j d s') :
      ∃ c', s'.calls[k]? = some c' ∧ c.Follows e k c' := by
    obtain ⟨d', calls, follows⟩ := step
    rw [calls, getElem?_set at_]
    split
    · rename_i same
      subst same
      obtain rfl := Option.some.inj (found.symm.trans at_)
      exact ⟨d', rfl, follows checked⟩
    · exact ⟨c, found, StartCall.follows_self checked⟩
  have other (kept : e.ofStart = false) : ∃ c', s'.calls[k]? = some c' ∧ c.Follows e k c' := by
    refine ⟨c, ?_, StartCall.follows_self checked⟩
    rcases calls_of_effect (effect_of_next h) kept with same | more
    · rw [same, found]
    · rw [more, List.getElem?_append_left (List.getElem?_eq_some_iff.mp found).1, found]
  cases e with
  | check j err =>
      obtain ⟨d, at_, h⟩ := Option.bind_eq_some_iff.mp h
      exact own at_ (follows_check h)
  | spawn j err =>
      obtain ⟨d, at_, h⟩ := Option.bind_eq_some_iff.mp h
      exact own at_ (follows_spawn h)
  | sawExit j tail =>
      obtain ⟨d, at_, h⟩ := Option.bind_eq_some_iff.mp h
      exact own at_ (follows_sawExit h)
  | dialed j r =>
      obtain ⟨d, at_, h⟩ := Option.bind_eq_some_iff.mp h
      exact own at_ (follows_dialed h)
  | reaped j =>
      obtain ⟨d, at_, h⟩ := Option.bind_eq_some_iff.mp h
      exact own at_ (follows_reaped h)
  | passwordSet j r =>
      obtain ⟨d, at_, h⟩ := Option.bind_eq_some_iff.mp h
      exact own at_ (follows_passwordSet h)
  | publish j now =>
      obtain ⟨d, at_, h⟩ := Option.bind_eq_some_iff.mp h
      exact own at_ (follows_publish h)
  | note j =>
      obtain ⟨d, at_, h⟩ := Option.bind_eq_some_iff.mp h
      exact own at_ (follows_note h)
  | fail j =>
      obtain ⟨d, at_, h⟩ := Option.bind_eq_some_iff.mp h
      exact own at_ (follows_fail h)
  | _ => exact other rfl

end Follows

/-! ## After an early exit -/

/-- What holds of the call that was noted and of its process. -/
structure Early (goos : String) (n : Nat) (s : Host × Option Nat) : Prop where
  crashed : s.1.m.state = .crashed → s.1.m.cmd = none
  call : ∀ k, s.2 = some k → ∃ c, s.1.calls[k]? = some c ∧
    c.accels = [defaultAccel goos, "tcg"] ∧ c.pc.checked = true
  failed : ∀ k, s.2 = some k → ∃ x text, s.1.procs[n]? = some x ∧ x.exit = some (.failure text)

/-- A manager whose guest has crashed has no command. -/
theorem crashed_of_effect (effect : Effect s e s') (crashed : s.m.state = .crashed → s.m.cmd = none)
    (now : s'.m.state = .crashed) : s'.m.cmd = none := by
  cases effect with
  | admitted h =>
      obtain ⟨_, rfl⟩ := Manager.startEnter_eq_some.mp h
      cases now
  | restarted _ _ h =>
      obtain ⟨_, rfl⟩ := Manager.startEnter_eq_some.mp h
      cases now
  | published | failed | marked => cases now
  | @handled p x status tail waiter found gone at_ h =>
      cases ignored : s.m.ignores p with
      | true =>
          have same : (s.m.onExit s.cfg p status tail).1 = s.m := by
            rw [Manager.onExit_of_ignores ignored]
          dsimp only at now ⊢
          rw [same] at now ⊢
          exact crashed now
      | false => exact (s.m.onExit_of_not_ignores s.cfg status tail ignored).1
  | noted => exact crashed now
  | config | busy | moved | spawned | exited | waited | called | stopped => exact crashed now

/-- `onExit` for a process that has failed takes the crash path exactly when the command of no
other process is stored and nobody has asked for a stop. -/
theorem crashPath_iff {x : Process} {text tail : String} (crashed : s.m.state = .crashed →
    s.m.cmd = none) (found : s.procs[n]? = some x) (failed : x.exit = some (.failure text))
    (h : s.next goos (.onExit n tail) = some s') :
    CrashPath goos n s (.onExit n tail) ↔ ¬ (s.m.ignores n = true ∨ s.m.stopping = true) := by
  have unique : CrashPath goos n s (.onExit n tail) ↔ s'.m.state = .crashed ∧
      s'.waiter n = some (if s.cfg.restartOnCrash then .sleeping else .handled) := by
    constructor
    · rintro ⟨t, next, path⟩
      obtain rfl := Option.some.inj (h.symm.trans next)
      exact path
    · exact fun path => ⟨s', h, path⟩
  rw [unique]
  obtain ⟨y, found', h⟩ := Option.bind_eq_some_iff.mp h
  obtain rfl := Option.some.inj (found.symm.trans found')
  unfold Host.onExit at h
  rw [failed] at h
  split at h
  case h_2 => cases h
  rename_i status' gone _
  obtain rfl := Option.some.inj gone
  obtain rfl := Option.some.inj h
  dsimp only [Host.setWaiter]
  cases ignored : s.m.ignores n with
  | true =>
      refine iff_of_false (fun path => ?_) (by simp)
      rw [Manager.onExit_of_ignores ignored] at path
      simp [Manager.ignores, crashed path.1] at ignored
  | false =>
      cases stopping : s.m.stopping with
      | true =>
          refine iff_of_false (fun path => ?_) (by simp)
          simp [Manager.onExit, ignored, stopping] at path
      | false =>
          refine iff_of_true ⟨?_, ?_⟩ (by simp)
          · simp [Manager.onExit, ignored, stopping]
          · refine waiter_eq_some.mpr ⟨_, (getElem?_set found _ n).trans (if_pos rfl), ?_⟩
            simp [Manager.onExit, ignored, stopping]

/-- What a publication does. -/
theorem publish_cases {k : Nat} {now : Int} {c : StartCall} (found : s.calls[k]? = some c)
    (h : s.next goos (.publish k now) = some s') : ∃ i p q password,
      c.pc = .publishing i p q password ∧
        s'.m = s.m.publish p q password (c.accels.getD i "") now ∧
          s'.calls[k]? = some { c with pc := if 0 < i then .noting else .returned none } := by
  obtain ⟨d, found', h⟩ := Option.bind_eq_some_iff.mp h
  obtain rfl := Option.some.inj (found.symm.trans found')
  unfold Host.publish at h
  split at h
  · rename_i at_
    obtain rfl := Option.some.inj h
    exact ⟨_, _, _, _, at_, rfl, (getElem?_set found _ k).trans (if_pos rfl)⟩
  · cases h

theorem launchesFirst_iff {c : StartCall} : c.launchesFirst goos n = true ↔
    c.accels = [defaultAccel goos, "tcg"] ∧ c.pc.launch = some (0, n) := by
  simp [StartCall.launchesFirst]

/-- The call that is noted was there, past its checks. -/
theorem Early.noted {y : Host × Option Nat} (early : Early goos n y) {k : Nat}
    (noted : y.1.noteEarly goos n e y.2 = some k) : ∃ c, y.1.calls[k]? = some c ∧
      c.accels = [defaultAccel goos, "tcg"] ∧ c.pc.checked = true := by
  unfold Host.noteEarly at noted
  split at noted
  · split at noted
    · obtain ⟨inside, first, _⟩ := List.findIdx?_eq_some_iff_getElem.mp noted
      obtain ⟨accels, launch⟩ := launchesFirst_iff.mp first
      refine ⟨_, List.getElem?_eq_getElem inside, accels, ?_⟩
      cases pc : y.1.calls[k].pc with
      | checking what => simp [pc, StartPc.launch] at launch
      | _ => rfl
    · exact early.call k noted
  · exact early.call k noted

theorem early_step {y z : Host × Option Nat} (early : Early goos n y)
    (next : y.1.next goos e = some z.1) (noted : z.2 = y.1.noteEarly goos n e y.2) :
    Early goos n z := by
  refine ⟨crashed_of_effect (effect_of_next next) early.crashed, fun k is => ?_, fun k is => ?_⟩
  · obtain ⟨c, found, accels, checked⟩ := early.noted (noted.symm.trans is)
    obtain ⟨c', found', follows⟩ := follows_of_next next found checked
    exact ⟨c', found', follows.accels.trans accels, follows.checked⟩
  · have before : (∃ x text, y.1.procs[n]? = some x ∧ x.exit = some (.failure text)) ∨
        ∃ text, e = .exit n (.failure text) := by
      rw [noted] at is
      unfold Host.noteEarly at is
      split at is
      · split at is
        · rename_i same
          subst same
          exact .inr ⟨_, rfl⟩
        · exact .inl (early.failed k is)
      · exact .inl (early.failed k is)
    rcases before with ⟨x, text, found, failed⟩ | ⟨text, rfl⟩
    · obtain ⟨x', found', evolves⟩ := (effect_of_next next).evolves found
      refine ⟨x', text, found', ?_⟩
      cases evolves with
      | same => exact failed
      | exited _ running => cases failed.symm.trans running
      | handled => exact failed
      | waited => exact failed
    · obtain ⟨x, found, next⟩ := Option.bind_eq_some_iff.mp next
      unfold Host.exit at next
      split at next
      · have moved := Option.some.inj next
        refine ⟨{ x with exit := some (.failure text) }, text, ?_, rfl⟩
        rw [← moved]
        exact (getElem?_set found _ n).trans (if_pos rfl)
      · cases next

/-- The second launch is that of TCG, and `Start` returns after its note. -/
theorem goesOn_iff {y : Host × Option Nat} (early : Early goos n y) {k : Nat} {c : StartCall}
    {t : Host} (is : y.2 = some k) (found : y.1.calls[k]? = some c)
    (next : y.1.next goos e = some t) :
    GoesOn goos n y.1 e t k c ↔
      (∀ tail, e = .onExit n tail → y.1.m.ignores n = true ∨ y.1.m.stopping = true) ∧
        ∀ now, e = .publish k now → c.pc.launch ≠ some (0, n) := by
  obtain ⟨c', found', accels, checked⟩ := early.call k is
  obtain rfl := Option.some.inj (found.symm.trans found')
  obtain ⟨x, text, there, failed⟩ := early.failed k is
  obtain ⟨d, now', follows⟩ := follows_of_next next found checked
  constructor
  · intro goes
    refine ⟨?_, ?_⟩
    · rintro tail rfl
      by_contra crash
      exact goes.spared tail rfl ((crashPath_iff early.crashed there failed next).mpr crash)
    · rintro now rfl launch
      obtain ⟨i, p, q, password, at_, _, returned⟩ := publish_cases found next
      obtain ⟨rfl, rfl⟩ : i = 0 ∧ p = n := by simpa [at_, StartPc.launch] using launch
      obtain ⟨c', here, same | again⟩ := goes.fails launch
      · obtain rfl := Option.some.inj (returned.symm.trans here)
        cases same
      · obtain rfl := Option.some.inj (returned.symm.trans here)
        cases again
  · rintro ⟨spared, unpublished⟩
    refine ⟨?_, fun launch => ?_, ?_, ?_⟩
    · rintro tail rfl path
      exact (crashPath_iff early.crashed there failed next).mp path (spared tail rfl)
    · refine ⟨d, now', ?_⟩
      rcases follows.launch 0 n launch with same | ⟨err, fails⟩ | ⟨now, publishes⟩
      · exact .inl same
      · right
        rw [fails]
        simp [StartCall.afterFailure, accels]
      · exact absurd launch (unpublished now publishes)
    · rintro now p q password rfl at_
      obtain ⟨i, p', q', password', at', manager, noting⟩ := publish_cases found next
      obtain ⟨rfl, rfl, rfl, rfl⟩ := StartPc.publishing.inj (at_.symm.trans at')
      refine ⟨manager ▸ rfl, ?_, noting⟩
      rw [manager, accels]
      rfl
    · rintro rfl
      obtain ⟨c', found', next⟩ := Option.bind_eq_some_iff.mp next
      obtain rfl := Option.some.inj (found.symm.trans found')
      unfold Host.note at next
      split at next
      · obtain rfl := Option.some.inj next
        exact ⟨congrArg fallbackNote accels, (getElem?_set found _ k).trans (if_pos rfl)⟩
      · cases next

theorem fallsBack_iff_spares {y : Host × Option Nat} {t : Host} (early : Early goos n y)
    (next : y.1.next goos e = some t) : FallsBack goos n y e ↔ Spares n y e := by
  constructor
  · intro falls k is
    obtain ⟨c, found, _⟩ := early.call k is
    obtain ⟨spared, unpublished⟩ := (goesOn_iff early is found next).mp (falls k c t is found next)
    refine ⟨spared, fun now c' publishes found' => ?_⟩
    obtain rfl := Option.some.inj (found.symm.trans found')
    exact unpublished now publishes
  · intro spares k c t' is found next'
    obtain ⟨spared, unpublished⟩ := spares k is
    exact (goesOn_iff early is found next').mpr
      ⟨spared, fun now publishes => unpublished now c publishes found⟩

/-! ## From an idle manager -/

/-- `Start` would be admitted, there is no guest, and no call is about to write the state. -/
structure Idle (s : Host) : Prop where
  enters : s.m.state ≠ .running ∧ s.m.state ≠ .starting
  cmd : s.m.cmd = none
  pending : s.pending = []
  waiters : ∀ (q : Nat) (x : Process), s.procs[q]? = some x → x.waiter ≠ .waiting
  stops : ∀ (j : Nat) (x : StopCall) (q : Qmp), s.stops[j]? = some x → x.pc ≠ .marking q

/-- The manager from an idle state on, after `n` processes. -/
def idleSystem (goos : String) (n : Nat) : System Host Event where
  initial := {s | Idle s ∧ s.procs.length = n}
  next := Host.next goos

/-- `onExit` for process `n`, which exited with a failure while its launch is in progress. -/
def FirstExit (n : Nat) (s : Host) (e : Event) : Prop :=
  (∃ tail, e = .onExit n tail) ∧ (∃ x text, s.procs[n]? = some x ∧ x.exit = some (.failure text)) ∧
    ∃ pc ∈ s.pending, pc.process = some n

/-- Where the `Start` call is, as long as its first process has neither been published nor
given up. -/
def Ahead (n : Nat) (s : Host) : Prop :=
  (s.pending = [] ∧ s.m.state ≠ .running ∧ s.procs.length = n) ∨
    ∃ pc, s.pending = [pc] ∧ pc ≠ .noting ∧ s.m.state = .starting ∧ s.m.stopping = false ∧
      (pc.process = none ∧ s.procs.length = n ∨ pc.process = some n ∧ s.procs.length = n + 1)

/-- Until the exit of process `n` is handled, nothing is stored and nobody asks for a stop. -/
structure Calm (n : Nat) (s : Host) : Prop where
  cmd : s.m.cmd = none
  ahead : Ahead n s
  waiters : ∀ (q : Nat) (x : Process), s.procs[q]? = some x → x.waiter = .waiting → q = n
  stops : ∀ (j : Nat) (x : StopCall) (q : Qmp), s.stops[j]? = some x → x.pc ≠ .marking q

/-- The exit of process `n` has been handled, or its launch is over. -/
def Over (n : Nat) (s : Host) : Prop :=
  ∃ x, s.procs[n]? = some x ∧ (x.waiter ≠ .waiting ∨ ∀ pc ∈ s.pending, pc.process ≠ some n)

theorem Idle.calm (idle : Idle s) : Calm s.procs.length s where
  cmd := idle.cmd
  ahead := Or.inl ⟨idle.pending, idle.enters.1, rfl⟩
  waiters q x found waits := (idle.waiters q x found waits).elim
  stops := idle.stops

theorem over_of_pending {l : List StartPc} (length : n < s.procs.length) (pending : s.pending = l)
    (gone : ∀ pc ∈ l, pc.process ≠ some n) : Over n s := by
  exact ⟨s.procs[n], List.getElem?_eq_getElem length, Or.inr (pending ▸ gone)⟩

theorem Ahead.keep (ahead : Ahead n s) (pending : s'.pending = s.pending)
    (state : s'.m.state = s.m.state) (stopping : s'.m.stopping = s.m.stopping)
    (length : s'.procs.length = s.procs.length) : Ahead n s' := by
  unfold Ahead
  rwa [pending, state, stopping, length]

/-- What is over stays over. -/
theorem Over.keep (past : Over n s) (effect : Effect s e s') : Over n s' := by
  obtain ⟨x, found, past⟩ := past
  obtain ⟨x', found', evolves⟩ := effect.evolves found
  refine ⟨x', found', ?_⟩
  obtain handled | gone := past
  · apply Or.inl
    cases evolves with
    | same => exact handled
    | exited _ _ => exact handled
    | handled _ _ _ past _ => exact past
    | waited _ past _ => exact past
  · apply Or.inr
    intro pc mem launch
    obtain ⟨pc', mem', launch'⟩ | rfl := effect.process mem launch
    · exact gone pc' mem' launch'
    · rw [List.getElem?_eq_none (Nat.le_refl _)] at found
      cases found

theorem Over.not_firstExit (past : Over n s) (first : FirstExit n s e)
    (h : s.next goos e = some s') : False := by
  obtain ⟨y, found, past⟩ := past
  obtain ⟨⟨tail, rfl⟩, _, pc, mem, launch⟩ := first
  obtain ⟨x, found', h⟩ := Option.bind_eq_some_iff.mp h
  obtain rfl := Option.some.inj (found.symm.trans found')
  obtain handled | gone := past
  · unfold Host.onExit at h
    split at h
    · exact handled ‹_›
    · cases h
  · exact gone pc mem launch

/-- The exit of a launch that is not over takes the crash path. -/
theorem Calm.crashPath (calm : Calm n s) (first : FirstExit n s e) (h : s.next goos e = some s') :
    CrashPath goos n s e := by
  obtain ⟨⟨tail, rfl⟩, ⟨x, text, found, failed⟩, pc, mem, _⟩ := first
  have stopping : s.m.stopping = false := by
    obtain ⟨free, _⟩ | ⟨_, _, _, _, stopping, _⟩ := calm.ahead
    · rw [free] at mem
      cases mem
    · exact stopping
  have crashed : s.m.onExit s.cfg n (.failure text) tail =
      ({ s.m with cmd := none, qmp := none, vncPassword := "", state := .crashed,
                  lastErr := some ("qemu exited unexpectedly: " ++ text ++ "; " ++ tail) },
        s.cfg.restartOnCrash) := by
    simp [Manager.onExit, Manager.ignores, calm.cmd, stopping]
  refine ⟨s', h, ?_⟩
  obtain ⟨y, found', h⟩ := Option.bind_eq_some_iff.mp h
  obtain rfl := Option.some.inj (found.symm.trans found')
  unfold Host.onExit at h
  rw [failed] at h
  split at h
  · rename_i status' gone _
    obtain rfl := Option.some.inj gone
    obtain rfl := Option.some.inj h
    rw [crashed]
    have here := (getElem?_set found
      ({ x with waiter := if s.cfg.restartOnCrash then .sleeping else .handled } : Process) n).trans
        (if_pos rfl)
    exact ⟨rfl, waiter_eq_some.mpr ⟨_, here, rfl⟩⟩
  · cases h

/-- The only pending call is the one that is ahead. -/
theorem Calm.at_ (calm : Calm n s) {t : Nat} {c : StartCall} (found : s.calls[t]? = some c)
    (going : c.pc.inProgress = true) :
    (c.pc ≠ .noting ∧ s.m.state = .starting ∧ s.m.stopping = false ∧
      (c.pc.process = none ∧ s.procs.length = n ∨
        c.pc.process = some n ∧ s.procs.length = n + 1)) ∧
      ∀ c', (s.calls.set t c').flatMap (·.pc.pending) = c'.pc.pending := by
  have mem := mem_pending found going
  obtain ⟨free, _⟩ | ⟨pc, single, rest⟩ := calm.ahead
  · rw [free] at mem
    cases mem
  · rw [single, List.mem_singleton] at mem
    obtain rfl := mem
    exact ⟨rest, (pending_single (by simp [single]) found going).2⟩

theorem Calm.not_running (calm : Calm n s) : s.m.state ≠ .running := by
  obtain ⟨_, idle, _⟩ | ⟨_, _, _, starting, _⟩ := calm.ahead
  · exact idle
  · simp [starting]

/-- A `Start` is admitted only while none is pending. -/
theorem Calm.admitted (calm : Calm n s) {m : Manager} (h : s.m.startEnter = some m) :
    s.pending = [] ∧ s.procs.length = n := by
  obtain ⟨⟨_, notStarting⟩, _⟩ := Manager.startEnter_eq_some.mp h
  obtain ⟨free, _, length⟩ | ⟨_, _, _, starting, _⟩ := calm.ahead
  · exact ⟨free, length⟩
  · exact (notStarting starting).elim

theorem calm_step (calm : Calm n s) (effect : Effect s e s') : Calm n s' ∨ Over n s' := by
  have stops (j : Nat) (x : StopCall) (q : Qmp) (found : s'.stops[j]? = some x) :
      x.pc ≠ .marking q := by
    intro at_
    obtain ⟨y, found, at_⟩ | running := effect.marking found at_
    · exact calm.stops j y q found at_
    · exact calm.not_running running
  have waiters (other : e.spawns = false) (q : Nat) (x : Process)
      (found : s'.procs[q]? = some x) (waits : x.waiter = .waiting) : q = n := by
    obtain ⟨y, found, waits⟩ | ⟨_, event⟩ := effect.was_waiting found waits
    · exact calm.waiters q y found waits
    · rw [event] at other
      cases other
  cases effect with
  | config => exact Or.inl { calm with }
  | busy _ => exact Or.inl calm
  | admitted h =>
      obtain ⟨free, length⟩ := calm.admitted h
      obtain ⟨_, rfl⟩ := Manager.startEnter_eq_some.mp h
      have pending := pending_admitted.trans (by rw [free, List.nil_append])
      exact Or.inl ⟨calm.cmd, Or.inr ⟨_, pending, by simp, rfl, rfl, Or.inl ⟨rfl, length⟩⟩,
        waiters rfl, stops⟩
  | @moved e t c c' pc found moves h =>
      subst h
      obtain ⟨⟨_, starting, running, where_⟩, rest⟩ := calm.at_ found moves.going.1.1
      have single := (rest c').trans (pending_of_inProgress moves.going.2.1)
      obtain same | ⟨gone, _⟩ := moves.process
      · refine Or.inl ⟨calm.cmd, Or.inr ⟨_, single, moves.going.2.2, starting, running, ?_⟩,
          calm.waiters, stops⟩
        rwa [same]
      · obtain ⟨_, length⟩ | ⟨_, length⟩ := where_
        · exact Or.inl ⟨calm.cmd, Or.inr ⟨_, single, moves.going.2.2, starting, running,
            Or.inl ⟨gone, length⟩⟩, calm.waiters, stops⟩
        · exact Or.inr (over_of_pending (show n < s.procs.length by omega) single (by simp [gone]))
  | @spawned t c i found at_ =>
      have spawn : Effect s (.spawn t none) _ := .spawned found at_
      obtain ⟨⟨_, starting, running, where_⟩, rest⟩ :=
        calm.at_ found (at_ ▸ rfl)
      have length : s.procs.length = n := by
        obtain ⟨_, length⟩ | ⟨launch, _⟩ := where_
        · exact length
        · rw [at_] at launch
          cases launch
      refine Or.inl ⟨calm.cmd, Or.inr ⟨_, rest _, by simp, starting, running, Or.inr ⟨?_, ?_⟩⟩,
        fun q x found waits => ?_, stops⟩
      · rw [StartPc.process, length]
      · rw [List.length_append, length, List.length_singleton]
      · obtain ⟨y, found, waits⟩ | ⟨last, _⟩ := spawn.was_waiting found waits
        · exact calm.waiters q y found waits
        · exact last.trans length
  | published found at_ h =>
      obtain ⟨⟨_, _, _, where_⟩, rest⟩ := calm.at_ found (at_ ▸ rfl)
      obtain ⟨idle, _⟩ | ⟨_, length⟩ := where_
      · rw [at_] at idle
        cases idle
      · refine Or.inr (over_of_pending (show n < s.procs.length by omega) (rest _) ?_)
        obtain rfl | rfl := h <;> simp [StartPc.pending, StartPc.inProgress, StartPc.process]
  | noted found at_ =>
      obtain ⟨⟨early, _⟩, _⟩ := calm.at_ found (at_ ▸ rfl)
      exact (early at_).elim
  | failed found at_ =>
      obtain ⟨⟨_, starting, running, where_⟩, rest⟩ :=
        calm.at_ found (at_ ▸ rfl)
      refine Or.inl ⟨calm.cmd, Or.inl ⟨rest _, by simp [Manager.fail], ?_⟩, waiters rfl, stops⟩
      obtain ⟨_, length⟩ | ⟨launch, _⟩ := where_
      · exact length
      · rw [at_] at launch
        cases launch
  | exited found at_ =>
      exact Or.inl ⟨calm.cmd, calm.ahead.keep rfl rfl rfl List.length_set, waiters rfl, stops⟩
  | handled found gone at_ h =>
      obtain rfl := calm.waiters _ _ found at_
      refine Or.inr ⟨_, (getElem?_set found _ _).trans (if_pos rfl), Or.inl ?_⟩
      rw [h]
      split <;> simp
  | restarted found at_ h =>
      obtain ⟨free, length⟩ := calm.admitted h
      obtain ⟨_, rfl⟩ := Manager.startEnter_eq_some.mp h
      have pending := pending_admitted.trans (by rw [free, List.nil_append])
      exact Or.inl ⟨calm.cmd, Or.inr ⟨_, pending, by simp, rfl, rfl,
        Or.inl ⟨rfl, List.length_set.trans length⟩⟩, waiters rfl, stops⟩
  | waited found h =>
      refine Or.inl ⟨calm.cmd, calm.ahead.keep rfl rfl rfl List.length_set, waiters ?_, stops⟩
      obtain ⟨rfl, _⟩ | rfl | rfl := h.event <;> rfl
  | called => exact Or.inl ⟨calm.cmd, calm.ahead, calm.waiters, stops⟩
  | stopped _ _ => exact Or.inl ⟨calm.cmd, calm.ahead, calm.waiters, stops⟩
  | marked found h =>
      cases h with
      | shutdown at_ => exact (calm.stops _ _ _ found at_).elim
      | forceStop _ cmd =>
          rw [calm.cmd] at cmd
          cases cmd

/-- So it does from a fresh manager on. -/
theorem idle_fresh (cfg : Config) : Idle { cfg } where
  enters := ⟨nofun, nofun⟩
  cmd := rfl
  pending := rfl
  waiters := nofun
  stops := nofun

/-- Whatever the configuration and the interleaving, a first process that exits with a failure
before its launch has completed takes the crash path. -/
theorem first_exit_takes_crash_path (x : Execution (idleSystem goos n)) :
    x.Meets fun s e => FirstExit n s e → CrashPath goos n s e := by
  have held := x.run.invariant (I := fun s => Calm n s ∨ Over n s) ?_ ?_
  · rintro ⟨s, e⟩ mem first
    obtain ⟨t, h⟩ := x.run.enabled _ mem
    obtain calm | past := held.1 _ mem
    · exact calm.crashPath first h
    · exact (past.not_firstExit first h).elim
  · rintro s ⟨idle, rfl⟩
    exact Or.inl idle.calm
  · rintro s e t (calm | past) h
    · exact calm_step calm (effect_of_next h)
    · exact Or.inr (past.keep (effect_of_next h))

/-- The first accelerator of a fresh manager has failed, and its exit is still to be handled. -/
def firstGone : Host :=
  { cfg := sampleConfig, m := { state := .starting },
    procs := [{ exit := some (.failure "exit status 1") }],
    calls := [{ accels := ["kvm", "tcg"], pc := .selecting 0 0 }] }

end VmServer.Vm
