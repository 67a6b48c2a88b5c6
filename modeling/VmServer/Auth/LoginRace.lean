import Mathlib.Algebra.Order.Group.Int
import VmServer.Library.Contributions
import VmServer.Library.SlidingWindow
import VmServer.Library.TransitionSystem
import VmServer.Auth.Manager

/-!
# Concurrent logins and the lockout

A login reads the clock, tests the lockout, compares the password without
the mutex, and then records the outcome. The test sees the recorded failures
only. The bound on failures in a window holds as long as each call that the
test lets through would also have been let through with the calls in flight
counted as failures; calls that do not overlap meet that condition by the
test alone.
-/

namespace VmServer.Auth

open TransitionSystem SlidingWindow

/-- Where a `Login` call is. -/
inductive CallPhase
  | called
  | allowed
  | compared (ok : Option Bool)
  | finished (result : Except LoginError (Session × Cookie))

structure Call where
  ip : String
  start : Int
  username : String
  password : String
  phase : CallPhase

/-- The manager with the calls made so far, and for each address the start times of the calls
that ended in `ErrInvalidCredentials` since its last successful login. -/
structure LoginState where
  clock : Int
  manager : Manager
  calls : List Call
  failures : String → List Int

inductive LoginEvent
  | advance (d : Nat)
  | call (ip username password : String)
  /-- The first critical section of the call. -/
  | check (i : Nat)
  | compare (i : Nat)
  /-- The second critical section of the call. -/
  | record (i : Nat) (random : Except String SessionID)
  /-- A tick of the reaper that read the time `now` before it took the mutex. -/
  | reap (now : Int)

namespace LoginState

variable (opts : Options) (creds : Credentials)

/-- The call goes on to another phase. -/
def move (s : LoginState) (i : Nat) (c : Call) (phase : CallPhase) : LoginState :=
  { s with calls := s.calls.set i { c with phase } }

def check (s : LoginState) (i : Nat) (c : Call) : Option LoginState :=
  match c.phase, s.manager.lockedOut opts c.ip c.start with
  | .called, (m, true) => some ({ s with manager := m }.move i c (.finished (.error .lockedOut)))
  | .called, (m, false) => some ({ s with manager := m }.move i c .allowed)
  | _, _ => none

def compare (s : LoginState) (i : Nat) (c : Call) : Option LoginState :=
  match c.phase with
  | .allowed =>
      some (s.move i c (.compared (Manager.credentialsOK creds c.username c.password)))
  | _ => none

def record (s : LoginState) (i : Nat) (c : Call) (random : Except String SessionID) :
    Option LoginState :=
  match c.phase with
  | .compared ok =>
      let r := s.manager.record opts c.ip c.start c.username ok random
      let failures := if ok = none then s.failures c.ip ++ [c.start] else []
      some ({ s with manager := r.1,
                     failures := Function.update s.failures c.ip failures }.move i c
        (.finished r.2))
  | _ => none

def next (s : LoginState) : LoginEvent → Option LoginState
  | .advance d => some { s with clock := s.clock + d }
  | .call ip username password =>
      some { s with calls := s.calls ++ [⟨ip, s.clock, username, password, .called⟩] }
  | .check i => s.calls[i]?.bind (s.check opts i)
  | .compare i => s.calls[i]?.bind (s.compare creds i)
  | .record i random => s.calls[i]?.bind (s.record opts i · random)
  | .reap now => if now ≤ s.clock then some { s with manager := s.manager.reap opts now } else none

end LoginState

/-- Any number of concurrent `Login` calls with the reaper. -/
def loginSystem (opts : Options) (creds : Credentials) : System LoginState LoginEvent where
  initial := {s | ∃ clock, s = ⟨clock, .new, [], fun _ => []⟩}
  next := LoginState.next opts creds

/-- The call was let through and has not been recorded. -/
def Call.inFlight (c : Call) : Bool :=
  match c.phase with
  | .allowed => true
  | .compared _ => true
  | _ => false

/-- The start time of a call of the address that is in flight. -/
def Call.flying (ip : String) (c : Call) : List Int :=
  if c.ip = ip ∧ c.inFlight then [c.start] else []

namespace LoginState

/-- The failures of an address together with its calls in flight, by start time. -/
def tracked (s : LoginState) (ip : String) : List Int :=
  s.failures ip ++ s.calls.flatMap (·.flying ip)

/-- At most `MaxAttempts` failures started within any one window. -/
def WithinLimit (opts : Options) (s : LoginState) : Prop :=
  ∀ ip t, countIn opts.attemptWindow t (s.failures ip) ≤ opts.maxAttempts

/-- A call is let through only while failures and calls in flight together leave room. -/
def InFlightCounted (opts : Options) (s : LoginState) (e : LoginEvent) : Prop :=
  ∀ i c, e = .check i → s.calls[i]? = some c →
    (s.manager.lockedOut opts c.ip c.start).2 = false →
      countSince opts.attemptWindow c.start (s.tracked c.ip) < opts.maxAttempts

/-- No overlap: a call is tested while no other of its address is in flight, and no time
passes between reading the clock and taking the mutex. -/
def OneAtATime (s : LoginState) (e : LoginEvent) : Prop :=
  (∀ i c, e = .check i → s.calls[i]? = some c →
    c.start = s.clock ∧ s.calls.flatMap (·.flying c.ip) = []) ∧
  ∀ now, e = .reap now → now = s.clock

variable {opts : Options} {creds : Credentials}

/-- What a call contributes can be counted next to the recorded failures. -/
theorem tracked_move {s t : LoginState} {i : Nat} {c : Call} {phase : CallPhase}
    (found : s.calls[i]? = some c) (moved : t.calls = s.calls.set i { c with phase })
    (ip : String) : ∃ others,
      (s.tracked ip).Perm (s.failures ip ++ c.flying ip ++ others) ∧
      (t.tracked ip).Perm (t.failures ip ++ ({ c with phase } : Call).flying ip ++ others) := by
  obtain ⟨before, after, now, later⟩ := Contributions.flatMap_set found (·.flying ip)
  refine ⟨before ++ after, ?_, ?_⟩
  · rw [tracked, now]
    apply List.perm_iff_count.mpr
    intro a
    simp only [List.count_append]
    omega
  · rw [tracked, moved, later]
    apply List.perm_iff_count.mpr
    intro a
    simp only [List.count_append]
    omega

/-- What is tracked is bounded for every address. -/
def Inv (opts : Options) (s : LoginState) : Prop :=
  ∀ ip, Bounded opts.attemptWindow opts.maxAttempts (s.tracked ip)

theorem Inv.withinLimit {s : LoginState} (inv : s.Inv opts) : s.WithinLimit opts :=
  fun ip => (inv ip).of_subperm (List.sublist_append_left _ _).subperm

/-- A call that moves on without adding to what is tracked. -/
theorem Inv.move {s t : LoginState} {i : Nat} {c : Call} {phase : CallPhase} (inv : s.Inv opts)
    (found : s.calls[i]? = some c) (moved : t.calls = s.calls.set i { c with phase })
    (less : ∀ ip, (t.failures ip ++ ({ c with phase } : Call).flying ip).Subperm
      (s.failures ip ++ c.flying ip)) : t.Inv opts := by
  intro ip
  obtain ⟨others, before, after⟩ := tracked_move found moved ip
  apply (inv ip).of_subperm
  exact after.subperm.trans (((less ip).append (List.Subperm.refl others)).trans
    before.symm.subperm)

theorem inv_check {s t : LoginState} {i : Nat} {c : Call} (inv : s.Inv opts)
    (found : s.calls[i]? = some c) (counted : s.InFlightCounted opts (.check i))
    (h : s.check opts i c = some t) : t.Inv opts := by
  unfold check at h
  split at h
  · rename_i m phase locked
    obtain rfl := Option.some.inj h
    apply inv.move found rfl
    intro ip
    simpa [Call.flying, Call.inFlight, LoginState.move, phase] using List.Subperm.refl _
  · rename_i m phase locked
    obtain rfl := Option.some.inj h
    have room := counted i c rfl found (by rw [locked])
    intro ip
    obtain ⟨others, before, after⟩ := tracked_move (t := { s with manager := m }.move i c .allowed)
      found rfl ip
    by_cases own : c.ip = ip
    · subst own
      apply ((inv c.ip).cons room).of_subperm
      refine (after.trans ?_).subperm
      refine List.Perm.trans ?_ (before.symm.cons c.start)
      simp [Call.flying, Call.inFlight, LoginState.move, phase]
    · refine (inv ip).of_subperm (after.trans (List.Perm.trans ?_ before.symm)).subperm
      simp [Call.flying, own, LoginState.move]
  · cases h

theorem inv_record {s t : LoginState} {i : Nat} {c : Call} {random : Except String SessionID}
    (inv : s.Inv opts) (found : s.calls[i]? = some c) (h : s.record opts i c random = some t) :
    t.Inv opts := by
  unfold record at h
  split at h
  · rename_i ok phase
    obtain rfl := Option.some.inj h
    apply inv.move found rfl
    intro ip
    by_cases own : ip = c.ip
    · subst own
      cases ok with
      | none =>
          simpa [Call.flying, Call.inFlight, LoginState.move, phase] using List.Subperm.refl _
      | some admin => simp [Call.flying, Call.inFlight, LoginState.move, phase]
    · simpa [Call.flying, LoginState.move, own, Ne.symm own] using List.Subperm.refl _
  · cases h

theorem inv_next {s t : LoginState} {e : LoginEvent} (inv : s.Inv opts)
    (counted : s.InFlightCounted opts e) (h : s.next opts creds e = some t) : t.Inv opts := by
  cases e with
  | advance d =>
      obtain rfl := Option.some.inj h
      exact inv
  | call ip username password =>
      obtain rfl := Option.some.inj h
      intro key
      simpa [tracked, Call.flying, Call.inFlight] using inv key
  | check i =>
      obtain ⟨c, found, h⟩ := Option.bind_eq_some_iff.mp h
      exact inv_check inv found counted h
  | compare i =>
      obtain ⟨c, found, h⟩ := Option.bind_eq_some_iff.mp h
      unfold LoginState.compare at h
      split at h
      · rename_i phase
        obtain rfl := Option.some.inj h
        apply inv.move found rfl
        intro ip
        simpa [Call.flying, Call.inFlight, LoginState.move, phase] using List.Subperm.refl _
      · cases h
  | record i random =>
      obtain ⟨c, found, h⟩ := Option.bind_eq_some_iff.mp h
      exact inv_record inv found h
  | reap now =>
      obtain ⟨_, h⟩ := Option.ite_none_right_eq_some.mp h
      obtain rfl := Option.some.inj h
      exact inv

/-- Within the window that ends now, the manager has forgotten no failure. -/
def Remembered (opts : Options) (s : LoginState) : Prop :=
  ∀ ip, (s.failures ip).filter (s.clock - opts.attemptWindow < ·) =
    (s.manager.failuresOf ip).filter (s.clock - opts.attemptWindow < ·)

theorem Remembered.later {s : LoginState} (held : s.Remembered opts) (d : Nat) :
    ({ s with clock := s.clock + d } : LoginState).Remembered opts := by
  intro ip
  have narrower : ∀ l : List Int, l.filter (s.clock + d - opts.attemptWindow < ·) =
      (l.filter (s.clock - opts.attemptWindow < ·)).filter
        (s.clock + d - opts.attemptWindow < ·) := by
    intro l
    rw [List.filter_filter]
    apply List.filter_congr
    intro u _
    rw [Bool.eq_iff_iff]
    simp only [Bool.and_eq_true, decide_eq_true_eq]
    omega
  have same := held ip
  dsimp only
  rw [narrower, same, ← narrower]

theorem remembered_next {s t : LoginState} {e : LoginEvent} (held : s.Remembered opts)
    (serial : s.OneAtATime e) (h : s.next opts creds e = some t) : t.Remembered opts := by
  cases e with
  | advance d =>
      obtain rfl := Option.some.inj h
      exact held.later d
  | call ip username password =>
      obtain rfl := Option.some.inj h
      exact held
  | check i =>
      obtain ⟨c, found, h⟩ := Option.bind_eq_some_iff.mp h
      have now := (serial.1 i c rfl found).1
      have kept : ({ s with manager := (s.manager.lockedOut opts c.ip c.start).1 } :
          LoginState).Remembered opts := by
        intro ip
        dsimp only
        rw [Manager.lockedOut_failuresOf]
        by_cases own : ip = c.ip
        · subst own
          rw [Function.update_self, now, List.filter_filter]
          simpa using held c.ip
        · rw [Function.update_of_ne own]
          exact held ip
      unfold LoginState.check at h
      split at h
      · rename_i locked
        rw [locked] at kept
        obtain rfl := Option.some.inj h
        exact kept
      · rename_i locked
        rw [locked] at kept
        obtain rfl := Option.some.inj h
        exact kept
      · cases h
  | compare i =>
      obtain ⟨c, found, h⟩ := Option.bind_eq_some_iff.mp h
      unfold LoginState.compare at h
      split at h
      · obtain rfl := Option.some.inj h
        exact held
      · cases h
  | record i random =>
      obtain ⟨c, found, h⟩ := Option.bind_eq_some_iff.mp h
      unfold LoginState.record at h
      split at h
      · rename_i ok _
        obtain rfl := Option.some.inj h
        intro ip
        change (Function.update s.failures c.ip _ ip).filter (s.clock - opts.attemptWindow < ·) =
          ((s.manager.record opts c.ip c.start c.username ok random).1.failuresOf ip).filter
            (s.clock - opts.attemptWindow < ·)
        rw [Manager.record_failuresOf]
        by_cases own : ip = c.ip
        · subst own
          rw [Function.update_self, Function.update_self]
          split
          · rw [List.filter_append, List.filter_append, held c.ip]
          · rfl
        · rw [Function.update_of_ne own, Function.update_of_ne own]
          exact held ip
      · cases h
  | reap now =>
      obtain ⟨_, h⟩ := Option.ite_none_right_eq_some.mp h
      obtain rfl := Option.some.inj h
      obtain rfl := serial.2 now rfl
      intro ip
      rw [Manager.reap_failuresOf, List.filter_filter]
      simpa using held ip

/-- Without overlap the test of the code counts every failure that matters. -/
theorem counted_of_oneAtATime {s : LoginState} {e : LoginEvent} (held : s.Remembered opts)
    (serial : s.OneAtATime e) : s.InFlightCounted opts e := by
  rintro i c rfl found passed
  obtain ⟨now, alone⟩ := serial.1 i c rfl found
  have few : ((s.manager.failuresOf c.ip).filter
      (c.start - opts.attemptWindow < ·)).length < opts.maxAttempts := by
    simpa [Manager.lockedOut] using passed
  rw [countSince_eq_length_filter, tracked, alone, List.append_nil, now, held c.ip, ← now]
  exact few

end LoginState

/-- The number of failed comparisons in any window stays within the limit in every run that
counts its calls in flight; a run without overlapping calls does so. -/
theorem failures_within_limit (opts : Options) (creds : Credentials)
    (x : Execution (loginSystem opts creds)) :
    (x.Meets (LoginState.InFlightCounted opts) → x.Always (LoginState.WithinLimit opts)) ∧
      (x.Meets LoginState.OneAtATime → x.Meets (LoginState.InFlightCounted opts)) := by
  constructor
  · intro counted
    refine Execution.Always.mono (P := LoginState.Inv opts) ?_ fun s inv => inv.withinLimit
    refine x.run.always (G := LoginState.InFlightCounted opts) ?_ ?_ counted
    · rintro s ⟨clock, rfl⟩ ip
      exact bounded_nil
    · exact fun inv counted h => LoginState.inv_next inv counted h
  · intro serial
    have held : x.Always (LoginState.Remembered opts) := by
      refine x.run.always (G := LoginState.OneAtATime) ?_ ?_ serial
      · rintro s ⟨clock, rfl⟩ ip
        rfl
      · exact fun held serial h => LoginState.remembered_next held serial h
    exact fun p hp => LoginState.counted_of_oneAtATime (held.1 p hp) (serial p hp)

/-- The `i`-th call is a wrong guess that is recorded before anything else happens. -/
def guessInTurn (i : Nat) : List LoginEvent :=
  [.call "203.0.113.7" "admin" "guess", .check i, .compare i, .record i (.ok sampleID)]

theorem oneAtATime_check {s : LoginState} {i : Nat} {c : Call} (found : s.calls[i]? = some c)
    (now : c.start = s.clock) (alone : s.calls.flatMap (·.flying c.ip) = []) :
    s.OneAtATime (.check i) := by
  refine ⟨?_, nofun⟩
  rintro _ _ ⟨⟩ found'
  obtain rfl := Option.some.inj (found.symm.trans found')
  exact ⟨now, alone⟩

/-- Two guesses one after the other, with some time in between. -/
theorem guesses_in_turn : ∃ x : Execution (loginSystem defaultOptions oneUser),
    x.final.failures "203.0.113.7" = [0, 5] ∧ x.Always (LoginState.WithinLimit defaultOptions) := by
  have turns : ∃ t, Leads (loginSystem defaultOptions oneUser) LoginState.OneAtATime
      ⟨0, .new, [], fun _ => []⟩ (guessInTurn 0 ++ .advance 5 :: guessInTurn 1) t ∧
        t.failures "203.0.113.7" = [0, 5] :=
    ⟨_, ⟨⟨nofun, nofun⟩, _, rfl, oneAtATime_check rfl rfl rfl, _, rfl, ⟨nofun, nofun⟩, _, rfl,
      ⟨nofun, nofun⟩, _, rfl, ⟨nofun, nofun⟩, _, rfl, ⟨nofun, nofun⟩, _, rfl,
      oneAtATime_check rfl rfl rfl, _, rfl, ⟨nofun, nofun⟩, _, rfl, ⟨nofun, nofun⟩, _, rfl, rfl⟩,
      rfl⟩
  obtain ⟨t, leads, failures⟩ := turns
  have start : ⟨0, .new, [], fun _ => []⟩ ∈ (loginSystem defaultOptions oneUser).initial := ⟨0, rfl⟩
  obtain ⟨x, serial, rfl⟩ := Execution.exists_meets start leads
  obtain ⟨within, counted⟩ := failures_within_limit defaultOptions oneUser x
  exact ⟨x, failures, within (counted serial)⟩

/-- `n` wrong guesses from one address that all pass the test before the first is recorded. -/
def guessAtOnce (n : Nat) : List LoginEvent :=
  List.replicate n (.call "203.0.113.7" "admin" "guess") ++ (List.range n).map .check ++
    (List.range n).map .compare ++
    (List.range n).map fun i => .record i (.ok sampleID)

theorem nine_guesses_at_once : ∃ x : Execution (loginSystem defaultOptions oneUser),
    ¬ x.Always (LoginState.WithinLimit defaultOptions) := by
  refine Execution.exists_not_always (s := ⟨0, .new, [], fun _ => []⟩) ⟨0, rfl⟩
    (show exec _ _ (guessAtOnce 9) = some _ from rfl) fun within => ?_
  have few := within "203.0.113.7" 0
  revert few
  decide

end VmServer.Auth
