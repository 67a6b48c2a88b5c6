import VmServer.Library.Slice
import VmServer.Library.SlidingWindow
import VmServer.Library.TransitionSystem
import VmServer.Auth.Manager
import Mathlib.Algebra.Order.Group.Int

/-!
# The lockout and its history

The runtime keeps the failures of an address in a slice that `lockedOut`
filters over its own backing array. The store of slices simulates the manager,
and the manager's pruned failures agree with the results returned so far on
every window that a later call can ask for. So the result of a call can be
read off the results returned before it.

## Implementation notes

Calls run one after another: a call starts when the call before it has
returned, and reads the clock in the order in which it takes the mutex. Time
may pass and the reaper may tick between the two critical sections of a call.
-/

namespace VmServer.Auth

open TransitionSystem SlidingWindow

/-- The two maps of the manager as the runtime holds them. -/
structure Store where
  sessions : String → Option Session
  attempts : String → Option (Slice Int)

namespace Store

variable (opts : Options)

def new : Store where
  sessions := fun _ => none
  attempts := fun _ => none

/-- `m.attempts[ip]`, where a missing key gives a nil slice. -/
def failuresOf (m : Store) (ip : String) : Slice Int := (m.attempts ip).getD .empty

def setAttempts (m : Store) (ip : String) (times : Option (Slice Int)) : Store :=
  { m with attempts := Function.update m.attempts ip times }

/-- Filters the failures of the address in place and counts what is left. -/
def lockedOut (m : Store) (ip : String) (now : Int) : Store × Bool :=
  let window := now - opts.attemptWindow
  let kept := (m.failuresOf ip).keep (window < ·)
  (m.setAttempts ip (some kept), opts.maxAttempts ≤ kept.length)

/-- The second critical section of `Login`, for a call that started at `now`. -/
def record (m : Store) (spare : Nat) (ip : String) (now : Int) (username : String)
    (ok : Option Bool) (random : Except String SessionID) :
    Store × Except LoginError (Session × Cookie) :=
  match ok with
  | none =>
      (m.setAttempts ip (some ((m.failuresOf ip).append spare now)), .error .invalidCredentials)
  | some admin =>
      let m := m.setAttempts ip none
      match random with
      | .error text => (m, .error (.random text))
      | .ok id =>
          let s := Manager.newSession id ip now username admin
          ({ m with sessions := Function.update m.sessions s.id (some s) },
            .ok (s, { value := id.val, secure := opts.secure,
                      maxAge := opts.sessionTTL.tdiv 1000000000 }))

/-- One tick of the reaper. -/
def reap (m : Store) (now : Int) : Store where
  sessions := fun id => (m.sessions id).filter fun s => !Manager.expired opts s now
  attempts := fun ip =>
    match m.attempts ip with
    | none => none
    | some times =>
        let kept := times.keep (now - opts.attemptWindow < ·)
        if ¬ opts.maxAttempts ≤ kept.length ∧ kept.length = 0 then none else some kept

/-- The store holds what the manager does, with a list for each slice. -/
def Shows (m : Store) (a : Manager) : Prop :=
  m.sessions = a.sessions ∧ ∀ ip, (m.attempts ip).map Slice.toList = a.attempts ip

variable {m : Store} {a : Manager}

theorem shows_new : new.Shows .new := ⟨rfl, fun _ => rfl⟩

theorem Shows.failuresOf (h : m.Shows a) (ip : String) :
    (m.failuresOf ip).toList = a.failuresOf ip := by
  have same := h.2 ip
  simp only [Store.failuresOf, Manager.failuresOf, ← same]
  cases m.attempts ip <;> rfl

theorem Shows.setAttempts (h : m.Shows a) {ip : String} {times : Option (Slice Int)}
    {list : Option (List Int)} (same : times.map Slice.toList = list) :
    (m.setAttempts ip times).Shows (a.setAttempts ip list) := by
  constructor
  · exact h.1
  · intro key
    by_cases here : key = ip
    · subst here
      simpa [Store.setAttempts, Manager.setAttempts] using same
    · simpa [Store.setAttempts, Manager.setAttempts, here] using h.2 key

/-- The filter that reuses the backing array decides as the filter on lists. -/
theorem Shows.lockedOut (h : m.Shows a) (ip : String) (now : Int) :
    (m.lockedOut opts ip now).1.Shows (a.lockedOut opts ip now).1 ∧
      (m.lockedOut opts ip now).2 = (a.lockedOut opts ip now).2 := by
  have kept := Slice.toList_keep (m.failuresOf ip) (now - opts.attemptWindow < ·)
  rw [h.failuresOf] at kept
  constructor
  · apply h.setAttempts
    exact congrArg some kept
  · have length := congrArg List.length kept
    rw [Slice.length_toList] at length
    simp only [Store.lockedOut, Manager.lockedOut, length]

theorem Shows.record (h : m.Shows a) (spare : Nat) (ip : String) (now : Int)
    (username : String) (ok : Option Bool) (random : Except String SessionID) :
    (m.record opts spare ip now username ok random).1.Shows
        (a.record opts ip now username ok random).1 ∧
      (m.record opts spare ip now username ok random).2 =
        (a.record opts ip now username ok random).2 := by
  cases ok with
  | none =>
      have longer := Slice.toList_append (m.failuresOf ip) spare now
      rw [h.failuresOf] at longer
      exact ⟨h.setAttempts (congrArg some longer), rfl⟩
  | some admin =>
      have cleared : (m.setAttempts ip none).Shows (a.setAttempts ip none) := h.setAttempts rfl
      cases random with
      | error text => exact ⟨cleared, rfl⟩
      | ok id =>
          refine ⟨⟨?_, cleared.2⟩, rfl⟩
          exact congrArg (Function.update · id.val _) cleared.1

theorem Shows.reap (h : m.Shows a) (now : Int) : (m.reap opts now).Shows (a.reap opts now) := by
  constructor
  · simp only [Store.reap, Manager.reap, h.1]
  · intro ip
    simp only [Store.reap, Manager.reap, ← h.2 ip]
    cases m.attempts ip with
    | none => rfl
    | some times =>
        have kept := Slice.toList_keep times (now - opts.attemptWindow < ·)
        have length := congrArg List.length kept
        rw [Slice.length_toList] at length
        simp only [Option.map_some, length, ← kept]
        split <;> rfl

end Store

/-- The `Login` call in progress, which the lockout test has let through. -/
structure Pending where
  ip : String
  start : Int
  username : String
  password : String

/-- A `Login` call that has returned. -/
structure Finished where
  ip : String
  start : Int
  result : Except LoginError (Session × Cookie)

structure LockoutState where
  clock : Int
  store : Store
  pending : Option Pending
  log : List Finished

inductive LockoutEvent
  | advance (d : Nat)
  /-- A call reads the clock and goes through its first critical section. -/
  | call (ip username password : String)
  /-- It compares the password and goes through its second critical section. -/
  | finish (creds : Credentials) (random : Except String SessionID) (spare : Nat)
  /-- A tick of the reaper that read the time `now`. -/
  | reap (now : Int)

namespace LockoutState

variable (opts : Options)

def call (s : LockoutState) (ip username password : String) : Option LockoutState :=
  match s.pending, s.store.lockedOut opts ip s.clock with
  | some _, _ => none
  | none, (m, true) =>
      some { s with store := m, log := s.log ++ [⟨ip, s.clock, .error .lockedOut⟩] }
  | none, (m, false) =>
      some { s with store := m, pending := some ⟨ip, s.clock, username, password⟩ }

def finish (s : LockoutState) (creds : Credentials) (random : Except String SessionID)
    (spare : Nat) : Option LockoutState :=
  s.pending.map fun p =>
    let ok := Manager.credentialsOK creds p.username p.password
    let r := s.store.record opts spare p.ip p.start p.username ok random
    { s with store := r.1, pending := none, log := s.log ++ [⟨p.ip, p.start, r.2⟩] }

def next (s : LockoutState) : LockoutEvent → Option LockoutState
  | .advance d => some { s with clock := s.clock + d }
  | .call ip username password => s.call opts ip username password
  | .finish creds random spare => s.finish opts creds random spare
  | .reap now => if now ≤ s.clock then some { s with store := s.store.reap opts now } else none

end LockoutState

/-- `Login` calls one after another, with the reaper. -/
def lockoutSystem (opts : Options) : System LockoutState LockoutEvent where
  initial := {s | ∃ clock, s = ⟨clock, .new, none, []⟩}
  next := LockoutState.next opts

/-- What a returned call leaves of the failures of an address. -/
def Finished.after (ip : String) (times : List Int) (c : Finished) : List Int :=
  if c.ip = ip then
    match c.result with
    | .error .invalidCredentials => times ++ [c.start]
    | .error .lockedOut => times
    -- The credentials were accepted; drawing the session id does not fail.
    | .error (.random _) => []
    | .ok _ => []
  else times

/-- The times of the calls of an address that ended in `ErrInvalidCredentials` since its last
successful login. -/
def failuresSince (log : List Finished) (ip : String) : List Int :=
  log.foldl (Finished.after ip) []

/-- A call was refused exactly when enough failures before it lie in its window. -/
def RefusedByHistory (opts : Options) (log : List Finished) : Prop :=
  ∀ before c after, log = before ++ c :: after →
    (c.result = .error .lockedOut ↔
      opts.maxAttempts ≤ countSince opts.attemptWindow c.start (failuresSince before c.ip))

@[simp] theorem failuresSince_concat (log : List Finished) (c : Finished) (ip : String) :
    failuresSince (log ++ [c]) ip = c.after ip (failuresSince log ip) := by
  simp [failuresSince]

theorem refusedByHistory_concat {opts : Options} {log : List Finished} {c : Finished}
    (h : RefusedByHistory opts log)
    (last : c.result = .error .lockedOut ↔
      opts.maxAttempts ≤ countSince opts.attemptWindow c.start (failuresSince log c.ip)) :
    RefusedByHistory opts (log ++ [c]) := by
  intro before d after split
  rcases List.eq_nil_or_concat after with rfl | ⟨rest, e, rfl⟩
  · obtain ⟨rfl, same⟩ := List.append_inj' split rfl
    obtain rfl := List.head_eq_of_cons_eq same
    exact last
  · apply h before d rest
    rw [List.concat_eq_append, ← List.cons_append, ← List.append_assoc] at split
    exact (List.append_inj' split rfl).1

/-- The result of a finished call is a refusal only if the lockout test refused it. -/
theorem record_not_lockedOut {opts : Options} {m : Store} {spare : Nat} {ip : String} {now : Int}
    {username : String} {ok : Option Bool} {random : Except String SessionID} :
    (m.record opts spare ip now username ok random).2 ≠ .error .lockedOut := by
  cases ok with
  | none => simp [Store.record]
  | some admin => cases random <;> simp [Store.record]

/-- A finished call leaves the same failures in the manager as in the history. -/
theorem record_after {opts : Options} {m : Store} {spare : Nat} {ip : String}
    {now : Int} {username : String} {ok : Option Bool} {random : Except String SessionID}
    {times : List Int} :
    Finished.after ip times ⟨ip, now, (m.record opts spare ip now username ok random).2⟩ =
      if ok = none then times ++ [now] else [] := by
  cases ok with
  | none => simp [Finished.after, Store.record]
  | some admin => cases random <;> simp [Finished.after, Store.record]

namespace LockoutState

variable {opts : Options} {s t : LockoutState}

/-- What the store has kept of the history. -/
structure Faithful (opts : Options) (s : LockoutState) : Prop where
  /-- From now on every window shows the same failures in the store and in the history. -/
  windows : ∃ a, s.store.Shows a ∧ ∀ ip now, s.clock ≤ now →
    (a.failuresOf ip).filter (now - opts.attemptWindow < ·) =
      (failuresSince s.log ip).filter (now - opts.attemptWindow < ·)
  /-- The call in progress was not to be refused. -/
  allowed : ∀ p, s.pending = some p →
    ¬ opts.maxAttempts ≤ countSince opts.attemptWindow p.start (failuresSince s.log p.ip)
  exact : RefusedByHistory opts s.log

theorem faithful_call {ip username password : String} (h : s.Faithful opts)
    (step : s.call opts ip username password = some t) : t.Faithful opts := by
  obtain ⟨a, shows, agree⟩ := h.windows
  obtain ⟨shows', same⟩ := shows.lockedOut opts ip s.clock
  have decides : (s.store.lockedOut opts ip s.clock).2 = true ↔
      opts.maxAttempts ≤ countSince opts.attemptWindow s.clock (failuresSince s.log ip) := by
    rw [same, countSince_eq_length_filter, ← agree ip s.clock le_rfl]
    simp [Manager.lockedOut]
  have windows : ∀ key now, s.clock ≤ now →
      (((a.lockedOut opts ip s.clock).1).failuresOf key).filter
          (now - opts.attemptWindow < ·) =
        (failuresSince s.log key).filter (now - opts.attemptWindow < ·) := by
    intro key now later
    rw [← agree key now later, Manager.lockedOut_failuresOf]
    by_cases here : key = ip
    · subst here
      rw [Function.update_self, List.filter_filter]
      apply List.filter_congr
      intro u _
      simp only [decide_eq_decide, Bool.and_eq_decide]
      grind
    · rw [Function.update_of_ne here]
  unfold call at step
  split at step
  · cases step
  · rename_i m refused
    obtain rfl := Option.some.inj step
    rw [refused] at shows' decides
    constructor
    · refine ⟨_, shows', fun key now later => ?_⟩
      rw [windows key now later, failuresSince_concat]
      by_cases here : ip = key <;> simp [Finished.after, here]
    · intro p pending
      simp_all
    · exact refusedByHistory_concat h.exact (by simpa using decides)
  · rename_i m passed
    obtain rfl := Option.some.inj step
    rw [passed] at shows' decides
    constructor
    · exact ⟨_, shows', windows⟩
    · intro p pending
      obtain rfl := Option.some.inj pending
      simpa using decides
    · exact h.exact

theorem faithful_finish {creds : Credentials} {random : Except String SessionID} {spare : Nat}
    (h : s.Faithful opts) (step : s.finish opts creds random spare = some t) :
    t.Faithful opts := by
  obtain ⟨p, pending, rfl⟩ := Option.map_eq_some_iff.mp step
  obtain ⟨a, shows, agree⟩ := h.windows
  obtain ⟨shows', _⟩ := shows.record opts spare p.ip p.start p.username
    (Manager.credentialsOK creds p.username p.password) random
  constructor
  · refine ⟨_, shows', fun key now later => ?_⟩
    rw [Manager.record_failuresOf, failuresSince_concat]
    by_cases here : p.ip = key
    · subst here
      rw [Function.update_self, record_after]
      split
      · rw [List.filter_append, List.filter_append, agree p.ip now later]
      · rfl
    · rw [Function.update_of_ne (Ne.symm here)]
      simpa [Finished.after, here] using agree key now later
  · intro q other
    cases other
  · apply refusedByHistory_concat h.exact
    exact iff_of_false record_not_lockedOut (h.allowed p pending)

theorem faithful_reap {now : Int} (h : s.Faithful opts) (past : now ≤ s.clock) :
    ({ s with store := s.store.reap opts now } : LockoutState).Faithful opts := by
  obtain ⟨a, shows, agree⟩ := h.windows
  refine ⟨⟨_, shows.reap opts now, fun key later after => ?_⟩, h.allowed, h.exact⟩
  rw [← agree key later after, Manager.reap_failuresOf, List.filter_filter]
  apply List.filter_congr
  intro u _
  have : s.clock ≤ later := after
  simp only [decide_eq_decide, Bool.and_eq_decide]
  grind

theorem faithful_next {e : LockoutEvent} (h : s.Faithful opts)
    (step : s.next opts e = some t) : t.Faithful opts := by
  cases e with
  | advance d =>
      obtain rfl := Option.some.inj step
      obtain ⟨a, shows, agree⟩ := h.windows
      refine ⟨⟨a, shows, fun ip now later => agree ip now ?_⟩, h.allowed, h.exact⟩
      have : s.clock + d ≤ now := later
      omega
  | call ip username password => exact faithful_call h step
  | finish creds random spare => exact faithful_finish h step
  | reap now =>
      obtain ⟨past, same⟩ := Option.ite_none_right_eq_some.mp step
      exact Option.some.inj same ▸ faithful_reap h past

theorem faithful_initial (h : s ∈ (lockoutSystem opts).initial) : s.Faithful opts := by
  obtain ⟨clock, rfl⟩ := h
  constructor
  · exact ⟨.new, Store.shows_new, fun _ _ _ => rfl⟩
  · intro p pending
    cases pending
  · intro before c after split
    simp at split

end LockoutState

/-- In every run a call is refused exactly when its address has had enough failures in the
window that ends with the call, since its last successful login. -/
theorem lockout_refines_history (opts : Options) (x : Execution (lockoutSystem opts)) :
    RefusedByHistory opts x.final.log := by
  have held := x.run.invariant (I := LockoutState.Faithful opts)
    (fun _ h => LockoutState.faithful_initial h) LockoutState.faithful_next
  exact held.2.exact

end VmServer.Auth
