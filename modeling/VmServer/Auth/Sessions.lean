import Mathlib.Algebra.Order.Group.Int
import VmServer.Library.Lease
import VmServer.Library.TransitionSystem
import VmServer.Auth.Manager

/-!
# How long a session id is accepted

The ghost part of the state keeps a lease for every issued id that was not
logged out: a beat for each accepted request and each touch. The manager
follows the leases as long as no touch renews a session that has been idle
for too long. `SessionFromRequest`, `Valid` and the reaper test the idle
limit; `Touch` does not.
-/

namespace VmServer.Auth

open TransitionSystem

/-- The manager, the clock, and what has happened to each session id. -/
structure SessionState where
  clock : Int
  manager : Manager
  leases : String → Option (Lease Int)

inductive SessionEvent
  | advance (d : Nat)
  /-- A login whose call started at `start`. -/
  | login (start : Int) (ip username password : String) (random : Except String SessionID)
  | request (cookie : Option String)
  | valid (id : String)
  | touch (id : String)
  | logout (cookie : Option String)
  /-- A tick of the reaper that read the time `now` before it took the mutex. -/
  | reap (now : Int)

namespace SessionState

variable (opts : Options) (creds : Credentials)

/-- A beat of the lease of one id. -/
def beat (s : SessionState) (id : String) : SessionState :=
  { s with leases := Function.update s.leases id ((s.leases id).map (·.beat s.clock)) }

def next (s : SessionState) : SessionEvent → Option SessionState
  | .advance d => some { s with clock := s.clock + d }
  | .login start ip username password random =>
      if start ≤ s.clock then
        match s.manager.login opts creds ip start username password random with
        | (m, .ok (issued, _)) =>
            some { s with manager := m,
                          leases := Function.update s.leases issued.id (some ⟨start, []⟩) }
        | (m, .error _) => some { s with manager := m }
      else none
  | .request cookie =>
      match s.manager.sessionFromRequest opts cookie s.clock with
      | (m, some found) => some ({ s with manager := m }.beat found.id)
      | (m, none) => some { s with manager := m }
  | .valid _ => some s
  | .touch id => some ({ s with manager := s.manager.touch id s.clock }.beat id)
  | .logout cookie =>
      let m := (s.manager.logout opts cookie).1
      match cookie with
      | none => some { s with manager := m }
      | some id => some { s with manager := m, leases := Function.update s.leases id none }
  | .reap now => if now ≤ s.clock then some { s with manager := s.manager.reap opts now } else none

end SessionState

/-- All runs of the manager's session operations at non-decreasing times. -/
def sessionSystem (opts : Options) (creds : Credentials) : System SessionState SessionEvent where
  initial := {s | ∃ clock, s = ⟨clock, .new, fun _ => none⟩}
  next := SessionState.next opts creds

variable {opts : Options} {creds : Credentials}

section Leases

variable {ttl idle t : Int} {l : Lease Int}

theorem lease_aliveAt : l.AliveAt ttl idle t ↔
    t - l.created ≤ ttl ∧ l.Unbroken idle ∧ t - l.last ≤ idle := Lease.aliveAt_iff

theorem lease_unbroken_beat :
    (l.beat t).Unbroken idle ↔ l.Unbroken idle ∧ t - l.last ≤ idle := Lease.unbroken_beat

theorem lease_fresh : (⟨t, []⟩ : Lease Int).Unbroken idle := Lease.unbroken_fresh

end Leases

/-- The law: the id has a lease, and the lease is alive. -/
def Alive (opts : Options) (now : Int) (l : Option (Lease Int)) : Prop :=
  ∃ x ∈ l, x.AliveAt opts.sessionTTL opts.idleTimeout now

/-- The session stored under an id is the trace of its lease, or both are over; without a
stored session the lease is over. -/
def Follows (opts : Options) (now : Int) : Option Session → Option (Lease Int) → Prop
  | none, none => True
  | none, some l => ¬ l.AliveAt opts.sessionTTL opts.idleTimeout now
  | some _, none => False
  | some s, some l => l.created = s.createdAt ∧
      (l.Unbroken opts.idleTimeout ∧ l.last = s.lastSeen ∨
        Manager.expired opts s now = true ∧ ¬ l.AliveAt opts.sessionTTL opts.idleTimeout now)

theorem expired_later {s : Session} {now t : Int} (old : Manager.expired opts s now = true)
    (hle : now ≤ t) : Manager.expired opts s t = true := by
  rw [← Bool.not_eq_false, Manager.expired_eq_false] at old ⊢
  omega

namespace Follows

variable {now t : Int} {s : Option Session} {l : Option (Lease Int)}

theorem later (h : Follows opts now s l) (hle : now ≤ t) : Follows opts t s l := by
  cases s with
  | none =>
      cases l with
      | none => trivial
      | some l => exact fun alive => h (alive.of_le hle)
  | some s =>
      cases l with
      | none => exact h
      | some l =>
          obtain ⟨created, sound | ⟨old, dead⟩⟩ := h
          · exact ⟨created, Or.inl sound⟩
          · exact ⟨created, Or.inr ⟨expired_later old hle, fun alive => dead (alive.of_le hle)⟩⟩

/-- Where the session follows its lease, the test of the code decides the law. -/
theorem accepted_iff (h : Follows opts now s l) :
    (∃ x ∈ s, now - x.createdAt ≤ opts.sessionTTL ∧ now - x.lastSeen ≤ opts.idleTimeout) ↔
      Alive opts now l := by
  cases s with
  | none =>
      cases l with
      | none => simp [Alive]
      | some l =>
          apply iff_of_false (by simp)
          rintro ⟨x, hx, alive⟩
          obtain rfl := Option.some.inj hx
          exact h alive
  | some s =>
      cases l with
      | none => exact h.elim
      | some l =>
          simp only [Option.mem_def, Option.some.injEq, exists_eq_left', Alive]
          obtain ⟨created, ⟨unbroken, last⟩ | ⟨old, dead⟩⟩ := h
          · simp only [lease_aliveAt, created, last, unbroken, true_and]
          · refine iff_of_false (fun accepted => ?_) dead
            rw [Manager.expired_eq_false.mpr accepted] at old
            cases old

theorem issue {s : Session} (created : s.createdAt = t) (seen : s.lastSeen = t) :
    Follows opts now (some s) (some ⟨t, []⟩) :=
  ⟨created.symm, Or.inl ⟨lease_fresh, seen.symm⟩⟩

/-- An expired session may be forgotten, also when it was found so a while ago. -/
theorem forget {s : Session} (h : Follows opts now (some s) l) (hle : t ≤ now)
    (old : Manager.expired opts s t = true) : Follows opts now none l := by
  cases l with
  | none => trivial
  | some l =>
      intro alive
      obtain ⟨x, hx, accepted⟩ := h.accepted_iff.mpr ⟨l, rfl, alive⟩
      obtain rfl := Option.some.inj hx
      have still := expired_later old hle
      rw [Manager.expired_eq_false.mpr accepted] at still
      cases still

/-- A session may be renewed unless it is within its total lifetime but idle for too long. -/
theorem renew (h : Follows opts now s l)
    (prompt : ∀ x ∈ s, now - x.createdAt ≤ opts.sessionTTL → 0 ≤ opts.idleTimeout →
      now - x.lastSeen ≤ opts.idleTimeout) :
    Follows opts now (s.map fun x => { x with lastSeen := now }) (l.map (·.beat now)) := by
  cases s with
  | none =>
      cases l with
      | none => trivial
      | some l => exact fun alive => h (alive.of_beat le_rfl)
  | some s =>
      cases l with
      | none => exact h
      | some l =>
          obtain ⟨created, state⟩ := h
          refine ⟨created, ?_⟩
          by_cases fits : now - s.createdAt ≤ opts.sessionTTL ∧ 0 ≤ opts.idleTimeout
          · have gap := prompt s rfl fits.1 fits.2
            rcases state with ⟨unbroken, last⟩ | ⟨old, _⟩
            · exact Or.inl ⟨lease_unbroken_beat.mpr ⟨unbroken, last ▸ gap⟩, Lease.last_beat⟩
            · rw [Manager.expired_eq_false.mpr ⟨fits.1, gap⟩] at old
              cases old
          · refine Or.inr ⟨?_, fun alive => fits ?_⟩
            · rw [← Bool.not_eq_false, Manager.expired_eq_false]
              dsimp only
              omega
            · obtain ⟨age, _, gap⟩ := lease_aliveAt.mp alive
              rw [Lease.created_beat, created] at age
              rw [Lease.last_beat] at gap
              omega

end Follows

namespace SessionState

/-- Every stored session follows its lease. -/
def Inv (opts : Options) (s : SessionState) : Prop :=
  ∀ id, Follows opts s.clock (s.manager.sessions id) (s.leases id)

/-- Now and later, an id is accepted exactly when its lease is alive. -/
def Lawful (opts : Options) (s : SessionState) : Prop :=
  ∀ id t, s.clock ≤ t →
    (s.manager.valid opts id t ↔ Alive opts t (s.leases id)) ∧
      ((s.manager.sessionFromRequest opts (some id) t).2.isSome ↔ Alive opts t (s.leases id))

/-- No touch renews a session that is within its total lifetime but was idle for too long. -/
def TouchedInTime (opts : Options) (s : SessionState) (e : SessionEvent) : Prop :=
  ∀ id, e = .touch id → ∀ x ∈ s.manager.sessions id,
    s.clock - x.createdAt ≤ opts.sessionTTL → 0 ≤ opts.idleTimeout →
      s.clock - x.lastSeen ≤ opts.idleTimeout

theorem Inv.lawful {s : SessionState} (inv : s.Inv opts) : s.Lawful opts := by
  intro id t later
  rw [Manager.sessionFromRequest_isSome, and_self, Manager.valid_iff]
  exact ((inv id).later later).accepted_iff

/-- A state that agrees with another one except under one id. -/
theorem Inv.update {s t : SessionState} {id : String} {x : Option Session}
    {l : Option (Lease Int)} (inv : s.Inv opts) (clock : t.clock = s.clock)
    (sessions : t.manager.sessions = Function.update s.manager.sessions id x)
    (leases : t.leases = Function.update s.leases id l) (h : Follows opts s.clock x l) :
    t.Inv opts := by
  intro key
  rw [clock, sessions, leases]
  by_cases same : key = id
  · subst same
    simpa using h
  · simpa [same] using inv key

theorem inv_next {s t : SessionState} {e : SessionEvent} (inv : s.Inv opts)
    (prompt : s.TouchedInTime opts e) (h : s.next opts creds e = some t) : t.Inv opts := by
  cases e with
  | advance d =>
      obtain rfl := Option.some.inj h
      exact fun id => (inv id).later (Int.le_add_of_nonneg_right (Int.natCast_nonneg d))
  | login start ip username password random =>
      obtain ⟨started, h⟩ := Option.ite_none_right_eq_some.mp h
      rcases hlogin : s.manager.login opts creds ip start username password random with
        ⟨m, result⟩
      rw [hlogin] at h
      rcases Manager.login_sessions hlogin with
        ⟨e, rfl, same⟩ | ⟨issued, cookie, rfl, created, seen, sessions⟩
      · obtain rfl := Option.some.inj h
        exact fun id => by simpa only [same] using inv id
      · obtain rfl := Option.some.inj h
        exact inv.update rfl sessions rfl (Follows.issue created seen)
  | request cookie =>
      cases cookie with
      | none =>
          obtain rfl := Option.some.inj h
          exact inv
      | some id =>
          cases found : s.manager.sessions id with
          | none =>
              simp only [next, Manager.sessionFromRequest_unknown found] at h
              obtain rfl := Option.some.inj h
              exact inv
          | some x =>
              have follows := inv id
              rw [found] at follows
              cases old : Manager.expired opts x s.clock with
              | true =>
                  simp only [next, Manager.sessionFromRequest_expired found old] at h
                  obtain rfl := Option.some.inj h
                  exact inv.update rfl Manager.drop_sessions (Function.update_eq_self id _).symm
                    (follows.forget le_rfl old)
              | false =>
                  simp only [next, Manager.sessionFromRequest_live found old,
                    (s.manager.keyed found).1] at h
                  obtain rfl := Option.some.inj h
                  refine inv.update rfl Manager.see_sessions rfl ?_
                  rw [found]
                  apply follows.renew
                  intro y hy _ _
                  obtain rfl := Option.some.inj hy
                  exact (Manager.expired_eq_false.mp old).2
  | valid id =>
      obtain rfl := Option.some.inj h
      exact inv
  | touch id =>
      obtain rfl := Option.some.inj h
      exact inv.update rfl Manager.touch_sessions rfl ((inv id).renew (prompt id rfl))
  | logout cookie =>
      cases cookie with
      | none =>
          obtain rfl := Option.some.inj h
          exact inv
      | some id =>
          obtain rfl := Option.some.inj h
          exact inv.update rfl rfl rfl trivial
  | reap now =>
      obtain ⟨read, h⟩ := Option.ite_none_right_eq_some.mp h
      obtain rfl := Option.some.inj h
      intro id
      have follows := inv id
      cases found : s.manager.sessions id with
      | none => rwa [Manager.reap_sessions_none found, ← found]
      | some x =>
          rw [found] at follows
          rw [Manager.reap_sessions_some found]
          split
          · rename_i old
            exact follows.forget read old
          · exact follows

/-- The law survives a touch only if the touch comes in time. -/
theorem touch_in_time {s t : SessionState} {id : String} {x : Session} (inv : s.Inv opts)
    (found : s.manager.sessions id = some x) (age : s.clock - x.createdAt ≤ opts.sessionTTL)
    (idle : 0 ≤ opts.idleTimeout) (h : s.next opts creds (.touch id) = some t)
    (lawful : t.Lawful opts) : s.clock - x.lastSeen ≤ opts.idleTimeout := by
  obtain rfl := Option.some.inj h
  have renewed : (s.manager.touch id s.clock).sessions id =
      some { x with lastSeen := s.clock } := by
    rw [Manager.touch_sessions, Function.update_self, found, Option.map_some]
  have accepted : (s.manager.touch id s.clock).valid opts id s.clock :=
    Manager.valid_iff.mpr ⟨_, renewed, age, by simpa using idle⟩
  have alive : Alive opts s.clock ((s.leases id).map (·.beat s.clock)) := by
    simpa [beat] using (lawful id s.clock le_rfl).1.mp accepted
  have follows := inv id
  rw [found] at follows
  cases hl : s.leases id with
  | none => simp [hl, Follows] at follows
  | some l =>
      rw [hl] at follows alive
      obtain ⟨y, hy, alive⟩ := alive
      obtain rfl := Option.some.inj hy
      obtain ⟨_, unbroken, _⟩ := lease_aliveAt.mp alive
      obtain ⟨created, ⟨_, last⟩ | ⟨_, dead⟩⟩ := follows
      · exact last ▸ (lease_unbroken_beat.mp unbroken).2
      · exact absurd ⟨created ▸ age, unbroken⟩ dead

theorem inv_initial {s : SessionState} (h : s ∈ (sessionSystem opts creds).initial) :
    s.Inv opts := by
  obtain ⟨clock, rfl⟩ := h
  exact fun _ => trivial

/-- A step keeps the law exactly when it is not a touch that comes too late. -/
theorem lawful_next {s t : SessionState} {e : SessionEvent} (inv : s.Inv opts)
    (h : s.next opts creds e = some t) : t.Lawful opts ↔ s.TouchedInTime opts e := by
  constructor
  · rintro lawful id rfl x found age idle
    exact touch_in_time inv found age idle h lawful
  · exact fun prompt => (inv_next inv prompt h).lawful

end SessionState

/-- Throughout a run the accepted ids are exactly those with an alive lease, if and only if no
touch renews a session that has been idle for too long. -/
theorem sessions_lawful_iff (opts : Options) (creds : Credentials)
    (x : Execution (sessionSystem opts creds)) :
    x.Always (SessionState.Lawful opts) ↔ x.Meets (SessionState.TouchedInTime opts) :=
  x.run.always_iff
    (fun _ h => ⟨SessionState.inv_initial h, (SessionState.inv_initial h).lawful⟩)
    (fun inv _ lawful h =>
      SessionState.inv_next inv ((SessionState.lawful_next inv h).mp lawful) h)
    (fun inv _ h => SessionState.lawful_next inv h)

/-- A session that is idle for an hour and five seconds when the console shows new traffic,
before the reaper has come by. -/
def lateTouch : List SessionEvent :=
  [.login 0 "203.0.113.7" "admin" "secret" (.ok sampleID), .advance (3605 * 1000000000),
    .touch "token"]

theorem late_touch_breaks_law : ∃ x : Execution (sessionSystem defaultOptions oneUser),
    ¬ x.Always (SessionState.Lawful defaultOptions) := by
  refine Execution.exists_not_always (s := ⟨0, .new, fun _ => none⟩) ⟨0, rfl⟩
    (show exec _ _ lateTouch = some _ from rfl) fun lawful => ?_
  have held := (lawful "token" (3605 * 1000000000) (by decide)).1.mp rfl
  obtain ⟨l, hl, alive⟩ := held
  obtain rfl := Option.some.inj hl
  have gap := (lease_unbroken_beat.mp (lease_aliveAt.mp alive).2.1).2
  revert gap
  decide

end VmServer.Auth
