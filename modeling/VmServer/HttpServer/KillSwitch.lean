import VmServer.HttpServer.SingleController

/-!
# The cancel function of a live control connection

The controller stores one cancel function, the only handle on a running
control bridge. Every operation on the seat that forgets it should have
called it, so that each live connection nobody has cancelled is the stored
one. That lasts until the session of the seat itself takes or gives back the
seat over its own live connection, by the API, by logging out or by the end
of an older connection.
-/

namespace VmServer.HttpServer

open Auth Proxy TransitionSystem

variable {opts : Options} {creds : Credentials}

namespace Server

/-- Every live, uncancelled control connection is the one whose cancel function is stored. -/
def KillSwitch (s : Server) : Prop := ∀ k, s.Connected k → s.control.cancel = some k

/-- The stored cancel function is that of a live, uncancelled control connection. -/
def StoredLive (s : Server) : Prop := ∃ k, s.control.cancel = some k ∧ s.Connected k

/-- A cancel function of a live connection that is no longer stored has been called. -/
def HandleCalled (s t : Server) : Prop :=
  ∀ k, s.control.cancel = some k → s.Connected k → t.control.cancel ≠ some k → ¬ t.Connected k

/-- The session of the seat neither takes nor gives back the seat over its own live connection. -/
def HandleKept (s : Server) : ServerEvent → Prop
  | .act k =>
      match s.pending[k]? with
      | some (.take sess) => s.control.sessionID = sess.id → ¬ s.StoredLive
      | some (.release sess) => s.control.sessionID = sess.id → ¬ s.StoredLive
      | some (.logoutRelease sess _) => s.control.sessionID = sess.id → ¬ s.StoredLive
      | _ => True
  | .finish i =>
      match s.consoles[i]? with
      | some ⟨sess, .bridging b⟩ =>
          b.viewOnly = false → s.control.sessionID = sess.id → ¬ s.StoredLive
      | _ => True
  | _ => True

/-- A vacant seat has no cancel function. -/
def VacantCleared (s : Server) : Prop := s.control.sessionID = "" → s.control.cancel = none

variable {s t : Server} {e : ServerEvent}

/-- What a step must not forget: it is lost to the others as a connection of its own. -/
theorem KillSwitch.iff_handleCalled (held : s.KillSwitch)
    (connected : ∀ k, t.Connected k → s.Connected k ∨ t.control.cancel = some k) :
    t.KillSwitch ↔ s.HandleCalled t := by
  constructor
  · exact fun kept k _ _ lost live => lost (kept k live)
  · intro called k live
    by_contra lost
    rcases connected k live with before | stored
    · exact called k (held k before) before lost live
    · exact lost stored

/-- Only the connection that gets the seat starts to be live, and its handle is stored. -/
theorem connected_next {k : Nat} (h : s.next opts creds e = some t) (live : t.Connected k) :
    s.Connected k ∨ t.control.cancel = some k := by
  cases moves_of_next h with
  | admitted route cookie auth sess asked =>
      exact Or.inl ((connected_admitted (s := { s with auth })).mp live)
  | take j sess found => exact Or.inl (connected_cancelConsole.mp live).1
  | seated i sess control dropped found given =>
      obtain ⟨_, stored, _⟩ := Controller.acquire_given given
      have live := (connected_cancelConsole.mp live).1
      rw [connected_setPhase (t := { s with control }) found rfl] at live
      split at live
      · rename_i here
        rw [cancelConsole_control]
        exact Or.inr (here ▸ stored)
      · exact Or.inl live
  | watching i sess wantControl found refused =>
      exact Or.inl (live.of_setPhase found rfl (by simp [Console.connected]))
  | bridged i e sess b b' auth found moved uncancelled asked =>
      exact Or.inl (live.of_setPhase found rfl (connected_of_next moved uncancelled))
  | finished i sess b found returned =>
      exact Or.inl ((connected_finished found returned k).mp live)
  | _ => exact Or.inl live

section Handles

variable {id : String}

theorem handleCalled_of_kept (stored : t.control.cancel = s.control.cancel) : s.HandleCalled t :=
  fun _ before _ lost => absurd (stored.trans before) lost

/-- Forgetting the cancel function is right when it is not that of a live connection. -/
theorem handleCalled_of_forgotten (forgotten : t.control.cancel = none)
    (connected : ∀ k, t.Connected k ↔ s.Connected k) : s.HandleCalled t ↔ ¬ s.StoredLive := by
  constructor
  · rintro called ⟨k, stored, live⟩
    exact called k stored live (by simp [forgotten]) ((connected k).mpr live)
  · exact fun idle k stored live => absurd ⟨k, stored, live⟩ idle

/-- Giving the seat back under a live connection is the only harm a release does. -/
theorem handleCalled_of_release (control : t.control.cancel = (s.control.release id).cancel)
    (connected : ∀ k, t.Connected k ↔ s.Connected k) :
    s.HandleCalled t ↔ (s.control.sessionID = id → ¬ s.StoredLive) := by
  unfold Controller.release at control
  by_cases holder : s.control.sessionID = id
  · rw [if_pos holder] at control
    rw [handleCalled_of_forgotten control connected]
    exact ⟨fun idle _ => idle, fun idle => idle holder⟩
  · rw [if_neg holder] at control
    exact iff_of_true (handleCalled_of_kept control) fun own => absurd own holder

theorem handleCalled_of_take {sess : Session} {pending : List Pending} :
    s.HandleCalled ({ s with control := (s.control.take sess s.clock).1, pending }.cancelConsole
        (s.control.take sess s.clock).2) ↔
      (s.control.sessionID = sess.id → ¬ s.StoredLive) := by
  by_cases own : s.control.sessionID = sess.id
  · have nobody : (s.control.take sess s.clock).2 = none := if_neg (not_not.mpr own)
    rw [nobody]
    refine Iff.trans (handleCalled_of_forgotten rfl fun k => Iff.rfl) ?_
    exact ⟨fun idle _ => idle, fun idle => idle own⟩
  · have holder : (s.control.take sess s.clock).2 = s.control.cancel := if_pos own
    refine iff_of_true (fun k stored _ _ live => ?_) fun same => absurd same own
    exact (connected_cancelConsole.mp live).2 (holder.trans stored)

/-- A connection that gets the seat drops the old one of its session, if there is one. -/
theorem handleCalled_of_seated {i : Nat} {sess : Session} {control : Controller}
    {dropped : Option Nat} {u : Server} (vacant : s.VacantCleared)
    (given : s.control.acquire sess s.clock i = (control, dropped, true)) :
    s.HandleCalled (u.cancelConsole dropped) := by
  intro k stored _ _ live
  obtain ⟨_, _, free | own⟩ := Controller.acquire_given given
  · cases (vacant free).symm.trans stored
  · have drops : dropped = s.control.cancel := by
      rw [Controller.acquire, if_neg (by simp [own]), if_pos own] at given
      exact (congrArg (·.2.1) given).symm
    exact (connected_cancelConsole.mp live).2 (drops.trans stored)

end Handles

/-- A step calls the live cancel function it forgets exactly when it is not one of the seat's
own session over its live connection. -/
theorem handleCalled_next (vacant : s.VacantCleared) (h : s.next opts creds e = some t) :
    s.HandleCalled t ↔ s.HandleKept e := by
  cases moves_of_next h with
  | take k sess found =>
      simp only [HandleKept, found]
      exact handleCalled_of_take
  | release k sess found =>
      simp only [HandleKept, found]
      exact handleCalled_of_release rfl fun k => Iff.rfl
  | logoutRelease k sess cookie found =>
      simp only [HandleKept, found]
      exact handleCalled_of_release rfl fun k => Iff.rfl
  | logoutDelete k cookie found =>
      simp only [HandleKept, found]
      exact iff_of_true (handleCalled_of_kept rfl) trivial
  | seated i sess control dropped found given =>
      exact iff_of_true (handleCalled_of_seated vacant given) trivial
  | finished i sess b found returned =>
      simp only [HandleKept, found]
      cases mode : b.viewOnly with
      | true =>
          rw [if_pos rfl]
          exact iff_of_true (handleCalled_of_kept rfl) (by simp)
      | false =>
          rw [if_neg (by simp), forall_prop_of_true rfl]
          exact handleCalled_of_release rfl (connected_finished found returned)
  | admitted route cookie auth sess asked =>
      refine iff_of_true (handleCalled_of_kept ?_) trivial
      rw [admitted_control]
  | _ => exact iff_of_true (handleCalled_of_kept rfl) trivial

theorem vacantCleared_next (inv : s.Inv) (vacant : s.VacantCleared)
    (h : s.next opts creds e = some t) : t.VacantCleared := by
  have released : ∀ id, (s.control.release id).sessionID = "" →
      (s.control.release id).cancel = none := by
    intro id free
    unfold Controller.release at free ⊢
    split at free
    · rename_i holder
      rw [if_pos holder]
    · rename_i other
      rw [if_neg other]
      exact vacant free
  cases moves_of_next h with
  | admitted route cookie auth sess asked =>
      unfold VacantCleared
      rw [admitted_control]
      exact vacant
  | take k sess found =>
      unfold VacantCleared
      rw [cancelConsole_control]
      exact fun _ => rfl
  | release k sess found => exact released sess.id
  | logoutRelease k sess cookie found => exact released sess.id
  | seated i sess control dropped found given =>
      obtain ⟨seat, _, _⟩ := Controller.acquire_given given
      unfold VacantCleared
      rw [cancelConsole_control]
      exact fun free => absurd (seat.symm.trans free) (inv.named found)
  | finished i sess b found returned =>
      unfold VacantCleared Server.setPhase
      dsimp only
      split
      · exact vacant
      · exact released sess.id
  | _ => exact vacant

end Server

/-- Every state of a run keeps the switch of every live connection exactly when no step acts
on the seat over the live connection of its own session. Of the single steps, the same
condition is that for calling the handle that is forgotten. -/
theorem kill_switch_iff (opts : Options) (creds : Credentials)
    (x : Execution (consoleSystem opts creds)) :
    (x.Always Server.KillSwitch ↔ x.Meets Server.HandleKept) ∧
    ∀ e t, x.final.next opts creds e = some t →
      (x.final.HandleCalled t ↔ x.final.HandleKept e) := by
  have initial : ∀ s ∈ (consoleSystem opts creds).initial,
      s.Inv ∧ s.VacantCleared ∧ s.KillSwitch := by
    intro s hs
    refine ⟨Server.inv_initial hs, ?_⟩
    obtain ⟨clock, rfl⟩ := hs
    refine ⟨fun _ => rfl, ?_⟩
    rintro k ⟨c, hc, _⟩
    cases hc
  have keep : ∀ {s e t}, s.Inv ∧ s.VacantCleared → (consoleSystem opts creds).next s e = some t →
      t.Inv ∧ t.VacantCleared :=
    fun inv h => ⟨Server.inv_next inv.1 h, Server.vacantCleared_next inv.1 inv.2 h⟩
  constructor
  · refine x.run.always_iff (I := fun s => s.Inv ∧ s.VacantCleared)
      (fun s h => ⟨⟨(initial s h).1, (initial s h).2.1⟩, (initial s h).2.2⟩)
      (fun inv _ _ h => keep inv h) fun inv held h => ?_
    rw [held.iff_handleCalled fun k => Server.connected_next h]
    exact Server.handleCalled_next inv.2 h
  · intro e t h
    have reached := x.run.invariant (I := fun s => s.Inv ∧ s.VacantCleared)
      (fun s h => ⟨(initial s h).1, (initial s h).2.1⟩) keep
    exact Server.handleCalled_next reached.2.2 h

/-- The session takes the seat it already has while its bridge relays. -/
def takeOwnSeat : List ServerEvent :=
  [.login 0 "203.0.113.7" "admin" "secret" (.ok sampleID),
    .request (.vnc true) (some "token"), .acquire 0,
    .bridge 0 (.setup none), .bridge 0 (.setup none), .bridge 0 (.setup none),
    .request .take (some "token")]

theorem own_take_loses_switch :
    ∃ x : Execution (consoleSystem defaultOptions oneUser), ∃ t,
      x.final.next defaultOptions oneUser (.act 0) = some t ∧
        ¬ x.final.HandleCalled t ∧ ¬ t.KillSwitch := by
  obtain ⟨x, hx, _⟩ := Execution.of_exec (M := consoleSystem defaultOptions oneUser)
    (s := ⟨0, .new, {}, [], []⟩) ⟨0, rfl⟩ (show exec _ _ takeOwnSeat = some _ from rfl)
  refine ⟨x, ?_⟩
  rw [hx]
  refine ⟨_, rfl, ?_, ?_⟩
  · intro called
    exact called 0 rfl ⟨_, rfl, rfl⟩ (by decide) ⟨_, rfl, rfl⟩
  · intro kept
    have stored := kept 0 ⟨_, rfl, rfl⟩
    cases stored

end VmServer.HttpServer
