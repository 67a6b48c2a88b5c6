import VmServer.Auth.Validity
import VmServer.HttpServer.SingleController

/-!
# The seat of a session that has ended

The seat is given back by a logout and by the end of a control connection. A
session that reserved it by `take` and never connects has neither when it
expires. So the seat is attended, by a valid session or by a bridge of it,
throughout a run exactly when no session loses its validity while it has the
seat without a bridge.
-/

namespace VmServer.HttpServer

open Auth Proxy TransitionSystem

variable {opts : Options} {creds : Credentials}

namespace Server

/-- The session is valid, or a bridge of it is live. -/
def Attended (opts : Options) (s : Server) (id : String) : Prop :=
  s.auth.valid opts id s.clock ∨ s.Bridging id

/-- The seat is vacant or attended by its session. -/
def SeatAttended (opts : Options) (s : Server) : Prop :=
  s.control.sessionID ≠ "" → s.Attended opts s.control.sessionID

/-- A seat nobody attends can be acquired by every session. -/
def Unblocked (opts : Options) (s : Server) : Prop :=
  ¬ s.Attended opts s.control.sessionID → ∀ sess now k, (s.control.acquire sess now k).2.2 = true

/-- A session has the seat without a bridge. -/
def Reserved (s : Server) : Prop :=
  s.control.sessionID ≠ "" ∧ ¬ s.Bridging s.control.sessionID

/-- No session ends while it has the seat without a bridge, and none takes it that has ended. -/
def Minded (opts : Options) (creds : Credentials) (s : Server) : ServerEvent → Prop
  | .advance d => s.Reserved → s.auth.valid opts s.control.sessionID (s.clock + d)
  | .login start ip username password random => s.Reserved →
      ∀ sess cookie, (s.auth.login opts creds ip start username password random).2 =
        .ok (sess, cookie) → sess.id = s.control.sessionID →
          Manager.expired opts sess s.clock = false
  | .act k =>
      match s.pending[k]? with
      | some (.take sess) => sess.id ≠ "" → s.Attended opts sess.id
      | some (.logoutDelete cookie) => s.Reserved → cookie ≠ some s.control.sessionID
      | _ => True
  | .finish i =>
      match s.consoles[i]? with
      | some ⟨sess, .bridging b⟩ => b.viewOnly → s.control.sessionID = sess.id →
          s.auth.valid opts sess.id s.clock ∨
            ∃ k : Nat, k ≠ i ∧ ∃ d ∈ s.consoles[k]?, d.session.id = sess.id ∧ d.bridging
      | _ => True
  | _ => True

variable {s t : Server} {e : ServerEvent}

/-- Another session gets a seat exactly when it is vacant. -/
theorem seatAttended_iff_unblocked : s.SeatAttended opts ↔ s.Unblocked opts := by
  constructor
  · intro held left sess now k
    have vacant : s.control.sessionID = "" := by
      by_contra taken
      exact left (held taken)
    rw [Controller.acquire, if_neg fun taken => taken.1 vacant]
  · intro free taken
    by_contra left
    have other : s.control.sessionID ≠ s.control.sessionID.push 'x' := by
      intro same
      have lengths := congrArg String.length same
      simp at lengths
    have given := free left ⟨s.control.sessionID.push 'x', "", false, 0, 0, ""⟩ 0 0
    rw [Controller.acquire, if_pos ⟨taken, other⟩] at given
    cases given

theorem SeatAttended.same (held : s.SeatAttended opts)
    (seat : t.control.sessionID = s.control.sessionID)
    (valid : ∀ id, s.auth.valid opts id s.clock → t.auth.valid opts id t.clock)
    (bridging : ∀ id, s.Bridging id → t.Bridging id) : t.SeatAttended opts := by
  intro taken
  rw [seat] at taken ⊢
  exact (held taken).imp (valid _) (bridging _)

/-- As long as the bridges stay, only a reserved seat can be left. -/
theorem seatAttended_iff_reserved (seat : t.control.sessionID = s.control.sessionID)
    (bridging : ∀ id, t.Bridging id ↔ s.Bridging id) :
    t.SeatAttended opts ↔
      (s.Reserved → t.auth.valid opts s.control.sessionID t.clock) := by
  rw [SeatAttended, Attended, seat, bridging]
  constructor
  · rintro held ⟨taken, alone⟩
    exact (held taken).resolve_right alone
  · intro held taken
    by_cases bridge : s.Bridging s.control.sessionID
    · exact Or.inr bridge
    · exact Or.inl (held ⟨taken, bridge⟩)

theorem SeatAttended.valid (held : s.SeatAttended opts) (reserved : s.Reserved) :
    s.auth.valid opts s.control.sessionID s.clock :=
  (held reserved.1).resolve_right reserved.2

/-- A seat that was given back is vacant, any other stays attended. -/
theorem SeatAttended.release {id : String} (held : s.SeatAttended opts)
    (seat : t.control.sessionID = (s.control.release id).sessionID)
    (attended : ∀ x ≠ id, s.Attended opts x → t.Attended opts x) : t.SeatAttended opts := by
  intro taken
  rw [Controller.release_sessionID] at seat
  by_cases holder : s.control.sessionID = id
  · rw [if_pos holder] at seat
    exact absurd seat taken
  · rw [if_neg holder] at seat
    rw [seat] at taken ⊢
    exact attended _ holder (held taken)

section Finished

variable {i : Nat} {sess : Session} {b : Bridge} {control : Controller} {id : String}

theorem bridging_finished (found : s.consoles[i]? = some ⟨sess, .bridging b⟩) :
    ({ s with control }.setPhase i ⟨sess, .bridging b⟩ .done).Bridging id ↔
      ∃ k : Nat, k ≠ i ∧ ∃ d ∈ s.consoles[k]?, d.session.id = id ∧ d.bridging := by
  rw [bridging_setPhase (t := { s with control }) found rfl]
  exact or_iff_right fun gone => absurd gone.2 (by simp [Console.bridging])

/-- The bridges of other sessions stay. -/
theorem Bridging.finished (h : s.Bridging id)
    (found : s.consoles[i]? = some ⟨sess, .bridging b⟩) (other : id ≠ sess.id) :
    ({ s with control }.setPhase i ⟨sess, .bridging b⟩ .done).Bridging id := by
  obtain ⟨k, d, hd, session, runs⟩ := h
  rw [bridging_finished found]
  refine ⟨k, ?_, d, hd, session, runs⟩
  rintro rfl
  obtain rfl := Option.some.inj (found.symm.trans hd)
  exact other session.symm

/-- The end of a viewer may leave a seat that its session had reserved. -/
theorem seatAttended_finished (inv : s.Inv) (held : s.SeatAttended opts)
    (found : s.consoles[i]? = some ⟨sess, .bridging b⟩)
    (seat : control.sessionID = s.control.sessionID) :
    ({ s with control }.setPhase i ⟨sess, .bridging b⟩ .done).SeatAttended opts ↔
      (s.control.sessionID = sess.id → s.auth.valid opts sess.id s.clock ∨
        ∃ k : Nat, k ≠ i ∧ ∃ d ∈ s.consoles[k]?, d.session.id = sess.id ∧ d.bridging) := by
  have named : sess.id ≠ "" := inv.named found
  by_cases own : s.control.sessionID = sess.id
  · rw [SeatAttended, forall_prop_of_true own]
    have taken : control.sessionID = sess.id := seat.trans own
    change (control.sessionID ≠ "" → Attended opts _ control.sessionID) ↔ _
    rw [taken, forall_prop_of_true named, Attended, bridging_finished found]
    rfl
  · refine iff_of_true (fun taken => ?_) fun same => absurd same own
    change Attended opts _ control.sessionID
    change control.sessionID ≠ "" at taken
    rw [seat] at taken ⊢
    exact (held taken).imp id fun bridge => bridge.finished found own

end Finished

theorem bridging_acquired {i : Nat} {sess : Session} {control : Controller}
    {dropped : Option Nat} (found : s.consoles[i]? = some ⟨sess, .admitted true⟩) :
    (({ s with control }.setPhase i ⟨sess, .admitted true⟩
      (.bridging { viewOnly := false })).cancelConsole dropped).Bridging sess.id := by
  rw [bridging_cancelConsole, bridging_setPhase (t := { s with control }) found rfl]
  exact Or.inl ⟨rfl, rfl⟩

/-- A step leaves the seat attended exactly when it minds the sessions without a bridge. -/
theorem seatAttended_next (inv : s.Inv) (seen : s.auth.SeenBy s.clock)
    (held : s.SeatAttended opts) (h : s.next opts creds e = some t) :
    t.SeatAttended opts ↔ s.Minded opts creds e := by
  cases moves_of_next h with
  | advance d => exact seatAttended_iff_reserved rfl fun id => Iff.rfl
  | login start ip username password random past =>
      refine Iff.trans (seatAttended_iff_reserved rfl fun id => Iff.rfl) ?_
      exact forall_congr' fun reserved => Manager.valid_login (held.valid reserved)
  | turnedAway route cookie auth asked =>
      obtain rfl : _ = auth := congrArg Prod.fst asked
      exact iff_of_true (held.same rfl (fun id => Manager.valid_sessionFromRequest seen)
        fun _ => id) trivial
  | admitted route cookie auth sess asked =>
      obtain rfl : _ = auth := congrArg Prod.fst asked
      refine iff_of_true (held.same ?_ (fun id valid => ?_) fun id bridge => ?_) trivial
      · rw [admitted_control]
      · rw [(admitted_auth sess route).1, (admitted_auth sess route).2]
        exact Manager.valid_sessionFromRequest seen valid
      · exact Bridging.admitted bridge
  | logout cookie auth p asked work =>
      obtain rfl := asked
      exact iff_of_true (held.same rfl (fun id => Manager.valid_sessionFromRequest seen)
        fun _ => id) trivial
  | take k sess found =>
      simp only [Minded, found]
      rw [SeatAttended, cancelConsole_control, Attended, bridging_cancelConsole,
        cancelConsole_auth, cancelConsole_clock]
      rfl
  | release k sess found =>
      simp only [Minded, found]
      exact iff_of_true (held.release rfl fun x _ => id) trivial
  | logoutRelease k sess cookie found =>
      simp only [Minded, found]
      exact iff_of_true (held.release rfl fun x _ => id) trivial
  | logoutDelete k cookie found =>
      simp only [Minded, found]
      refine Iff.trans (seatAttended_iff_reserved rfl fun id => Iff.rfl) ?_
      refine forall_congr' fun reserved => Manager.valid_logout.trans ?_
      exact and_iff_right (held.valid reserved)
  | seated i sess control dropped found given =>
      obtain ⟨seat, _, _⟩ := Controller.acquire_given given
      refine iff_of_true (fun _ => Or.inr ?_) trivial
      rw [cancelConsole_control]
      change Bridging _ control.sessionID
      rw [seat]
      exact bridging_acquired found
  | watching i sess wantControl found refused =>
      exact iff_of_true (held.same rfl (fun _ => id)
        fun id bridge => bridge.setPhase found rfl rfl) trivial
  | bridged i e sess b b' auth found moved uncancelled asked =>
      refine iff_of_true (held.same rfl (fun id valid => ?_)
        fun id bridge => bridge.setPhase found rfl rfl) trivial
      rcases asked with rfl | rfl
      · exact valid
      · exact Manager.valid_touch seen valid
  | finished i sess b found returned =>
      simp only [Minded, found]
      cases mode : b.viewOnly with
      | true =>
          rw [if_pos rfl, forall_prop_of_true rfl]
          exact seatAttended_finished inv held found rfl
      | false =>
          rw [if_neg (by simp)]
          refine iff_of_true (held.release rfl fun x other => ?_) (by simp)
          exact Or.imp id fun bridge => bridge.finished found other
  | reap now past =>
      exact iff_of_true (held.same rfl (fun id => Manager.valid_reap past) fun _ => id) trivial

theorem seenBy_next (seen : s.auth.SeenBy s.clock) (h : s.next opts creds e = some t) :
    t.auth.SeenBy t.clock := by
  cases moves_of_next h with
  | advance d => exact seen.later (by dsimp only; omega)
  | login start ip username password random past => exact seen.login past
  | turnedAway route cookie auth asked =>
      obtain rfl : _ = auth := congrArg Prod.fst asked
      exact seen.sessionFromRequest
  | admitted route cookie auth sess asked =>
      obtain rfl : _ = auth := congrArg Prod.fst asked
      cases route <;> exact seen.sessionFromRequest
  | logout cookie auth p asked work =>
      obtain rfl := asked
      exact seen.sessionFromRequest
  | take k sess found =>
      rw [cancelConsole_auth, cancelConsole_clock]
      exact seen
  | logoutDelete k cookie found =>
      cases cookie with
      | none => exact seen
      | some key => exact seen.drop
  | seated i sess control dropped found given =>
      rw [cancelConsole_auth, cancelConsole_clock]
      exact seen
  | bridged i e sess b b' auth found moved uncancelled asked =>
      rcases asked with rfl | rfl
      · exact seen
      · exact seen.touch
  | reap now past => exact seen.reap
  | _ => exact seen

end Server

/-- The seat is attended throughout a run, and free for all where it is not, exactly when no
step ends a session that has the seat without a bridge, or gives the seat to one that has
ended. -/
theorem seat_attended_iff (opts : Options) (creds : Credentials)
    (x : Execution (consoleSystem opts creds)) :
    x.Always (fun s => s.SeatAttended opts ∧ s.Unblocked opts) ↔
      x.Meets (Server.Minded opts creds) := by
  have both : (fun s : Server => s.SeatAttended opts ∧ s.Unblocked opts) =
      Server.SeatAttended opts := by
    funext s
    rw [← Server.seatAttended_iff_unblocked, and_self]
  rw [both]
  refine x.run.always_iff (I := fun s => s.Inv ∧ s.auth.SeenBy s.clock) ?_
    (fun inv _ _ h => ⟨Server.inv_next inv.1 h, Server.seenBy_next inv.2 h⟩)
    fun inv held h => Server.seatAttended_next inv.1 inv.2 held h
  intro s hs
  refine ⟨⟨Server.inv_initial hs, ?_⟩, ?_⟩
  · obtain ⟨clock, rfl⟩ := hs
    exact fun id x h => absurd h (by simp [Manager.new])
  · obtain ⟨clock, rfl⟩ := hs
    exact fun taken => absurd rfl taken

/-- A session reserves the seat, never connects and expires; another session then asks for
the seat. -/
def reservedAndExpired : List ServerEvent :=
  [.login 0 "203.0.113.7" "admin" "secret" (.ok sampleID),
    .request .take (some "token"), .act 0, .advance (3601 * 1000000000)]

theorem expired_reservation_blocks :
    ∃ x : Execution (consoleSystem defaultOptions oneUser),
      ¬ x.final.SeatAttended defaultOptions ∧ ¬ x.final.Unblocked defaultOptions := by
  obtain ⟨x, hx, _⟩ := Execution.of_exec (M := consoleSystem defaultOptions oneUser)
    (s := ⟨0, .new, {}, [], []⟩) ⟨0, rfl⟩ (show exec _ _ reservedAndExpired = some _ from rfl)
  refine ⟨x, ?_⟩
  rw [← Server.seatAttended_iff_unblocked, and_self, hx]
  intro held
  rcases held (by decide) with valid | ⟨k, c, hc, _⟩
  · exact absurd valid (by decide)
  · cases hc

end VmServer.HttpServer
