import VmServer.HttpServer.Moves

/-!
# Who controls the guest

A connection controls while its bridge relays and is not view-only. The seat
and the relaying bridges are separate: no operation on the seat ends a
bridge, and a bridge starts to relay some time after it acquired the seat. So
the seat names the one controlling session throughout a run exactly when it
never moves away from, or is vacated under, a controlling connection, and no
connection starts to control after it has lost the seat.
-/

namespace VmServer.HttpServer

open Auth Proxy TransitionSystem Contributions

variable {opts : Options} {creds : Credentials}

/-- The bridge of the connection relays and lets input through. -/
def Console.controls (c : Console) : Bool :=
  match c.phase with
  | .bridging b => b.live && !b.viewOnly
  | _ => false

/-- The session that controls by this connection. -/
def Console.holds (c : Console) : List String := if c.controls then [c.session.id] else []

namespace Server

/-- The sessions of all controlling connections. -/
def controlling (s : Server) : List String := s.consoles.flatMap Console.holds

/-- Any two controlling connections are of the same session, and it has the seat. -/
def SingleController (s : Server) : Prop :=
  ∀ c ∈ s.consoles, ∀ d ∈ s.consoles, c.controls → d.controls →
    c.session.id = d.session.id ∧ d.session.id = s.control.sessionID

/-- No connection of another session controls. -/
def OnlyFor (s : Server) (id : String) : Prop := ∀ x ∈ s.controlling, x = id

/-- If the session has the seat, no connection controls. -/
def Vacatable (s : Server) (id : String) : Prop :=
  id = s.control.sessionID → s.controlling = []

/-- The seat is taken only when no connection of another session controls, it is released only
when none controls, and a connection starts to control only while its session has the seat. -/
def SeatKept (s : Server) : ServerEvent → Prop
  | .act k =>
      match s.pending[k]? with
      | some (.take sess) => s.OnlyFor sess.id
      | some (.release sess) => s.Vacatable sess.id
      | some (.logoutRelease sess _) => s.Vacatable sess.id
      | _ => True
  | .finish i =>
      match s.consoles[i]? with
      | some ⟨sess, .bridging b⟩ => b.viewOnly = false → s.Vacatable sess.id
      | _ => True
  | .bridge i (.setup none) =>
      match s.consoles[i]? with
      | some ⟨sess, .bridging b⟩ =>
          b.caller = .handshaking → b.viewOnly = false → sess.id = s.control.sessionID
      | _ => True
  | _ => True

variable {s t : Server}

theorem singleController_iff :
    s.SingleController ↔ s.OnlyFor s.control.sessionID := by
  constructor
  · intro single id hid
    obtain ⟨c, hc, held⟩ := List.mem_flatMap.mp hid
    unfold Console.holds at held
    split at held
    · rename_i controls
      rw [List.mem_singleton.mp held]
      exact (single c hc c hc controls controls).2
    · simp at held
  · intro only c hc d hd cc dc
    have at_seat : ∀ x ∈ s.consoles, x.controls → x.session.id = s.control.sessionID :=
      fun x hx controls => only _ (List.mem_flatMap.mpr ⟨x, hx, by simp [Console.holds, controls]⟩)
    exact ⟨(at_seat c hc cc).trans (at_seat d hd dc).symm, at_seat d hd dc⟩

/-- Every connection is of a session with a name. -/
def Inv (s : Server) : Prop := ∀ id ∈ s.consoles.flatMap (fun c => [c.session.id]), id ≠ ""

theorem inv_initial (h : s ∈ (consoleSystem opts creds).initial) : s.Inv := by
  obtain ⟨clock, rfl⟩ := h
  exact fun id hid => absurd hid (by simp)

theorem Inv.named (inv : s.Inv) {i : Nat} {c : Console} (found : s.consoles[i]? = some c) :
    c.session.id ≠ "" :=
  inv _ (List.mem_flatMap.mpr ⟨c, List.mem_of_getElem? found, List.mem_singleton_self _⟩)

theorem Inv.controlling (inv : s.Inv) : ∀ id ∈ s.controlling, id ≠ "" := by
  intro id hid
  obtain ⟨c, hc, held⟩ := List.mem_flatMap.mp hid
  unfold Console.holds at held
  split at held
  · exact inv id (List.mem_flatMap.mpr ⟨c, hc, held⟩)
  · simp at held

/-- Under a vacant seat nothing may control, under any seat only its session. -/
theorem Inv.onlyFor_empty (inv : s.Inv) : s.OnlyFor "" ↔ s.controlling = [] := by
  constructor
  · intro only
    apply List.eq_nil_iff_forall_not_mem.mpr
    intro id hid
    exact inv.controlling id hid (only id hid)
  · intro none id hid
    simp [none] at hid

@[simp] theorem cancelConsole_controlling {which : Option Nat} :
    (s.cancelConsole which).controlling = s.controlling := by
  cases which with
  | none => rfl
  | some i =>
      refine flatMap_modify (fun c => ?_) i
      obtain ⟨sess, phase⟩ := c
      cases phase <;> rfl

@[simp] theorem cancelConsole_inv {which : Option Nat} :
    (s.cancelConsole which).Inv ↔ s.Inv := by
  cases which with
  | none => rfl
  | some i =>
      have same : ((s.cancelConsole (some i)).consoles.flatMap fun c => [c.session.id]) =
          s.consoles.flatMap fun c => [c.session.id] := by
        refine flatMap_modify (fun c => ?_) i
        obtain ⟨sess, phase⟩ := c
        cases phase <;> rfl
      rw [Inv, same]
      rfl

/-- A connection that changes its phase changes what it contributes itself. -/
theorem setPhase_controlling {i : Nat} {c : Console} (h : s.consoles[i]? = some c) :
    ∃ before after, s.controlling = before ++ c.holds ++ after ∧
      ∀ (t : Server) phase, t.consoles = s.consoles →
        (t.setPhase i c phase).controlling =
          before ++ ({ c with phase } : Console).holds ++ after := by
  obtain ⟨before, after, now, later⟩ := flatMap_set h Console.holds
  exact ⟨before, after, now, fun t phase same => by rw [controlling, setPhase, same, later]⟩

/-- A change of phase that does not touch the control. -/
theorem setPhase_controlling_of_holds {i : Nat} {c : Console}
    {phase : ConsolePhase} (h : s.consoles[i]? = some c) (same : t.consoles = s.consoles)
    (holds : ({ c with phase } : Console).holds = c.holds) :
    (t.setPhase i c phase).controlling = s.controlling := by
  obtain ⟨before, after, now, later⟩ := setPhase_controlling h
  rw [now, later t phase same, holds]

theorem setPhase_inv {i : Nat} {c : Console} {phase : ConsolePhase}
    (h : s.consoles[i]? = some c) (same : t.consoles = s.consoles) (inv : s.Inv) :
    (t.setPhase i c phase).Inv := by
  obtain ⟨before, after, now, later⟩ := flatMap_set h fun c => [c.session.id]
  rw [Inv, setPhase, same, later, ← now]
  exact inv

/-- What an operation leaves unchanged for the question who controls. -/
structure SameControl (s t : Server) : Prop where
  controlling : t.controlling = s.controlling
  seat : t.control.sessionID = s.control.sessionID

theorem SameControl.single (same : SameControl s t) (held : s.SingleController) :
    t.SingleController := by
  rw [singleController_iff] at held ⊢
  rw [OnlyFor, same.controlling, same.seat]
  exact held

theorem admitted_same (s : Server) (sess : Session) (route : Route) :
    SameControl s (s.admitted sess route) := by
  cases route with
  | vnc wantControl =>
      exact ⟨by simp [admitted, Server.controlling, Console.holds, Console.controls], rfl⟩
  | take => exact ⟨rfl, rfl⟩
  | release => exact ⟨rfl, rfl⟩
  | other => exact ⟨rfl, rfl⟩

/-- Giving up the seat is right exactly when nobody controls by it. -/
theorem release_single {id : String} (inv : s.Inv) (held : s.SingleController)
    (controlling : t.controlling = s.controlling)
    (seat : t.control.sessionID = (s.control.release id).sessionID) :
    t.SingleController ↔ s.Vacatable id := by
  rw [singleController_iff] at held ⊢
  rw [OnlyFor, controlling, seat, Controller.release_sessionID]
  by_cases holder : s.control.sessionID = id
  · rw [if_pos holder]
    exact inv.onlyFor_empty.trans ⟨fun none _ => none, fun vacant => vacant holder.symm⟩
  · rw [if_neg holder]
    exact iff_of_true held fun same => absurd same.symm holder

/-- Acquiring never harms: the seat is free, then nobody controls, or it is kept. -/
theorem seated_single {i : Nat} {sess : Session} {control : Controller} {dropped : Option Nat}
    (inv : s.Inv) (held : s.SingleController)
    (found : s.consoles[i]? = some ⟨sess, .admitted true⟩)
    (given : s.control.acquire sess s.clock i = (control, dropped, true)) :
    (({ s with control }.setPhase i ⟨sess, .admitted true⟩
      (.bridging { viewOnly := false })).cancelConsole dropped).SingleController := by
  obtain ⟨seat, _, before⟩ := Controller.acquire_given given
  have same : (({ s with control }.setPhase i ⟨sess, .admitted true⟩
      (.bridging { viewOnly := false })).cancelConsole dropped).controlling = s.controlling :=
    cancelConsole_controlling.trans (setPhase_controlling_of_holds found rfl rfl)
  rw [singleController_iff] at held ⊢
  rw [OnlyFor, same, cancelConsole_control]
  rcases before with free | own
  · rw [free, inv.onlyFor_empty] at held
    simp [held]
  · exact fun id hid => (held id hid).trans (own.trans seat.symm)

theorem seatKept_bridge {i : Nat} {e : BridgeEvent} {sess : Session} {b : Bridge}
    (found : s.consoles[i]? = some ⟨sess, .bridging b⟩) : s.SeatKept (.bridge i e) ↔
      (e = .setup none ∧ b.caller = .handshaking ∧ b.viewOnly = false →
        sess.id = s.control.sessionID) := by
  unfold SeatKept
  split <;> simp_all

/-- A step of a bridge matters only where the setup ends and the relays start. -/
theorem bridged_single {i : Nat} {e : BridgeEvent} {sess : Session} {b b' : Bridge}
    {auth : Manager} (held : s.SingleController)
    (found : s.consoles[i]? = some ⟨sess, .bridging b⟩) (moved : b.next e = some b') :
    ({ s with auth }.setPhase i ⟨sess, .bridging b⟩ (.bridging b')).SingleController ↔
      s.SeatKept (.bridge i e) := by
  obtain ⟨before, after, now, later⟩ := setPhase_controlling found
  have later := later { s with auth } (.bridging b') rfl
  obtain ⟨mode, starts⟩ := Bridge.next_live moved
  rw [singleController_iff] at held ⊢
  rw [OnlyFor, now] at held
  rw [OnlyFor, later, seatKept_bridge found]
  change (∀ x ∈ _, x = s.control.sessionID) ↔ _
  simp only [List.forall_mem_append] at held ⊢
  by_cases start : e = .setup none ∧ b.caller = .handshaking ∧ b.viewOnly = false
  · have live : b'.live := Bridge.live_spawn start.2.1 (start.1 ▸ moved)
    have holds : (⟨sess, .bridging b'⟩ : Console).holds = [sess.id] := by
      simp [Console.holds, Console.controls, live, mode, start.2.2]
    rw [holds]
    simp only [List.forall_mem_singleton, start, and_self, forall_const]
    exact ⟨fun all => all.1.2, fun same => ⟨⟨held.1.1, same⟩, held.2⟩⟩
  · refine iff_of_true ⟨⟨held.1.1, fun x hx => held.1.2 x ?_⟩, held.2⟩ fun s => absurd s start
    simp only [Console.holds, Console.controls, mode] at hx ⊢
    split at hx
    · rename_i controls
      obtain ⟨live, input⟩ := Bool.and_eq_true_iff.mp controls
      have liveBefore : b.live := by
        refine (starts live).resolve_right fun spawned => start ⟨spawned.1, spawned.2, ?_⟩
        simpa using input
      simpa [liveBefore, input] using hx
    · simp at hx

/-- The bridge has returned, so only the release of the seat matters. -/
theorem finished_single {i : Nat} {sess : Session} {b : Bridge} (inv : s.Inv)
    (held : s.SingleController) (found : s.consoles[i]? = some ⟨sess, .bridging b⟩)
    (returned : b.hasReturned) :
    ({ s with control :=
        if b.viewOnly then s.control.addViewer (-1) else s.control.release sess.id }.setPhase i
      ⟨sess, .bridging b⟩ .done).SingleController ↔ (b.viewOnly = false → s.Vacatable sess.id) := by
  have ended : (⟨sess, .done⟩ : Console).holds = (⟨sess, .bridging b⟩ : Console).holds := by
    simp [Console.holds, Console.controls, Bridge.live, returned]
  have same : ∀ control, ({ s with control }.setPhase i ⟨sess, .bridging b⟩ .done).controlling =
      s.controlling := fun control => setPhase_controlling_of_holds found rfl ended
  cases mode : b.viewOnly with
  | true =>
      rw [if_pos rfl]
      exact iff_of_true (SameControl.single ⟨same _, rfl⟩ held) (by simp)
  | false =>
      rw [if_neg (by simp), forall_prop_of_true rfl]
      exact release_single inv held (same _) rfl

theorem inv_next {e : ServerEvent} (inv : s.Inv) (h : s.next opts creds e = some t) : t.Inv := by
  cases moves_of_next h with
  | admitted route cookie auth sess asked =>
      cases route with
      | vnc wantControl =>
          have named : sess.id ≠ "" := Manager.sessionFromRequest_id (congrArg Prod.snd asked)
          intro id hid
          rw [admitted, List.flatMap_append, List.mem_append] at hid
          rcases hid with old | new
          · exact inv id old
          · exact List.mem_singleton.mp new ▸ named
      | take | release | other => exact inv
  | take k sess found => exact cancelConsole_inv.mpr inv
  | seated i sess control dropped found given =>
      exact cancelConsole_inv.mpr (setPhase_inv found rfl inv)
  | watching i sess wantControl found refused => exact setPhase_inv found rfl inv
  | bridged i e sess b b' auth found moved uncancelled asked => exact setPhase_inv found rfl inv
  | finished i sess b found returned => exact setPhase_inv found rfl inv
  | _ => exact inv

/-- A step keeps one controller exactly when it keeps the seat with it. -/
theorem single_next {e : ServerEvent} (inv : s.Inv) (held : s.SingleController)
    (h : s.next opts creds e = some t) : t.SingleController ↔ s.SeatKept e := by
  cases moves_of_next h with
  | admitted route cookie auth sess asked =>
      have same := admitted_same { s with auth } sess route
      exact iff_of_true (SameControl.single ⟨same.controlling, same.seat⟩ held) trivial
  | take k sess found =>
      simp only [SeatKept, found]
      rw [singleController_iff, OnlyFor, cancelConsole_controlling, cancelConsole_control]
      rfl
  | release k sess found =>
      simp only [SeatKept, found]
      exact release_single inv held rfl rfl
  | logoutRelease k sess cookie found =>
      simp only [SeatKept, found]
      exact release_single inv held rfl rfl
  | logoutDelete k cookie found =>
      simp only [SeatKept, found]
      exact iff_of_true (SameControl.single ⟨rfl, rfl⟩ held) trivial
  | seated i sess control dropped found given =>
      exact iff_of_true (seated_single inv held found given) trivial
  | watching i sess wantControl found refused =>
      exact iff_of_true
        (SameControl.single ⟨setPhase_controlling_of_holds found rfl rfl, rfl⟩ held) trivial
  | bridged i e sess b b' auth found moved uncancelled asked =>
      exact bridged_single held found moved
  | finished i sess b found returned =>
      simp only [SeatKept, found]
      exact finished_single inv held found returned
  | _ => exact iff_of_true (SameControl.single ⟨rfl, rfl⟩ held) trivial

end Server

/-- One session controls throughout a run, and has the seat, exactly when every step keeps the
seat with the controlling connections. -/
theorem single_controller_iff (opts : Options) (creds : Credentials)
    (x : Execution (consoleSystem opts creds)) :
    x.Always Server.SingleController ↔ x.Meets Server.SeatKept := by
  refine x.run.always_iff (I := Server.Inv) ?_ (fun inv _ _ h => Server.inv_next inv h)
    (fun inv held h => Server.single_next inv held h)
  intro s hs
  refine ⟨Server.inv_initial hs, ?_⟩
  obtain ⟨clock, rfl⟩ := hs
  exact fun c hc => absurd hc (by simp)

/-- The first session connects, gives the seat back by the API while its bridge relays, and the
second session connects. -/
def releaseWhileConnected : List ServerEvent :=
  [.login 0 "203.0.113.7" "admin" "secret" (.ok ⟨"one", by decide⟩),
    .login 0 "203.0.113.8" "admin" "secret" (.ok ⟨"two", by decide⟩),
    .request (.vnc true) (some "one"), .acquire 0,
    .bridge 0 (.setup none), .bridge 0 (.setup none), .bridge 0 (.setup none),
    .request .release (some "one"), .act 0,
    .request (.vnc true) (some "two"), .acquire 1,
    .bridge 1 (.setup none), .bridge 1 (.setup none), .bridge 1 (.setup none)]

theorem two_controllers_after_release :
    ∃ x : Execution (consoleSystem defaultOptions oneUser),
      ¬ x.Always Server.SingleController := by
  refine Execution.exists_not_always (s := ⟨0, .new, {}, [], []⟩) ⟨0, rfl⟩
    (show exec _ _ releaseWhileConnected = some _ from rfl) fun single => ?_
  have same := single _ List.mem_cons_self _ (List.mem_cons_of_mem _ List.mem_cons_self) rfl rfl
  exact absurd same.1 (by decide)

end VmServer.HttpServer
