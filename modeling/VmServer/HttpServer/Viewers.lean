import VmServer.HttpServer.Moves

/-!
# The number of viewers

The status reports how many consoles watch without the seat. The counter goes
up when a handler becomes a viewer and down in the deferred call after its
bridge; in between the seat changes hands, connections are cancelled and
sessions end. None of that touches the count, so no handler is counted twice
and none is forgotten.
-/

namespace VmServer.HttpServer

open Auth Proxy TransitionSystem Contributions

/-- The handler runs a view-only bridge, or has the deferred calls after it to do. -/
def Console.watching (c : Console) : Bool :=
  match c.phase with
  | .bridging b => b.viewOnly
  | _ => false

/-- The number of the consoles that watch. -/
def Server.watchers (s : Server) : Nat := s.consoles.countP Console.watching

theorem Console.cancelled_watching (c : Console) : c.cancelled.watching = c.watching := by
  obtain ⟨sess, phase⟩ := c
  cases phase <;> rfl

theorem Controller.release_viewers (c : Controller) (sessionID : String) :
    (c.release sessionID).viewers = c.viewers := by
  unfold Controller.release
  split <;> rfl

theorem Controller.acquire_viewers (c : Controller) (sess : Session) (now : Int) (i : Nat) :
    (c.acquire sess now i).1.viewers = c.viewers := by
  unfold Controller.acquire
  split <;> rfl

namespace Server

variable {opts : Options} {creds : Credentials} {s t : Server}

/-- A handler that goes into another phase is counted by that phase. -/
theorem watchers_setPhase {i : Nat} {c : Console} (found : s.consoles[i]? = some c)
    (same : t.consoles = s.consoles) (phase : ConsolePhase) :
    (t.setPhase i c phase).watchers + c.watching.toNat =
      s.watchers + ({ c with phase } : Console).watching.toNat := by
  rw [watchers, setPhase, same]
  exact countP_set found Console.watching _

theorem watchers_cancelConsole (which : Option Nat) :
    (s.cancelConsole which).watchers = s.watchers := by
  cases which with
  | none => rfl
  | some i => exact countP_modify Console.cancelled_watching i

theorem watchers_admitted (sess : Session) (route : Route) :
    (s.admitted sess route).watchers = s.watchers := by
  cases route with
  | vnc wantControl => simp [admitted, watchers, Console.watching]
  | take | release | other => rfl

/-- The counter agrees with the handlers. -/
def Counted (s : Server) : Prop := s.control.viewers = s.watchers

/-- The counter moves with the handlers that begin and cease to watch. -/
theorem Counted.of_change (h : s.Counted) {gone new : Bool}
    (viewers : t.control.viewers + gone.toNat = s.control.viewers + new.toNat)
    (watchers : t.watchers + gone.toNat = s.watchers + new.toNat) : t.Counted := by
  unfold Counted at h ⊢
  omega

/-- A step that neither counts nor starts or ends a viewer. -/
theorem Counted.of_eq (h : s.Counted) (viewers : t.control.viewers = s.control.viewers)
    (watchers : t.watchers = s.watchers) : t.Counted := by
  unfold Counted at h ⊢
  rw [viewers, watchers, h]

/-- The deferred calls of a handler take back what its start has counted. -/
theorem Counted.finished (h : s.Counted) {i : Nat} {sess : Session} {b : Bridge}
    (found : s.consoles[i]? = some ⟨sess, .bridging b⟩) :
    ({ s with control :=
        if b.viewOnly then s.control.addViewer (-1) else s.control.release sess.id }.setPhase i
      ⟨sess, .bridging b⟩ .done).Counted := by
  refine h.of_change ?_ (watchers_setPhase found rfl .done)
  cases mode : b.viewOnly with
  | false =>
      simp only [setPhase, Console.watching, mode]
      exact congrArg (· + 0) (Controller.release_viewers _ _)
  | true =>
      simp only [setPhase, Console.watching, mode, if_true]
      exact (Int.neg_add_cancel_right s.control.viewers 1).trans (Int.add_zero _).symm

theorem counted_of_moves {e : ServerEvent} (held : s.Counted) (moves : s.Moves opts creds e t) :
    t.Counted := by
  cases moves with
  | advance | login | turnedAway | logout | logoutDelete | reap => exact held.of_eq rfl rfl
  | admitted route cookie auth sess asked =>
      exact held.of_eq (congrArg Controller.viewers (admitted_control sess route))
        (watchers_admitted (s := { s with auth }) sess route)
  | take k sess found =>
      refine held.of_eq ?_ (watchers_cancelConsole _)
      rw [cancelConsole_control]
      rfl
  | release k sess found => exact held.of_eq (Controller.release_viewers _ _) rfl
  | logoutRelease k sess cookie found => exact held.of_eq (Controller.release_viewers _ _) rfl
  | seated i sess control dropped found given =>
      have started := watchers_setPhase found (t := { s with control }) rfl
        (.bridging { viewOnly := false })
      have kept := Controller.acquire_viewers s.control sess s.clock i
      rw [given] at kept
      refine held.of_eq ?_ ((watchers_cancelConsole _).trans started)
      rw [cancelConsole_control]
      exact kept
  | watching i sess wantControl found refused =>
      refine held.of_change ?_ (watchers_setPhase found rfl (.bridging { viewOnly := true }))
      exact Int.add_zero (s.control.viewers + 1)
  | bridged i e sess b b' auth found moved uncancelled asked =>
      have moved' := watchers_setPhase found (t := { s with auth }) rfl (.bridging b')
      simp only [Console.watching, (Bridge.next_live moved).1] at moved'
      exact held.of_eq rfl (Nat.add_right_cancel moved')
  | finished i sess b found returned => exact held.finished found

end Server

/-- In every state of every run the reported number of viewers is the number of handlers that
watch: it is never negative, and it is zero when nobody watches. -/
theorem viewers_counted (opts : Options) (creds : Credentials)
    (x : Execution (consoleSystem opts creds)) :
    x.Always fun s => ∀ sessionID,
      (s.control.info sessionID).viewers = s.consoles.countP Console.watching := by
  have counted : x.Always Server.Counted := by
    refine Run.invariant ?_ (fun held h => Server.counted_of_moves held (Server.moves_of_next h))
      x.run
    rintro s ⟨clock, rfl⟩
    rfl
  exact counted.mono fun s held sessionID => held

end VmServer.HttpServer
