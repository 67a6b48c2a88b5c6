import VmServer.Library.Contributions
import VmServer.HttpServer.Console

/-!
# The steps of the console server, one by one

A step of the server is one of the moves below. What a move does to a
connection, and to whether its handler still has a bridge to run, is stated
here once for every result about the seat.
-/

namespace VmServer.HttpServer

open Auth Proxy Contributions

variable {opts : Options} {creds : Credentials}

/-- A control connection whose bridge has not returned and was not cancelled. -/
def Console.connected (c : Console) : Bool :=
  match c.phase with
  | .bridging b => !b.viewOnly && !b.hasReturned && !b.callerDone
  | _ => false

/-- The handler of the connection runs a bridge or has the deferred calls after it to do. -/
def Console.bridging (c : Console) : Bool :=
  match c.phase with
  | .bridging _ => true
  | _ => false

namespace Server

/-- What each step of the server does, and when it is possible. -/
inductive Moves (opts : Options) (creds : Credentials) (s : Server) : ServerEvent → Server → Prop
  | advance (d : Nat) : Moves opts creds s (.advance d) { s with clock := s.clock + d }
  | login (start : Int) (ip username password : String) (random : Except String SessionID)
      (past : start ≤ s.clock) :
      Moves opts creds s (.login start ip username password random)
        { s with auth := (s.auth.login opts creds ip start username password random).1 }
  | turnedAway (route : Route) (cookie : Option String) (auth : Manager)
      (asked : s.auth.sessionFromRequest opts cookie s.clock = (auth, none)) :
      Moves opts creds s (.request route cookie) { s with auth }
  | admitted (route : Route) (cookie : Option String) (auth : Manager) (sess : Session)
      (asked : s.auth.sessionFromRequest opts cookie s.clock = (auth, some sess)) :
      Moves opts creds s (.request route cookie) ({ s with auth }.admitted sess route)
  | logout (cookie : Option String) (auth : Manager) (p : Pending)
      (asked : (s.auth.sessionFromRequest opts cookie s.clock).1 = auth)
      (work : p = .logoutDelete cookie ∨ ∃ sess, p = .logoutRelease sess cookie) :
      Moves opts creds s (.logout cookie) { s with auth, pending := s.pending ++ [p] }
  | take (k : Nat) (sess : Session) (found : s.pending[k]? = some (.take sess)) :
      Moves opts creds s (.act k)
        ({ s with control := (s.control.take sess s.clock).1,
                  pending := s.pending.set k .done }.cancelConsole
          (s.control.take sess s.clock).2)
  | release (k : Nat) (sess : Session) (found : s.pending[k]? = some (.release sess)) :
      Moves opts creds s (.act k)
        { s with control := s.control.release sess.id, pending := s.pending.set k .done }
  | logoutRelease (k : Nat) (sess : Session) (cookie : Option String)
      (found : s.pending[k]? = some (.logoutRelease sess cookie)) :
      Moves opts creds s (.act k)
        { s with control := s.control.release sess.id,
                 pending := s.pending.set k (.logoutDelete cookie) }
  | logoutDelete (k : Nat) (cookie : Option String)
      (found : s.pending[k]? = some (.logoutDelete cookie)) :
      Moves opts creds s (.act k)
        { s with auth := (s.auth.logout opts cookie).1, pending := s.pending.set k .done }
  | seated (i : Nat) (sess : Session) (control : Controller) (dropped : Option Nat)
      (found : s.consoles[i]? = some ⟨sess, .admitted true⟩)
      (given : s.control.acquire sess s.clock i = (control, dropped, true)) :
      Moves opts creds s (.acquire i)
        (({ s with control }.setPhase i ⟨sess, .admitted true⟩
          (.bridging { viewOnly := false })).cancelConsole dropped)
  | watching (i : Nat) (sess : Session) (wantControl : Bool)
      (found : s.consoles[i]? = some ⟨sess, .admitted wantControl⟩)
      (refused : wantControl = true → s.control.sessionID ≠ "" ∧ s.control.sessionID ≠ sess.id) :
      Moves opts creds s (.acquire i)
        ({ s with control := s.control.addViewer 1 }.setPhase i ⟨sess, .admitted wantControl⟩
          (.bridging { viewOnly := true }))
  | bridged (i : Nat) (e : BridgeEvent) (sess : Session) (b b' : Bridge) (auth : Manager)
      (found : s.consoles[i]? = some ⟨sess, .bridging b⟩) (moved : b.next e = some b')
      (uncancelled : e ≠ .cancelCaller)
      (asked : auth = s.auth ∨ auth = s.auth.touch sess.id s.clock) :
      Moves opts creds s (.bridge i e)
        ({ s with auth }.setPhase i ⟨sess, .bridging b⟩ (.bridging b'))
  | finished (i : Nat) (sess : Session) (b : Bridge)
      (found : s.consoles[i]? = some ⟨sess, .bridging b⟩) (returned : b.hasReturned) :
      Moves opts creds s (.finish i)
        ({ s with control :=
            if b.viewOnly then s.control.addViewer (-1) else s.control.release sess.id }.setPhase i
          ⟨sess, .bridging b⟩ .done)
  | reap (now : Int) (past : now ≤ s.clock) :
      Moves opts creds s (.reap now) { s with auth := s.auth.reap opts now }

variable {s t : Server}

theorem moves_act {k : Nat} {p : Pending} (found : s.pending[k]? = some p)
    (h : s.act opts k p = some t) : s.Moves opts creds (.act k) t := by
  cases p with
  | take sess =>
      obtain rfl := Option.some.inj h
      exact .take k sess found
  | release sess =>
      obtain rfl := Option.some.inj h
      exact .release k sess found
  | logoutRelease sess cookie =>
      obtain rfl := Option.some.inj h
      exact .logoutRelease k sess cookie found
  | logoutDelete cookie =>
      obtain rfl := Option.some.inj h
      exact .logoutDelete k cookie found
  | done => cases h

theorem moves_acquire {i : Nat} {c : Console} (found : s.consoles[i]? = some c)
    (h : s.acquire i c = some t) : s.Moves opts creds (.acquire i) t := by
  obtain ⟨sess, phase⟩ := c
  unfold acquire at h
  split at h
  · rename_i admitted
    obtain rfl : phase = .admitted true := admitted
    split at h
    · rename_i control dropped given
      obtain rfl := Option.some.inj h
      exact .seated i sess control dropped found given
    · rename_i control dropped given
      obtain rfl := Option.some.inj h
      obtain ⟨_, _, rfl, taken⟩ | ⟨yes, _⟩ := Controller.acquire_cases given
      · exact .watching i sess true found fun _ => taken
      · cases yes
  · rename_i admitted
    obtain rfl : phase = .admitted false := admitted
    obtain rfl := Option.some.inj h
    exact .watching i sess false found (by simp)
  · cases h

theorem moves_bridge {i : Nat} {e : BridgeEvent} {c : Console} (found : s.consoles[i]? = some c)
    (h : s.bridge opts i e c = some t) : s.Moves opts creds (.bridge i e) t := by
  obtain ⟨sess, phase⟩ := c
  unfold bridge at h
  split at h
  · rename_i b hphase
    obtain rfl : phase = .bridging b := hphase
    obtain ⟨b', moved, h⟩ := Option.bind_eq_some_iff.mp h
    obtain ⟨s', asked, h⟩ := Option.bind_eq_some_iff.mp h
    obtain rfl := Option.some.inj h
    unfold bridgeEffect at asked
    split at asked
    · cases asked
    · obtain rfl := Option.some.inj asked
      exact .bridged i _ sess b b' _ found moved (by simp) (Or.inr rfl)
    · obtain ⟨_, asked⟩ := Option.ite_none_right_eq_some.mp asked
      obtain rfl := Option.some.inj asked
      exact .bridged i _ sess b b' _ found moved (by simp) (Or.inl rfl)
    · rename_i other _ _
      obtain rfl := Option.some.inj asked
      exact .bridged i e sess b b' _ found moved other (Or.inl rfl)
  · cases h

theorem moves_finish {i : Nat} {c : Console} (found : s.consoles[i]? = some c)
    (h : s.finish i c = some t) : s.Moves opts creds (.finish i) t := by
  obtain ⟨sess, phase⟩ := c
  unfold finish at h
  split at h
  · rename_i b hphase
    obtain rfl : phase = .bridging b := hphase
    obtain ⟨returned, h⟩ := Option.ite_none_right_eq_some.mp h
    obtain rfl := Option.some.inj h
    exact .finished i sess b found returned
  · cases h

theorem moves_of_next {e : ServerEvent} (h : s.next opts creds e = some t) :
    s.Moves opts creds e t := by
  cases e with
  | advance d =>
      obtain rfl := Option.some.inj h
      exact .advance d
  | login start ip username password random =>
      obtain ⟨past, h⟩ := Option.ite_none_right_eq_some.mp h
      obtain rfl := Option.some.inj h
      exact .login start ip username password random past
  | request route cookie =>
      obtain rfl := Option.some.inj h
      unfold request
      split
      · exact .turnedAway route cookie _ (by assumption)
      · exact .admitted route cookie _ _ (by assumption)
  | logout cookie =>
      obtain rfl := Option.some.inj h
      unfold logout
      split
      · rename_i asked
        exact .logout cookie _ _ (congrArg Prod.fst asked) (Or.inl rfl)
      · rename_i asked
        exact .logout cookie _ _ (congrArg Prod.fst asked) (Or.inr ⟨_, rfl⟩)
  | act k =>
      obtain ⟨p, found, h⟩ := Option.bind_eq_some_iff.mp h
      exact moves_act found h
  | acquire i =>
      obtain ⟨c, found, h⟩ := Option.bind_eq_some_iff.mp h
      exact moves_acquire found h
  | bridge i e =>
      obtain ⟨c, found, h⟩ := Option.bind_eq_some_iff.mp h
      exact moves_bridge found h
  | finish i =>
      obtain ⟨c, found, h⟩ := Option.bind_eq_some_iff.mp h
      exact moves_finish found h
  | reap now =>
      obtain ⟨past, h⟩ := Option.ite_none_right_eq_some.mp h
      obtain rfl := Option.some.inj h
      exact .reap now past

/-- The control connection is live and nobody has cancelled it. -/
def Connected (s : Server) (k : Nat) : Prop := ∃ c ∈ s.consoles[k]?, c.connected

/-- A bridge of the session is live. -/
def Bridging (s : Server) (id : String) : Prop :=
  ∃ k : Nat, ∃ c ∈ s.consoles[k]?, c.session.id = id ∧ c.bridging

@[simp] theorem cancelConsole_control {which : Option Nat} :
    (s.cancelConsole which).control = s.control := by
  cases which <;> rfl

@[simp] theorem cancelConsole_auth {which : Option Nat} :
    (s.cancelConsole which).auth = s.auth := by
  cases which <;> rfl

@[simp] theorem cancelConsole_clock {which : Option Nat} :
    (s.cancelConsole which).clock = s.clock := by
  cases which <;> rfl

theorem cancelConsole_consoles (s : Server) (which : Option Nat) (k : Nat) :
    (s.cancelConsole which).consoles[k]? =
      if which = some k then s.consoles[k]?.map Console.cancelled else s.consoles[k]? := by
  cases which with
  | none => rfl
  | some i =>
      rw [cancelConsole, List.getElem?_modify]
      by_cases same : i = k
      · rw [if_pos (congrArg some same)]
        simp [same]
      · rw [if_neg fun e => same (Option.some.inj e)]
        simp [same]

theorem cancelled_session (c : Console) : c.cancelled.session = c.session := by
  obtain ⟨sess, phase⟩ := c
  cases phase <;> rfl

theorem cancelled_bridging (c : Console) : c.cancelled.bridging = c.bridging := by
  obtain ⟨sess, phase⟩ := c
  cases phase <;> rfl

theorem cancelled_connected (c : Console) : c.cancelled.connected = false := by
  obtain ⟨sess, phase⟩ := c
  cases phase <;> simp [Console.cancelled, Console.connected]

theorem connected_cancelConsole {which : Option Nat} {k : Nat} :
    (s.cancelConsole which).Connected k ↔ s.Connected k ∧ which ≠ some k := by
  rw [Connected, cancelConsole_consoles]
  by_cases hit : which = some k
  · rw [if_pos hit]
    refine iff_of_false ?_ fun h => h.2 hit
    rintro ⟨c, hc, connected⟩
    obtain ⟨d, _, rfl⟩ := Option.map_eq_some_iff.mp hc
    simp [cancelled_connected] at connected
  · rw [if_neg hit]
    exact (and_iff_left hit).symm

theorem bridging_cancelConsole {which : Option Nat} {id : String} :
    (s.cancelConsole which).Bridging id ↔ s.Bridging id := by
  refine exists_congr fun k => ?_
  rw [cancelConsole_consoles]
  split
  · simp only [Option.mem_def, Option.map_eq_some_iff, exists_exists_and_eq_and,
      cancelled_session, cancelled_bridging]
  · rfl

section Phases

variable {i : Nat} {c : Console} {phase : ConsolePhase}

theorem connected_setPhase (found : s.consoles[i]? = some c) (same : t.consoles = s.consoles)
    {k : Nat} : (t.setPhase i c phase).Connected k ↔
      if i = k then ({ c with phase } : Console).connected = true else s.Connected k := by
  rw [Connected, setPhase, same, getElem?_set found]
  split
  · simp
  · rfl

/-- A phase that is not that of a live control connection connects nobody. -/
theorem Connected.of_setPhase (found : s.consoles[i]? = some c) (same : t.consoles = s.consoles)
    (idle : ({ c with phase } : Console).connected → c.connected) {k : Nat}
    (h : (t.setPhase i c phase).Connected k) : s.Connected k := by
  rw [connected_setPhase found same] at h
  split at h
  · rename_i here
    exact ⟨c, here ▸ found, idle h⟩
  · exact h

theorem bridging_setPhase (found : s.consoles[i]? = some c) (same : t.consoles = s.consoles)
    {id : String} : (t.setPhase i c phase).Bridging id ↔
      (c.session.id = id ∧ ({ c with phase } : Console).bridging) ∨
        ∃ k : Nat, k ≠ i ∧ ∃ d ∈ s.consoles[k]?, d.session.id = id ∧ d.bridging := by
  rw [Bridging, setPhase, same]
  constructor
  · rintro ⟨k, d, hd, bridge⟩
    obtain ⟨_, rfl⟩ | ⟨other, hd⟩ := of_getElem?_set found hd
    · exact Or.inl bridge
    · exact Or.inr ⟨k, Ne.symm other, d, hd, bridge⟩
  · rintro (bridge | ⟨k, other, d, hd, bridge⟩)
    · exact ⟨i, _, by rw [getElem?_set found, if_pos rfl]; rfl, bridge⟩
    · exact ⟨k, d, by rw [getElem?_set found, if_neg other.symm]; exact hd, bridge⟩

/-- A connection whose handler goes on with a bridge keeps every bridge there is. -/
theorem Bridging.setPhase (found : s.consoles[i]? = some c) (same : t.consoles = s.consoles)
    (runs : ({ c with phase } : Console).bridging) {id : String} (h : s.Bridging id) :
    (t.setPhase i c phase).Bridging id := by
  obtain ⟨k, d, hd, bridge⟩ := h
  rw [bridging_setPhase found same]
  by_cases here : k = i
  · subst here
    obtain rfl := Option.some.inj (found.symm.trans hd)
    exact Or.inl ⟨bridge.1, runs⟩
  · exact Or.inr ⟨k, here, d, hd, bridge⟩

end Phases

theorem connected_admitted {sess : Session} {route : Route} {k : Nat} :
    (s.admitted sess route).Connected k ↔ s.Connected k := by
  cases route with
  | vnc wantControl =>
      rw [Connected, admitted, getElem?_concat]
      split
      · rename_i new
        refine iff_of_false (by simp [Console.connected]) ?_
        rintro ⟨c, hc, _⟩
        rw [← new, List.getElem?_eq_none le_rfl] at hc
        cases hc
      · rfl
  | take | release | other => rfl

theorem Bridging.admitted {sess : Session} {route : Route} {id : String} (h : s.Bridging id) :
    (s.admitted sess route).Bridging id := by
  cases route with
  | vnc wantControl =>
      obtain ⟨k, c, hc, bridge⟩ := h
      have inside := (List.getElem?_eq_some_iff.mp hc).1
      exact ⟨k, c, (List.getElem?_append_left inside).trans hc, bridge⟩
  | take | release | other => exact h

theorem admitted_control (sess : Session) (route : Route) :
    (s.admitted sess route).control = s.control := by
  cases route <;> rfl

theorem admitted_auth (sess : Session) (route : Route) :
    (s.admitted sess route).auth = s.auth ∧ (s.admitted sess route).clock = s.clock := by
  cases route <;> exact ⟨rfl, rfl⟩

/-- A bridge keeps its mode; it is not resumed, and only its cancel function cancels it. -/
theorem connected_of_next {sess : Session} {b b' : Bridge} {e : BridgeEvent}
    (moved : b.next e = some b') (uncancelled : e ≠ .cancelCaller)
    (h : (⟨sess, .bridging b'⟩ : Console).connected) :
    (⟨sess, .bridging b⟩ : Console).connected := by
  simp only [Console.connected, Bool.and_eq_true, Bool.not_eq_true'] at h ⊢
  obtain ⟨⟨mode, waits⟩, opened⟩ := h
  cases Bridge.moves_of_next moved with
  | cancelCaller => exact absurd rfl uncancelled
  | dialled caller | authenticated caller | started caller | receive err rest caller
  | cancel err caller | closeVnc err caller | closeSocket err caller =>
      exact ⟨⟨mode, by simp [Bridge.hasReturned, caller]⟩, opened⟩
  | failed err caller => simp [Bridge.hasReturned, Bridge.giveUp] at waits
  | _ => exact ⟨⟨mode, waits⟩, opened⟩

/-- A bridge that has returned was not live, and no other connection changes. -/
theorem connected_finished {i : Nat} {sess : Session} {b : Bridge} {control : Controller}
    (found : s.consoles[i]? = some ⟨sess, .bridging b⟩) (returned : b.hasReturned) (k : Nat) :
    ({ s with control }.setPhase i ⟨sess, .bridging b⟩ .done).Connected k ↔ s.Connected k := by
  rw [connected_setPhase (t := { s with control }) found rfl]
  split
  · rename_i here
    refine iff_of_false (by simp [Console.connected]) ?_
    rintro ⟨c, hc, live⟩
    obtain rfl := Option.some.inj (found.symm.trans (here ▸ hc))
    simp [Console.connected, returned] at live
  · rfl

end Server

end VmServer.HttpServer
