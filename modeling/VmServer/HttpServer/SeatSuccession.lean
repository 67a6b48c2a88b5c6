import VmServer.HttpServer.SingleController

/-!
# Connections of one session that follow each other on the seat

A page reload makes a second control connection of the same session, and the
handler of the first one gives the seat back when its bridge has returned,
whenever that is. `release` knows the session only, so this vacates the seat
of the successor. The runs here are those without a release by the API or by
a logout; beside the server they carry the connections that got the seat,
the newest first.
-/

namespace VmServer.HttpServer

open Auth Proxy TransitionSystem Contributions

variable {opts : Options} {creds : Credentials}

/-- The connections that have acquired the seat, each with the name of its session. -/
abbrev Acquisitions := List (String × Nat)

/-- The connection has had the seat, unless it is over. -/
def Console.acquired (c : Console) : Bool :=
  match c.phase with
  | .admitted _ => false
  | .bridging b => !b.viewOnly
  | .done => true

namespace Server

/-- The step gives the seat up at the wish of its session. -/
def relinquishes (s : Server) : ServerEvent → Bool
  | .act k =>
      match s.pending[k]? with
      | some (.release _) => true
      | some (.logoutRelease _ _) => true
      | _ => false
  | _ => false

/-- The step gives the seat to a connection. -/
def note (s : Server) (e : ServerEvent) (past : Acquisitions) : Acquisitions :=
  match e with
  | .acquire i =>
      match s.consoles[i]? with
      | some ⟨sess, .admitted true⟩ =>
          if (s.control.acquire sess s.clock i).2.2 then (sess.id, i) :: past else past
      | _ => past
  | _ => past

end Server

/-- Acquisitions, takes and the ends of connections, with the connections that got the seat. -/
def successionSystem (opts : Options) (creds : Credentials) :
    System (Server × Acquisitions) ServerEvent :=
  ((consoleSystem opts creds).restrict fun s e => !s.relinquishes e).noting [] Server.note

/-- The second connection of the session got the seat after the first one. -/
def Supersedes (past : Acquisitions) (id : String) (k₁ k₂ : Nat) : Prop :=
  List.Sublist [(id, k₂), (id, k₁)] past

/-- A session has the seat as long as its current control connection is live. -/
def CurrentHolds (p : Server × Acquisitions) : Prop :=
  ∀ id k, p.2.lookup id = some k → p.1.Connected k → p.1.control.sessionID = id

/-- Another session takes the seat only from a live connection whose handle is stored, and no
deferred release vacates the seat of a live successor. -/
def SeatPassed (p : Server × Acquisitions) : ServerEvent → Prop
  | .act k =>
      match p.1.pending[k]? with
      | some (.take sess) => p.1.control.sessionID ≠ sess.id →
          ∀ j ∈ p.2.lookup p.1.control.sessionID, p.1.Connected j → p.1.control.cancel = some j
      | _ => True
  | .finish i =>
      match p.1.consoles[i]? with
      | some ⟨sess, .bridging b⟩ => b.viewOnly = false → p.1.control.sessionID = sess.id →
          ∀ j ∈ p.2.lookup sess.id, ¬ p.1.Connected j
      | _ => True
  | _ => True

/-- The three fields of the seat are unchanged. -/
def SameSeat (s t : Server) : Prop :=
  t.control.sessionID = s.control.sessionID ∧ t.control.username = s.control.username ∧
    t.control.cancel = s.control.cancel

/-- What is recorded are connections of that session, of which none is a viewer. -/
def RecordOk (p : Server × Acquisitions) : Prop :=
  ∀ id k, (id, k) ∈ p.2 → id ≠ "" ∧ ∃ c ∈ p.1.consoles[k]?, c.session.id = id ∧ c.acquired

section Steps

variable {s t : Server} {past later : Acquisitions} {e : ServerEvent}

theorem succession_next (h : (successionSystem opts creds).next (s, past) e = some (t, later)) :
    s.relinquishes e = false ∧ s.Moves opts creds e t ∧ later = s.note e past := by
  obtain ⟨step, noted⟩ := System.noting_next.mp h
  obtain ⟨allowed, next⟩ := System.restrict_next.mp step
  exact ⟨by simpa using allowed, Server.moves_of_next next, noted⟩

theorem note_seated {i : Nat} {sess : Session} {control : Controller} {dropped : Option Nat}
    (found : s.consoles[i]? = some ⟨sess, .admitted true⟩)
    (given : s.control.acquire sess s.clock i = (control, dropped, true)) :
    s.note (.acquire i) past = (sess.id, i) :: past := by
  simp [Server.note, found, given]

theorem note_watching {i : Nat} {sess : Session} {wantControl : Bool}
    (found : s.consoles[i]? = some ⟨sess, .admitted wantControl⟩)
    (refused : wantControl = true → s.control.sessionID ≠ "" ∧ s.control.sessionID ≠ sess.id) :
    s.note (.acquire i) past = past := by
  cases wantControl with
  | true => simp [Server.note, found, Controller.acquire, refused rfl]
  | false => simp [Server.note, found]

theorem cancelled_acquired (c : Console) : c.cancelled.acquired = c.acquired := by
  obtain ⟨sess, phase⟩ := c
  cases phase <;> rfl

/-- A connection keeps its session, and one that has had the seat is never a viewer. -/
theorem console_next {k : Nat} {c : Console} (h : s.Moves opts creds e t)
    (hc : s.consoles[k]? = some c) :
    ∃ d ∈ t.consoles[k]?, d.session = c.session ∧ (c.acquired → d.acquired) := by
  have unchanged : ∃ d ∈ s.consoles[k]?, d.session = c.session ∧ (c.acquired → d.acquired) :=
    ⟨c, hc, rfl, id⟩
  have phases : ∀ {i : Nat} {x : Console} {phase : ConsolePhase} {u : Server},
      s.consoles[i]? = some x → u.consoles = s.consoles →
      (x.acquired → ({ x with phase } : Console).acquired) →
      ∃ d ∈ (u.setPhase i x phase).consoles[k]?, d.session = c.session ∧
        (c.acquired → d.acquired) := by
    intro i x phase u found same keeps
    rw [Server.setPhase, same, getElem?_set found]
    split
    · rename_i here
      obtain rfl := Option.some.inj (found.symm.trans (here ▸ hc))
      exact ⟨_, rfl, rfl, keeps⟩
    · exact unchanged
  have cancels : ∀ {u : Server} (which : Option Nat),
      (∃ d ∈ u.consoles[k]?, d.session = c.session ∧ (c.acquired → d.acquired)) →
      ∃ d ∈ (u.cancelConsole which).consoles[k]?, d.session = c.session ∧
        (c.acquired → d.acquired) := by
    rintro u which ⟨d, hd, session, keeps⟩
    rw [Server.cancelConsole_consoles]
    split
    · refine ⟨d.cancelled, congrArg (Option.map Console.cancelled) hd,
        (Server.cancelled_session d).trans session, ?_⟩
      rwa [cancelled_acquired]
    · exact ⟨d, hd, session, keeps⟩
  cases h with
  | admitted route cookie auth sess asked =>
      cases route with
      | vnc wantControl =>
          have inside := (List.getElem?_eq_some_iff.mp hc).1
          exact ⟨c, (List.getElem?_append_left inside).trans hc, rfl, id⟩
      | take | release | other => exact unchanged
  | take j sess found => exact cancels _ unchanged
  | seated i sess control dropped found given =>
      exact cancels dropped (phases found rfl (by simp [Console.acquired]))
  | watching i sess wantControl found refused =>
      exact phases found rfl (by simp [Console.acquired])
  | bridged i e sess b b' auth found moved uncancelled asked =>
      refine phases found rfl ?_
      simp [Console.acquired, (Bridge.next_live moved).1]
  | finished i sess b found returned => exact phases found rfl fun _ => rfl
  | _ => exact unchanged

/-- The record stays one of control connections. -/
theorem recordOk_next (inv : s.Inv) (ok : RecordOk (s, past))
    (h : (successionSystem opts creds).next (s, past) e = some (t, later)) :
    RecordOk (t, later) := by
  intro id k mem
  obtain ⟨_, moves, noted⟩ := succession_next h
  have old : (id, k) ∈ past →
      id ≠ "" ∧ ∃ c ∈ t.consoles[k]?, c.session.id = id ∧ c.acquired := by
    intro before
    obtain ⟨named, c, hc, session, had⟩ := ok id k before
    obtain ⟨d, hd, same, keeps⟩ := console_next moves hc
    exact ⟨named, d, hd, by rw [same, session], keeps had⟩
  dsimp only at mem
  rw [noted] at mem
  cases moves with
  | seated i sess control dropped found given =>
      rw [note_seated found given] at mem
      rcases List.mem_cons.mp mem with new | before
      · obtain ⟨rfl, rfl⟩ := Prod.mk.inj new
        refine ⟨inv.named found, ?_⟩
        rw [Server.cancelConsole_consoles, Server.setPhase, getElem?_set found, if_pos rfl]
        split
        · exact ⟨_, rfl, rfl, rfl⟩
        · exact ⟨_, rfl, rfl, rfl⟩
      · exact old before
  | watching i sess wantControl found refused =>
      rw [note_watching found refused] at mem
      exact old mem
  | _ => exact old mem

theorem CurrentHolds.same (held : CurrentHolds (s, past))
    (seat : t.control.sessionID = s.control.sessionID)
    (connected : ∀ k, t.Connected k → s.Connected k) : CurrentHolds (t, past) :=
  fun id k current live => seat.trans (held id k current (connected k live))

/-- A take is right when it disconnects the live connection of the seat. -/
theorem currentHolds_take {sess : Session} {pending : List Pending}
    (held : CurrentHolds (s, past)) :
    CurrentHolds ({ s with control := (s.control.take sess s.clock).1, pending }.cancelConsole
        (s.control.take sess s.clock).2, past) ↔
      (s.control.sessionID ≠ sess.id → ∀ j ∈ past.lookup s.control.sessionID,
        s.Connected j → s.control.cancel = some j) := by
  by_cases own : s.control.sessionID = sess.id
  · refine iff_of_true (held.same ?_ fun k live => ?_) fun other => absurd own other
    · rw [Server.cancelConsole_control]
      exact own.symm
    · exact (Server.connected_cancelConsole.mp live).1
  · have holder : (s.control.take sess s.clock).2 = s.control.cancel := if_pos own
    rw [holder]
    constructor
    · intro holds _ j current live
      by_contra spared
      have seat := holds _ j current (Server.connected_cancelConsole.mpr ⟨live, spared⟩)
      rw [Server.cancelConsole_control] at seat
      exact own seat.symm
    · intro stored id k current live
      obtain ⟨before, spared⟩ := Server.connected_cancelConsole.mp live
      obtain rfl : s.control.sessionID = id := held id k current before
      exact absurd (stored own k current before) spared

theorem currentHolds_seated {i : Nat} {sess : Session} {control : Controller}
    {dropped : Option Nat} (ok : RecordOk (s, past)) (held : CurrentHolds (s, past))
    (found : s.consoles[i]? = some ⟨sess, .admitted true⟩)
    (given : s.control.acquire sess s.clock i = (control, dropped, true)) :
    CurrentHolds (({ s with control }.setPhase i ⟨sess, .admitted true⟩
      (.bridging { viewOnly := false })).cancelConsole dropped, (sess.id, i) :: past) := by
  obtain ⟨seat, _, before⟩ := Controller.acquire_given given
  intro id k current live
  dsimp only at current live ⊢
  rw [Server.cancelConsole_control]
  refine seat.trans ?_
  by_contra other
  -- The connection is an older one, of a session that does not have the seat.
  have older : past.lookup id = some k := by
    rwa [List.lookup_cons, beq_eq_false_iff_ne.mpr (Ne.symm other)] at current
  have recorded : (id, k) ∈ past := by
    obtain ⟨front, back, rfl, _⟩ := List.lookup_eq_some_iff.mp older
    simp
  obtain ⟨named, c, hc, session, had⟩ := ok id k recorded
  have live := (Server.connected_cancelConsole.mp live).1
  rw [Server.connected_setPhase (t := { s with control }) found rfl] at live
  split at live
  · rename_i here
    obtain rfl := Option.some.inj (found.symm.trans (here ▸ hc))
    simp [Console.acquired] at had
  · have holds : s.control.sessionID = id := held id k older live
    rcases before with free | own
    · exact named (holds.symm.trans free)
    · exact other (own.symm.trans holds)

theorem currentHolds_finished {i : Nat} {sess : Session} {b : Bridge} (inv : s.Inv)
    (held : CurrentHolds (s, past)) (found : s.consoles[i]? = some ⟨sess, .bridging b⟩)
    (returned : b.hasReturned) :
    CurrentHolds ({ s with control := s.control.release sess.id }.setPhase i
        ⟨sess, .bridging b⟩ .done, past) ↔
      (s.control.sessionID = sess.id → ∀ j ∈ past.lookup sess.id, ¬ s.Connected j) := by
  have connected : ∀ j, ({ s with control := s.control.release sess.id }.setPhase i
      ⟨sess, .bridging b⟩ .done).Connected j ↔ s.Connected j :=
    Server.connected_finished found returned
  have named : sess.id ≠ "" := inv.named found
  have seat := Controller.release_sessionID (c := s.control) sess.id
  by_cases holder : s.control.sessionID = sess.id
  · rw [if_pos holder] at seat
    constructor
    · intro holds _ j current live
      exact named ((holds sess.id j current ((connected j).mpr live)).symm.trans seat)
    · intro idle id k current live
      have before := (connected k).mp live
      obtain rfl : s.control.sessionID = id := held id k current before
      exact absurd before (idle holder k (holder ▸ current))
  · rw [if_neg holder] at seat
    exact iff_of_true (held.same seat fun k => (connected k).mp) fun own => absurd own holder

/-- A step keeps the seat with the current connections exactly when it is passed on rightly. -/
theorem currentHolds_next (inv : s.Inv) (ok : RecordOk (s, past)) (held : CurrentHolds (s, past))
    (h : (successionSystem opts creds).next (s, past) e = some (t, later)) :
    CurrentHolds (t, later) ↔ SeatPassed (s, past) e := by
  obtain ⟨allowed, moves, rfl⟩ := succession_next h
  cases moves with
  | take k sess found =>
      simp only [SeatPassed, found]
      exact currentHolds_take held
  | release k sess found => simp [Server.relinquishes, found] at allowed
  | logoutRelease k sess cookie found => simp [Server.relinquishes, found] at allowed
  | logoutDelete k cookie found =>
      simp only [SeatPassed, found]
      exact iff_of_true (held.same rfl fun k => id) trivial
  | seated i sess control dropped found given =>
      rw [note_seated found given]
      exact iff_of_true (currentHolds_seated ok held found given) trivial
  | watching i sess wantControl found refused =>
      rw [note_watching found refused]
      refine iff_of_true (held.same rfl fun k live => live.of_setPhase found rfl ?_) trivial
      simp [Console.connected]
  | bridged i e sess b b' auth found moved uncancelled asked =>
      refine iff_of_true (held.same rfl fun k live => live.of_setPhase found rfl ?_) trivial
      exact Server.connected_of_next moved uncancelled
  | finished i sess b found returned =>
      simp only [SeatPassed, found]
      cases mode : b.viewOnly with
      | true =>
          rw [if_pos rfl]
          refine iff_of_true (held.same rfl fun k => ?_) (by simp)
          exact (Server.connected_finished found returned k).mp
      | false =>
          rw [if_neg (by simp), forall_prop_of_true rfl]
          exact currentHolds_finished inv held found returned
  | admitted route cookie auth sess asked =>
      refine iff_of_true (held.same ?_ fun k => ?_) trivial
      · rw [Server.admitted_control]
      · exact (Server.connected_admitted (s := { s with auth })).mp
  | _ => exact iff_of_true (held.same rfl fun k => id) trivial

/-- The end of a control connection leaves the seat alone exactly when its session has lost it. -/
theorem sameSeat_finish_iff {k : Nat} {sess : Session} {b : Bridge} (ok : RecordOk (s, past))
    (found : s.consoles[k]? = some ⟨sess, .bridging b⟩) (had : (sess.id, k) ∈ past)
    (h : s.next opts creds (.finish k) = some t) :
    SameSeat s t ↔ s.control.sessionID ≠ sess.id := by
  obtain ⟨named, c, hc, _, acquired⟩ := ok sess.id k had
  obtain rfl := Option.some.inj (found.symm.trans hc)
  have control : t.control = s.control.release sess.id := by
    cases Server.moves_of_next h with
    | finished i sess' b' found' returned =>
        obtain ⟨rfl, hb⟩ := Console.mk.inj (Option.some.inj (found'.symm.trans found))
        obtain rfl := ConsolePhase.bridging.inj hb
        have mode : b'.viewOnly = false := by simpa [Console.acquired] using acquired
        simp [Server.setPhase, mode]
  by_cases holder : s.control.sessionID = sess.id
  · refine iff_of_false (fun same => named ?_) fun other => other holder
    have seat := Controller.release_sessionID (c := s.control) sess.id
    rw [if_pos holder, ← control, same.1] at seat
    exact holder.symm.trans seat
  · refine iff_of_true ?_ holder
    rw [SameSeat, control, Controller.release, if_neg holder]
    exact ⟨rfl, rfl, rfl⟩

end Steps

/-- The end of a superseded connection leaves the seat as it is exactly when its session does not
have it any more; and in every state of a run each session with a live current connection
has the seat exactly when every step passes the seat on rightly. -/
theorem succession_keeps_seat_iff (opts : Options) (creds : Credentials)
    (x : Execution (successionSystem opts creds)) :
    (∀ k₁ k₂ sess b t, Supersedes x.final.2 sess.id k₁ k₂ →
      x.final.1.consoles[k₁]? = some ⟨sess, .bridging b⟩ →
      x.final.1.next opts creds (.finish k₁) = some t →
      (SameSeat x.final.1 t ↔ x.final.1.control.sessionID ≠ sess.id)) ∧
    (x.Always CurrentHolds ↔ x.Meets SeatPassed) := by
  have initial : ∀ p ∈ (successionSystem opts creds).initial,
      (p.1.Inv ∧ RecordOk p) ∧ CurrentHolds p := by
    rintro ⟨s, past⟩ ⟨hs, rfl⟩
    have fresh : s ∈ (consoleSystem opts creds).initial := hs
    exact ⟨⟨Server.inv_initial fresh, fun id k h => absurd h (by simp)⟩,
      fun id k h => absurd h (by simp)⟩
  have keep : ∀ {p e q}, p.1.Inv ∧ RecordOk p → (successionSystem opts creds).next p e = some q →
      q.1.Inv ∧ RecordOk q := by
    rintro p e q ⟨inv, ok⟩ h
    have step := (System.restrict_next.mp (System.noting_next.mp h).1).2
    exact ⟨Server.inv_next inv step, recordOk_next inv ok h⟩
  constructor
  · intro k₁ k₂ sess b t supersedes found h
    have reached := x.run.invariant (I := fun p => p.1.Inv ∧ RecordOk p)
      (fun p h => (initial p h).1) keep
    have had : (sess.id, k₁) ∈ x.final.2 := supersedes.subset (by simp)
    exact sameSeat_finish_iff reached.2.2 found had h
  · exact x.run.always_iff (I := fun p => p.1.Inv ∧ RecordOk p) initial
      (fun inv _ _ h => keep inv h) fun inv held h => currentHolds_next inv.1 inv.2 held h

/-- The page is reloaded before its first connection has said anything: the second connection takes
the seat over, and then the bridge of the first returns. -/
def reload : List ServerEvent :=
  [.login 0 "203.0.113.7" "admin" "secret" (.ok sampleID),
    .request (.vnc true) (some "token"), .acquire 0,
    .request (.vnc true) (some "token"), .acquire 1,
    .bridge 0 (.setup none), .bridge 0 (.setup none),
    .bridge 0 (.setup (some (.other "read client version: websocket: close 1001 (going away)")))]

theorem reload_vacates_seat :
    ∃ x : Execution (successionSystem defaultOptions oneUser), ∃ t,
      Supersedes x.final.2 "token" 0 1 ∧
      x.final.1.next defaultOptions oneUser (.finish 0) = some t ∧
      ¬ SameSeat x.final.1 t ∧ ¬ CurrentHolds (t, x.final.2) := by
  obtain ⟨x, hx, _⟩ := Execution.of_exec (M := successionSystem defaultOptions oneUser)
    (s := (⟨0, .new, {}, [], []⟩, [])) ⟨⟨0, rfl⟩, rfl⟩ (show exec _ _ reload = some _ from rfl)
  refine ⟨x, ?_⟩
  rw [hx]
  refine ⟨_, List.Sublist.refl _, rfl, ?_, ?_⟩
  · exact fun same => absurd same.1 (by decide)
  · intro holds
    exact absurd (holds "token" 1 rfl ⟨_, rfl, rfl⟩) (by decide)

end VmServer.HttpServer
