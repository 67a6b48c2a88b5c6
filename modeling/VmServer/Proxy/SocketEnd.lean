import VmServer.Proxy.Splice

/-!
# Which bridges close the browser's socket

A bridge that gets to its relays closes both connections before it returns.
One that returns from its setup closes the VNC connection by the deferred
call and leaves the socket of the browser open, and so does its handler.
-/

namespace VmServer.Proxy

open TransitionSystem Handshake

namespace Bridge

/-- A call that has returned has closed the VNC connection and the browser's socket. -/
def ClosesBoth (b : Bridge) : Prop :=
  b.hasReturned = true → b.vncOpen = false ∧ b.wsOpen = false

/-- The socket is open until the teardown closes it, the VNC connection is closed before that. -/
structure Closing (b : Bridge) : Prop where
  socket : b.settingUp = true → b.wsOpen = true
  vnc : (∃ err, b.caller = .vncClosed err) ∨ b.hasReturned = true → b.vncOpen = false

variable {b t : Bridge} {e : BridgeEvent}

theorem closing_initial (viewOnly : Bool) : Closing { viewOnly } :=
  ⟨fun _ => rfl, fun _ => rfl⟩

theorem closing_next (closing : b.Closing) (h : b.next e = some t) : t.Closing := by
  obtain ⟨socket, vnc⟩ := closing
  cases moves_of_next h with
  | dialled caller => exact ⟨fun _ => socket (by simp [settingUp, caller]), by simp [hasReturned]⟩
  | authenticated caller =>
      exact ⟨fun _ => socket (by simp [settingUp, caller]), by simp [hasReturned]⟩
  | started caller => exact ⟨by simp [settingUp, spawn], by simp [hasReturned, spawn]⟩
  | failed err caller => exact ⟨by simp [settingUp, giveUp], fun _ => rfl⟩
  | receive err rest caller sent => exact ⟨by simp [settingUp], by simp [hasReturned]⟩
  | cancel err caller => exact ⟨by simp [settingUp], by simp [hasReturned]⟩
  | closeVnc err caller => exact ⟨by simp [settingUp], fun _ => rfl⟩
  | closeSocket err caller =>
      exact ⟨by simp [settingUp], fun _ => vnc (Or.inl ⟨err, caller⟩)⟩
  | _ => exact ⟨socket, vnc⟩

/-- A step keeps both closed at the return exactly when it is no failed step of the setup. -/
theorem closesBoth_next (closing : b.Closing) (closed : b.ClosesBoth) (h : b.next e = some t) :
    t.ClosesBoth ↔ ∀ err, e ≠ .setup (some err) := by
  have after := closing_next closing h
  obtain ⟨socket, vnc⟩ := closing
  have fine (kept : t.ClosesBoth) (other : ∀ err, e ≠ .setup (some err)) :
      t.ClosesBoth ↔ ∀ err, e ≠ .setup (some err) := ⟨fun _ => other, fun _ => kept⟩
  cases moves_of_next h with
  | failed err caller =>
      have ahead : b.settingUp = true := by
        obtain caller | caller | caller := caller <;> simp [settingUp, caller]
      constructor
      · intro both
        have open_ : b.wsOpen = false := (both rfl).2
        rw [socket ahead] at open_
        cases open_
      · exact fun other => (other err rfl).elim
  | dialled caller => exact fine (by simp [ClosesBoth, hasReturned]) (by simp)
  | authenticated caller => exact fine (by simp [ClosesBoth, hasReturned]) (by simp)
  | started caller => exact fine (by simp [ClosesBoth, hasReturned, spawn]) (by simp)
  | receive err rest caller sent => exact fine (by simp [ClosesBoth, hasReturned]) (by simp)
  | cancel err caller => exact fine (by simp [ClosesBoth, hasReturned]) (by simp)
  | closeVnc err caller => exact fine (by simp [ClosesBoth, hasReturned]) (by simp)
  | closeSocket err caller => exact fine (fun back => ⟨after.vnc (Or.inr back), rfl⟩) (by simp)
  | _ => exact fine closed (by simp)

end Bridge

namespace Splice

variable {σ τ : Type} [Source σ] [Source τ] {password : List UInt8} {st u : Splice σ τ}
  {e : BridgeEvent}

/-- The steps of the setup succeed: the dialling by itself, the handshakes by what the peers
send. -/
def SetsUp (password : List UInt8) (st : Splice σ τ) (e : BridgeEvent) : Prop :=
  ∀ err, e = .setup err →
    (st.bridge.caller = .dialing → err = none) ∧
    (st.bridge.caller = .authenticating → (run (authToServer password) st.vnc).1 = .ok ()) ∧
    (st.bridge.caller = .handshaking → (run handshakeWithClient st.browser).1 = .ok ())

omit [Source τ] in
theorem bridge_of_serverData (h : st.serverData = some u) : u.bridge = st.bridge := by
  unfold serverData at h
  split at h
  · cases h
  · split at h
    · cases h
    · exact Option.some.inj h ▸ rfl

omit [Source σ] in
theorem bridge_of_clientMessage (h : st.clientMessage = some u) : u.bridge = st.bridge := by
  unfold clientMessage at h
  split at h
  · split at h
    · cases h
    · split at h
      · cases h
      · exact Option.some.inj h ▸ rfl
  · split at h
    · cases h
    · exact Option.some.inj h ▸ rfl

/-- The control flow of a splice is that of its bridge. -/
theorem bridge_of_next (h : Splice.next password st e = some u) :
    st.bridge.next e = some u.bridge := by
  obtain ⟨bridge, hb, h⟩ := Option.bind_eq_some_iff.mp h
  rw [hb]
  congr 1
  cases e with
  | setup err =>
      simp only [setup] at h
      split at h
      · obtain ⟨_, h⟩ := Option.ite_none_right_eq_some.mp h
        exact Option.some.inj h ▸ rfl
      · obtain ⟨_, h⟩ := Option.ite_none_right_eq_some.mp h
        exact Option.some.inj h ▸ rfl
      · exact Option.some.inj h ▸ rfl
  | serverData =>
      cases Bridge.moves_of_next hb
      exact (bridge_of_serverData h).symm
  | clientMessage =>
      cases Bridge.moves_of_next hb
      exact (bridge_of_clientMessage h).symm
  | _ => exact Option.some.inj h ▸ rfl

/-- A possible step succeeds exactly when it reports no error. -/
theorem setsUp_iff (h : Splice.next password st e = some u) :
    SetsUp password st e ↔ ∀ err, e ≠ .setup (some err) := by
  obtain ⟨bridge, hb, h⟩ := Option.bind_eq_some_iff.mp h
  have agree {α : Type} {x : Except HandshakeError Unit} {err : Option BridgeError} {c d : α}
      (h : (if x.isOk = err.isNone then some c else none) = some d) :
      x = .ok () ↔ err = none := by
    obtain ⟨same, _⟩ := Option.ite_none_right_eq_some.mp h
    rw [← Option.isNone_iff_eq_none, ← same]
    cases x <;> simp [Except.isOk, Except.toBool]
  cases e with
  | setup err =>
      have ahead : st.bridge.settingUp = true := by
        cases phase : st.bridge.settingUp with
        | true => rfl
        | false => exact absurd hb (Bridge.not_setup phase)
      have meets : SetsUp password st (.setup err) ↔ err = none := by
        simp only [SetsUp, BridgeEvent.setup.injEq, forall_eq']
        cases at_ : st.bridge.caller with
        | dialing => simp
        | authenticating =>
            simp only [setup, at_] at h
            simp [agree h]
        | handshaking =>
            simp only [setup, at_] at h
            simp [agree h]
        | _ => simp [Bridge.settingUp, at_] at ahead
      rw [meets]
      cases err <;> simp
  | _ => simp [SetsUp]

/-- A server that refuses ends the setup. -/
theorem next_refused (caller : st.bridge.caller = .authenticating) (err : BridgeError)
    (refused : (run (authToServer password) st.vnc).1.isOk = false) :
    ∃ u, Splice.next password st (.setup (some err)) = some u ∧
      u.bridge = st.bridge.giveUp err := by
  have step : st.bridge.next (.setup (some err)) = some (st.bridge.giveUp err) := by
    simp [Bridge.next, Bridge.setup, caller]
  refine ⟨{ st with bridge := st.bridge.giveUp err,
                    vnc := (run (authToServer password) st.vnc).2 }, ?_, rfl⟩
  simp [Splice.next, step, setup, caller, refused]

end Splice

/-- In every run of a bridge, whatever its peers do, both connections are closed whenever the call
has returned exactly when no step of the setup fails. -/
theorem closes_both_iff {σ τ : Type} [Source σ] [Source τ] (password : List UInt8) (s : σ) (t : τ)
    (x : Execution (spliceSystem password s t)) :
    x.Always (fun st => st.bridge.ClosesBoth) ↔ x.Meets (Splice.SetsUp password) := by
  refine x.run.always_iff (I := fun st => st.bridge.Closing) ?_ ?_ ?_
  · rintro _ ⟨viewOnly, rfl⟩
    exact ⟨Bridge.closing_initial viewOnly, fun back => by cases back⟩
  · exact fun closing _ _ h => Bridge.closing_next closing (Splice.bridge_of_next h)
  · intro st e u closing closed h
    rw [Splice.setsUp_iff h]
    exact Bridge.closesBoth_next closing closed (Splice.bridge_of_next h)

/-- A VNC server that takes the answer to its challenge for a wrong one. -/
def rejecting : Reader where
  bytes := rfbVersion ++ ([1] ++ ([secTypeVNCAuth] ++ (List.replicate 16 0 ++ [0, 0, 0, 1])))

/-- The server greets as it should, up to the security result. -/
theorem authToServer_rejecting (password : List UInt8) :
    (run (authToServer password) ⟨rejecting, {}⟩).1.isOk = false := by
  refine Bool.eq_false_iff.mpr fun ok => ?_
  obtain ⟨g, same, _⟩ :=
    authToServer_completes.mp (Splice.completes_of_ok (Splice.isOk_unit ok))
  have bytes : rejecting.bytes = _ := congrArg Reader.bytes same
  rw [g.bytes_append, rejecting] at bytes
  obtain ⟨_, bytes⟩ := List.append_inj bytes (by rw [g.version_length]; rfl)
  obtain ⟨count, bytes⟩ := List.append_inj bytes rfl
  have single : g.types.length = 1 := by
    have count := congrArg UInt8.toNat (List.singleton_inj.mp count)
    have small := g.types_length
    simp only [UInt8.toNat_ofNat'] at count
    change 1 = _ at count
    omega
  obtain ⟨types, bytes⟩ := List.append_inj bytes single.symm
  have challenge : g.challenge.length = 16 := by
    rw [g.challenge_length, ← types, if_pos (by simp)]
  obtain ⟨_, bytes⟩ := List.append_inj bytes (by rw [challenge]; rfl)
  simp at bytes

/-- The bridge returns and the browser's socket stays open. -/
theorem rejected_password_leaves_socket :
    ∃ x : Execution (spliceSystem [] rejecting ({ bytes := [] } : Reader)),
      ¬ x.Always fun st => st.bridge.ClosesBoth := by
  have dialled := (Run.start (M := spliceSystem [] rejecting ({ bytes := [] } : Reader))
    ⟨false, rfl⟩).step (e := .setup none) rfl
  obtain ⟨st, reached, caller, vnc, socket⟩ : ∃ st, Run _ _ st ∧
      st.bridge.caller = .authenticating ∧ st.vnc = ⟨rejecting, {}⟩ ∧ st.bridge.wsOpen = true :=
    ⟨_, dialled, rfl, rfl, rfl⟩
  obtain ⟨u, next, bridge⟩ := Splice.next_refused caller (.other "VNC authentication failed")
    (vnc ▸ authToServer_rejecting [])
  refine ⟨⟨_, _, reached.step next⟩, fun closed => ?_⟩
  have both : u.bridge.ClosesBoth := closed.2
  rw [bridge] at both
  cases socket.symm.trans (both rfl).2

end VmServer.Proxy
