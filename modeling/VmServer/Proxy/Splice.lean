import VmServer.Proxy.HandshakeLanguage
import VmServer.Proxy.Teardown
import VmServer.Proxy.FilterSafety

/-!
# What a bridge sends to its two peers

The bytes of a bridge under the control flow of `Bridge`: the caller runs the
two handshakes one after the other, then each relay takes up its connection
where the handshake has left it. So the relays begin with the browser's
ClientInit and with the first byte behind the server's security result.

## Implementation notes

The client relay reads with `io.ReadFull` only and is given the stream of the
browser's connection. A step of the setup with an error is one whose handshake
fails; dialling and what ends a relay are left open as in `Bridge`.
-/

namespace VmServer.Proxy

open TransitionSystem Handshake

/-- A bridge with its two connections. The relay of the client's messages has a source of its
own as soon as the ClientInit byte is written. -/
structure Splice (σ τ : Type) where
  bridge : Bridge
  vnc : Conn σ
  browser : Conn τ
  relay : Option Reader := none

namespace Splice

variable {σ τ : Type} [Source σ] [Source τ]

/-- A step of the setup; the outcome of a handshake is decided by what is read. -/
def setup (password : List UInt8) (st : Splice σ τ) (err : Option BridgeError) (bridge : Bridge) :
    Option (Splice σ τ) :=
  match st.bridge.caller with
  | .authenticating =>
      let (result, vnc) := run (authToServer password) st.vnc
      if result.isOk = err.isNone then some { st with bridge, vnc } else none
  | .handshaking =>
      let (result, browser) := run handshakeWithClient st.browser
      if result.isOk = err.isNone then some { st with bridge, browser } else none
  | _ => some { st with bridge }

/-- The server relay reads once and writes what it got. -/
def serverData (st : Splice σ τ) : Option (Splice σ τ) :=
  match Source.read st.vnc.src (64 * 1024) with
  | .error _ => none
  | .ok (buf, src) =>
      match st.browser.dst.write buf with
      | (_, some _) => none
      | (dst, none) =>
          some { st with vnc := { st.vnc with src }, browser := { st.browser with dst } }

/-- The client relay forwards the ClientInit byte, and later handles one message. -/
def clientMessage (st : Splice σ τ) : Option (Splice σ τ) :=
  match st.relay with
  | none =>
      match (Source.stream st.browser.src).readFull 1 with
      | .error _ => none
      | .ok (init, rest) =>
          match st.vnc.dst.write init with
          | (_, some _) => none
          | (dst, none) => some { st with vnc := { st.vnc with dst }, relay := some rest }
  | some src =>
      match copyOne st.bridge.viewOnly src st.vnc.dst with
      | (_, .inl _) => none
      | (dst, .inr rest) => some { st with vnc := { st.vnc with dst }, relay := some rest }

/-- One step of the bridge with the bytes it moves. -/
def next (password : List UInt8) (st : Splice σ τ) (e : BridgeEvent) : Option (Splice σ τ) := do
  let bridge ← st.bridge.next e
  match e with
  | .setup err => st.setup password err bridge
  | .serverData => st.serverData
  | .clientMessage => st.clientMessage
  | _ => some { st with bridge }

end Splice

/-- A bridge between a VNC server and a browser of which the streams are known. -/
def spliceSystem {σ τ : Type} [Source σ] [Source τ] (password : List UInt8) (s : σ) (t : τ) :
    System (Splice σ τ) BridgeEvent where
  initial := {st | ∃ viewOnly, st = { bridge := { viewOnly }, vnc := ⟨s, {}⟩, browser := ⟨t, {}⟩ }}
  next := Splice.next password

/-- Nothing goes to the browser before the server has accepted the proxy, and only what comes
behind the two handshakes is relayed. -/
structure Spliced {σ τ : Type} [Source σ] [Source τ] (password : List UInt8) (s : σ) (t : τ)
    (st : Splice σ τ) : Prop where
  authenticated : st.browser.dst.calls ≠ [] → ∃ sent left,
    Completes (authToServer password) s sent left ∧ sent <+: st.vnc.dst.calls
  unrelayed : st.bridge.serverRelay = .notStarted →
    (st.vnc = ⟨s, {}⟩ ∨ st.vnc = (run (authToServer password) ⟨s, {}⟩).2) ∧
      (st.browser = ⟨t, {}⟩ ∨ st.browser = (run handshakeWithClient ⟨t, {}⟩).2)
  relayed : st.bridge.serverRelay ≠ .notStarted → ∃ sent fromServer greeted fromBrowser,
    Completes (authToServer password) s sent fromServer ∧
    Completes handshakeWithClient t greeted fromBrowser ∧
    (∃ toServer, st.vnc.dst.calls = sent ++ toServer ∧
      toServer <+: passedOn st.bridge.viewOnly fromBrowser.bytes) ∧
    ∃ toBrowser, st.browser.dst.calls = greeted ++ toBrowser ∧
      toBrowser.flatten <+: fromServer.bytes

namespace Bridge

variable {b t : Bridge} {e : BridgeEvent}

/-- The goroutines have been started. -/
structure Started (b : Bridge) : Prop where
  serverRelay : b.serverRelay ≠ .notStarted
  caller : b.settingUp = false

theorem Started.next (started : b.Started) (h : b.next e = some t) : t.Started := by
  obtain ⟨server, caller⟩ := started
  cases moves_of_next h with
  | dialled | authenticated | started | failed => exact absurd h (not_setup caller)
  | serverEnds => exact ⟨Goroutine.noConfusion, caller⟩
  | receive | cancel | closeVnc | closeSocket => exact ⟨server, rfl⟩
  | _ => exact ⟨server, caller⟩

end Bridge

namespace Splice

variable {σ τ : Type} [Source σ] [Source τ] {password : List UInt8} {s : σ} {t : τ}
  {st u : Splice σ τ} {e : BridgeEvent}

/-- The handshakes have succeeded, and what has been relayed and what is still to be relayed is
what they have left. -/
structure Relaying (password : List UInt8) (s : σ) (t : τ) (st : Splice σ τ) : Prop where
  auth : (run (authToServer password) ⟨s, {}⟩).1 = .ok ()
  client : (run handshakeWithClient ⟨t, {}⟩).1 = .ok ()
  started : st.bridge.Started
  source : st.browser.src = (run handshakeWithClient ⟨t, {}⟩).2.src
  toServer : ∃ sent,
    st.vnc.dst = { calls := (run (authToServer password) ⟨s, {}⟩).2.dst.calls ++ sent } ∧
    passedOn st.bridge.viewOnly (Source.stream st.browser.src).bytes = sent ++
      match st.relay with
      | none => passedOn st.bridge.viewOnly (Source.stream st.browser.src).bytes
      | some src => (clientMessages.messages src.bytes).filter (kept st.bridge.viewOnly)
  toBrowser : ∃ sent,
    st.browser.dst = { calls := (run handshakeWithClient ⟨t, {}⟩).2.dst.calls ++ sent } ∧
    (Source.stream (run (authToServer password) ⟨s, {}⟩).2.src).bytes =
      sent.flatten ++ (Source.stream st.vnc.src).bytes

/-- Where the setup is, and what the connections have seen by then. -/
inductive Phase (password : List UInt8) (s : σ) (t : τ) (st : Splice σ τ) : Prop
  | untouched (before : st.bridge.Before) (caller : st.bridge.caller ≠ .handshaking)
      (vnc : st.vnc = ⟨s, {}⟩) (browser : st.browser = ⟨t, {}⟩) (relay : st.relay = none)
  | refused (before : st.bridge.Before) (ended : st.bridge.settingUp = false)
      (vnc : st.vnc = (run (authToServer password) ⟨s, {}⟩).2) (browser : st.browser = ⟨t, {}⟩)
  | accepted (before : st.bridge.Before) (caller : st.bridge.caller = .handshaking)
      (auth : (run (authToServer password) ⟨s, {}⟩).1 = .ok ())
      (vnc : st.vnc = (run (authToServer password) ⟨s, {}⟩).2) (browser : st.browser = ⟨t, {}⟩)
      (relay : st.relay = none)
  | declined (before : st.bridge.Before) (ended : st.bridge.settingUp = false)
      (auth : (run (authToServer password) ⟨s, {}⟩).1 = .ok ())
      (vnc : st.vnc = (run (authToServer password) ⟨s, {}⟩).2)
      (browser : st.browser = (run handshakeWithClient ⟨t, {}⟩).2)
  | relaying (relaying : st.Relaying password s t)

theorem isOk_unit {ε : Type} {x : Except ε Unit} (h : x.isOk = true) : x = .ok () := by
  cases x with
  | error e => cases h
  | ok u => rfl

theorem relaying_serverData (relaying : st.Relaying password s t) (h : st.serverData = some u) :
    u.Relaying password s t := by
  obtain ⟨auth, client, started, source, toServer, sent, dst, bytes⟩ := relaying
  unfold serverData at h
  cases hr : Source.read st.vnc.src (64 * 1024) with
  | error e => simp [hr] at h
  | ok x =>
      obtain ⟨buf, src⟩ := x
      obtain ⟨_, _, stream⟩ := Source.read_ok (by decide) hr
      have good : st.browser.dst.fault = none := by rw [dst]
      simp only [hr, write_good good] at h
      obtain rfl := Option.some.inj h
      refine ⟨auth, client, started, source, toServer, sent ++ [buf], ?_, ?_⟩
      · rw [dst, List.append_assoc]
      · rw [bytes, stream]
        simp

/-- The ClientInit byte is the first thing relayed, then one message at a time. -/
theorem relaying_clientMessage (relaying : st.Relaying password s t)
    (h : st.clientMessage = some u) : u.Relaying password s t := by
  obtain ⟨auth, client, started, source, ⟨sent, dst, bytes⟩, toBrowser⟩ := relaying
  have good : st.vnc.dst.fault = none := by rw [dst]
  unfold clientMessage at h
  cases hrelay : st.relay with
  | none =>
      simp only [hrelay] at h bytes
      have first : sent = [] := List.self_eq_append_left.mp bytes
      cases hr : (Source.stream st.browser.src).readFull 1 with
      | error e => simp [hr] at h
      | ok x =>
          obtain ⟨init, rest⟩ := x
          obtain ⟨enough, rfl, rfl⟩ := readFull_ok.mp hr
          simp only [hr, write_good good] at h
          obtain rfl := Option.some.inj h
          refine ⟨auth, client, started, source,
            ⟨[(Source.stream st.browser.src).bytes.take 1], ?_, ?_⟩, toBrowser⟩
          · rw [dst, first, List.append_nil]
          · dsimp only
            cases hb : (Source.stream st.browser.src).bytes with
            | nil => simp [hb] at enough
            | cons init rest => rfl
  | some src =>
      simp only [hrelay] at h bytes
      rcases readMessage_cases src with ⟨_, out, hread⟩ | ⟨n, size, hread⟩
      · rw [copyOne_error hread] at h
        cases h
      · rw [Framing.messages_of_some size] at bytes
        by_cases keep : kept st.bridge.viewOnly (src.bytes.take n)
        · rw [copyOne_written hread keep (write_good good _)] at h
          obtain rfl := Option.some.inj h
          refine ⟨auth, client, started, source, ⟨sent ++ [src.bytes.take n], ?_, ?_⟩, toBrowser⟩
          · rw [dst, List.append_assoc]
          · rw [bytes, List.filter_cons_of_pos keep]
            simp
        · rw [copyOne_dropped hread keep] at h
          obtain rfl := Option.some.inj h
          refine ⟨auth, client, started, source, ⟨sent, dst, ?_⟩, toBrowser⟩
          rw [bytes, List.filter_cons_of_neg keep]

/-- The first handshake decides whether the second one is held. -/
theorem untouched_setup {err : Option BridgeError} {bridge : Bridge} (before : st.bridge.Before)
    (caller : st.bridge.caller ≠ .handshaking) (vnc : st.vnc = ⟨s, {}⟩)
    (browser : st.browser = ⟨t, {}⟩) (relay : st.relay = none)
    (hb : st.bridge.next (.setup err) = some bridge)
    (h : st.setup password err bridge = some u) : u.Phase password s t := by
  have gone := before.giveUp
  obtain ⟨server, client, watcher, errc, ctx, _⟩ := before
  cases Bridge.moves_of_next hb with
  | dialled dial =>
      simp only [setup, dial] at h
      obtain rfl := Option.some.inj h
      exact .untouched ⟨server, client, watcher, errc, ctx, Or.inl rfl⟩ nofun vnc browser relay
  | authenticated auth =>
      simp only [setup, auth, vnc] at h
      obtain ⟨ok, h⟩ := Option.ite_none_right_eq_some.mp h
      obtain rfl := Option.some.inj h
      exact .accepted ⟨server, client, watcher, errc, ctx, Or.inl rfl⟩ rfl (isOk_unit ok) rfl
        browser relay
  | started start => exact absurd start caller
  | failed e place =>
      rcases place with dial | auth | start
      · simp only [setup, dial] at h
        obtain rfl := Option.some.inj h
        exact .untouched (gone e) nofun vnc browser relay
      · simp only [setup, auth, vnc] at h
        obtain ⟨_, h⟩ := Option.ite_none_right_eq_some.mp h
        obtain rfl := Option.some.inj h
        exact .refused (gone e) rfl rfl browser
      · exact absurd start caller

theorem accepted_setup {err : Option BridgeError} {bridge : Bridge} (before : st.bridge.Before)
    (caller : st.bridge.caller = .handshaking)
    (auth : (run (authToServer password) ⟨s, {}⟩).1 = .ok ())
    (vnc : st.vnc = (run (authToServer password) ⟨s, {}⟩).2) (browser : st.browser = ⟨t, {}⟩)
    (relay : st.relay = none) (hb : st.bridge.next (.setup err) = some bridge)
    (h : st.setup password err bridge = some u) : u.Phase password s t := by
  have good := (Blind.authToServer password).writer_good (greets_authToServer password) auth
  simp only [setup, caller, browser] at h
  obtain ⟨outcome, h⟩ := Option.ite_none_right_eq_some.mp h
  obtain rfl := Option.some.inj h
  cases Bridge.moves_of_next hb with
  | dialled other | authenticated other => cases other.symm.trans caller
  | started =>
      have client := isOk_unit outcome
      have clientGood := Blind.handshakeWithClient.writer_good greets_handshakeWithClient client
      refine .relaying ⟨auth, client, ⟨nofun, rfl⟩, rfl, ⟨[], ?_, ?_⟩, ⟨[], ?_, ?_⟩⟩
      · rw [List.append_nil, vnc]
        exact good
      · rw [relay]
        rfl
      · rw [List.append_nil]
        exact clientGood
      · rw [vnc]
        rfl
  | failed e => exact .declined (before.giveUp e) rfl auth vnc rfl

/-- Every step of a bridge keeps to its phase or goes on to the next one. -/
theorem phase_next (phase : st.Phase password s t) (h : Splice.next password st e = some u) :
    u.Phase password s t := by
  obtain ⟨bridge, hb, h⟩ := Option.bind_eq_some_iff.mp h
  cases phase with
  | untouched before caller vnc browser relay =>
      rcases before.next_cases hb with ⟨err, rfl⟩ | ⟨rfl, rfl⟩
      · exact untouched_setup before caller vnc browser relay hb h
      · obtain rfl := Option.some.inj h
        exact .untouched before.cancelCaller caller vnc browser relay
  | refused before ended vnc browser =>
      rcases before.next_cases hb with ⟨err, rfl⟩ | ⟨rfl, rfl⟩
      · exact absurd hb (Bridge.not_setup ended)
      · obtain rfl := Option.some.inj h
        exact .refused before.cancelCaller ended vnc browser
  | accepted before caller auth vnc browser relay =>
      rcases before.next_cases hb with ⟨err, rfl⟩ | ⟨rfl, rfl⟩
      · exact accepted_setup before caller auth vnc browser relay hb h
      · obtain rfl := Option.some.inj h
        exact .accepted before.cancelCaller caller auth vnc browser relay
  | declined before ended auth vnc browser =>
      rcases before.next_cases hb with ⟨err, rfl⟩ | ⟨rfl, rfl⟩
      · exact absurd hb (Bridge.not_setup ended)
      · obtain rfl := Option.some.inj h
        exact .declined before.cancelCaller ended auth vnc browser
  | relaying relaying =>
      have started := relaying.started.next hb
      have view := (Bridge.next_live hb).1
      cases e with
      | setup err => exact absurd hb (Bridge.not_setup relaying.started.caller)
      | serverData => exact .relaying (relaying_serverData relaying h)
      | clientMessage => exact .relaying (relaying_clientMessage relaying h)
      | _ =>
          obtain rfl := Option.some.inj h
          obtain ⟨auth, client, _, source, toServer, toBrowser⟩ := relaying
          refine .relaying ⟨auth, client, started, source, ?_, toBrowser⟩
          simpa only [view] using toServer

theorem phase_initial (viewOnly : Bool) : Phase password s t
    ({ bridge := { viewOnly }, vnc := ⟨s, {}⟩, browser := ⟨t, {}⟩ } : Splice σ τ) :=
  .untouched (Bridge.before_initial ⟨viewOnly, rfl⟩) nofun rfl rfl rfl

/-- A handshake that has succeeded has written something and left something. -/
theorem completes_of_ok {ρ : Type} [Source ρ] {x : Handshake ρ Unit} {r : ρ}
    (ok : (run x ⟨r, {}⟩).1 = .ok ()) :
    Completes x r (run x ⟨r, {}⟩).2.dst.calls (Source.stream (run x ⟨r, {}⟩).2.src) :=
  ⟨ok, rfl, rfl⟩

/-- What has been sent so far follows from the phase. -/
theorem spliced_of_phase (phase : st.Phase password s t) : Spliced password s t st := by
  cases phase with
  | untouched before caller vnc browser relay =>
      refine ⟨fun sent => ?_, fun _ => ⟨Or.inl vnc, Or.inl browser⟩, fun started => ?_⟩
      · exact absurd (congrArg (·.dst.calls) browser) sent
      · exact absurd before.serverRelay started
  | refused before ended vnc browser =>
      refine ⟨fun sent => ?_, fun _ => ⟨Or.inr vnc, Or.inl browser⟩, fun started => ?_⟩
      · exact absurd (congrArg (·.dst.calls) browser) sent
      · exact absurd before.serverRelay started
  | accepted before caller auth vnc browser relay =>
      refine ⟨fun sent => ?_, fun _ => ⟨Or.inr vnc, Or.inl browser⟩, fun started => ?_⟩
      · exact absurd (congrArg (·.dst.calls) browser) sent
      · exact absurd before.serverRelay started
  | declined before ended auth vnc browser =>
      refine ⟨fun _ => ?_, fun _ => ⟨Or.inr vnc, Or.inr browser⟩, fun started => ?_⟩
      · exact ⟨_, _, completes_of_ok auth, vnc ▸ List.prefix_rfl⟩
      · exact absurd before.serverRelay started
  | relaying relaying =>
      obtain ⟨auth, client, started, source, ⟨toServer, dst, bytes⟩, toBrowser, dst', bytes'⟩ :=
        relaying
      have calls := congrArg Writer.calls dst
      have calls' := congrArg Writer.calls dst'
      refine ⟨fun _ => ?_, fun idle => absurd idle started.serverRelay, fun _ => ?_⟩
      · exact ⟨_, _, completes_of_ok auth, calls ▸ List.prefix_append _ _⟩
      · refine ⟨_, _, _, _, completes_of_ok auth, completes_of_ok client, ⟨toServer, calls, ?_⟩,
          toBrowser, calls', ?_⟩
        · rw [← source, bytes]
          exact List.prefix_append _ _
        · rw [bytes']
          exact List.prefix_append _ _

end Splice

/-- The two handshakes accept exactly the greetings, answer them and leave the rest; and every
bridge, whatever its peers do, relays just what the handshakes have left. -/
theorem handshakes_spliced :
    (∀ (σ : Type) [Source σ] (s : σ) (password : List UInt8) (sent : List (List UInt8))
      (left : Reader), Completes (authToServer password) s sent left ↔
        ∃ g : ServerGreeting, Source.stream s = ⟨g.bytes ++ left.bytes, left.fault⟩ ∧
          sent = g.replies password) ∧
    (∀ (σ : Type) [Source σ] (s : σ) (sent : List (List UInt8)) (left : Reader),
      Completes handshakeWithClient s sent left ↔
        ∃ g : ClientGreeting, Source.stream s = ⟨g.bytes ++ left.bytes, left.fault⟩ ∧
          sent = g.replies) ∧
    ∀ (σ τ : Type) [Source σ] [Source τ] (password : List UInt8) (s : σ) (t : τ)
      (x : Execution (spliceSystem password s t)), x.Always (Spliced password s t) := by
  refine ⟨fun σ _ s password sent left => authToServer_completes,
    fun σ _ s sent left => handshakeWithClient_completes, fun σ τ _ _ password s t x => ?_⟩
  have phases : x.Always (Splice.Phase password s t) := by
    refine x.run.invariant ?_ ?_
    · rintro _ ⟨viewOnly, rfl⟩
      exact Splice.phase_initial viewOnly
    · exact Splice.phase_next
  exact phases.mono fun _ => Splice.spliced_of_phase

end VmServer.Proxy
