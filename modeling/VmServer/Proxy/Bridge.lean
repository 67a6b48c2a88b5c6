import VmServer.Library.TransitionSystem

/-!
# A console bridge: its setup, its three goroutines and its teardown

After the handshakes `Bridge` starts two relays and a watcher and waits for
one value in `errc`; then it cancels its own context and closes both
connections. The passed-in context belongs to the caller, who may cancel it
at any time.

## Implementation notes

What the two peers do is open: a relay may fail at any time with any error,
and data moves only while the connections it uses are open on this side. A
panic of the client relay ends the whole process, so a run stops there.
-/

namespace VmServer.Proxy

open TransitionSystem

/-- What a bridge or one of its relays fails with. -/
inductive BridgeError
  | eof
  | closeFrame (code : Nat)
  | sessionExpired
  | other (text : String)
  deriving DecidableEq, Repr

/-- End of stream, and the close codes for normal closure, going away and no status. -/
def BridgeError.normal : BridgeError → Bool
  | .eof => true
  | .closeFrame code => code = 1000 || code = 1001 || code = 1005
  | _ => false

/-- Where the goroutine that called `Bridge` is. -/
inductive Caller
  | dialing
  | authenticating
  | handshaking
  | receiving
  | received (err : BridgeError)
  | cancelled (err : BridgeError)
  | vncClosed (err : BridgeError)
  | returned (err : Option BridgeError)
  deriving DecidableEq, Repr

/-- A goroutine that ends by sending a value to `errc`, or without one. -/
inductive Goroutine
  | notStarted
  | running
  | reported
  | exited
  deriving DecidableEq, Repr

/-- One call of `Bridge`. -/
structure Bridge where
  viewOnly : Bool
  caller : Caller := .dialing
  callerDone : Bool := false
  ctxCancelled : Bool := false
  serverRelay : Goroutine := .notStarted
  clientRelay : Goroutine := .notStarted
  watcher : Goroutine := .notStarted
  errc : List BridgeError := []
  vncOpen : Bool := false
  wsOpen : Bool := true
  deriving DecidableEq, Repr

inductive BridgeEvent
  /-- The current step of the setup ends, with or without an error. -/
  | setup (err : Option BridgeError)
  /-- The cancel function of the passed-in context is called. -/
  | cancelCaller
  /-- The server relay has written what it read to the browser and calls `OnTraffic`. -/
  | serverData
  /-- `copyClientMessages` hands a message to the VNC server. -/
  | clientMessage
  | serverEnds (err : BridgeError)
  | clientEnds (err : BridgeError)
  /-- The watcher takes its `ctx.Done()` branch. -/
  | watcherDone
  /-- The watcher's ticker fires; `SessionValid` returns `valid`. -/
  | watcherTick (valid : Bool)
  | receive
  /-- The next statement after the receive: cancel, close the VNC connection, close the socket. -/
  | teardown
  deriving DecidableEq, Repr

namespace Bridge

/-- Whether the derived context is done. -/
def ctxDone (b : Bridge) : Bool := b.callerDone || b.ctxCancelled

/-- `return err` during the setup, with the deferred `vnc.Close()`. -/
def giveUp (b : Bridge) (err : BridgeError) : Bridge :=
  { b with caller := .returned (some err), vncOpen := false }

/-- The start of the three goroutines. -/
def spawn (b : Bridge) : Bridge :=
  { b with caller := .receiving, serverRelay := .running, clientRelay := .running,
           watcher := .running }

def setup (b : Bridge) (err : Option BridgeError) : Option Bridge :=
  match b.caller, err with
  | .dialing, none => some { b with caller := .authenticating, vncOpen := true }
  | .authenticating, none => some { b with caller := .handshaking }
  | .handshaking, none => some b.spawn
  | .dialing, some e => some (b.giveUp e)
  | .authenticating, some e => some (b.giveUp e)
  | .handshaking, some e => some (b.giveUp e)
  | _, _ => none

def teardown (b : Bridge) : Option Bridge :=
  match b.caller with
  | .received e => some { b with caller := .cancelled e, ctxCancelled := true }
  | .cancelled e => some { b with caller := .vncClosed e, vncOpen := false }
  | .vncClosed e =>
      some { b with caller := .returned (if e.normal then none else some e), wsOpen := false }
  | _ => none

/-- One step of the bridge, of one of its goroutines or of its caller's context. -/
def next (b : Bridge) : BridgeEvent → Option Bridge
  | .setup err => b.setup err
  | .cancelCaller => some { b with callerDone := true }
  | .serverData => if b.serverRelay = .running ∧ b.vncOpen ∧ b.wsOpen then some b else none
  | .clientMessage => if b.clientRelay = .running ∧ b.vncOpen then some b else none
  | .serverEnds e =>
      if b.serverRelay = .running then
        some { b with serverRelay := .reported, errc := b.errc ++ [e] }
      else none
  | .clientEnds e =>
      if b.clientRelay = .running then
        some { b with clientRelay := .reported, errc := b.errc ++ [e] }
      else none
  | .watcherDone =>
      if b.watcher = .running ∧ b.ctxDone then some { b with watcher := .exited } else none
  | .watcherTick valid =>
      if b.watcher = .running then
        if valid then some b
        else some { b with watcher := .reported, errc := b.errc ++ [.sessionExpired] }
      else none
  | .receive =>
      match b.caller, b.errc with
      | .receiving, e :: rest => some { b with caller := .received e, errc := rest }
      | _, _ => none
  | .teardown => b.teardown

/-- Whether the call has returned. -/
def hasReturned (b : Bridge) : Bool :=
  match b.caller with
  | .returned _ => true
  | _ => false

/-- Whether the bridge relays: its goroutines were started and the call has not returned. -/
def live (b : Bridge) : Bool := b.serverRelay ≠ .notStarted && !b.hasReturned

variable {b t : Bridge} {e : BridgeEvent}

/-- What each step of a bridge does, and when it is possible. -/
inductive Moves (b : Bridge) : BridgeEvent → Bridge → Prop
  | dialled (caller : b.caller = .dialing) :
      Moves b (.setup none) { b with caller := .authenticating, vncOpen := true }
  | authenticated (caller : b.caller = .authenticating) :
      Moves b (.setup none) { b with caller := .handshaking }
  | started (caller : b.caller = .handshaking) : Moves b (.setup none) b.spawn
  | failed (err : BridgeError)
      (caller : b.caller = .dialing ∨ b.caller = .authenticating ∨ b.caller = .handshaking) :
      Moves b (.setup (some err)) (b.giveUp err)
  | cancelCaller : Moves b .cancelCaller { b with callerDone := true }
  | serverData (running : b.serverRelay = .running) : Moves b .serverData b
  | clientMessage (running : b.clientRelay = .running) : Moves b .clientMessage b
  | serverEnds (err : BridgeError) (running : b.serverRelay = .running) :
      Moves b (.serverEnds err) { b with serverRelay := .reported, errc := b.errc ++ [err] }
  | clientEnds (err : BridgeError) (running : b.clientRelay = .running) :
      Moves b (.clientEnds err) { b with clientRelay := .reported, errc := b.errc ++ [err] }
  | watcherDone (running : b.watcher = .running) (done : b.ctxDone) :
      Moves b .watcherDone { b with watcher := .exited }
  | sessionValid (running : b.watcher = .running) : Moves b (.watcherTick true) b
  | sessionExpired (running : b.watcher = .running) : Moves b (.watcherTick false)
      { b with watcher := .reported, errc := b.errc ++ [.sessionExpired] }
  | receive (err : BridgeError) (rest : List BridgeError) (caller : b.caller = .receiving)
      (errc : b.errc = err :: rest) :
      Moves b .receive { b with caller := .received err, errc := rest }
  | cancel (err : BridgeError) (caller : b.caller = .received err) :
      Moves b .teardown { b with caller := .cancelled err, ctxCancelled := true }
  | closeVnc (err : BridgeError) (caller : b.caller = .cancelled err) :
      Moves b .teardown { b with caller := .vncClosed err, vncOpen := false }
  | closeSocket (err : BridgeError) (caller : b.caller = .vncClosed err) :
      Moves b .teardown
        { b with caller := .returned (if err.normal then none else some err), wsOpen := false }

theorem moves_setup {err : Option BridgeError} (h : b.setup err = some t) :
    b.Moves (.setup err) t := by
  unfold setup at h
  split at h
  · obtain rfl := Option.some.inj h
    exact .dialled (by assumption)
  · obtain rfl := Option.some.inj h
    exact .authenticated (by assumption)
  · obtain rfl := Option.some.inj h
    exact .started (by assumption)
  · obtain rfl := Option.some.inj h
    exact .failed _ (Or.inl (by assumption))
  · obtain rfl := Option.some.inj h
    exact .failed _ (Or.inr (Or.inl (by assumption)))
  · obtain rfl := Option.some.inj h
    exact .failed _ (Or.inr (Or.inr (by assumption)))
  · cases h

theorem moves_teardown (h : b.teardown = some t) : b.Moves .teardown t := by
  unfold teardown at h
  split at h
  · obtain rfl := Option.some.inj h
    exact .cancel _ (by assumption)
  · obtain rfl := Option.some.inj h
    exact .closeVnc _ (by assumption)
  · obtain rfl := Option.some.inj h
    exact .closeSocket _ (by assumption)
  · cases h

theorem moves_of_next (h : b.next e = some t) : b.Moves e t := by
  cases e with
  | setup err => exact moves_setup h
  | cancelCaller =>
      obtain rfl := Option.some.inj h
      exact .cancelCaller
  | serverData =>
      obtain ⟨⟨running, _⟩, h⟩ := Option.ite_none_right_eq_some.mp h
      obtain rfl := Option.some.inj h
      exact .serverData running
  | clientMessage =>
      obtain ⟨⟨running, _⟩, h⟩ := Option.ite_none_right_eq_some.mp h
      obtain rfl := Option.some.inj h
      exact .clientMessage running
  | serverEnds err =>
      obtain ⟨running, h⟩ := Option.ite_none_right_eq_some.mp h
      obtain rfl := Option.some.inj h
      exact .serverEnds err running
  | clientEnds err =>
      obtain ⟨running, h⟩ := Option.ite_none_right_eq_some.mp h
      obtain rfl := Option.some.inj h
      exact .clientEnds err running
  | watcherDone =>
      obtain ⟨⟨running, done⟩, h⟩ := Option.ite_none_right_eq_some.mp h
      obtain rfl := Option.some.inj h
      exact .watcherDone running done
  | watcherTick valid =>
      obtain ⟨running, h⟩ := Option.ite_none_right_eq_some.mp h
      cases valid with
      | true =>
          obtain rfl := Option.some.inj h
          exact .sessionValid running
      | false =>
          obtain rfl := Option.some.inj h
          exact .sessionExpired running
  | receive =>
      simp only [next] at h
      split at h
      · obtain rfl := Option.some.inj h
        exact .receive _ _ (by assumption) (by assumption)
      · cases h
  | teardown => exact moves_teardown h

/-- A step leaves the mode alone, and only the end of the setup makes a bridge relay. -/
theorem next_live (h : b.next e = some t) : t.viewOnly = b.viewOnly ∧
    (t.live → b.live ∨ e = .setup none ∧ b.caller = .handshaking) := by
  cases moves_of_next h with
  | dialled caller | authenticated caller =>
      exact ⟨rfl, fun live => Or.inl (by simpa [Bridge.live, hasReturned, caller] using live)⟩
  | started caller => exact ⟨rfl, fun _ => Or.inr ⟨rfl, caller⟩⟩
  | failed err caller => exact ⟨rfl, fun live => by simp [Bridge.live, hasReturned, giveUp] at live⟩
  | serverEnds err running =>
      exact ⟨rfl, fun live => Or.inl (by simpa [Bridge.live, hasReturned, running] using live)⟩
  | receive err rest caller errc | cancel err caller | closeVnc err caller =>
      exact ⟨rfl, fun live => Or.inl (by simpa [Bridge.live, hasReturned, caller] using live)⟩
  | closeSocket err caller => exact ⟨rfl, fun live => by simp [Bridge.live, hasReturned] at live⟩
  | _ => exact ⟨rfl, Or.inl⟩

theorem live_spawn (start : b.caller = .handshaking) (h : b.next (.setup none) = some t) :
    t.live := by
  simp only [next, setup, start] at h
  obtain rfl := Option.some.inj h
  rfl

end Bridge

/-- One bridge with its peers and its caller. -/
def bridgeSystem : System Bridge BridgeEvent where
  initial := {b | ∃ viewOnly, b = { viewOnly }}
  next := Bridge.next

end VmServer.Proxy
