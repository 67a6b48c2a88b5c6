import VmServer.Proxy.SizeBounds

/-!
# A viewer can end the controller's connection

Several bridges lead to one VNC server, which shares the guest's display by
QEMU's rules. A view-only bridge filters messages by their type, but its
ClientInit byte is forwarded as it is, and with a shared flag of 0 the server
drops everybody else. A length on which the relay of the bridge panics ends the
process, and all bridges with it. Otherwise the viewers leave no trace in what
happens to the other connections.

## Implementation notes

A bridge is known by its mode and by what its browser sends after the
handshake; the server receives the writes of `copyClientMessages` one by one,
in any order among the bridges. A write to a dropped connection has no effect.
A relay that panics does so once it has made its writes, which may find their
connection dropped. The share options are those of QEMU's `-vnc` argument, and
the default allows a client to ask for exclusive access.
-/

namespace VmServer.Proxy

/-- The `-vnc` argument of `Args`, before it is put together: address and options. -/
structure VncArg where
  display : Int
  options : List String

def vncArg (vncPort : Nat) : VncArg := ⟨vncPort - 5900, ["password=on"]⟩

/-- The argument as QEMU gets it. -/
def VncArg.text (a : VncArg) : String :=
  ",".intercalate (("127.0.0.1:" ++ toString a.display) :: a.options)

example : (vncArg 5901).text = "127.0.0.1:1,password=on" := by decide

/-- What the server makes of the shared flag of its clients. -/
inductive SharePolicy
  | allowExclusive
  | forceShared
  | ignore
  deriving DecidableEq, Repr

/-- The option `share`, with QEMU's default. -/
def VncArg.sharePolicy (a : VncArg) : SharePolicy :=
  if "share=force-shared" ∈ a.options then .forceShared
  else if "share=ignore" ∈ a.options then .ignore
  else .allowExclusive

/-- A bridge to the guest: its mode, and the bytes of its browser after the handshake. -/
structure BrowserBridge where
  viewOnly : Bool
  sent : List UInt8

/-- The writes the server gets from the bridge. -/
def BrowserBridge.writes (b : BrowserBridge) : List (List UInt8) :=
  (copyClientMessages {} (⟨b.sent, .eof⟩ : Reader) b.viewOnly).1.calls

/-- The relay of the bridge comes to panic. Nothing recovers from it. -/
def BrowserBridge.panics (b : BrowserBridge) : Bool :=
  (copyClientMessages {} (⟨b.sent, .eof⟩ : Reader) b.viewOnly).2 = .panicked

/-- The same bridge, if its browser says nothing as a viewer. -/
def BrowserBridge.silenced (b : BrowserBridge) : BrowserBridge :=
  if b.viewOnly then { b with sent := [] } else b

inductive ClientStatus
  | waiting
  | connected
  | initialised
  | ended
  deriving DecidableEq, Repr

/-- A client of the server: the writes of its bridge still to come, whether the relay panics after
them, and the messages that were delivered for it. -/
structure VncClient where
  status : ClientStatus := .waiting
  writes : List (List UInt8)
  panics : Bool
  delivered : List (List UInt8) := []

def VncClient.connect (c : VncClient) : VncClient :=
  if c.status = .waiting then { c with status := .connected } else c

/-- The connection ends, if there is one. -/
def VncClient.drop (c : VncClient) : VncClient :=
  if c.status = .waiting then c else { c with status := .ended }

structure VncServer (ι : Type) where
  clients : ι → VncClient
  exclusive : Option ι := none

/-- Bridges connect, write, panic and leave in any order. -/
inductive ShareEvent (ι : Type)
  | connect (i : ι)
  | write (i : ι)
  | panic (i : ι)
  | leave (i : ι)

namespace VncServer

variable {ι : Type} [DecidableEq ι]

def setClient (s : VncServer ι) (i : ι) (c : VncClient) : VncServer ι :=
  { s with clients := fun j => if j = i then c else s.clients j }

/-- A client's connection ends, and with it the exclusive access it may have had. -/
def dropClient (s : VncServer ι) (i : ι) : VncServer ι :=
  { s.setClient i (s.clients i).drop with
    exclusive := if s.exclusive = some i then none else s.exclusive }

/-- Exclusive access: everybody else is dropped. -/
def makeExclusive (s : VncServer ι) (i : ι) (c : VncClient) : VncServer ι where
  clients j := if j = i then c else (s.clients j).drop
  exclusive := some i

/-- The server handles the ClientInit message of `i`. -/
def clientInit (policy : SharePolicy) (s : VncServer ι) (i : ι) (flag : UInt8) : VncServer ι :=
  let admitted := { s.clients i with status := .initialised }
  match policy with
  | .ignore => s.setClient i admitted
  | .forceShared => if flag = 0 then s.dropClient i else s.setClient i admitted
  | .allowExclusive =>
      if flag = 0 then s.makeExclusive i admitted
      else if s.exclusive.isSome then s.dropClient i
      else s.setClient i admitted

/-- The server handles a write. A message that it does not know ends the connection. -/
def serve (policy : SharePolicy) (s : VncServer ι) (i : ι) (w : List UInt8) : VncServer ι :=
  let c := s.clients i
  match c.status with
  | .connected => s.clientInit policy i (w.headD 0)
  | .initialised =>
      if rfbMessages.IsMessage w then s.setClient i { c with delivered := c.delivered ++ [w] }
      else s.dropClient i
  | .waiting | .ended => s

/-- The next write of bridge `i` arrives. -/
def write (policy : SharePolicy) (s : VncServer ι) (i : ι) : VncServer ι :=
  let c := s.clients i
  match c.writes with
  | [] => s
  | w :: rest =>
      if c.status = .waiting then s
      else (s.setClient i { c with writes := rest }).serve policy i w

/-- The process ends, and every connection with it. -/
def endProcess (s : VncServer ι) : VncServer ι where
  clients i := { s.clients i with status := .ended }

/-- The relay of bridge `i` panics, if it has come to that. -/
def panic (s : VncServer ι) (i : ι) : VncServer ι :=
  let c := s.clients i
  if c.panics ∧ c.writes = [] ∧ c.status ≠ .waiting then s.endProcess else s

def next (policy : SharePolicy) (s : VncServer ι) : ShareEvent ι → VncServer ι
  | .connect i => s.setClient i (s.clients i).connect
  | .write i => s.write policy i
  | .panic i => s.panic i
  | .leave i => s.dropClient i

/-- The server before any of the bridges has connected. -/
def start (bridges : ι → BrowserBridge) : VncServer ι where
  clients i := { writes := (bridges i).writes, panics := (bridges i).panics }

/-- The server of a configuration after some events. -/
def after (vncPort : Nat) (bridges : ι → BrowserBridge) (events : List (ShareEvent ι)) :
    VncServer ι :=
  events.foldl (next (vncArg vncPort).sharePolicy) (start bridges)

end VncServer

/-- Whatever happens, and in whatever order, the connection of `c` has the same fate and the same
messages are delivered for it as if the viewers' browsers had sent nothing. -/
def Undisturbed {ι : Type} [DecidableEq ι] (vncPort : Nat) (bridges : ι → BrowserBridge)
    (c : ι) : Prop :=
  ∀ events,
    let viewed := (VncServer.after vncPort bridges events).clients c
    let alone := (VncServer.after vncPort (fun i => (bridges i).silenced) events).clients c
    viewed.delivered = alone.delivered ∧ viewed.status = alone.status

theorem BrowserBridge.writes_eq (b : BrowserBridge) : b.writes = passedOn b.viewOnly b.sent := by
  rw [writes, copyClientMessages_passedOn, writeAll_calls rfl, List.nil_append]

theorem accepts_of_fault {w : Writer} (h : w.fault = none) (ps : List (List UInt8)) :
    w.Accepts ps := by
  induction ps generalizing w with
  | nil => trivial
  | cons p rest ih =>
      rw [Writer.Accepts, write_good h]
      exact ⟨rfl, ih h⟩

theorem BrowserBridge.panics_iff (b : BrowserBridge) :
    b.panics = true ↔ AtLeastLength (clientMessages.leftover b.sent.tail) := by
  rw [panics, decide_eq_true_eq, copyClientMessages_panics_iff]
  exact and_iff_right (accepts_of_fault rfl _)

theorem BrowserBridge.silenced_calm {b : BrowserBridge} (viewer : b.viewOnly) :
    b.silenced.writes = [] ∧ b.silenced.panics = false := by
  have empty : b.silenced = { b with sent := [] } := if_pos viewer
  rw [empty]
  exact ⟨by simp [writes_eq, passedOn], by simp [panics, copyClientMessages_nil]⟩

theorem sharePolicy_default (vncPort : Nat) :
    (vncArg vncPort).sharePolicy = .allowExclusive := by
  simp [vncArg, VncArg.sharePolicy]

namespace VncServer

variable {ι : Type} [DecidableEq ι] {bridges : ι → BrowserBridge} {s s' : VncServer ι}

/-- The bridge of a viewer has nothing to write and does not panic. -/
def Silent (c : VncClient) : Prop := c.writes = [] ∧ c.panics = false

theorem silent_drop {c : VncClient} : Silent c.drop ↔ Silent c := by
  unfold VncClient.drop
  split <;> rfl

theorem silent_connect {c : VncClient} : Silent c.connect ↔ Silent c := by
  unfold VncClient.connect
  split <;> rfl

@[simp] theorem drop_writes (c : VncClient) : c.drop.writes = c.writes := by
  unfold VncClient.drop
  split <;> rfl

@[simp] theorem drop_panics (c : VncClient) : c.drop.panics = c.panics := by
  unfold VncClient.drop
  split <;> rfl

@[simp] theorem drop_waiting (c : VncClient) : c.drop.status = .waiting ↔ c.status = .waiting := by
  unfold VncClient.drop
  split
  · rfl
  · rename_i h
    simp [h]

@[simp] theorem connect_panics (c : VncClient) : c.connect.panics = c.panics := by
  unfold VncClient.connect
  split <;> rfl

/-- A viewer that does not end the process, and that will not ask for exclusive access if it has
not been admitted yet. -/
structure Harmless (c : VncClient) : Prop where
  shares : c.status = .waiting ∨ c.status = .connected → ∀ w ∈ c.writes.head?, w.headD 0 ≠ 0
  calm : c.panics = false

theorem harmless_drop {c : VncClient} (h : Harmless c) : Harmless c.drop := by
  refine ⟨?_, (drop_panics c).trans h.calm⟩
  unfold VncClient.drop
  split
  · exact h.shares
  · rintro (waiting | connected)
    · cases waiting
    · cases connected

theorem harmless_connect {c : VncClient} (h : Harmless c) : Harmless c.connect := by
  refine ⟨?_, (connect_panics c).trans h.calm⟩
  unfold VncClient.connect
  split
  · exact fun _ => h.shares (Or.inl (by assumption))
  · exact h.shares

theorem harmless_of_past {c : VncClient} (calm : c.panics = false)
    (h : c.status = .initialised ∨ c.status = .ended) : Harmless c := by
  refine ⟨?_, calm⟩
  rintro (waiting | connected)
  · rcases h with h | h <;> exact absurd (waiting.symm.trans h) nofun
  · rcases h with h | h <;> exact absurd (connected.symm.trans h) nofun

/-- The server with the viewers' messages and the one without agree on everybody else, and
nobody among the viewers has exclusive access. -/
structure SameForOthers (bridges : ι → BrowserBridge) (s s' : VncServer ι) : Prop where
  others : ∀ i, (bridges i).viewOnly = false → s.clients i = s'.clients i
  exclusive : s.exclusive = s'.exclusive
  holder : ∀ i ∈ s.exclusive, (bridges i).viewOnly = false
  viewers : ∀ i, (bridges i).viewOnly → Harmless (s.clients i)
  silent : ∀ i, (bridges i).viewOnly → Silent (s'.clients i)

theorem setClient_self (s : VncServer ι) (i : ι) : s.setClient i (s.clients i) = s := by
  have same : (fun j => if j = i then s.clients i else s.clients j) = s.clients := by
    funext j
    split
    · subst j
      rfl
    · rfl
  rw [setClient, same]

theorem dropClient_of_not_holder {i : ι} (h : s.exclusive ≠ some i) :
    s.dropClient i = s.setClient i (s.clients i).drop := by
  simp only [dropClient, setClient, if_neg h]

@[simp] theorem setClient_clients_self (s : VncServer ι) (i : ι) (c : VncClient) :
    (s.setClient i c).clients i = c := if_pos rfl

@[simp] theorem setClient_exclusive (s : VncServer ι) (i : ι) (c : VncClient) :
    (s.setClient i c).exclusive = s.exclusive := rfl

@[simp] theorem setClient_setClient (s : VncServer ι) (i : ι) (c c' : VncClient) :
    (s.setClient i c).setClient i c' = s.setClient i c' := by
  have twice : (fun j => if j = i then c' else if j = i then c else s.clients j) =
      fun j => if j = i then c' else s.clients j := by
    funext j
    split <;> rfl
  simp only [setClient, twice]

theorem drop_of_not_waiting {c : VncClient} (h : c.status ≠ .waiting) :
    c.drop = { c with status := .ended } := if_neg h

/-- What the server does for a client without exclusive access that does not ask for it concerns
that client only. -/
theorem serve_viewer {i : ι} {c : VncClient} {w : List UInt8} (outside : s.exclusive ≠ some i)
    (started : c.status ≠ .waiting) (shares : c.status = .connected → w.headD 0 ≠ 0) :
    ∃ c', (s.setClient i c).serve .allowExclusive i w = s.setClient i c' ∧
      c'.panics = c.panics ∧ (c'.status = .initialised ∨ c'.status = .ended) := by
  have drop : (s.setClient i c).dropClient i = s.setClient i { c with status := .ended } := by
    have set : (s.setClient i c).exclusive ≠ some i := outside
    rw [dropClient_of_not_holder set, setClient_setClient, setClient_clients_self,
      drop_of_not_waiting started]
  cases hs : c.status with
  | waiting => exact absurd hs started
  | connected =>
      simp only [serve, clientInit, setClient_clients_self, setClient_exclusive, hs,
        if_neg (shares hs), setClient_setClient]
      split
      · exact ⟨_, drop, rfl, Or.inr rfl⟩
      · exact ⟨_, rfl, rfl, Or.inl rfl⟩
  | initialised =>
      simp only [serve, setClient_clients_self, hs, setClient_setClient]
      split
      · exact ⟨_, rfl, rfl, Or.inl rfl⟩
      · exact ⟨_, drop, rfl, Or.inr rfl⟩
  | ended =>
      simp only [serve, setClient_clients_self, hs]
      exact ⟨_, rfl, rfl, Or.inr hs⟩

omit [DecidableEq ι] in
theorem ne_of_modes {i j : ι} (viewer : (bridges j).viewOnly)
    (control : (bridges i).viewOnly = false) : j ≠ i := by
  rintro rfl
  rw [viewer] at control
  cases control

namespace SameForOthers

variable {i : ι}

omit [DecidableEq ι] in
theorem not_holder (same : SameForOthers bridges s s') (viewer : (bridges i).viewOnly) :
    s.exclusive ≠ some i ∧ s'.exclusive ≠ some i := by
  have outside : s.exclusive ≠ some i := fun holds =>
    ne_of_modes viewer (same.holder i holds) rfl
  exact ⟨outside, same.exclusive ▸ outside⟩

/-- What becomes of a viewer is its own business. -/
theorem setViewer (same : SameForOthers bridges s s') (viewer : (bridges i).viewOnly)
    {c c' : VncClient} (harmless : Harmless c) (silent : Silent c') :
    SameForOthers bridges (s.setClient i c) (s'.setClient i c') where
  others j control := by
    have other := (ne_of_modes viewer control).symm
    simpa only [setClient, if_neg other] using same.others j control
  exclusive := same.exclusive
  holder := same.holder
  viewers j hj := by
    simp only [setClient]
    split
    · exact harmless
    · exact same.viewers j hj
  silent j hj := by
    simp only [setClient]
    split
    · exact silent
    · exact same.silent j hj

/-- Nobody else differs in the two runs. -/
theorem setOther (same : SameForOthers bridges s s') (control : (bridges i).viewOnly = false)
    (c : VncClient) : SameForOthers bridges (s.setClient i c) (s'.setClient i c) where
  others j hj := by
    simp only [setClient, same.others j hj]
  exclusive := same.exclusive
  holder := same.holder
  viewers j hj := by
    have other := ne_of_modes hj control
    simpa only [setClient, if_neg other] using same.viewers j hj
  silent j hj := by
    have other := ne_of_modes hj control
    simpa only [setClient, if_neg other] using same.silent j hj

theorem dropOther (same : SameForOthers bridges s s') (control : (bridges i).viewOnly = false) :
    SameForOthers bridges (s.dropClient i) (s'.dropClient i) := by
  have set := same.setOther control (s.clients i).drop
  have drop : s'.dropClient i = { s'.setClient i (s.clients i).drop with
      exclusive := if s.exclusive = some i then none else s.exclusive } := by
    rw [dropClient, ← same.others i control, ← same.exclusive]
  rw [drop]
  refine ⟨set.others, rfl, fun j hj => ?_, set.viewers, set.silent⟩
  simp only [dropClient] at hj
  split at hj
  · cases hj
  · exact same.holder j hj

theorem makeExclusive (same : SameForOthers bridges s s') (control : (bridges i).viewOnly = false)
    (c : VncClient) : SameForOthers bridges (s.makeExclusive i c) (s'.makeExclusive i c) where
  others j hj := by
    simp only [VncServer.makeExclusive, same.others j hj]
  exclusive := rfl
  holder j hj := by
    obtain rfl := Option.some.inj hj
    exact control
  viewers j hj := by
    have other := ne_of_modes hj control
    simp only [VncServer.makeExclusive, if_neg other]
    exact harmless_drop (same.viewers j hj)
  silent j hj := by
    have other := ne_of_modes hj control
    simp only [VncServer.makeExclusive, if_neg other, silent_drop]
    exact same.silent j hj

/-- What the server does for a bridge in control mode has the same effect in both runs. -/
theorem serveOther (same : SameForOthers bridges s s') (control : (bridges i).viewOnly = false)
    (w : List UInt8) :
    SameForOthers bridges (s.serve .allowExclusive i w) (s'.serve .allowExclusive i w) := by
  simp only [serve, clientInit, ← same.others i control, ← same.exclusive]
  split
  · split
    · exact same.makeExclusive control _
    · split
      · exact same.dropOther control
      · exact same.setOther control _
  · split
    · exact same.setOther control _
    · exact same.dropOther control
  · exact same
  · exact same

theorem writeOther (same : SameForOthers bridges s s')
    (control : (bridges i).viewOnly = false) :
    SameForOthers bridges (s.write .allowExclusive i) (s'.write .allowExclusive i) := by
  simp only [VncServer.write, ← same.others i control]
  split
  · exact same
  · split
    · exact same
    · exact (same.setOther control _).serveOther control _

/-- A write of a viewer changes nothing but the viewer's own connection. -/
theorem writeViewer (same : SameForOthers bridges s s') (viewer : (bridges i).viewOnly) :
    SameForOthers bridges (s.write .allowExclusive i) (s'.write .allowExclusive i) := by
  have idle : s'.write .allowExclusive i = s' := by
    simp only [VncServer.write, (same.silent i viewer).1]
  have harmless := same.viewers i viewer
  rw [idle]
  cases hw : (s.clients i).writes with
  | nil =>
      simp only [VncServer.write, hw]
      exact same
  | cons w rest =>
      by_cases waiting : (s.clients i).status = .waiting
      · simp only [VncServer.write, hw, if_pos waiting]
        exact same
      · obtain ⟨c, served, panics, past⟩ := serve_viewer (s := s)
          (c := { s.clients i with writes := rest }) (w := w) (same.not_holder viewer).1 waiting
          fun connected => harmless.shares (Or.inr connected) w (by rw [hw]; rfl)
        simp only [VncServer.write, hw, if_neg waiting]
        rw [served]
        have both := same.setViewer viewer
          (harmless_of_past (panics.trans harmless.calm) past) (same.silent i viewer)
        rwa [setClient_self] at both

omit [DecidableEq ι] in
/-- The process ends for everybody in both runs. -/
theorem endProcess (same : SameForOthers bridges s s') :
    SameForOthers bridges s.endProcess s'.endProcess where
  others j hj := by simp only [VncServer.endProcess, same.others j hj]
  exclusive := rfl
  holder _ hj := by cases hj
  viewers j hj := harmless_of_past (same.viewers j hj).calm (Or.inr rfl)
  silent j hj := same.silent j hj

omit [DecidableEq ι] in
theorem panic (same : SameForOthers bridges s s') :
    SameForOthers bridges (s.panic i) (s'.panic i) := by
  unfold VncServer.panic
  cases mode : (bridges i).viewOnly with
  | false =>
      rw [← same.others i mode]
      dsimp only
      split
      · exact same.endProcess
      · exact same
  | true => simpa [(same.viewers i mode).calm, (same.silent i mode).2] using same

/-- Every event keeps the two runs alike for everybody but the viewers. -/
theorem next (same : SameForOthers bridges s s') (e : ShareEvent ι) :
    SameForOthers bridges (s.next .allowExclusive e) (s'.next .allowExclusive e) := by
  cases e with
  | connect i =>
      cases mode : (bridges i).viewOnly with
      | false =>
          simp only [VncServer.next, ← same.others i mode]
          exact same.setOther mode _
      | true =>
          exact same.setViewer mode (harmless_connect (same.viewers i mode))
            (silent_connect.mpr (same.silent i mode))
  | write i =>
      cases mode : (bridges i).viewOnly with
      | false => exact same.writeOther mode
      | true => exact same.writeViewer mode
  | panic i => exact same.panic
  | leave i =>
      cases mode : (bridges i).viewOnly with
      | false => exact same.dropOther mode
      | true =>
          obtain ⟨outside, outside'⟩ := same.not_holder mode
          change SameForOthers bridges (s.dropClient i) (s'.dropClient i)
          rw [dropClient_of_not_holder outside, dropClient_of_not_holder outside']
          exact same.setViewer mode (harmless_drop (same.viewers i mode))
            (silent_drop.mpr (same.silent i mode))

end SameForOthers

omit [DecidableEq ι] in
theorem sameForOthers_start
    (polite : ∀ i, (bridges i).viewOnly → (bridges i).sent.head? ≠ some 0 ∧
      ¬ AtLeastLength (clientMessages.leftover (bridges i).sent.tail)) :
    SameForOthers bridges (start bridges) (start fun i => (bridges i).silenced) where
  others i control := by
    simp [start, BrowserBridge.silenced, control]
  exclusive := rfl
  holder i hi := by cases hi
  viewers i viewer := by
    obtain ⟨first, calm⟩ := polite i viewer
    refine ⟨fun _ w hw => ?_, Bool.eq_false_iff.mpr fun yes => calm ?_⟩
    · simp only [start, BrowserBridge.writes_eq] at hw
      cases hs : (bridges i).sent with
      | nil => simp [hs, passedOn] at hw
      | cons init stream =>
          obtain rfl : [init] = w := by simpa [hs, passedOn] using hw
          simpa [hs] using first
    · exact (BrowserBridge.panics_iff _).mp yes
  silent i viewer := BrowserBridge.silenced_calm viewer

/-- The order of events in which a viewer drops another client. -/
def eviction (v c : ι) : List (ShareEvent ι) := [.connect c, .connect v, .write v]

theorem after_eviction {vncPort : Nat} {v c : ι} (other : c ≠ v)
    (rude : (bridges v).sent.head? = some 0) :
    ((after vncPort bridges (eviction v c)).clients c).status = .ended := by
  obtain ⟨stream, sent⟩ := List.head?_eq_some_iff.mp rude
  have writes : (bridges v).writes =
      [0] :: (clientMessages.messages stream).filter (kept (bridges v).viewOnly) := by
    rw [BrowserBridge.writes_eq, sent, passedOn]
  simp [after, eviction, sharePolicy_default, next, write, serve, clientInit, makeExclusive,
    setClient, start, VncClient.connect, VncClient.drop, writes, other, other.symm]

theorem alone_after_eviction {vncPort : Nat} {v c : ι} (other : c ≠ v)
    (viewer : (bridges v).viewOnly) :
    ((after vncPort (fun i => (bridges i).silenced) (eviction v c)).clients c).status =
      .connected := by
  have writes := (BrowserBridge.silenced_calm viewer).1
  simp [after, eviction, sharePolicy_default, next, write, setClient, start, VncClient.connect,
    writes, other, other.symm]

/-- What is left of a client that has connected, after `n` more writes of its bridge. -/
structure Written (n : Nat) (c c' : VncClient) : Prop where
  writes : c'.writes = c.writes.drop n
  panics : c'.panics = c.panics
  started : c'.status ≠ .waiting

theorem Written.trans {m n : Nat} {c₁ c₂ c₃ : VncClient} (first : Written m c₁ c₂)
    (second : Written n c₂ c₃) : Written (m + n) c₁ c₃ where
  writes := by rw [second.writes, first.writes, List.drop_drop]
  panics := second.panics.trans first.panics
  started := second.started

theorem serve_written (policy : SharePolicy) {i : ι} (w : List UInt8)
    (started : (s.clients i).status ≠ .waiting) :
    Written 0 (s.clients i) ((s.serve policy i w).clients i) := by
  have drop : Written 0 (s.clients i) ((s.dropClient i).clients i) := by
    simp only [dropClient, setClient_clients_self]
    exact ⟨drop_writes _, drop_panics _, drop_waiting _ |>.not.mpr started⟩
  have joined : Written 0 (s.clients i) { s.clients i with status := .initialised } :=
    ⟨rfl, rfl, nofun⟩
  cases hs : (s.clients i).status with
  | waiting => exact absurd hs started
  | ended =>
      simp only [serve, hs]
      exact ⟨rfl, rfl, started⟩
  | initialised =>
      simp only [serve, hs]
      split
      · rw [setClient_clients_self]
        exact ⟨rfl, rfl, nofun⟩
      · exact drop
  | connected =>
      simp only [serve, hs, clientInit]
      cases policy with
      | ignore => simpa only [setClient_clients_self] using joined
      | forceShared =>
          dsimp only
          split
          · exact drop
          · simpa only [setClient_clients_self] using joined
      | allowExclusive =>
          dsimp only
          split
          · simpa only [makeExclusive, if_true] using joined
          · split
            · exact drop
            · simpa only [setClient_clients_self] using joined

theorem write_written (policy : SharePolicy) {i : ι}
    (started : (s.clients i).status ≠ .waiting) :
    Written 1 (s.clients i) ((s.write policy i).clients i) := by
  cases hw : (s.clients i).writes with
  | nil =>
      simp only [write, hw]
      exact ⟨by rw [hw, List.drop_nil], rfl, started⟩
  | cons w rest =>
      simp only [write, hw, if_neg started]
      have served := serve_written policy (s := s.setClient i { s.clients i with writes := rest })
        w (by rwa [setClient_clients_self])
      rw [setClient_clients_self] at served
      exact ⟨served.writes.trans (by rw [hw]; rfl), served.panics, served.started⟩

/-- A bridge makes all of its writes in a row. -/
theorem writes_written (policy : SharePolicy) {i : ι} (n : Nat)
    (started : (s.clients i).status ≠ .waiting) :
    Written n (s.clients i)
      (((List.replicate n (.write i)).foldl (next policy) s).clients i) := by
  induction n generalizing s with
  | zero => exact ⟨rfl, rfl, started⟩
  | succ n ih =>
      have first := write_written policy started
      rw [List.replicate_succ, List.foldl_cons, Nat.add_comm]
      exact first.trans (ih first.started)

theorem writes_idle {policy : SharePolicy} {i : ι} (n : Nat) (idle : (s.clients i).writes = []) :
    (List.replicate n (.write i)).foldl (next policy) s = s := by
  have none : s.next policy (.write i) = s := by simp only [next, write, idle]
  induction n with
  | zero => rfl
  | succ n ih => rw [List.replicate_succ, List.foldl_cons, none, ih]

/-- The server once two bridges have connected. -/
def connectBoth (bridges : ι → BrowserBridge) (c v : ι) : VncServer ι :=
  ((start bridges).next .allowExclusive (.connect c)).next .allowExclusive (.connect v)

theorem connectBoth_client (bridges : ι → BrowserBridge) {c v i : ι} (h : i = c ∨ i = v) :
    (connectBoth bridges c v).clients i =
      { status := .connected, writes := (bridges i).writes, panics := (bridges i).panics } := by
  rcases h with rfl | rfl
  · by_cases both : i = v <;> simp [connectBoth, next, setClient, start, VncClient.connect, both]
  · by_cases both : i = c <;> simp [connectBoth, next, setClient, start, VncClient.connect, both]

/-- The order of events in which the relay of a viewer ends the process. -/
def crash (v c : ι) (n : Nat) : List (ShareEvent ι) :=
  .connect c :: .connect v :: (List.replicate n (.write v) ++ [.panic v])

theorem after_crash_eq (vncPort : Nat) (v c : ι) (n : Nat) :
    after vncPort bridges (crash v c n) =
      ((List.replicate n (.write v)).foldl (next .allowExclusive)
        (connectBoth bridges c v)).panic v := by
  rw [after, sharePolicy_default, crash, List.foldl_cons, List.foldl_cons, List.foldl_append]
  rfl

theorem after_crash {vncPort : Nat} {v c : ι} (fatal : (bridges v).panics) :
    ((after vncPort bridges (crash v c (bridges v).writes.length)).clients c).status =
      .ended := by
  have before := connectBoth_client bridges (c := c) (Or.inr (Eq.refl v))
  have written := writes_written .allowExclusive (s := connectBoth bridges c v) (i := v)
    (bridges v).writes.length (by rw [before]; nofun)
  have done := written.writes
  have panics := written.panics
  rw [before] at done panics
  rw [after_crash_eq, VncServer.panic,
    if_pos ⟨panics.trans fatal, done.trans List.drop_length, written.started⟩]
  rfl

theorem alone_after_crash {vncPort n : Nat} {v c : ι} (viewer : (bridges v).viewOnly) :
    ((after vncPort (fun i => (bridges i).silenced) (crash v c n)).clients c).status =
      .connected := by
  obtain ⟨silent, calm⟩ := BrowserBridge.silenced_calm viewer
  have ours := connectBoth_client (fun i => (bridges i).silenced) (v := v)
    (Or.inl (Eq.refl c))
  have theirs := connectBoth_client (fun i => (bridges i).silenced) (c := c)
    (Or.inr (Eq.refl v))
  rw [after_crash_eq, writes_idle n (by rw [theirs]; exact silent), VncServer.panic, theirs,
    if_neg fun h => Bool.false_ne_true (calm.symm.trans h.1), ours]

end VncServer

/-- The viewers leave a connection in control mode undisturbed exactly when none of their
browsers sends a ClientInit byte of 0, or comes to a clipboard message of the one length on which
the relay panics. -/
theorem undisturbed_iff {ι : Type} [DecidableEq ι] (vncPort : Nat) (bridges : ι → BrowserBridge)
    (c : {i // (bridges i).viewOnly = false}) : Undisturbed vncPort bridges c ↔
      ∀ i, (bridges i).viewOnly → (bridges i).sent.head? ≠ some 0 ∧
        ¬ AtLeastLength (clientMessages.leftover (bridges i).sent.tail) := by
  constructor
  · intro calm v viewer
    have other := (VncServer.ne_of_modes viewer c.2).symm
    constructor
    · intro rude
      obtain ⟨_, status⟩ := calm (VncServer.eviction v c.1)
      rw [VncServer.after_eviction other rude,
        VncServer.alone_after_eviction other viewer] at status
      cases status
    · intro fatal
      obtain ⟨_, status⟩ := calm (VncServer.crash v c.1 (bridges v).writes.length)
      rw [VncServer.after_crash ((bridges v).panics_iff.mpr fatal),
        VncServer.alone_after_crash viewer] at status
      cases status
  · intro polite events
    have same : VncServer.SameForOthers bridges (VncServer.after vncPort bridges events)
        (VncServer.after vncPort (fun i => (bridges i).silenced) events) := by
      unfold VncServer.after
      rw [sharePolicy_default]
      exact List.foldl_rel (VncServer.sameForOthers_start polite) fun e _ _ _ h => h.next e
    rw [same.others c.1 c.2]
    exact ⟨rfl, rfl⟩

/-- A controller whose browser asks for shared access, and a viewer whose browser does not. -/
def exclusiveViewer (viewer : Bool) : BrowserBridge :=
  if viewer then { viewOnly := true, sent := [0] } else { viewOnly := false, sent := [1] }

/-- The viewer's single byte ends the controller's connection. -/
theorem viewer_evicts_controller : ¬ Undisturbed 5901 exclusiveViewer false := by
  intro calm
  have other : false ≠ true := by decide
  obtain ⟨_, status⟩ := calm (VncServer.eviction true false)
  rw [VncServer.after_eviction other rfl, VncServer.alone_after_eviction other rfl] at status
  cases status

end VmServer.Proxy
