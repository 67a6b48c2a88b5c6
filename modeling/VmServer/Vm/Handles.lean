import VmServer.Vm.Effects
import VmServer.Vm.Operations

/-!
# The handles of one launch

`launch` publishes the process, the QMP client, the VNC password and the exit
channel in one critical section, and nothing else makes the manager running.
`onExit` clears them only for the process that is published, or when none is.

## Implementation notes

A launch is recorded when the guest accepts its password: the process it has
spawned, the client it has dialled and the password it has set. The passwords
are those that `randomVNCPassword` makes.
-/

namespace VmServer.Vm

open TransitionSystem

/-- Letters and digits without the ones that look alike. -/
def passwordAlphabet : List Char :=
  ['a', 'b', 'c', 'd', 'e', 'f', 'g', 'h', 'i', 'j', 'k', 'm',
    'n', 'p', 'q', 'r', 's', 't', 'u', 'v', 'w', 'x', 'y', 'z',
    'A', 'B', 'C', 'D', 'E', 'F', 'G', 'H', 'J', 'K', 'L', 'M',
    'N', 'P', 'Q', 'R', 'S', 'T', 'U', 'V', 'W', 'X', 'Y', 'Z',
    '2', '3', '4', '5', '6', '7', '8', '9']

/-- `randomVNCPassword` for eight random bytes. -/
def randomVNCPassword (bytes : Vector UInt8 8) : String :=
  String.ofList <| bytes.toList.map fun b =>
    passwordAlphabet.getD (b.toNat % passwordAlphabet.length) 'a'

/-- Whether `randomVNCPassword` can make the password. -/
def isRandomPassword (password : String) : Bool :=
  password.toList.length = 8 && password.toList.all (· ∈ passwordAlphabet)

/-- A launch whose password was accepted over its client. -/
structure Launch where
  process : Nat
  client : Qmp
  password : String
  deriving DecidableEq, Repr

/-- A password that is set was made by `randomVNCPassword`. -/
def drawsPassword (_ : Host) : Event → Bool
  | .passwordSet _ (.ok password) => isRandomPassword password
  | _ => true

/-- Records a launch when its password is set. -/
def Host.noteLaunch (s : Host) (e : Event) (launches : List Launch) : List Launch :=
  match e with
  | .passwordSet t (.ok password) =>
      match s.calls[t]? with
      | some { pc := .authenticating _ p q, .. } => launches ++ [⟨p, q, password⟩]
      | _ => launches
  | _ => launches

/-- The host with the launches whose password was accepted. -/
def launchSystem (goos : String) : System (Host × List Launch) Event :=
  ((hostSystem goos).restrict drawsPassword).noting [] Host.noteLaunch

namespace Manager

/-- All published handles are those of the launch. -/
structure Published (m : Manager) (l : Launch) : Prop where
  cmd : m.cmd = some l.process
  qmp : m.qmp = some l.client
  vncPassword : m.vncPassword = l.password
  exited : m.exited = some l.process

/-- What the manager hands out belongs to the launch and to its process, and the password is a
random one, which is not empty. -/
structure HandsOut (m : Manager) (l : Launch) : Prop where
  published : m.Published l
  /-- The client talks to the process that the launch has spawned. -/
  own : l.client.peer = l.process
  random : ∃ bytes, l.password = randomVNCPassword bytes
  password : l.password ≠ ""
  client : m.qmpClient = some l.client
  credentials : ∀ cfg : Config, m.vncCredentials cfg =
    .ok (.dial ("127.0.0.1:" ++ toString cfg.vncPort) l.password)

/-- Nothing is handed out, and every operation is refused. -/
structure HandsOutNothing (m : Manager) : Prop where
  client : m.qmpClient = none
  refused : ∀ cfg op, ∃ text, m.perform cfg op = .error text
  credentials : ∀ cfg : Config, m.vncCredentials cfg = .error errNotRunning

end Manager

/-- A running manager hands out the handles of one launch, any other one hands out none. -/
def HandlesBelong (s : Host × List Launch) : Prop :=
  if s.1.m.state = .running then ∃ l ∈ s.2, s.1.m.HandsOut l else s.1.m.HandsOutNothing

/-- The exit of another process than the published one changes no handle. -/
def LateExitInert (goos : String) (s : Host × List Launch) (e : Event) : Prop :=
  ∀ p q, e.handles p = true → s.1.m.cmd = some q → p ≠ q →
    ∀ t, s.1.next goos e = some t → t.m = s.1.m

/-- A launch that publishes its handles has reached its own process at the QMP port. -/
def PublishesOwn (s : Host × List Launch) (e : Event) : Prop :=
  ∀ k now c i p q password, e = .publish k now → s.1.calls[k]? = some c →
    c.pc = .publishing i p q password → q.peer = p

variable {goos : String} {s t : Host} {e : Event} {launches : List Launch}

/-- The passwords that `randomVNCPassword` makes are all of these. -/
theorem isRandomPassword_iff {password : String} :
    isRandomPassword password = true ↔ ∃ bytes, password = randomVNCPassword bytes := by
  have size : passwordAlphabet.length = 56 := rfl
  simp only [isRandomPassword, Bool.and_eq_true, decide_eq_true_eq, List.all_eq_true]
  constructor
  · rintro ⟨length, letters⟩
    have place (c : Char) (hc : c ∈ password.toList) : passwordAlphabet.getD
        ((UInt8.ofNat (passwordAlphabet.idxOf c)).toNat % passwordAlphabet.length) 'a' = c := by
      have inside := List.idxOf_lt_length_of_mem (letters c hc)
      have small : passwordAlphabet.idxOf c < 2 ^ 8 := by omega
      rw [UInt8.toNat_ofNat', Nat.mod_eq_of_lt small, Nat.mod_eq_of_lt inside,
        List.getD_eq_getElem?_getD, List.getElem?_eq_getElem inside, List.getElem_idxOf inside]
      rfl
    let bytes := password.toList.map fun c => UInt8.ofNat (passwordAlphabet.idxOf c)
    have eight : bytes.toArray.size = 8 := by simpa [bytes] using length
    refine ⟨⟨bytes.toArray, eight⟩, ?_⟩
    have same : password.toList.map _ = password.toList.map id := List.map_congr_left place
    rw [List.map_id] at same
    rw [randomVNCPassword, Vector.toList_mk, List.toList_toArray, List.map_map]
    exact (String.ofList_toList.symm.trans (congrArg String.ofList same.symm) :)
  · rintro ⟨bytes, rfl⟩
    simp only [randomVNCPassword, String.toList_ofList, List.length_map, Vector.length_toList,
      List.mem_map, forall_exists_index, and_imp, forall_apply_eq_imp_iff₂, true_and]
    intro b _
    have inside : b.toNat % passwordAlphabet.length < passwordAlphabet.length :=
      Nat.mod_lt _ (by rw [size]; decide)
    rw [List.getD_eq_getElem?_getD, List.getElem?_eq_getElem inside]
    exact List.getElem_mem inside

/-! ## One step -/

theorem isRandomPassword_ne {password : String} (h : isRandomPassword password = true) :
    password ≠ "" := by
  rintro rfl
  cases h

/-- A call that is about to publish has had its launch recorded, with a random password. -/
def Recorded (s : Host × List Launch) : Prop :=
  (∀ c ∈ s.1.calls, ∀ i p q password, c.pc = .publishing i p q password →
    ⟨p, q, password⟩ ∈ s.2) ∧ ∀ l ∈ s.2, isRandomPassword l.password = true

theorem handsOut_of_published {m : Manager} {l : Launch} (running : m.state = .running)
    (published : m.Published l) (own : l.client.peer = l.process)
    (random : isRandomPassword l.password = true) : m.HandsOut l where
  published := published
  own := own
  random := isRandomPassword_iff.mp random
  password := isRandomPassword_ne random
  client := (if_pos running).trans published.qmp
  credentials cfg := by
    rw [Manager.vncCredentials, if_neg (not_not.mpr running), published.vncPassword]

theorem handsOutNothing_of_idle {m : Manager} (idle : m.state ≠ .running) : m.HandsOutNothing where
  client := if_neg idle
  refused := Manager.perform_refused idle
  credentials _ := if_pos idle

/-- The published handles are those of one recorded launch while the manager is running. -/
def RunsLaunch (s : Host × List Launch) : Prop :=
  s.1.m.state = .running → ∃ l ∈ s.2, s.1.m.Published l

/-- While the manager is running, its client talks to its process. -/
def TalksToOwn (s : Host) : Prop :=
  s.m.state = .running → ∀ p q, s.m.cmd = some p → s.m.qmp = some q → q.peer = p

theorem handlesBelong_iff {s : Host × List Launch} (recorded : Recorded s) (runs : RunsLaunch s) :
    HandlesBelong s ↔ TalksToOwn s.1 := by
  unfold HandlesBelong
  split
  · rename_i running
    constructor
    · rintro ⟨l, _, hands⟩ _ p q cmd qmp
      obtain rfl := Option.some.inj (hands.published.cmd.symm.trans cmd)
      obtain rfl := Option.some.inj (hands.published.qmp.symm.trans qmp)
      exact hands.own
    · intro own
      obtain ⟨l, member, published⟩ := runs running
      exact ⟨l, member, handsOut_of_published running published
        (own running _ _ published.cmd published.qmp) (recorded.2 l member)⟩
  · rename_i idle
    exact iff_of_true (handsOutNothing_of_idle idle) fun running => absurd running idle

theorem launches_subset : launches ⊆ s.noteLaunch e launches := by
  unfold Host.noteLaunch
  split
  · split
    · exact List.subset_append_left _ _
    · exact List.Subset.refl _
  · exact List.Subset.refl _

/-- A step makes the manager running only by publishing. -/
theorem running_of_effect (effect : Effect s e t) (running : t.m.state = .running) :
    (s.m.state = .running ∧ t.m.cmd = s.m.cmd ∧ t.m.qmp = s.m.qmp ∧
      t.m.vncPassword = s.m.vncPassword ∧ t.m.exited = s.m.exited) ∨
      ∃ k now c i p q password, e = .publish k now ∧ s.calls[k]? = some c ∧
        c.pc = .publishing i p q password ∧ t.m.Published ⟨p, q, password⟩ := by
  cases effect with
  | published found at_ =>
      exact .inr ⟨_, _, _, _, _, _, _, rfl, found, at_, rfl, rfl, rfl, rfl⟩
  | admitted h =>
      obtain ⟨_, rfl⟩ := Manager.startEnter_eq_some.mp h
      cases running
  | restarted _ _ h =>
      obtain ⟨_, rfl⟩ := Manager.startEnter_eq_some.mp h
      cases running
  | failed => cases running
  | marked => cases running
  | @handled p x status tail waiter found gone at_ h =>
      cases ignored : s.m.ignores p with
      | true =>
          have same : (s.m.onExit s.cfg p status tail).1 = s.m :=
            congrArg Prod.fst (Manager.onExit_of_ignores ignored)
          dsimp only at running ⊢
          rw [same] at running ⊢
          exact .inl ⟨running, rfl, rfl, rfl, rfl⟩
      | false =>
          obtain ⟨_, stopped | crashed⟩ := s.m.onExit_of_not_ignores s.cfg status tail ignored
          · cases stopped.symm.trans running
          · cases crashed.symm.trans running
  | noted => exact .inl ⟨running, rfl, rfl, rfl, rfl⟩
  | config | busy | moved | spawned | exited | waited | called | stopped =>
      exact .inl ⟨running, rfl, rfl, rfl, rfl⟩

/-- A call gets to its publication by the acceptance of its password. -/
theorem publishing_of_effect (effect : Effect s e t) {c : StartCall} (member : c ∈ t.calls)
    {i p : Nat} {q : Qmp} {password : String} (at_ : c.pc = .publishing i p q password) :
    (∃ d ∈ s.calls, d.pc = .publishing i p q password) ∨
      ∃ k d, s.calls[k]? = some d ∧ d.pc = .authenticating i p q ∧
        e = .passwordSet k (.ok password) := by
  have replaced {k : Nat} {d : StartCall} (member : c ∈ s.calls.set k d)
      (other : ∀ i p q password, d.pc ≠ .publishing i p q password) :
      ∃ d ∈ s.calls, d.pc = .publishing i p q password := by
    rcases List.mem_or_eq_of_mem_set member with old | rfl
    · exact ⟨c, old, at_⟩
    · exact absurd at_ (other _ _ _ _)
  have added (member : c ∈ s.calls ++ [({} : StartCall)]) :
      ∃ d ∈ s.calls, d.pc = .publishing i p q password := by
    rcases List.mem_append.mp member with old | new
    · exact ⟨c, old, at_⟩
    · obtain rfl := List.mem_singleton.mp new
      cases at_
  cases effect with
  | admitted => exact .inl (added member)
  | restarted => exact .inl (added member)
  | @moved _ k d d' pc found moves h =>
      rcases List.mem_or_eq_of_mem_set member with old | rfl
      · exact .inl ⟨c, old, at_⟩
      · rw [h] at at_
        cases moves with
        | passwordSet here =>
            cases at_
            exact .inr ⟨k, d, found, here, rfl⟩
        | notSpawned _ next | sawExit _ _ next | reaped _ _ next | gaveUp _ next =>
            rw [at_] at next
            cases next
        | _ => cases at_
  | spawned => exact .inl (replaced member fun _ _ _ _ => StartPc.noConfusion)
  | published _ _ h =>
      refine .inl (replaced member fun _ _ _ _ => ?_)
      rcases h with rfl | rfl <;> exact StartPc.noConfusion
  | noted => exact .inl (replaced member fun _ _ _ _ => StartPc.noConfusion)
  | failed => exact .inl (replaced member fun _ _ _ _ => StartPc.noConfusion)
  | config | busy | exited | handled | waited | called | stopped | marked =>
      exact .inl ⟨c, member, at_⟩

theorem recorded_step {y z : Host × List Launch} (recorded : Recorded y)
    (effect : Effect y.1 e z.1) (drawn : drawsPassword y.1 e = true)
    (noted : z.2 = y.1.noteLaunch e y.2) : Recorded z := by
  obtain ⟨s, launches⟩ := y
  obtain ⟨t, launches'⟩ := z
  obtain rfl : launches' = s.noteLaunch e launches := noted
  refine ⟨fun c member i p q password at_ => ?_, fun l member => ?_⟩
  · rcases publishing_of_effect effect member at_ with ⟨d, old, there⟩ | ⟨k, d, found, there, rfl⟩
    · exact launches_subset (recorded.1 d old i p q password there)
    · obtain ⟨accels, pc⟩ := d
      obtain rfl : pc = .authenticating i p q := there
      simp [Host.noteLaunch, found]
  · unfold Host.noteLaunch at member
    split at member
    · split at member
      · rcases List.mem_append.mp member with old | new
        · exact recorded.2 l old
        · obtain rfl := List.mem_singleton.mp new
          exact drawn
      · exact recorded.2 l member
    · exact recorded.2 l member

theorem runsLaunch_step {y z : Host × List Launch} (recorded : Recorded y) (runs : RunsLaunch y)
    (effect : Effect y.1 e z.1) (noted : z.2 = y.1.noteLaunch e y.2) : RunsLaunch z := by
  intro running
  rw [noted]
  rcases running_of_effect effect running with ⟨before, cmd, qmp, password, exited⟩ |
    ⟨k, now, c, i, p, q, password, _, found, at_, published⟩
  · obtain ⟨l, member, published⟩ := runs before
    exact ⟨l, launches_subset member, cmd.trans published.cmd, qmp.trans published.qmp,
      password.trans published.vncPassword, exited.trans published.exited⟩
  · have member := recorded.1 c (List.mem_of_getElem? found) i p q password at_
    exact ⟨_, launches_subset member, published⟩

/-- A step keeps a running manager talking to its process exactly when it publishes no client of
another one. -/
theorem talksToOwn_step (own : TalksToOwn s) (next : s.next goos e = some t) :
    TalksToOwn t ↔ PublishesOwn (s, launches) e := by
  constructor
  · rintro own' k now c i p q password rfl found at_
    obtain ⟨c', found', published⟩ := Option.bind_eq_some_iff.mp next
    obtain rfl := Option.some.inj (found.symm.trans found')
    unfold Host.publish at published
    rw [at_] at published
    obtain rfl := Option.some.inj published
    exact own' rfl p q rfl rfl
  · intro publishes running p q cmd qmp
    rcases running_of_effect (effect_of_next next) running with
      ⟨before, cmd', qmp', _, _⟩ | ⟨k, now, c, i, p', q', password, rfl, found, at_, published⟩
    · exact own before p q (cmd'.symm.trans cmd) (qmp'.symm.trans qmp)
    · obtain rfl := Option.some.inj (published.cmd.symm.trans cmd)
      obtain rfl := Option.some.inj (published.qmp.symm.trans qmp)
      exact publishes k now c i p' q' password rfl found at_

theorem lateExitInert (s : Host × List Launch) (e : Event) : LateExitInert goos s e := by
  intro p q handles cmd other t next
  have ignored : s.1.m.ignores p = true := by
    simpa [Manager.ignores, cmd] using other.symm
  cases e with
  | onExit p' tail =>
      obtain rfl : p' = p := by simpa [Event.handles] using handles
      obtain ⟨x, _, handled⟩ := Option.bind_eq_some_iff.mp next
      unfold Host.onExit at handled
      split at handled
      · obtain rfl := Option.some.inj handled
        exact congrArg Prod.fst (Manager.onExit_of_ignores ignored)
      · cases handled
  | _ => cases handles

/-- A running manager hands out the process, the client and the password of one launch, and the
client of its process, any other one hands out nothing, and the exit of a process that is not the
published one changes no handle, exactly in the runs where each launch that publishes its handles
has reached its own process at the QMP port. -/
theorem handles_belong_iff (x : Execution (launchSystem goos)) :
    x.Always HandlesBelong ∧ x.Meets (LateExitInert goos) ↔ x.Meets PublishesOwn := by
  have inert : x.Meets (LateExitInert goos) := fun _ _ => lateExitInert _ _
  rw [and_iff_left inert]
  have kept {y z : Host × List Launch} {e : Event} (h : Recorded y ∧ RunsLaunch y)
      (step : (launchSystem goos).next y e = some z) :
      (Recorded z ∧ RunsLaunch z) ∧ y.1.next goos e = some z.1 := by
    obtain ⟨next, noted⟩ := System.noting_next.mp step
    obtain ⟨drawn, next⟩ := System.restrict_next.mp next
    have effect := effect_of_next next
    exact ⟨⟨recorded_step h.1 effect drawn noted, runsLaunch_step h.1 h.2 effect noted⟩, next⟩
  apply x.run.always_iff (I := fun s => Recorded s ∧ RunsLaunch s)
  · rintro ⟨s, launches⟩ ⟨⟨cfg, rfl⟩, rfl⟩
    have recorded : Recorded (({ cfg } : Host), []) :=
      ⟨fun _ member => absurd member List.not_mem_nil,
        fun _ member => absurd member List.not_mem_nil⟩
    exact ⟨⟨recorded, nofun⟩, (handlesBelong_iff recorded nofun).mpr nofun⟩
  · intro y e z h _ _ step
    exact (kept h step).1
  · intro y e z h belong step
    obtain ⟨later, next⟩ := kept h step
    rw [handlesBelong_iff later.1 later.2]
    exact talksToOwn_step ((handlesBelong_iff h.1 h.2).mp belong) next

/-- The first process of a launch exits, and the launch reaches the process of the restart at the
QMP port. -/
def reachesRestart : List Event :=
  .start :: checked 0 ++
    [.spawn 0 none, .exit 0 (.failure "exit status 1"), .onExit 0 "", .restart 0] ++ checked 1 ++
    [.spawn 1 none, .dialed 0 (.ok 1), .passwordSet 0 (.ok "abcdefgh"), .publish 0 0]

/-- The manager then runs with a process that is gone and the client of the other one. -/
theorem handles_of_two_launches :
    ∃ x : Execution (launchSystem "linux"),
      ¬ (x.Always HandlesBelong ∧ x.Meets (LateExitInert "linux")) := by
  have run : exec (launchSystem "linux") ({ cfg := sampleConfig }, []) reachesRestart =
      some _ := rfl
  obtain ⟨x, last, _⟩ := Execution.of_exec (M := launchSystem "linux")
    ⟨⟨sampleConfig, rfl⟩, rfl⟩ run
  refine ⟨x, fun held => ?_⟩
  obtain ⟨l, _, hands⟩ : ∃ l ∈ x.final.2, x.final.1.m.HandsOut l :=
    (if_pos (last ▸ rfl)).mp held.1.2
  have process : some 0 = some l.process := (last ▸ rfl : _ = x.final.1.m.cmd).trans
    hands.published.cmd
  have client : some ⟨1⟩ = some l.client := (last ▸ rfl : _ = x.final.1.m.qmp).trans
    hands.published.qmp
  have own := hands.own
  rw [← Option.some.inj process, ← Option.some.inj client] at own
  cases own

end VmServer.Vm
