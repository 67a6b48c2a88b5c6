import VmServer.Library.Regex
import VmServer.Tunnel.Manager

/-!
# The link of a quick tunnel

A quick tunnel gets another random hostname each time cloudflared is started.
The address of the process before stays in the manager until the next one is
announced, and a registration line makes the manager connected with whatever
address is there. The link is the live one exactly as long as no process
registers before it has announced its own address.

## Implementation notes

The runs are those of one `supervise`, begun by `Start` on any manager;
`Stop` may be called at any time. Beside the state stand the lines that the
process started last has printed. The run attends to that process until it
has reported that it exited.
-/

namespace VmServer.Tunnel

open Config TransitionSystem Regex

/-- `[a-z0-9-]` -/
def hostChar : CharClass := fun c =>
  ('a' ≤ c && c ≤ 'z') || ('0' ≤ c && c ≤ '9') || c = '-'

/-- `https://[a-z0-9-]+\.trycloudflare\.com` -/
def quickURLRe : Pattern :=
  inTurn [literal "https://".toList, .many hostChar 1, literal ".trycloudflare.com".toList]

/-- `quickURLRe.FindString` -/
def findQuickURL (line : String) : String :=
  String.ofList (((find quickURLRe line.toList).map Match.text).getD [])

def apiEndpoint : String := "https://api.trycloudflare.com"

example : findQuickURL
    "2026-09-22T16:01:25Z INF |  https://unable-suggest-stating-pure.trycloudflare.com   |" =
    "https://unable-suggest-stating-pure.trycloudflare.com" := by decide +kernel

/-- What `Status` reports of the state and the address. -/
def Manager.status (m : Manager) : State × String :=
  (m.state, if m.state = .connected then m.url else "")

/-- The run has not reported yet that the process it has started last is gone. -/
def Phase.attends : Phase → Bool
  | .launched _ | .scanning | .matching _ | .waiting | .returned _ | .setting _ _ _ _ => true
  | _ => false

/-- The next step handles a registration line. -/
def Phase.registers : Phase → Bool
  | .matching line => isRegistration line
  | _ => false

/-- What the process started last has printed. -/
def RunEvent.noteLine (e : RunEvent) (printed : List String) : List String :=
  match e with
  | .launch (.ok _) => []
  | .line text => printed ++ [text]
  | _ => printed

def TunnelEvent.noteLine (e : TunnelEvent) (printed : List String) : List String :=
  match e with
  | .run _ step => step.noteLine printed
  | _ => printed

def TunnelEvent.starts : TunnelEvent → Bool
  | .start _ => true
  | _ => false

/-- One run of `supervise` in quick mode. -/
def superviseSystem : System Tunnels TunnelEvent where
  initial := {s | ∃ m cfg, cfg.enabled = true ∧ cfg.mode = "quick" ∧
    s = Tunnels.begun { manager := m } cfg}
  next s e := if e.starts then none else s.next findQuickURL e

/-- The run with the lines of the process started last. -/
def supervision : System (Tunnels × List String) TunnelEvent :=
  superviseSystem.noting [] fun _ e => e.noteLine

/-- The address is one that a line announces, and not the API endpoint. -/
structure PrintedIn (printed : List String) (url : String) : Prop where
  line : ∃ line ∈ printed, findQuickURL line = url ∧ url.toList <:+: line.toList
  full : url ≠ ""
  assigned : url ≠ apiEndpoint

/-- The link that is shown was printed by the process that the run attends to. -/
def LiveLink (s : Tunnels × List String) : Prop :=
  ∀ url, s.1.manager.status = (.connected, url) →
    PrintedIn s.2 url ∧ ∀ r ∈ s.1.runs, r.phase.attends = true

/-- A registration line is handled only when the process has announced an address, or when the
run has none of an earlier process. -/
def RegistersOwn (s : Tunnels × List String) (e : TunnelEvent) : Prop :=
  ∀ i step r, e = .run i step → s.1.runs[i]? = some r → r.phase.registers = true →
    s.1.manager.url = "" ∨ ∃ line ∈ s.2, (announced findQuickURL r.cfg line).isSome

/-! ## Announcements -/

/-- One of the lines announces the address. -/
def Announces (cfg : Config.Tunnel) (printed : List String) (url : String) : Prop :=
  ∃ line ∈ printed, announced findQuickURL cfg line = some url

variable {cfg : Config.Tunnel} {printed more : List String} {url line : String}

theorem findQuickURL_inside (line : String) : (findQuickURL line).toList <:+: line.toList := by
  rw [findQuickURL, String.toList_ofList]
  cases found : find quickURLRe line.toList with
  | none => exact List.nil_infix
  | some m => exact infix_of_find found

theorem announced_eq_some : announced findQuickURL cfg line = some url ↔
    cfg.mode = "quick" ∧ findQuickURL line = url ∧ url ≠ "" ∧ url ≠ apiEndpoint := by
  unfold announced
  constructor
  · intro h
    obtain ⟨⟨quick, full, assigned⟩, same⟩ := Option.ite_none_right_eq_some.mp h
    obtain rfl := Option.some.inj same
    exact ⟨quick, rfl, full, assigned⟩
  · rintro ⟨quick, rfl, full, assigned⟩
    exact if_pos ⟨quick, full, assigned⟩

theorem printedIn_iff (quick : cfg.mode = "quick") :
    PrintedIn printed url ↔ Announces cfg printed url := by
  constructor
  · rintro ⟨⟨line, member, found, _⟩, full, assigned⟩
    exact ⟨line, member, announced_eq_some.mpr ⟨quick, found, full, assigned⟩⟩
  · rintro ⟨line, member, announces⟩
    obtain ⟨_, found, full, assigned⟩ := announced_eq_some.mp announces
    exact ⟨⟨line, member, found, found ▸ findQuickURL_inside line⟩, full, assigned⟩

theorem Announces.append (h : Announces cfg printed url) : Announces cfg (printed ++ more) url :=
  h.imp fun _ => And.imp_left (List.mem_append_left more)

/-! ## One step of the run -/

/-- What a pending `setState` is about to write. -/
def Phase.Sound (cfg : Config.Tunnel) (printed : List String) : Phase → Prop
  | .setting state url _ next =>
      if state = .connected then Announces cfg printed url ∧ ∃ line, next = .matching line
      else url = "" ∧ (next = .downloading ∨ next = .done ∨ next = .backingOff)
  | _ => True

/-- The next step publishes an announced address. -/
def Phase.publishes : Phase → Bool
  | .setting state _ _ _ => state = .connected
  | _ => false

/-- What holds of the run whether or not the link is live. -/
structure Attended (m : Manager) (r : Run) (printed : List String) : Prop where
  quick : r.cfg.mode = "quick"
  attends : m.state = .connected → r.phase.attends = true
  full : m.state = .connected → m.url ≠ ""
  sound : r.phase.Sound r.cfg printed
  /-- An announced address is the one in the manager, once it has been published. -/
  own : (∃ line ∈ printed, (announced findQuickURL r.cfg line).isSome) →
    r.phase.publishes = true ∨ Announces r.cfg printed m.url

/-- A connected manager shows an announced address. -/
def Linked (m : Manager) (cfg : Config.Tunnel) (printed : List String) : Prop :=
  m.state = .connected → Announces cfg printed m.url

/-- What a step leaves behind; the link stays live unless the step registers a connection under
an address that was there before. -/
structure Stepped (m m' : Manager) (r : Run) (phase : Phase) (printed printed' : List String) :
    Prop where
  attended : Attended m' { r with phase } printed'
  linked : (r.phase.registers = true → m.url = "") → Linked m r.cfg printed →
    Linked m' r.cfg printed'

variable {m m' : Manager} {r : Run} {phase : Phase} {here : Phase}

/-- A step after which the manager reports the same. -/
theorem Attended.silent (h : Attended m r printed) (at_ : r.phase = here)
    (unpublished : here.publishes = false)
    (same : m'.state = m.state ∧ m'.url = m.url)
    (attends : here.attends = true → phase.attends = true)
    (sound : phase.Sound r.cfg printed) : Stepped m m' r phase printed printed := by
  obtain ⟨state, url⟩ := same
  constructor
  · constructor
    · exact h.quick
    · exact fun connected => attends (at_ ▸ h.attends (state ▸ connected))
    · rw [state, url]
      exact h.full
    · exact sound
    · intro some
      rcases h.own some with pending | own
      · rw [at_, unpublished] at pending
        cases pending
      · exact .inr (url ▸ own)
  · intro _ linked connected
    exact url ▸ linked (state ▸ connected)

/-- A step after which the manager is not connected. -/
theorem Attended.lost (h : Attended m r printed) (at_ : r.phase = here)
    (unpublished : here.publishes = false) (state : m'.state ≠ .connected) (url : m'.url = m.url)
    (sound : phase.Sound r.cfg printed) : Stepped m m' r phase printed printed := by
  constructor
  · constructor
    · exact h.quick
    · exact fun connected => absurd connected state
    · exact fun connected => absurd connected state
    · exact sound
    · intro some
      rcases h.own some with pending | own
      · rw [at_, unpublished] at pending
        cases pending
      · exact .inr (url ▸ own)
  · exact fun _ _ connected => absurd connected state

/-- In quick mode a registration connects a manager that has an address. -/
theorem registered_quick (quick : cfg.mode = "quick") :
    (m.registered cfg).url = m.url ∧
      (m.registered cfg).state = if m.url = "" then m.state else .connected := by
  have unnamed : cfg.mode ≠ "named" := by
    rw [quick]
    decide
  unfold Manager.registered
  rw [if_neg unnamed]
  by_cases empty : m.url = "" <;> simp [empty]

/-- A registration line is handled. -/
theorem Attended.registering (h : Attended m r printed) (at_ : r.phase = .matching line)
    (registers : isRegistration line = true) :
    Stepped m (m.registered r.cfg) r .scanning printed printed := by
  obtain ⟨url, state⟩ := registered_quick (m := m) h.quick
  have registering : r.phase.registers = true := at_ ▸ registers
  constructor
  · constructor
    · exact h.quick
    · exact fun _ => rfl
    · intro connected
      rw [url]
      by_cases empty : m.url = ""
      · rw [state, if_pos empty] at connected
        exact h.full connected
      · exact empty
    · exact trivial
    · intro some
      rcases h.own some with pending | own
      · rw [at_] at pending
        cases pending
      · exact .inr (url ▸ own)
  · intro unaddressed linked connected
    rw [state, if_pos (unaddressed registering)] at connected
    exact url ▸ linked connected

/-- A pending `setState` is made. -/
theorem Attended.setting (h : Attended m r printed) {state : State} {err : Option String}
    {next : Phase} (at_ : r.phase = .setting state url err next) :
    Stepped m (m.setState state url err) r next printed printed := by
  have sound := h.sound
  rw [at_] at sound
  simp only [Phase.Sound] at sound
  split at sound
  · rename_i connected
    obtain ⟨announces, line, rfl⟩ := sound
    have full : url ≠ "" := by
      obtain ⟨line, _, announced⟩ := announces
      exact (announced_eq_some.mp announced).2.2.1
    have shown : (m.setState state url err).url = url := if_pos full
    constructor
    · exact ⟨h.quick, fun _ => rfl, fun _ => shown.symm ▸ full, trivial,
        fun _ => .inr (shown.symm ▸ announces)⟩
    · exact fun _ _ _ => shown.symm ▸ announces
  · rename_i other
    obtain ⟨rfl, places⟩ := sound
    refine h.lost at_ (decide_eq_false other) other rfl ?_
    rcases places with rfl | rfl | rfl <;> exact trivial

/-- A line announces an address, which is about to be published. -/
theorem Attended.announcing (h : Attended m r printed)
    (found : announced findQuickURL r.cfg line = some url) :
    Stepped m (m.remember line) r (.setting .connected url none (.matching line)) printed
      (printed ++ [line]) := by
  have announces : Announces r.cfg (printed ++ [line]) url :=
    ⟨line, List.mem_append_right _ List.mem_cons_self, found⟩
  have sound : Phase.Sound r.cfg (printed ++ [line])
      (.setting .connected url none (.matching line)) := by
    rw [Phase.Sound, if_pos rfl]
    exact ⟨announces, line, rfl⟩
  exact ⟨⟨h.quick, fun _ => rfl, h.full, sound, fun _ => .inl rfl⟩,
    fun _ linked connected => (linked connected).append⟩

/-- A line that announces nothing is printed. -/
theorem Attended.printing (h : Attended m r printed) (at_ : r.phase = .scanning)
    (nothing : announced findQuickURL r.cfg line = none) :
    Stepped m (m.remember line) r (.matching line) printed (printed ++ [line]) := by
  refine ⟨⟨h.quick, fun _ => rfl, h.full, trivial, ?_⟩,
    fun _ linked connected => (linked connected).append⟩
  rintro ⟨line', member, announces⟩
  rcases List.mem_append.mp member with before | last
  · rcases h.own ⟨line', before, announces⟩ with pending | own
    · rw [at_] at pending
      cases pending
    · exact .inr own.append
  · obtain rfl := List.mem_singleton.mp last
    rw [nothing] at announces
    cases announces

/-- A new process is there, and the lines of the one before are forgotten. -/
theorem Attended.launched (h : Attended m r printed) (at_ : r.phase = .launching) {pid : Nat} :
    Stepped m m r (.launched pid) printed [] := by
  have lost : m.state ≠ .connected := fun connected => by
    have attends := h.attends connected
    rw [at_] at attends
    cases attends
  exact ⟨⟨h.quick, fun connected => absurd connected lost, h.full, trivial, by simp⟩,
    fun _ _ connected => absurd connected lost⟩

theorem Attended.step {e : RunEvent} (h : Attended m r printed)
    (stepped : r.step findQuickURL m e = some (m', phase)) :
    Stepped m m' r phase printed (e.noteLine printed) := by
  cases Run.moves_of_step stepped with
  | launched at_ => exact h.launched at_
  | publishes at_ => exact h.lost at_ rfl nofun rfl trivial
  | announced at_ found => exact h.announcing found
  | printed at_ nothing => exact h.printing at_ nothing
  | registers at_ registration => exact h.registering at_ registration
  | reports at_ => exact h.setting at_
  | found at_ | downloaded at_ | keeps at_ | ends at_ | goesOn at_ | notLaunched at_
  | retries at_ => exact h.silent at_ rfl ⟨rfl, rfl⟩ nofun trivial
  | skips at_ | closed at_ | exited at_ =>
      exact h.silent at_ rfl ⟨rfl, rfl⟩ (fun _ => rfl) trivial
  -- the run is about to write a state without an address
  | downloads at_ | notFound at_ | notDownloaded at_ | stops at_ | fails at_ | givesUp at_ =>
      exact h.silent at_ rfl ⟨rfl, rfl⟩ (fun _ => rfl) (by simp [Phase.Sound])

/-! ## Runs -/

/-- The call in progress, if any, is one of `Stop`. -/
def CallPhase.stops : CallPhase → Bool
  | .detaching resume | .cancelling _ resume | .waiting resume | .marking resume => resume.isNone
  | .resuming _ => false

/-- The run with what it attends to, and no other. -/
def Supervised (s : Tunnels × List String) : Prop :=
  (∀ phase, s.1.call = some phase → phase.stops = true) ∧
    ∃ r, s.1.runs = [r] ∧ Attended s.1.manager r s.2

variable {s t : Tunnels × List String} {e : TunnelEvent}

theorem liveLink_iff (runs : s.1.runs = [r]) (h : Attended s.1.manager r s.2) :
    LiveLink s ↔ Linked s.1.manager r.cfg s.2 := by
  constructor
  · intro live connected
    have status : s.1.manager.status = (.connected, s.1.manager.url) := by
      rw [Manager.status, if_pos connected, connected]
    exact (printedIn_iff h.quick).mp (live _ status).1
  · intro linked url status
    obtain ⟨connected, shown⟩ := Prod.mk.inj status
    rw [if_pos connected] at shown
    subst shown
    refine ⟨(printedIn_iff h.quick).mpr (linked connected), fun r' member => ?_⟩
    obtain rfl := List.mem_singleton.mp (runs ▸ member)
    exact h.attends connected

/-- Only the step that handles a registration line is taken in front of it. -/
theorem registers_step (printed : List String) {step : RunEvent}
    (registers : r.phase.registers = true)
    (stepped : r.step findQuickURL m step = some (m', phase)) :
    r.phase.publishes = false ∧ step.noteLine printed = printed ∧ m' = m.registered r.cfg := by
  obtain ⟨line, here, registration⟩ : ∃ line, r.phase = .matching line ∧
      isRegistration line = true := by
    cases here : r.phase <;> rw [here] at registers
    case matching line => exact ⟨line, rfl, registers⟩
    all_goals cases registers
  cases Run.moves_of_step stepped with
  | registers at_ => exact ⟨at_ ▸ rfl, rfl, rfl⟩
  | skips at_ other =>
      obtain rfl := Phase.matching.inj (here.symm.trans at_)
      rw [registration] at other
      cases other
  | _ at_ => cases here.symm.trans at_

/-- The link stays live exactly when a registration line finds its own address, or none. -/
theorem linked_iff {step : RunEvent} (h : Attended m r printed) (linked : Linked m r.cfg printed)
    (stepped : r.step findQuickURL m step = some (m', phase)) :
    Linked m' r.cfg (step.noteLine printed) ↔ (r.phase.registers = true →
      m.url = "" ∨ ∃ line ∈ printed, (announced findQuickURL r.cfg line).isSome) := by
  have after := h.step stepped
  by_cases registers : r.phase.registers = true
  · obtain ⟨unpublished, same, rfl⟩ := registers_step printed registers stepped
    obtain ⟨url, state⟩ := registered_quick (m := m) h.quick
    rw [same, Linked, url, state]
    constructor
    · intro live _
      by_cases empty : m.url = ""
      · exact .inl empty
      · obtain ⟨line, member, announces⟩ := live (if_neg empty)
        exact .inr ⟨line, member, announces ▸ rfl⟩
    · intro allowed connected
      rcases allowed registers with empty | own
      · rw [if_pos empty] at connected
        exact linked connected
      · exact (h.own own).resolve_left (by simp [unpublished])
  · exact iff_of_true (after.linked (absurd · registers) linked) (absurd · registers)

/-- What `Stop` does to the manager leaves the run alone, but for its context. -/
theorem Attended.stopping (h : Attended m r printed) {r' : Run} (cfg : r'.cfg = r.cfg)
    (phase : r'.phase = r.phase) (state : m'.state = .connected → m.state = .connected)
    (url : m'.url = m.url) :
    Attended m' r' printed ∧ (Linked m r.cfg printed → Linked m' r'.cfg printed) := by
  obtain ⟨quick, attends, full, sound, own⟩ := h
  constructor
  · constructor
    · rwa [cfg]
    · exact fun connected => phase ▸ attends (state connected)
    · exact fun connected => url ▸ full (state connected)
    · rwa [cfg, phase]
    · rwa [cfg, phase, url]
  · exact fun linked connected => cfg ▸ url ▸ linked (state connected)

/-- A step of `Stop` keeps the link as it is, or takes it away. -/
theorem supervised_call {c : CallPhase} (sup : Supervised s) (busy : s.1.call = some c) :
    Supervised (s.1.callStep c, s.2) ∧ (LiveLink s → LiveLink (s.1.callStep c, s.2)) := by
  obtain ⟨stops, r, runs, h⟩ := sup
  have stop := stops c busy
  have keep : ∀ t : Tunnels, (∀ phase, t.call = some phase → phase.stops = true) →
      (∃ r', t.runs = [r'] ∧ r'.cfg = r.cfg ∧ r'.phase = r.phase) →
      (t.manager.state = .connected → s.1.manager.state = .connected) →
      t.manager.url = s.1.manager.url →
      Supervised (t, s.2) ∧ (LiveLink s → LiveLink (t, s.2)) := by
    rintro t stops' ⟨r', runs', cfg, phase⟩ state url
    obtain ⟨h', linked⟩ := h.stopping cfg phase state url
    exact ⟨⟨stops', r', runs', h'⟩,
      fun live => (liveLink_iff runs' h').mpr (linked ((liveLink_iff runs h).mp live))⟩
  have same : ∃ r', s.1.runs = [r'] ∧ r'.cfg = r.cfg ∧ r'.phase = r.phase := ⟨r, runs, rfl, rfl⟩
  cases c with
  | detaching resume => exact keep _ (fun _ next => Option.some.inj next ▸ stop) same id rfl
  | cancelling run resume =>
      have cancelled : ∃ r', (s.1.cancelRun run).runs = [r'] ∧ r'.cfg = r.cfg ∧
          r'.phase = r.phase := by
        cases run with
        | none => exact same
        | some i =>
            rw [Tunnels.cancelRun, runs]
            cases i with
            | zero => exact ⟨_, rfl, rfl, rfl⟩
            | succ i => exact ⟨r, by simp, rfl, rfl⟩
      have manager : (s.1.cancelRun run).manager = s.1.manager := by cases run <;> rfl
      exact keep _ (fun _ next => Option.some.inj next ▸ stop) cancelled
        (fun connected => manager ▸ connected) (congrArg Manager.url manager)
  | waiting resume => exact keep _ (fun _ next => Option.some.inj next ▸ stop) same id rfl
  | marking resume =>
      cases resume with
      | none => exact keep _ nofun same nofun rfl
      | some cfg => cases stop
  | resuming cfg => cases stop

theorem supervised_next (sup : Supervised s) (h : supervision.next s e = some t) :
    Supervised t ∧ (LiveLink s → (LiveLink t ↔ RegistersOwn s e)) := by
  obtain ⟨next, noted⟩ := System.noting_next.mp h
  obtain ⟨going, next⟩ := Option.ite_none_left_eq_some.mp next
  obtain ⟨t, printed⟩ := t
  obtain rfl : printed = e.noteLine s.2 := noted
  cases e with
  | start cfg => exact absurd rfl going
  | stop =>
      obtain ⟨_, next⟩ := Option.ite_none_left_eq_some.mp next
      obtain rfl := Option.some.inj next
      obtain ⟨_, r, runs, attended⟩ := sup
      refine ⟨⟨fun _ busy => Option.some.inj busy ▸ rfl, r, runs, attended⟩, fun live => ?_⟩
      exact iff_of_true live nofun
  | call =>
      obtain ⟨c, busy, rfl⟩ := Option.map_eq_some_iff.mp next
      obtain ⟨sup', kept⟩ := supervised_call sup busy
      exact ⟨sup', fun live => iff_of_true (kept live) nofun⟩
  | run i step =>
      obtain ⟨stops, r, runs, attended⟩ := sup
      obtain ⟨r', m, phase, here, stepped, rfl⟩ := Tunnels.next_run next
      cases i with
      | succ i => simp [runs] at here
      | zero =>
          obtain rfl : r' = r := by simpa [runs, eq_comm] using here
          have runs' : s.1.runs.set 0 { r' with phase } = [{ r' with phase }] := by rw [runs]; rfl
          have after := (attended.step stepped).attended
          refine ⟨⟨stops, _, runs', after⟩, fun live => ?_⟩
          have linked := (liveLink_iff runs attended).mp live
          refine (liveLink_iff (r := { r' with phase }) runs' after).trans
            ((linked_iff attended linked stepped).trans ?_)
          constructor
          · rintro registers i step' r same found
            obtain ⟨rfl, rfl⟩ := TunnelEvent.run.inj same
            obtain rfl : r = r' := by simpa [runs, eq_comm] using found
            exact registers
          · exact fun registers => registers 0 step r' rfl (by rw [runs]; rfl)

/-- The link that is shown is live throughout a run exactly when no process registers under the
address of an earlier one. -/
theorem live_link_iff (x : Execution supervision) :
    x.Always LiveLink ↔ x.Meets RegistersOwn := by
  refine x.run.always_iff (I := Supervised) ?_ ?_ ?_
  · rintro ⟨s, printed⟩ ⟨⟨m, cfg, enabled, quick, rfl⟩, rfl⟩
    have runs : (Tunnels.begun { manager := m } cfg).runs = [{ cfg }] := if_pos enabled
    have state : (m.begin cfg 0).state = .starting := by simp [Manager.begin, enabled]
    have starting : (m.begin cfg 0).state ≠ .connected := by
      rw [state]
      exact nofun
    have attended : Attended (m.begin cfg 0) { cfg } [] :=
      ⟨quick, fun connected => absurd connected starting,
        fun connected => absurd connected starting, trivial, by simp⟩
    exact ⟨⟨nofun, _, runs, attended⟩,
      (liveLink_iff runs attended).mpr fun connected => absurd connected starting⟩
  · exact fun sup _ _ next => (supervised_next sup next).1
  · exact fun sup live next => (supervised_next sup next).2 live

/-- A quick tunnel with cloudflared in place. -/
def quickMode : Config.Tunnel where
  enabled := true
  mode := "quick"
  token := ""
  hostname := ""
  binaryPath := ""
  autoDownload := false

def announcement : String := "INF |  https://first-host.trycloudflare.com  |"

def registration : String := "INF Registered tunnel connection connIndex=0"

/-- The first process announces its address and exits; the next one registers. -/
def registerAfterRestart : List TunnelEvent :=
  [.run 0 (.find (.ok "cloudflared")), .run 0 .go, .run 0 .go, .run 0 (.launch (.ok 1)),
    .run 0 .go, .run 0 (.line announcement), .run 0 .go, .run 0 .go, .run 0 .eof,
    .run 0 (.exit (some "exit status 1")), .run 0 .go, .run 0 .go, .run 0 .timer, .run 0 .go,
    .run 0 (.launch (.ok 2)), .run 0 .go, .run 0 (.line registration), .run 0 .go]

/-- The second process runs, and the address is that of the first. -/
def deadLink : Tunnels × List String where
  fst := {
    manager := {
      cfg := quickMode
      state := .connected
      url := "https://first-host.trycloudflare.com"
      binary := "cloudflared"
      cmd := some 2
      cancel := some 0
      tail := [announcement, registration] }
    runs := [{ cfg := quickMode, phase := .scanning }]
    last := some .started }
  snd := [registration]

theorem connected_with_dead_link : ∃ x : Execution supervision, ¬ x.Always LiveLink := by
  have start : (Tunnels.begun { manager := { cfg := quickMode } } quickMode, []) ∈
      supervision.initial := ⟨⟨_, quickMode, rfl, rfl, rfl⟩, rfl⟩
  have run : exec supervision (Tunnels.begun { manager := { cfg := quickMode } } quickMode, [])
      registerAfterRestart = some deadLink := by decide +kernel
  refine Execution.exists_not_always start run fun live => ?_
  obtain ⟨⟨line, member, found, _⟩, _⟩ := (live _ rfl).1
  obtain rfl := List.mem_singleton.mp member
  have nothing : findQuickURL registration = "" := by decide +kernel
  exact absurd (nothing.symm.trans found) (by decide)

end VmServer.Tunnel
