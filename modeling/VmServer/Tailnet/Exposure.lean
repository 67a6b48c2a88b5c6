import VmServer.Library.Contributions
import VmServer.Tailnet.Status

/-!
# What a running node is said to serve on

Whether a running node is reachable from the internet is read off the Funnel
setting and an empty note. The setting is the one of the last `Start`, the
note the one written last: the write that makes the manager running replaces
the note of `listenTailnet`, and runs of earlier calls still write theirs.

## Implementation notes

Beside the station stands what the run that made the manager running last
serves on.
-/

namespace VmServer.Tailnet

open Config TransitionSystem

/-- What a run has made the manager running with. -/
structure Served where
  listener : Listener
  /-- The run was started with Funnel on. -/
  requested : Bool
  deriving DecidableEq, Repr

def Mentions (note text : String) : Prop := text.toList <:+: note.toList

/-- The status of a running node does not hide what it serves on. -/
structure Discloses (st : Status) (v : Served) : Prop where
  works : st.funnel = true → st.note = "" → v.listener = .funnel
  certificate : v.listener = .selfSigned → Mentions st.note "self-signed certificate"
  fallback : v.requested = true → v.listener ≠ .funnel → Mentions st.note "Funnel unavailable"

/-- Records what a run serves on when it makes the manager running. -/
def Station.noteServed (s : Station) (e : StationEvent) (served : Option Served) : Option Served :=
  match e with
  | .run i .go =>
      match s.nodes.runs[i]?, s.phases[i]? with
      | some r, some (.ready _ _ ln) => some ⟨ln, r.cfg.funnel⟩
      | _, _ => served
  | _ => served

def exposureSystem : System (Station × Option Served) StationEvent :=
  stationSystem.noting none Station.noteServed

/-- While the manager reports running, the report discloses what is served on. -/
def Truthful (s : Station × Option Served) : Prop :=
  s.1.status.state = .running → ∃ v, s.2 = some v ∧ Discloses s.1.status v

/-- The step out of this phase makes the manager running only on another listener than the
self-signed one, and for the Funnel setting of the last `Start`; and it writes the note of
`listenTailnet` only when no running node has to report that Funnel is unavailable. -/
def RunPhase.tells (s : Station × Option Served) (cfg : Tailscale) : RunPhase → Bool
  | .ready _ _ ln => ln ≠ .selfSigned && (!s.1.nodes.manager.cfg.funnel || cfg.funnel)
  | .noting _ _ =>
      s.1.report.state ≠ .running || s.2.all fun v => !v.requested || v.listener = .funnel
  | _ => true

/-- The step of a run keeps the notes that have to be shown. -/
def keepsNotes (s : Station × Option Served) : StationEvent → Bool
  | .run i _ =>
      match s.1.nodes.runs[i]?, s.1.phases[i]? with
      | some r, some p => p.tells s r.cfg
      | _, _ => true
  | _ => true

/-! ## The local note of a run -/

/-- A run with Funnel on that has not got it says so in its note. -/
def RunPhase.Noted (cfg : Tailscale) : RunPhase → Prop
  | .listenTailnet _ note | .certified _ note | .uncertified _ note | .noting _ note =>
      cfg.funnel = true → Mentions note "Funnel unavailable"
  | .ready _ note ln =>
      cfg.funnel = true → ln ≠ .funnel → Mentions note "Funnel unavailable"
  | _ => True

theorem mentions_funnelNote (e : String) : Mentions (funnelNote e) "Funnel unavailable" := by
  have opening : "Funnel unavailable: " = "Funnel unavailable" ++ ": " := by decide
  have parts : funnelNote e = "Funnel unavailable" ++
      (": " ++ (shortErr e ++ " Serving on the tailnet only.")) := by
    unfold funnelNote
    rw [opening, String.append_assoc, String.append_assoc]
  have split := congrArg String.toList parts
  rw [String.toList_append] at split
  exact ⟨[], _, split.symm⟩

theorem mentions_selfSignedNote : Mentions selfSignedNote "self-signed certificate" := by
  unfold Mentions
  decide +kernel

theorem not_mentions_empty {text : String} (full : text ≠ "") : ¬ Mentions "" text := fun h =>
  full (String.toList_inj.mp (List.infix_nil.mp h))

variable {r : Run} {p q : RunPhase} {e : RunEvent} {selfSigned : Bool}

theorem orReturn_noted {cfg : Tailscale} {err : Option String} {context : String}
    (next : q.Noted cfg) : (RunPhase.orReturn err context q).Noted cfg := by
  cases err with
  | none => exact next
  | some e => exact trivial

/-- The local note is empty on the tailnet without Funnel, and tells of Funnel otherwise. -/
theorem advance_noted (noted : p.Noted r.cfg) (h : p.advance selfSigned r e = some q) :
    q.Noted r.cfg := by
  cases p <;> cases e <;> simp only [RunPhase.advance, reduceCtorEq] at h
  case reading.status answer =>
    rcases answer with text | ⟨dnsName, ip⟩ <;> obtain rfl := Option.some.inj h
    · exact trivial
    · split
      · exact trivial
      · rename_i off
        exact fun on => absurd on off
  case funnelling.funnel addr err =>
    cases err <;> obtain rfl := Option.some.inj h
    · exact fun _ other => absurd rfl other
    · exact fun _ => mentions_funnelNote _
  case listenTailnet.certDomains addr note any =>
    obtain rfl := Option.some.inj h
    split <;> exact noted
  case certified.listen addr note err =>
    obtain rfl := Option.some.inj h
    exact orReturn_noted fun on _ => noted on
  case uncertified.listen addr note err =>
    obtain rfl := Option.some.inj h
    refine orReturn_noted ?_
    split
    · exact noted
    · exact fun on _ => noted on
  case noting.go addr note =>
    obtain rfl := Option.some.inj h
    exact fun on _ => noted on
  case polling.done =>
    obtain ⟨_, h⟩ := Option.ite_none_right_eq_some.mp h
    obtain rfl := Option.some.inj h
    exact trivial
  case polling.tick answer =>
    rcases answer with _ | ⟨backend, authURL⟩ <;> obtain rfl := Option.some.inj h
    · exact trivial
    · split <;> exact trivial
  case returned.go err =>
    cases err <;> obtain rfl := Option.some.inj h
    · exact trivial
    · split <;> exact trivial
  all_goals
    obtain rfl := Option.some.inj h
    first | exact trivial | exact orReturn_noted trivial

/-! ## Runs -/

/-- Every run has noted what it has not got. -/
structure AllNoted (s : Station) : Prop where
  length : s.phases.length = s.nodes.runs.length
  noted : ∀ (i : Nat) (r : Run) (p : RunPhase),
    s.nodes.runs[i]? = some r → s.phases[i]? = some p → p.Noted r.cfg

/-- The settings that the runs were started with. -/
def cfgs (runs : List Run) : List Tailscale := runs.map Run.cfg

theorem cfgs_modify (runs : List Run) (i : Nat) {f : Run → Run} (keeps : ∀ r, (f r).cfg = r.cfg) :
    cfgs (runs.modify i f) = cfgs runs := by
  induction runs generalizing i with
  | nil => simp [cfgs]
  | cons r runs ih =>
      cases i with
      | zero => simp [cfgs, keeps]
      | succ i => exact congrArg (r.cfg :: ·) (ih i)

/-- A step of a call begins a run, or leaves the settings of the runs and of the manager. -/
theorem callStep_cases {s t : Nodes} {k : Nat} {phase : CallPhase}
    (h : s.callStep k phase = some t) :
    (∃ cfg, phase = .resuming cfg ∧ t = (s.begin cfg).move k .returned) ∨
      (∀ cfg, phase ≠ .resuming cfg) ∧ t.manager.cfg = s.manager.cfg ∧
        cfgs t.runs = cfgs s.runs := by
  cases phase with
  | resuming cfg => exact .inl ⟨cfg, rfl, (Option.some.inj h).symm⟩
  | stopping resume =>
      refine .inr ⟨nofun, ?_⟩
      simp only [Nodes.callStep] at h
      split at h <;> obtain rfl := Option.some.inj h <;> exact ⟨rfl, rfl⟩
  | cancelling i done resume =>
      obtain rfl := Option.some.inj h
      exact .inr ⟨nofun, rfl, cfgs_modify _ _ fun _ => rfl⟩
  | waiting done resume =>
      obtain rfl := Option.some.inj h
      exact .inr ⟨nofun, rfl, rfl⟩
  | marking resume =>
      obtain rfl := Option.some.inj h
      exact .inr ⟨nofun, rfl, rfl⟩
  | returned => cases h

variable {s t : Station} {served : Option Served}

theorem AllNoted.of_cfgs (h : AllNoted s) (same : cfgs t.nodes.runs = cfgs s.nodes.runs)
    (phases : t.phases = s.phases) : AllNoted t := by
  constructor
  · have length := congrArg List.length same
    rw [cfgs, cfgs, List.length_map, List.length_map] at length
    rw [phases, h.length, length]
  · intro i r p found here
    have there : (cfgs s.nodes.runs)[i]? = some r.cfg := by
      rw [← same, cfgs, List.getElem?_map, found]
      rfl
    rw [cfgs, List.getElem?_map] at there
    obtain ⟨r', found', cfg⟩ := Option.map_eq_some_iff.mp there
    exact cfg ▸ h.noted i r' p found' (phases ▸ here)

theorem AllNoted.begin (h : AllNoted s) (cfg : Tailscale) (k : Nat) :
    AllNoted { s.called (.resuming cfg) with nodes := (s.nodes.begin cfg).move k .returned } := by
  by_cases enabled : cfg.enabled = true
  · constructor
    · simp [Station.called, Nodes.begin, Nodes.move, enabled, h.length]
    · intro i r p found here
      simp only [Nodes.begin, Nodes.move, enabled, if_true, Contributions.getElem?_concat] at found
      simp only [Station.called, enabled, if_true, Contributions.getElem?_concat, h.length] at here
      split at here
      · obtain rfl := Option.some.inj here
        exact trivial
      · rename_i old
        rw [if_neg old] at found
        exact h.noted i r p found here
  · apply h.of_cfgs <;> simp [Station.called, Nodes.begin, Nodes.move, enabled]

theorem AllNoted.set (h : AllNoted s) {i : Nat} (found : s.nodes.runs[i]? = some r)
    (here : s.phases[i]? = some p) (noted : q.Noted r.cfg) :
    AllNoted { s with phases := s.phases.set i q } := by
  constructor
  · rw [List.length_set]
    exact h.length
  · intro j r' p' found' here'
    rw [Contributions.getElem?_set here] at here'
    split at here'
    · rename_i same
      subst same
      obtain rfl := Option.some.inj (found.symm.trans found')
      exact Option.some.inj here' ▸ noted
    · exact h.noted j r' p' found' here'

/-- Only the step that makes the manager running is recorded. -/
theorem noteServed_of_other {i : Nat} {step : RunEvent} (found : s.phases[i]? = some p)
    (other : ∀ addr note ln, p ≠ .ready addr note ln) :
    s.noteServed (.run i step) served = served := by
  cases step with
  | go =>
      simp only [Station.noteServed, found]
      split
      · rename_i addr note ln _ ready
        exact absurd (Option.some.inj ready) (other addr note ln)
      · rfl
  | _ => rfl

/-- What a step of a run writes that does not make the manager running. -/
theorem write_cases (rep : Report) (other : ∀ addr note ln, p ≠ .ready addr note ln) :
    (∃ addr note, p = .noting addr note) ∨ p.write rep = rep ∨ (p.write rep).state ≠ .running := by
  cases p with
  | ready addr note ln => exact absurd rfl (other addr note ln)
  | noting addr note => exact .inl ⟨addr, note, rfl⟩
  | login authURL => exact .inr (.inr nofun)
  | failing e => exact .inr (.inr nofun)
  | _ => exact .inr (.inl rfl)

theorem Truthful.of_same (h : Truthful (s, served)) (report : t.report = s.report)
    (cfg : t.nodes.manager.cfg = s.nodes.manager.cfg) : Truthful (t, served) := by
  have status : t.status = s.status := by simp only [Station.status, report, cfg]
  rwa [Truthful, status]

/-- The invariant of a run whose steps all keep the notes. -/
structure Open (s : Station × Option Served) : Prop where
  noted : AllNoted s.1
  truthful : Truthful s

theorem open_call {k : Nat} {phase : CallPhase} (h : Open (s, served))
    (next : s.callStep k phase = some t) : Open (t, served) := by
  obtain ⟨nodes, step, rfl⟩ := Option.map_eq_some_iff.mp next
  rcases callStep_cases step with ⟨cfg, rfl, rfl⟩ | ⟨other, cfg, runs⟩
  · constructor
    · exact h.noted.begin cfg k
    · intro running
      by_cases enabled : cfg.enabled <;>
        simp [Station.status, Station.called, Report.begin, enabled] at running
  · have called : (s.called phase).phases = s.phases := by
      cases phase with
      | resuming cfg => exact absurd rfl (other cfg)
      | _ => rfl
    refine ⟨h.noted.of_cfgs runs called, ?_⟩
    cases phase with
    | resuming cfg => exact absurd rfl (other cfg)
    | marking resume =>
        intro running
        by_cases disabled : s.report.state = .disabled <;>
          simp [Station.status, Station.called, Report.stopped, disabled] at running
    | _ => exact h.truthful.of_same rfl cfg

theorem open_run {i : Nat} {r : Run} {p q : RunPhase} {e : RunEvent} (h : Open (s, served))
    (found : s.nodes.runs[i]? = some r) (here : s.phases[i]? = some p)
    (tells : p.tells (s, served) r.cfg = true) (next : p.advance s.selfSigned r e = some q) :
    Open (s.runStep i p q, s.noteServed (.run i e) served) := by
  have manager : (s.runStep i p q).nodes.manager = s.nodes.manager := by
    by_cases ended : q = .closed <;> simp [Station.runStep, ended]
  have runs : cfgs (s.runStep i p q).nodes.runs = cfgs s.nodes.runs := by
    by_cases ended : q = .closed
    · simp only [Station.runStep, ended, if_true]
      exact cfgs_modify _ _ fun _ => rfl
    · simp only [Station.runStep, ended, if_false]
  have before := h.noted.noted i r p found here
  refine ⟨(h.noted.set found here (advance_noted before next)).of_cfgs runs rfl, ?_⟩
  by_cases ready : ∃ addr note ln, p = .ready addr note ln
  · obtain ⟨addr, note, ln, rfl⟩ := ready
    obtain ⟨certified, setting⟩ := (Bool.and_eq_true _ _).mp tells
    obtain rfl : e = .go := by
      cases e <;> simp only [RunPhase.advance, reduceCtorEq] at next
      rfl
    have recorded : s.noteServed (.run i .go) served = some ⟨ln, r.cfg.funnel⟩ := by
      simp only [Station.noteServed, found, here]
    refine fun _ => ⟨_, recorded, ?_, fun self => absurd self (of_decide_eq_true certified), before⟩
    intro on empty
    by_contra other
    have wanted : s.nodes.manager.cfg.funnel = true := congrArg Manager.cfg manager ▸ on
    have requested : r.cfg.funnel = true := by simpa [wanted] using setting
    have told : Mentions "" "Funnel unavailable" := (empty : note = "") ▸ before requested other
    exact not_mentions_empty (by decide) told
  · have other : ∀ addr note ln, p ≠ .ready addr note ln := fun addr note ln same =>
      ready ⟨addr, note, ln, same⟩
    rw [noteServed_of_other here other]
    rcases write_cases s.report other with ⟨addr, note, rfl⟩ | same | idle
    · intro running
      obtain ⟨v, recorded, _⟩ := h.truthful running
      have full : selfSignedNote ≠ "" := by decide
      have up : s.report.state = .running := running
      obtain rfl : served = some v := recorded
      refine ⟨v, rfl, fun _ empty => absurd empty full, fun _ => mentions_selfSignedNote, ?_⟩
      intro requested other
      simp [RunPhase.tells, up, requested, other] at tells
    · exact h.truthful.of_same same (congrArg Manager.cfg manager)
    · exact fun running => absurd running idle

/-- As long as every run keeps the notes, the status of a running node discloses what is served
on. -/
theorem status_truthful (x : Execution exposureSystem)
    (kept : x.Meets fun s e => keepsNotes s e = true) : x.Always Truthful := by
  have all : x.Always Open := by
    refine x.run.always ?_ ?_ kept
    · rintro ⟨s, served⟩ ⟨⟨cfg, selfSigned, rfl⟩, rfl⟩
      exact ⟨⟨rfl, fun _ _ _ found => by cases found⟩, nofun⟩
    · rintro ⟨s, served⟩ e ⟨t, served'⟩ h keeps next
      obtain ⟨next, rfl⟩ := System.noting_next.mp next
      cases e with
      | start cfg =>
          obtain rfl := Option.some.inj next
          exact ⟨h.noted.of_cfgs rfl rfl, h.truthful.of_same rfl rfl⟩
      | stop =>
          obtain rfl := Option.some.inj next
          exact ⟨h.noted.of_cfgs rfl rfl, h.truthful.of_same rfl rfl⟩
      | call k =>
          obtain ⟨phase, _, next⟩ := Option.bind_eq_some_iff.mp next
          exact open_call h next
      | run i step =>
          obtain ⟨r, found, next⟩ := Option.bind_eq_some_iff.mp next
          obtain ⟨p, here, next⟩ := Option.bind_eq_some_iff.mp next
          obtain ⟨q, advance, rfl⟩ := Option.map_eq_some_iff.mp next
          have tells : p.tells (s, served) r.cfg = true := by
            simpa only [keepsNotes, found, here] using keeps
          exact open_run h found here tells advance
  exact all.mono fun _ h => h.truthful

def nodeSetting (funnel : Bool) : Tailscale where
  enabled := true
  hostname := "vmserver"
  funnel := funnel
  authKey := ""
  controlURL := ""

def newNode (funnel : Bool) : Station where
  nodes := { manager := { cfg := nodeSetting funnel } }
  selfSigned := true

theorem newNode_initial (funnel : Bool) : (newNode funnel, none) ∈ exposureSystem.initial :=
  ⟨⟨nodeSetting funnel, true, rfl⟩, rfl⟩

/-- The node is started in one call, and has logged in. -/
def loggedIn (funnel : Bool) : List StationEvent :=
  [.start (nodeSetting funnel), .call 0, .call 0, .run 0 (.start none), .run 0 (.client none),
    .run 0 (.up none), .run 0 (.status (.ok ("vmserver.example.ts.net.", "100.64.0.1")))]

/-- The node serves, and nothing is noted. -/
def serving (funnel : Bool) : Station where
  nodes := {
    manager := { cfg := nodeSetting funnel, cancel := some 0, done := some 0 }
    runs := [{ cfg := nodeSetting funnel }]
    calls := [.returned]
    saved := some (nodeSetting funnel) }
  selfSigned := true
  report := {
    state := .running
    url := "https://vmserver.example.ts.net"
    ip := "100.64.0.1" }
  phases := [.serving]

/-- A node that gets its Funnel listener. -/
theorem funnel_disclosed : ∃ x : Execution exposureSystem,
    x.final.1.status.state = .running ∧ x.Always Truthful := by
  have run : exec (exposureSystem.restrict keepsNotes) (newNode true, none)
      (loggedIn true ++ [.run 0 (.funnel none), .run 0 .go]) =
      some (serving true, some ⟨.funnel, true⟩) := by decide +kernel
  obtain ⟨x, meets, last⟩ := Execution.exists_meets (newNode_initial true) (Leads.of_exec run)
  exact ⟨x, by rw [last]; rfl, status_truthful x meets⟩

/-- A node without Funnel falls back to the self-signed certificate. -/
theorem fallback_not_disclosed : ∃ x : Execution exposureSystem, ¬ x.Always Truthful := by
  have run : exec exposureSystem (newNode false, none)
      (loggedIn false ++ [.run 0 (.certDomains false), .run 0 (.listen none), .run 0 .go,
        .run 0 .go]) = some (serving false, some ⟨.selfSigned, false⟩) := by decide +kernel
  refine Execution.exists_not_always (newNode_initial false) run fun held => ?_
  obtain ⟨v, recorded, discloses⟩ := held rfl
  obtain rfl := Option.some.inj recorded
  exact not_mentions_empty (by decide) (discloses.certificate rfl)

end VmServer.Tailnet
