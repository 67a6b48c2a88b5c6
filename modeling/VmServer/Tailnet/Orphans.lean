import VmServer.Library.Contributions
import VmServer.Tailnet.Manager

/-!
# Runs that no Stop can reach

A run is out of reach once another run has taken the place of its cancel
function. That happens when a `Start` begins its run while another run is
uncancelled, which is possible since other calls may come between the two parts
of `Start`, and between the two parts of `Stop` in which it takes the cancel
function and calls it.

## Implementation notes

There are two readings of what the next `Stop` reaches. In the instant in which
a `Stop` has taken a cancel function and not called it, nothing is in place of
it, so every `Stop` of a run breaks `NoOrphan` for that instant. `InReach`
counts the run as reached by the `Stop` that is about to cancel it.
-/

namespace VmServer.Tailnet

open Config TransitionSystem

namespace Nodes

/-- The only run that may be uncancelled is the one that the next `Stop` cancels and waits
for. -/
def NoOrphan (s : Nodes) : Prop :=
  ∀ i, s.Live i → s.manager.cancel = some i ∧ s.manager.done = some i

/-- A `Stop` has taken the cancel function of the run and is about to call it. -/
def Taken (s : Nodes) (i : Nat) : Prop :=
  ∃ (k : Nat) (done : Option Nat) (resume : Option Tailscale),
    s.calls[k]? = some (.cancelling i done resume)

/-- At most one run is uncancelled, and the next `Stop` reaches it or one that is in progress
has. -/
structure InReach (s : Nodes) : Prop where
  unique : ∀ i j, s.Live i → s.Live j → i = j
  reached : ∀ i, s.Live i →
    s.manager.cancel = some i ∧ s.manager.done = some i ∨ s.Taken i

/-- The cancel function in place is that of an uncancelled run, those that were taken are not
in place any more. -/
structure CancelLive (s : Nodes) : Prop where
  live : ∀ i, s.manager.cancel = some i → s.Live i
  taken : ∀ i, s.Taken i → i < s.runs.length ∧ s.manager.cancel ≠ some i

/-- A `Stop`, or the one a `Start` begins with, finds no run to stop. -/
def StopsNone (s : Nodes) (e : TailnetEvent) : Prop :=
  ∀ k resume, e = .call k → s.calls[k]? = some (.stopping resume) → s.manager.cancel = none

/-- A `Start` begins a run only when no cancel function is in place. -/
def BeginsAlone (s : Nodes) (e : TailnetEvent) : Prop :=
  ∀ k cfg, e = .call k → s.calls[k]? = some (.resuming cfg) → cfg.enabled = true →
    s.manager.cancel = none

/-- A `Start` begins a run only when every other one has been cancelled. -/
def BeginsLast (s : Nodes) (e : TailnetEvent) : Prop :=
  ∀ k cfg, e = .call k → s.calls[k]? = some (.resuming cfg) → cfg.enabled = true →
    ∀ i, ¬ s.Live i

variable {s t : Nodes}

theorem NoOrphan.inReach (h : s.NoOrphan) : s.InReach where
  unique i j hi hj := by
    have same := (h i hi).1.symm.trans (h j hj).1
    exact Option.some.inj same
  reached i hi := .inl (h i hi)

theorem live_cancelRun (i j : Nat) : (s.cancelRun i).Live j ↔ s.Live j ∧ j ≠ i := by
  unfold Live cancelRun
  dsimp only
  rw [List.getElem?_modify]
  by_cases same : i = j
  · subst same
    simp
  · simp [same, Ne.symm same]

theorem live_close (i j : Nat) :
    ({ s with runs := s.runs.modify i fun r => { r with closed := true } } : Nodes).Live j ↔
      s.Live j := by
  unfold Live
  dsimp only
  rw [List.getElem?_modify]
  cases s.runs[j]? with
  | none => simp
  | some r => by_cases same : i = j <;> simp [same]

theorem live_lt {i : Nat} (h : s.Live i) : i < s.runs.length := by
  obtain ⟨r, found, _⟩ := h
  exact (List.getElem?_eq_some_iff.mp found).1

theorem live_begin {cfg : Tailscale} (enabled : cfg.enabled = true) (j : Nat) :
    (s.begin cfg).Live j ↔ s.Live j ∨ j = s.runs.length := by
  simp only [Live, begin, enabled, if_true, Contributions.getElem?_concat]
  by_cases new : s.runs.length = j
  · subst new
    simp
  · simp [new, Ne.symm new]

theorem live_begin_disabled {cfg : Tailscale} (disabled : cfg.enabled = false) (j : Nat) :
    (s.begin cfg).Live j ↔ s.Live j := by
  simp [begin, disabled, Live]

/-- A call goes on to a phase in which it is not about to cancel a run. -/
theorem taken_move {k : Nat} {phase : CallPhase} (new : CallPhase)
    (here : s.calls[k]? = some phase)
    (other : ∀ i done resume, new ≠ .cancelling i done resume) (j : Nat) :
    (s.move k new).Taken j ↔ ∃ k' done resume, k' ≠ k ∧
      s.calls[k']? = some (.cancelling j done resume) := by
  unfold Taken move
  simp only [Contributions.getElem?_set here]
  constructor
  · rintro ⟨k', done, resume, found⟩
    by_cases same : k = k'
    · rw [if_pos same] at found
      exact absurd (Option.some.inj found) (other j done resume)
    · exact ⟨k', done, resume, Ne.symm same, (if_neg same).symm.trans found⟩
  · rintro ⟨k', done, resume, different, found⟩
    exact ⟨k', done, resume, (if_neg (Ne.symm different)).trans found⟩

/-- A call that was not about to cancel a run goes on to a phase in which it is not, either. -/
theorem taken_move_iff {k : Nat} {phase : CallPhase} (new : CallPhase)
    (here : s.calls[k]? = some phase)
    (before : ∀ i done resume, phase ≠ .cancelling i done resume)
    (other : ∀ i done resume, new ≠ .cancelling i done resume) (j : Nat) :
    (s.move k new).Taken j ↔ s.Taken j := by
  rw [taken_move new here other]
  constructor
  · rintro ⟨k', done, resume, _, found⟩
    exact ⟨k', done, resume, found⟩
  · rintro ⟨k', done, resume, found⟩
    refine ⟨k', done, resume, ?_, found⟩
    rintro rfl
    exact before j done resume (Option.some.inj (here.symm.trans found))

/-- What a step does to the uncancelled runs and the cancel functions. -/
inductive Effect (s : Nodes) (e : TailnetEvent) (t : Nodes) : Prop
  | kept (none : s.StopsNone e) (alone : s.BeginsAlone e) (last : s.BeginsLast e)
      (runs : t.runs.length = s.runs.length) (live : ∀ j, t.Live j ↔ s.Live j)
      (cancel : t.manager.cancel = s.manager.cancel)
      (done : s.manager.cancel = .none ∨ t.manager.done = s.manager.done)
      (taken : ∀ j, t.Taken j ↔ s.Taken j)
  | took (i : Nat) (some : ¬ s.StopsNone e) (last : s.BeginsLast e)
      (runs : t.runs.length = s.runs.length) (live : ∀ j, t.Live j ↔ s.Live j)
      (there : s.manager.cancel = .some i) (cancel : t.manager.cancel = .none)
      (taken : ∀ j, t.Taken j ↔ s.Taken j ∨ j = i)
  | cancelled (i : Nat) (was : s.Taken i) (none : s.StopsNone e) (alone : s.BeginsAlone e)
      (last : s.BeginsLast e) (runs : t.runs.length = s.runs.length)
      (live : ∀ j, t.Live j ↔ s.Live j ∧ j ≠ i)
      (cancel : t.manager.cancel = s.manager.cancel) (done : t.manager.done = s.manager.done)
      (fewer : ∀ j, t.Taken j → s.Taken j) (others : ∀ j, j ≠ i → s.Taken j → t.Taken j)
  | begun (none : s.StopsNone e) (alone : s.BeginsAlone e ↔ s.manager.cancel = .none)
      (last : s.BeginsLast e ↔ ∀ i, ¬ s.Live i) (runs : t.runs.length = s.runs.length + 1)
      (live : ∀ j, t.Live j ↔ s.Live j ∨ j = s.runs.length)
      (cancel : t.manager.cancel = .some s.runs.length)
      (done : t.manager.done = .some s.runs.length) (taken : ∀ j, t.Taken j ↔ s.Taken j)

/-- A call that is not about to begin a run may take its step at any time. -/
theorem begins_of_phase {k : Nat} {phase : CallPhase} (here : s.calls[k]? = some phase)
    (other : ∀ cfg, phase = .resuming cfg → cfg.enabled = false) :
    s.BeginsAlone (.call k) ∧ s.BeginsLast (.call k) := by
  constructor <;>
  · rintro k' cfg called at_ enabled
    cases called
    obtain rfl := Option.some.inj (here.symm.trans at_)
    simp [other cfg rfl] at enabled

theorem stopsNone_of_phase {k : Nat} {phase : CallPhase} (here : s.calls[k]? = some phase)
    (other : ∀ resume, phase = .stopping resume → s.manager.cancel = none) :
    s.StopsNone (.call k) := by
  rintro k' resume called at_
  cases called
  exact other resume (Option.some.inj (here.symm.trans at_))

theorem afterStop_ne (resume : Option Tailscale) (i : Nat) (done : Option Nat)
    (resume' : Option Tailscale) : afterStop resume ≠ .cancelling i done resume' := by
  cases resume <;> nofun

theorem callStep_effect {k : Nat} {phase : CallPhase} (here : s.calls[k]? = some phase)
    (h : s.callStep k phase = some t) : Effect s (.call k) t := by
  cases phase with
  | stopping resume =>
      obtain ⟨alone, last⟩ := begins_of_phase here (by simp)
      simp only [callStep] at h
      split at h
      · rename_i absent
        obtain rfl := Option.some.inj h
        exact .kept (stopsNone_of_phase here fun _ _ => absent) alone last rfl (fun _ => Iff.rfl)
          absent.symm (.inl absent) (taken_move_iff _ here nofun (afterStop_ne resume))
      · rename_i i there
        obtain rfl := Option.some.inj h
        refine .took i (fun none => ?_) last rfl (fun _ => Iff.rfl) there rfl fun j => ?_
        · have absent := none k resume rfl here
          simp [there] at absent
        · constructor
          · rintro ⟨k', done, resume', found⟩
            simp only [move, detach, Contributions.getElem?_set here] at found
            split at found
            · obtain ⟨rfl, _, _⟩ := CallPhase.cancelling.inj (Option.some.inj found)
              exact .inr rfl
            · exact .inl ⟨k', done, resume', found⟩
          · rintro (⟨k', done, resume', found⟩ | rfl)
            · refine ⟨k', done, resume', ?_⟩
              have different : k ≠ k' := by
                rintro rfl
                exact absurd (here.symm.trans found) nofun
              simp only [move, detach, Contributions.getElem?_set here, if_neg different, found]
            · refine ⟨k, s.manager.done, resume, ?_⟩
              simp only [move, detach, Contributions.getElem?_set here, if_true]
  | cancelling i done resume =>
      obtain rfl := Option.some.inj h
      obtain ⟨alone, last⟩ := begins_of_phase here (by simp)
      have moved := taken_move (.waiting done resume) here nofun
      refine .cancelled i ⟨k, done, resume, here⟩ (stopsNone_of_phase here nofun) alone last
        (List.length_modify ..) (live_cancelRun i) rfl rfl (fun j taken => ?_)
        fun j different taken => ?_
      · obtain ⟨k', done', resume', _, found⟩ := (moved j).mp taken
        exact ⟨k', done', resume', found⟩
      · obtain ⟨k', done', resume', found⟩ := taken
        refine (moved j).mpr ⟨k', done', resume', ?_, found⟩
        rintro rfl
        obtain ⟨rfl, _, _⟩ := CallPhase.cancelling.inj (Option.some.inj (here.symm.trans found))
        exact different rfl
  | waiting done resume =>
      obtain rfl := Option.some.inj h
      obtain ⟨alone, last⟩ := begins_of_phase here (by simp)
      exact .kept (stopsNone_of_phase here nofun) alone last rfl (fun _ => Iff.rfl) rfl (.inr rfl)
        (taken_move_iff _ here nofun nofun)
  | marking resume =>
      obtain rfl := Option.some.inj h
      obtain ⟨alone, last⟩ := begins_of_phase here (by simp)
      exact .kept (stopsNone_of_phase here nofun) alone last rfl (fun _ => Iff.rfl) rfl (.inr rfl)
        (taken_move_iff _ here nofun (afterStop_ne resume))
  | resuming cfg =>
      obtain rfl := Option.some.inj h
      have none : s.StopsNone (.call k) := stopsNone_of_phase here nofun
      have taken := taken_move_iff .returned here nofun nofun
      cases enabled : cfg.enabled with
      | true =>
          refine .begun none ⟨fun alone => alone k cfg rfl here enabled, fun absent _ _ _ _ _ =>
              absent⟩ ⟨fun last => last k cfg rfl here enabled, fun absent _ _ _ _ _ => absent⟩
            (by simp [move, begin, enabled]) (fun j => live_begin enabled j)
            (by simp [move, begin, enabled]) (by simp [move, begin, enabled]) fun j => ?_
          rw [← taken j]
          simp [Taken, move, begin, enabled]
      | false =>
          obtain ⟨alone, last⟩ := begins_of_phase here fun cfg' same => by
            obtain rfl := CallPhase.resuming.inj same
            exact enabled
          refine .kept none alone last (by simp [move, begin, enabled])
            (fun j => live_begin_disabled enabled j) (by simp [move, begin, enabled])
            (.inr (by simp [move, begin, enabled])) fun j => ?_
          rw [← taken j]
          simp [Taken, move, begin, enabled]
  | returned => cases h

/-- A call that has just been made is not about to cancel a run. -/
theorem taken_concat (resume : Option Tailscale) (saved : Option Tailscale) (j : Nat) :
    ({ s with calls := s.calls ++ [.stopping resume], saved } : Nodes).Taken j ↔ s.Taken j := by
  constructor
  · rintro ⟨k, done, resume', found⟩
    rcases Contributions.of_getElem?_concat found with ⟨_, new⟩ | old
    · cases new
    · exact ⟨k, done, resume', old⟩
  · rintro ⟨k, done, resume', found⟩
    refine ⟨k, done, resume', ?_⟩
    exact (List.getElem?_append_left (List.getElem?_eq_some_iff.mp found).1).trans found

theorem next_effect {e : TailnetEvent} (h : s.next e = some t) : Effect s e t := by
  cases e with
  | start cfg =>
      obtain rfl := Option.some.inj h
      exact .kept nofun nofun nofun rfl (fun _ => Iff.rfl) rfl (.inr rfl) (taken_concat _ _)
  | stop =>
      obtain rfl := Option.some.inj h
      exact .kept nofun nofun nofun rfl (fun _ => Iff.rfl) rfl (.inr rfl) (taken_concat _ _)
  | call k =>
      obtain ⟨phase, here, h⟩ := Option.bind_eq_some_iff.mp h
      exact callStep_effect here h
  | close i =>
      obtain rfl := Option.some.inj h
      exact .kept nofun nofun nofun (List.length_modify ..) (fun j => live_close i j) rfl
        (.inr rfl) fun _ => Iff.rfl

theorem cancelLive_next {e : TailnetEvent} (inv : s.CancelLive) (h : s.next e = some t) :
    t.CancelLive := by
  cases next_effect h with
  | kept none alone last runs live cancel done taken =>
      constructor
      · intro i there
        exact (live i).mpr (inv.live i (cancel ▸ there))
      · intro i was
        rw [runs, cancel]
        exact inv.taken i ((taken i).mp was)
  | took i some last runs live there cancel taken =>
      constructor
      · intro j now
        simp [cancel] at now
      · intro j was
        rw [runs, cancel]
        rcases (taken j).mp was with old | rfl
        · exact ⟨(inv.taken j old).1, nofun⟩
        · exact ⟨live_lt (inv.live j there), nofun⟩
  | cancelled i was none alone last runs live cancel done fewer others =>
      constructor
      · intro j there
        rw [cancel] at there
        refine (live j).mpr ⟨inv.live j there, ?_⟩
        rintro rfl
        exact (inv.taken j was).2 there
      · intro j now
        rw [runs, cancel]
        exact inv.taken j (fewer j now)
  | begun none alone last runs live cancel done taken =>
      constructor
      · intro i there
        obtain rfl := Option.some.inj (cancel.symm.trans there)
        exact (live _).mpr (Or.inr rfl)
      · intro i was
        have old := (inv.taken i ((taken i).mp was)).1
        rw [runs, cancel]
        refine ⟨Nat.lt_succ_of_lt old, fun same => ?_⟩
        exact Nat.ne_of_gt old (Option.some.inj same)

/-- A step keeps every uncancelled run in reach of the next `Stop` exactly when no `Stop` has
begun, and no run next to another one. -/
theorem noOrphan_next_iff {e : TailnetEvent} (inv : s.CancelLive) (reach : s.NoOrphan)
    (h : s.next e = some t) : t.NoOrphan ↔ s.StopsNone e ∧ s.BeginsAlone e := by
  cases next_effect h with
  | kept none alone last runs live cancel done taken =>
      apply iff_of_true _ ⟨none, alone⟩
      intro i alive
      obtain ⟨there, waited⟩ := reach i ((live i).mp alive)
      rcases done with absent | same
      · simp [absent] at there
      · exact ⟨cancel.trans there, same.trans waited⟩
  | took i some last runs live there cancel taken =>
      apply iff_of_false _ fun both => some both.1
      intro reach'
      have held := (reach' i ((live i).mpr (inv.live i there))).1
      simp [cancel] at held
  | cancelled i was none alone last runs live cancel done fewer others =>
      refine iff_of_true (fun j alive => ?_) ⟨none, alone⟩
      obtain ⟨there, waited⟩ := reach j ((live j).mp alive).1
      exact ⟨cancel.trans there, done.trans waited⟩
  | begun none alone last runs live cancel done taken =>
      rw [alone, and_iff_right none]
      constructor
      · intro reach'
        by_contra there
        obtain ⟨i, there⟩ := Option.ne_none_iff_exists'.mp there
        have alive := inv.live i there
        have held := (reach' i ((live i).mpr (Or.inl alive))).1
        obtain rfl := Option.some.inj (cancel.symm.trans held)
        exact Nat.lt_irrefl _ (live_lt alive)
      · intro absent i alive
        rcases (live i).mp alive with old | rfl
        · have held := (reach i old).1
          simp [absent] at held
        · exact ⟨cancel, done⟩

/-- A step keeps every uncancelled run in reach exactly when it begins none next to another. -/
theorem inReach_next_iff {e : TailnetEvent} (reach : s.InReach) (h : s.next e = some t) :
    t.InReach ↔ s.BeginsLast e := by
  cases next_effect h with
  | kept none alone last runs live cancel done taken =>
      refine iff_of_true ⟨fun i j hi hj => ?_, fun i alive => ?_⟩ last
      · exact reach.unique i j ((live i).mp hi) ((live j).mp hj)
      · rcases reach.reached i ((live i).mp alive) with ⟨there, waited⟩ | was
        · rcases done with absent | same
          · simp [absent] at there
          · exact .inl ⟨cancel.trans there, same.trans waited⟩
        · exact .inr ((taken i).mpr was)
  | took i some last runs live there cancel taken =>
      refine iff_of_true ⟨fun j j' hj hj' => ?_, fun j alive => ?_⟩ last
      · exact reach.unique j j' ((live j).mp hj) ((live j').mp hj')
      · rcases reach.reached j ((live j).mp alive) with ⟨held, _⟩ | was
        · obtain rfl := Option.some.inj (there.symm.trans held)
          exact .inr ((taken i).mpr (.inr rfl))
        · exact .inr ((taken j).mpr (.inl was))
  | cancelled i was none alone last runs live cancel done fewer others =>
      refine iff_of_true ⟨fun j j' hj hj' => ?_, fun j alive => ?_⟩ last
      · exact reach.unique j j' ((live j).mp hj).1 ((live j').mp hj').1
      · obtain ⟨old, different⟩ := (live j).mp alive
        rcases reach.reached j old with ⟨there, waited⟩ | taken
        · exact .inl ⟨cancel.trans there, done.trans waited⟩
        · exact .inr (others j different taken)
  | begun none alone last runs live cancel done taken =>
      rw [last]
      constructor
      · intro reach' i alive
        have same := reach'.unique i s.runs.length ((live i).mpr (.inl alive))
          ((live _).mpr (.inr rfl))
        exact Nat.ne_of_lt (live_lt alive) same
      · intro absent
        refine ⟨fun i j hi hj => ?_, fun i alive => ?_⟩
        · obtain rfl := ((live i).mp hi).resolve_left (absent i)
          exact (((live j).mp hj).resolve_left (absent j)).symm
        · obtain rfl := ((live i).mp alive).resolve_left (absent i)
          exact .inl ⟨cancel, done⟩

end Nodes

/-- Every uncancelled run stays in reach of the next `Stop` exactly in the runs where no `Stop`
finds one to stop and no cancel function is in place when a `Start` begins its run. Apart from
the instants in which a `Stop` has taken a cancel function and not called it, every uncancelled
run stays in reach exactly in the runs where each `Start` begins its run when every other one is
cancelled. -/
theorem no_orphan_iff (x : Execution tailnetSystem) :
    (x.Always Nodes.NoOrphan ↔ x.Meets fun s e => s.StopsNone e ∧ s.BeginsAlone e) ∧
      (x.Always Nodes.InReach ↔ x.Meets Nodes.BeginsLast) := by
  have init : ∀ s ∈ tailnetSystem.initial, s.CancelLive ∧ s.NoOrphan := by
    rintro s ⟨cfg, rfl⟩
    refine ⟨⟨nofun, ?_⟩, ?_⟩
    · rintro i ⟨k, done, resume, found⟩
      cases found
    · rintro i ⟨r, found, _⟩
      cases found
  constructor
  · apply x.run.always_iff (I := Nodes.CancelLive) init
    · intro s e t inv _ _ step
      exact Nodes.cancelLive_next inv step
    · intro s e t inv reach step
      exact Nodes.noOrphan_next_iff inv reach step
  · apply x.run.always_iff (I := fun _ => True)
    · intro s h
      exact ⟨trivial, (init s h).2.inReach⟩
    · intro s e t _ _ _ _
      exact trivial
    · intro s e t _ reach step
      exact Nodes.inReach_next_iff reach step

/-- A node that is shared on the tailnet, with or without Funnel. -/
def shared (funnel : Bool) : Tailscale where
  enabled := true
  hostname := "vmserver"
  funnel := funnel
  authKey := ""
  controlURL := ""

/-- Two `Start` calls both find nothing to stop before either begins its run. -/
def overlappingStarts : List TailnetEvent :=
  [.start (shared true), .start (shared false), .call 0, .call 1, .call 0, .call 1]

/-- The first run goes on without a cancel function, and no `Stop` is about to call it. -/
theorem orphan_after_overlapping_starts :
    ∃ x : Execution tailnetSystem, ¬ x.Always Nodes.NoOrphan ∧ ¬ x.Always Nodes.InReach := by
  have run : exec tailnetSystem { manager := { cfg := shared false } } overlappingStarts =
      some {
        manager := { cfg := shared false, cancel := some 1, done := some 1 }
        runs := [{ cfg := shared true }, { cfg := shared false }]
        calls := [.returned, .returned]
        saved := some (shared false) } := rfl
  obtain ⟨x, last, _⟩ := Execution.of_exec (M := tailnetSystem) ⟨shared false, rfl⟩ run
  have lost : ¬ x.Always Nodes.InReach := by
    intro reach
    have same := (last ▸ reach.2).unique 0 1 ⟨_, rfl, rfl⟩ ⟨_, rfl, rfl⟩
    cases same
  exact ⟨x, fun held => lost (held.mono fun _ => Nodes.NoOrphan.inReach), lost⟩

end VmServer.Tailnet
