import Mathlib.Data.Set.Basic

/-!
# Executable transition systems and their finite runs

A system is a set of initial states and a partial step function. A run keeps
the states it left together with the events it left them by, so a condition
on single steps and a property of whole runs are read off the same history.

## Implementation notes

`Execution` bundles a history with its run. A statement about an execution
therefore has no separate hypothesis saying that the history is a run. The
rule `Execution.always_iff` is the one used for exact conditions: a property
holds in every state of a run exactly when every step of it meets the guard.
-/

namespace TransitionSystem

/-- A partial step function with its initial states; `none` means not enabled. -/
structure System (σ ε : Type*) where
  initial : Set σ
  next : σ → ε → Option σ

variable {σ ε : Type*} {M : System σ ε}

/-- The system with only the allowed ones of its steps. -/
def System.restrict (M : System σ ε) (allowed : σ → ε → Bool) : System σ ε where
  initial := M.initial
  next s e := if allowed s e then M.next s e else none

theorem System.restrict_next {allowed : σ → ε → Bool} {s t : σ} {e : ε} :
    (M.restrict allowed).next s e = some t ↔ allowed s e ∧ M.next s e = some t :=
  Option.ite_none_right_eq_some

/-- The system with a history variable beside its state, which no step depends on. -/
def System.noting {η : Type*} (M : System σ ε) (start : η) (note : σ → ε → η → η) :
    System (σ × η) ε where
  initial := {p | p.1 ∈ M.initial ∧ p.2 = start}
  next p e := (M.next p.1 e).map fun t => (t, note p.1 e p.2)

theorem System.noting_next {η : Type*} {start : η} {note : σ → ε → η → η} {p q : σ × η} {e : ε} :
    (M.noting start note).next p e = some q ↔
      M.next p.1 e = some q.1 ∧ q.2 = note p.1 e p.2 := by
  constructor
  · intro h
    obtain ⟨t, next, rfl⟩ := Option.map_eq_some_iff.mp h
    exact ⟨next, rfl⟩
  · rintro ⟨next, later⟩
    exact Option.map_eq_some_iff.mpr ⟨q.1, next, Prod.ext rfl later.symm⟩

/-- A finite run records every state it left with the event it left it by. -/
inductive Run (M : System σ ε) : List (σ × ε) → σ → Prop
  | start {s} (h : s ∈ M.initial) : Run M [] s
  | step {hist s e t} (run : Run M hist s) (h : M.next s e = some t) :
      Run M (hist ++ [(s, e)]) t

/-- A history together with the state it ends in and the proof that it is a run. -/
structure Execution (M : System σ ε) where
  history : List (σ × ε)
  final : σ
  run : Run M history final

/-- The property holds in every state the run has been in. -/
def Always (P : σ → Prop) (hist : List (σ × ε)) (s : σ) : Prop :=
  (∀ p ∈ hist, P p.1) ∧ P s

/-- Every step of the run meets the condition in the state it was taken in. -/
def Meets (G : σ → ε → Prop) (hist : List (σ × ε)) : Prop :=
  ∀ p ∈ hist, G p.1 p.2

theorem always_nil {P : σ → Prop} {s : σ} : Always (ε := ε) P [] s ↔ P s := by
  simp [Always]

theorem always_step {P : σ → Prop} {hist : List (σ × ε)} {s t : σ} {e : ε} :
    Always P (hist ++ [(s, e)]) t ↔ Always P hist s ∧ P t := by
  simp [Always, or_imp, forall_and]

theorem meets_nil {G : σ → ε → Prop} : Meets G [] := by
  simp [Meets]

theorem meets_step {G : σ → ε → Prop} {hist : List (σ × ε)} {s : σ} {e : ε} :
    Meets G (hist ++ [(s, e)]) ↔ Meets G hist ∧ G s e := by
  simp [Meets, or_imp, forall_and]

/-- A property that every guarded step keeps holds throughout every guarded run. -/
theorem Run.always {I : σ → Prop} {G : σ → ε → Prop}
    (init : ∀ s ∈ M.initial, I s)
    (step : ∀ {s e t}, I s → G s e → M.next s e = some t → I t)
    {hist : List (σ × ε)} {s : σ} (run : Run M hist s) (guard : Meets G hist) :
    Always I hist s := by
  induction run with
  | start h => exact always_nil.mpr (init _ h)
  | step run h ih =>
      obtain ⟨before, last⟩ := meets_step.mp guard
      have held := ih before
      exact always_step.mpr ⟨held, step held.2 last h⟩

/-- What every step keeps, under no condition, holds throughout every run. -/
theorem Run.invariant {I : σ → Prop} (init : ∀ s ∈ M.initial, I s)
    (step : ∀ {s e t}, I s → M.next s e = some t → I t)
    {hist : List (σ × ε)} {s : σ} (run : Run M hist s) : Always I hist s :=
  run.always (G := fun _ _ => True) init (fun held _ h => step held h) fun _ _ => trivial

/-- Where `P` survives a step exactly when the guard is met, `P` holds throughout
a run exactly when every step meets the guard. `I` is what the steps keep as long
as `P` has not been lost. -/
theorem Run.always_iff {I P : σ → Prop} {G : σ → ε → Prop}
    (init : ∀ s ∈ M.initial, I s ∧ P s)
    (keep : ∀ {s e t}, I s → P s → P t → M.next s e = some t → I t)
    (exact_step : ∀ {s e t}, I s → P s → M.next s e = some t → (P t ↔ G s e))
    {hist : List (σ × ε)} {s : σ} (run : Run M hist s) :
    Always P hist s ↔ Meets G hist := by
  have both : (Always P hist s ↔ Meets G hist) ∧ (Always P hist s → I s) := by
    induction run with
    | start h =>
        exact ⟨⟨fun _ => meets_nil, fun _ => always_nil.mpr (init _ h).2⟩,
          fun _ => (init _ h).1⟩
    | @step hist s e t run h ih =>
        obtain ⟨same, inv⟩ := ih
        refine ⟨⟨fun held => ?_, fun guard => ?_⟩, fun held => ?_⟩
        · obtain ⟨before, now⟩ := always_step.mp held
          exact meets_step.mpr ⟨same.mp before,
            (exact_step (inv before) before.2 h).mp now⟩
        · obtain ⟨before, last⟩ := meets_step.mp guard
          have held := same.mpr before
          exact always_step.mpr ⟨held, (exact_step (inv held) held.2 h).mpr last⟩
        · obtain ⟨before, now⟩ := always_step.mp held
          exact keep (inv before) before.2 now h
  exact both.1

/-- Where a number grows with every step, a run has no more steps than it has grown. -/
theorem Run.length_le {f : σ → ℕ} (grows : ∀ {s e t}, M.next s e = some t → f s < f t)
    {hist : List (σ × ε)} {s : σ} (run : Run M hist s) : hist.length ≤ f s := by
  induction run with
  | start => exact Nat.zero_le _
  | @step hist s e t run h ih =>
      rw [List.length_append, List.length_singleton]
      exact Nat.lt_of_le_of_lt ih (grows h)

/-- Where every step of a system is one of another system, or none, seen through a map of the
states, the runs are runs of the other one. -/
theorem Run.projects {τ δ : Type*} {N : System τ δ} {f : σ → τ}
    (init : ∀ s ∈ M.initial, f s ∈ N.initial)
    (step : ∀ {s e t}, M.next s e = some t → f t = f s ∨ ∃ d, N.next (f s) d = some (f t))
    {hist : List (σ × ε)} {s : σ} (run : Run M hist s) : ∃ hist', Run N hist' (f s) := by
  induction run with
  | start h => exact ⟨[], .start (init _ h)⟩
  | step run h ih =>
      obtain ⟨hist', run'⟩ := ih
      rcases step h with same | ⟨d, next⟩
      · exact ⟨hist', same ▸ run'⟩
      · exact ⟨_, run'.step next⟩

/-- Every step of a run was enabled. -/
theorem Run.enabled {hist : List (σ × ε)} {s : σ} (run : Run M hist s) :
    ∀ p ∈ hist, ∃ t, M.next p.1 p.2 = some t := by
  induction run with
  | start _ =>
      intro p hp
      cases hp
  | @step hist s e t run h ih =>
      intro p hp
      rcases List.mem_append.mp hp with old | new
      · exact ih p old
      · obtain rfl := List.mem_singleton.mp new
        exact ⟨t, h⟩

/-- The state after a list of events, `none` as soon as one of them is not enabled. -/
def exec (M : System σ ε) (s : σ) (events : List ε) : Option σ :=
  events.foldlM M.next s

theorem Run.exec {hist : List (σ × ε)} {s t : σ} {events : List ε} (run : Run M hist s)
    (h : exec M s events = some t) :
    ∃ more, Run M (hist ++ more) t ∧ more.map Prod.snd = events := by
  induction events generalizing hist s with
  | nil =>
      obtain rfl : s = t := by simpa [TransitionSystem.exec] using h
      exact ⟨[], by simpa using run, rfl⟩
  | cons e rest ih =>
      simp only [TransitionSystem.exec, List.foldlM_cons] at h
      cases he : M.next s e with
      | none => simp [he] at h
      | some u =>
          simp only [he] at h
          obtain ⟨more, run', hmore⟩ := ih (run.step he) h
          exact ⟨(s, e) :: more, by simpa using run', by simp [hmore]⟩

/-- The events lead from one state to another, every step meeting the condition. -/
def Leads (M : System σ ε) (G : σ → ε → Prop) : σ → List ε → σ → Prop
  | s, [], t => s = t
  | s, e :: rest, t => G s e ∧ ∃ u, M.next s e = some u ∧ Leads M G u rest t

/-- A computed run of the steps that pass a check meets it at every step. -/
theorem Leads.of_exec {allowed : σ → ε → Bool} {s t : σ} {events : List ε}
    (h : exec (M.restrict allowed) s events = some t) :
    Leads M (fun s e => allowed s e = true) s events t := by
  induction events generalizing s with
  | nil => exact Option.some.inj h
  | cons e rest ih =>
      obtain ⟨u, next, later⟩ := Option.bind_eq_some_iff.mp h
      obtain ⟨passed, next⟩ := System.restrict_next.mp next
      exact ⟨passed, u, next, ih later⟩

/-- A computed run whose events meet the condition in any state meets it at every step. -/
theorem Leads.of_forall {G : σ → ε → Prop} {s t : σ} {events : List ε}
    (h : exec M s events = some t) (all : ∀ e ∈ events, ∀ s, G s e) : Leads M G s events t := by
  induction events generalizing s with
  | nil => exact Option.some.inj h
  | cons e rest ih =>
      obtain ⟨u, next, later⟩ := Option.bind_eq_some_iff.mp h
      exact ⟨all e List.mem_cons_self s, u, next,
        ih later fun d hd => all d (List.mem_cons_of_mem e hd)⟩

theorem Leads.append {G : σ → ε → Prop} {s t u : σ} {events more : List ε}
    (h : Leads M G s events t) (h' : Leads M G t more u) : Leads M G s (events ++ more) u := by
  induction events generalizing s with
  | nil =>
      obtain rfl : s = t := h
      exact h'
  | cons e rest ih =>
      obtain ⟨now, v, next, later⟩ := h
      exact ⟨now, v, next, ih later⟩

/-- What every step under the condition keeps holds at the end, too. -/
theorem Leads.keeps {I : σ → Prop} {G : σ → ε → Prop} {s t : σ} {events : List ε}
    (step : ∀ {s e t}, I s → G s e → M.next s e = some t → I t) (h : Leads M G s events t)
    (start : I s) : I t := by
  induction events generalizing s with
  | nil =>
      obtain rfl : s = t := h
      exact start
  | cons e rest ih =>
      obtain ⟨now, u, next, later⟩ := h
      exact ih later (step start now next)

theorem Run.leads {G : σ → ε → Prop} {hist : List (σ × ε)} {s t : σ} {events : List ε}
    (run : Run M hist s) (guard : Meets G hist) (h : Leads M G s events t) :
    ∃ hist', Run M hist' t ∧ Meets G hist' := by
  induction events generalizing hist s with
  | nil =>
      obtain rfl : s = t := h
      exact ⟨hist, run, guard⟩
  | cons e rest ih =>
      obtain ⟨now, u, next, later⟩ := h
      exact ih (run.step next) (meets_step.mpr ⟨guard, now⟩) later

namespace Execution

/-- The property holds in every state of the execution. -/
def Always (x : Execution M) (P : σ → Prop) : Prop :=
  TransitionSystem.Always P x.history x.final

/-- Every step of the execution meets the condition. -/
def Meets (x : Execution M) (G : σ → ε → Prop) : Prop :=
  TransitionSystem.Meets G x.history

theorem Always.mono {x : Execution M} {P Q : σ → Prop} (h : x.Always P)
    (imp : ∀ s, P s → Q s) : x.Always Q :=
  ⟨fun p hp => imp _ (h.1 p hp), imp _ h.2⟩

/-- A run that can be computed from an initial state is an execution with those events. -/
theorem of_exec {s t : σ} {events : List ε} (h : s ∈ M.initial)
    (he : exec M s events = some t) :
    ∃ x : Execution M, x.final = t ∧ x.history.map Prod.snd = events := by
  obtain ⟨more, run, hmore⟩ := (Run.start h).exec he
  exact ⟨⟨_, _, run⟩, rfl, by simpa using hmore⟩

theorem exists_meets {G : σ → ε → Prop} {s t : σ} {events : List ε} (h : s ∈ M.initial)
    (leads : Leads M G s events t) : ∃ x : Execution M, x.Meets G ∧ x.final = t := by
  obtain ⟨hist, run, guard⟩ := (Run.start h).leads meets_nil leads
  exact ⟨⟨hist, t, run⟩, guard, rfl⟩

/-- A computed run whose last state fails a check refutes the checked property. -/
theorem exists_not_always {P : σ → Prop} {s t : σ} {events : List ε} (h : s ∈ M.initial)
    (he : exec M s events = some t) (hP : ¬ P t) : ∃ x : Execution M, ¬ x.Always P := by
  obtain ⟨x, hx, _⟩ := of_exec h he
  exact ⟨x, fun held => hP (hx ▸ held.2)⟩

/-- A computed run with one more step that fails a condition refutes the condition. -/
theorem exists_not_meets {G : σ → ε → Prop} {s t u : σ} {events : List ε} {e : ε}
    (h : s ∈ M.initial) (he : exec M s events = some t) (next : M.next t e = some u)
    (hG : ¬ G t e) : ∃ x : Execution M, ¬ x.Meets G := by
  obtain ⟨x, rfl, _⟩ := of_exec h he
  refine ⟨⟨x.history ++ [(x.final, e)], u, x.run.step next⟩, fun held => hG ?_⟩
  exact (meets_step.mp held).2

end Execution

end TransitionSystem
