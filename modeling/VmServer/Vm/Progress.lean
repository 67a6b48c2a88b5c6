import VmServer.Vm.Effects

/-!
# Processes and pending Starts across a step

What becomes of one process does not depend on which property is at stake, nor
does the list of the `Start` calls that are between their admission and their
return. Both are read off the effect of a step once.
-/

namespace VmServer.Vm

open Contributions

variable {s s' : Host} {e : Event} {p q t : Nat} {x x' : Process} {c : StartCall}

/-! ## Processes -/

/-- What a step makes of process `q`. -/
inductive Process.Evolves (s : Host) (q : Nat) (e : Event) (x : Process) : Process → Prop
  | same : Evolves s q e x x
  | exited {status} (event : e = .exit q status) (running : x.exit = none) :
      Evolves s q e x { x with exit := some status }
  | handled {waiter} (event : e.handles q = true) (gone : x.exit ≠ none)
      (waits : x.waiter = .waiting) (past : waiter ≠ .waiting)
      (sleeps : waiter = .sleeping → s.m.stopping = false) : Evolves s q e x { x with waiter }
  | waited {waiter} (handled : x.waiter ≠ .waiting) (past : waiter ≠ .waiting)
      (awake : waiter ≠ .sleeping) : Evolves s q e x { x with waiter }

theorem evolves_set (found : s.procs[p]? = some x) (change : Process.Evolves s p e x x')
    {y : Process} (at_ : s.procs[q]? = some y) :
    ∃ y', (s.procs.set p x')[q]? = some y' ∧ Process.Evolves s q e y y' := by
  rw [getElem?_set found]
  by_cases same : p = q
  · subst same
    obtain rfl := Option.some.inj (found.symm.trans at_)
    exact ⟨x', by rw [if_pos rfl], change⟩
  · exact ⟨y, by rw [if_neg same, at_], .same⟩

theorem Waits.past {w w' : Waiter} (h : Waits s p e w w') :
    w ≠ .waiting ∧ w' ≠ .waiting ∧ w' ≠ .sleeping := by
  cases h <;> exact ⟨nofun, nofun, nofun⟩

/-- A process stays in the list, and changes in one of four ways. -/
theorem Effect.evolves (effect : Effect s e s') (found : s.procs[q]? = some x) :
    ∃ x', s'.procs[q]? = some x' ∧ Process.Evolves s q e x x' := by
  cases effect with
  | spawned _ _ =>
      have inside := (List.getElem?_eq_some_iff.mp found).1
      exact ⟨x, by simp only [List.getElem?_append_left inside, found], .same⟩
  | exited at_ running => exact evolves_set at_ (.exited rfl running) found
  | handled at_ gone waits h =>
      refine evolves_set at_ (.handled (by simp [Event.handles]) (by simp [gone]) waits
        ?_ ?_) found
      · rw [h]
        split <;> nofun
      · intro sleeps
        rw [h] at sleeps
        split at sleeps
        · exact Manager.onExit_restarts ‹_›
        · cases sleeps
  | restarted at_ sleeping _ =>
      refine evolves_set at_ (.waited ?_ ?_ ?_) found
      · simp [sleeping]
      · nofun
      · nofun
  | waited at_ h =>
      obtain ⟨handled, past, awake⟩ := h.past
      exact evolves_set at_ (.waited handled past awake) found
  | _ => exact ⟨x, found, .same⟩

/-- A process that was not there before has just been spawned. -/
theorem Effect.spawns (effect : Effect s e s') (absent : s.procs[q]? = none)
    (found : s'.procs[q]? = some x) :
    x = {} ∧ q = s.procs.length ∧ e.spawns = true ∧ ∃ c ∈ s.calls, ∃ i, c.pc = .spawning i := by
  have keep {p : Nat} {y y' : Process} (at_ : s.procs[p]? = some y)
      (found : (s.procs.set p y')[q]? = some x) : False := by
    obtain ⟨rfl, _⟩ | ⟨_, old⟩ := of_getElem?_set at_ found
    · cases absent.symm.trans at_
    · cases absent.symm.trans old
  cases effect with
  | @spawned t c i call at_ =>
      obtain ⟨same, new⟩ | old := of_getElem?_concat found
      · exact ⟨new, same.symm, rfl, c, List.mem_of_getElem? call, i, at_⟩
      · cases absent.symm.trans old
  | exited at_ _ => exact (keep at_ found).elim
  | handled at_ _ _ _ => exact (keep at_ found).elim
  | restarted at_ _ _ => exact (keep at_ found).elim
  | waited at_ _ => exact (keep at_ found).elim
  | _ =>
      rw [absent] at found
      cases found

theorem alive_iff : s.alive p = true ↔ ∃ x, s.procs[p]? = some x ∧ x.exit = none := by
  unfold Host.alive
  cases s.procs[p]? <;> simp

theorem waiter_eq_some {w : Waiter} :
    s.waiter p = some w ↔ ∃ x, s.procs[p]? = some x ∧ x.waiter = w := by
  simp [Host.waiter]

/-- A process that is alive was alive before, unless it has just been spawned. -/
theorem Effect.alive (effect : Effect s e s') (h : s'.alive q = true) :
    s.alive q = true ∨ q = s.procs.length ∧ e.spawns = true ∧
      ∃ c ∈ s.calls, ∃ i, c.pc = .spawning i := by
  obtain ⟨x', found', running⟩ := alive_iff.mp h
  cases found : s.procs[q]? with
  | none => exact Or.inr (effect.spawns found found').2
  | some x =>
      obtain ⟨y, at_, evolves⟩ := effect.evolves found
      obtain rfl := Option.some.inj (found'.symm.trans at_)
      refine Or.inl (alive_iff.mpr ⟨x, found, ?_⟩)
      cases evolves with
      | same => exact running
      | exited _ _ => cases running
      | handled _ _ _ _ _ => exact running
      | waited _ _ _ => exact running

theorem Effect.was_alive (effect : Effect s e s') (other : e.spawns = false)
    (h : s'.alive q = true) : s.alive q = true := by
  obtain old | ⟨_, event, _⟩ := effect.alive h
  · exact old
  · rw [event] at other
    cases other

def NoneAlive (s : Host) : Prop := ∀ p, ¬ s.alive p = true

theorem NoneAlive.keep (dead : NoneAlive s) (effect : Effect s e s') (other : e.spawns = false) :
    NoneAlive s' := fun q alive => dead q (effect.was_alive other alive)

/-- A process that is alive stays so until it exits. -/
theorem Effect.stays_alive (effect : Effect s e s') (h : s.alive q = true) :
    s'.alive q = true ∨ ∃ status, e = .exit q status := by
  obtain ⟨x, found, running⟩ := alive_iff.mp h
  obtain ⟨x', found', evolves⟩ := effect.evolves found
  cases evolves with
  | same => exact Or.inl (alive_iff.mpr ⟨x, found', running⟩)
  | exited event _ => exact Or.inr ⟨_, event⟩
  | handled _ _ _ _ _ => exact Or.inl (alive_iff.mpr ⟨_, found', running⟩)
  | waited _ _ _ => exact Or.inl (alive_iff.mpr ⟨_, found', running⟩)

/-- Only `onExit` ends the wait for a process. -/
theorem Effect.waiting (effect : Effect s e s') (h : s.waiter q = some .waiting) :
    s'.waiter q = some .waiting ∨ e.handles q = true := by
  obtain ⟨x, found, waits⟩ := waiter_eq_some.mp h
  obtain ⟨x', found', evolves⟩ := effect.evolves found
  cases evolves with
  | same => exact Or.inl (waiter_eq_some.mpr ⟨x, found', waits⟩)
  | exited _ _ => exact Or.inl (waiter_eq_some.mpr ⟨_, found', waits⟩)
  | handled event _ _ _ _ => exact Or.inr event
  | waited handled _ _ => exact (handled waits).elim

/-- A wait for a process was on before, unless the process has just been spawned. -/
theorem Effect.was_waiting (effect : Effect s e s') (found : s'.procs[q]? = some x)
    (waits : x.waiter = .waiting) : (∃ x, s.procs[q]? = some x ∧ x.waiter = .waiting) ∨
      q = s.procs.length ∧ e.spawns = true := by
  cases before : s.procs[q]? with
  | none =>
      obtain ⟨_, last, event, _⟩ := effect.spawns before found
      exact Or.inr ⟨last, event⟩
  | some y =>
      obtain ⟨x', at_, evolves⟩ := effect.evolves before
      obtain rfl := Option.some.inj (at_.symm.trans found)
      refine Or.inl ⟨y, rfl, ?_⟩
      cases evolves with
      | same => exact waits
      | exited _ _ => exact waits
      | handled _ _ old _ _ => exact old
      | waited _ past _ => exact (past waits).elim

/-- The exit of a process is handled only once it is gone. -/
def Reaped (s : Host) : Prop :=
  ∀ (q : Nat) (x : Process), s.procs[q]? = some x → x.waiter ≠ .waiting → x.exit ≠ none

theorem Reaped.keep (reaped : Reaped s) (effect : Effect s e s') : Reaped s' := by
  intro q x' found' past
  cases found : s.procs[q]? with
  | none =>
      obtain ⟨rfl, _⟩ := effect.spawns found found'
      exact (past rfl).elim
  | some x =>
      obtain ⟨y, at_, evolves⟩ := effect.evolves found
      obtain rfl := Option.some.inj (at_.symm.trans found')
      cases evolves with
      | same => exact reaped q x found past
      | exited _ _ => nofun
      | handled _ gone _ _ _ => exact gone
      | waited handled _ _ => exact reaped q x found handled

theorem Reaped.not_alive (reaped : Reaped s) {w : Waiter} (h : s.waiter q = some w)
    (past : w ≠ .waiting) : ¬ s.alive q = true := by
  intro alive
  obtain ⟨x, found, rfl⟩ := waiter_eq_some.mp h
  obtain ⟨y, found', running⟩ := alive_iff.mp alive
  obtain rfl := Option.some.inj (found.symm.trans found')
  exact reaped q x found past running

/-! ## Pending Starts -/

def StartPc.pending (pc : StartPc) : List StartPc := if pc.inProgress then [pc] else []

/-- The places of all `Start` calls between their admission and their return. -/
def Host.pending (s : Host) : List StartPc := s.calls.flatMap (·.pc.pending)

theorem pending_of_inProgress {pc : StartPc} (h : pc.inProgress = true) : pc.pending = [pc] :=
  if_pos h

/-- The place of one call among the others. -/
theorem pending_set (found : s.calls[t]? = some c) (going : c.pc.inProgress = true) :
    ∃ before after, s.pending = before ++ [c.pc] ++ after ∧
      ∀ c', (s.calls.set t c').flatMap (·.pc.pending) = before ++ c'.pc.pending ++ after := by
  obtain ⟨before, after, old, new⟩ := flatMap_set found (·.pc.pending)
  rw [pending_of_inProgress going] at old
  exact ⟨before, after, old, new⟩

theorem pending_length_set (found : s.calls[t]? = some c) (going : c.pc.inProgress = true)
    {c' : StartCall} : ((s.calls.set t c').flatMap (·.pc.pending)).length ≤ s.pending.length := by
  obtain ⟨before, after, old, new⟩ := pending_set found going
  have one : c'.pc.pending.length ≤ 1 := by
    unfold StartPc.pending
    split <;> simp
  rw [old, new]
  simp only [List.length_append, List.length_singleton]
  omega

/-- A pending call that is not one of two is the only one. -/
theorem pending_single (one : s.pending.length ≤ 1) (found : s.calls[t]? = some c)
    (going : c.pc.inProgress = true) : s.pending = [c.pc] ∧
      ∀ c', (s.calls.set t c').flatMap (·.pc.pending) = c'.pc.pending := by
  obtain ⟨before, after, old, new⟩ := pending_set found going
  rw [old] at one
  simp only [List.length_append, List.length_cons, List.length_nil] at one
  obtain rfl := List.eq_nil_of_length_eq_zero (show before.length = 0 by omega)
  obtain rfl := List.eq_nil_of_length_eq_zero (show after.length = 0 by omega)
  exact ⟨by simpa using old, fun c' => by simpa using new c'⟩

theorem pending_admitted : (s.calls ++ [({} : StartCall)]).flatMap (·.pc.pending) =
    s.pending ++ [.checking .disk] := by
  rw [List.flatMap_append]
  rfl

theorem Moves.going {pc : StartPc} (h : Moves s t c e pc) :
    (c.pc.inProgress ∧ c.pc ≠ .noting) ∧ pc.inProgress ∧ pc ≠ .noting := by
  cases h with
  | notSpawned at_ next => exact ⟨at_ ▸ ⟨rfl, nofun⟩, (process_of_betweenLaunches next).2⟩
  | sawExit at_ _ next => exact ⟨at_ ▸ ⟨rfl, nofun⟩, (process_of_betweenLaunches next).2⟩
  | reaped at_ _ next => exact ⟨at_ ▸ ⟨rfl, nofun⟩, (process_of_betweenLaunches next).2⟩
  | gaveUp at_ next => exact ⟨at_ ▸ ⟨rfl, nofun⟩, (process_of_betweenLaunches next).2⟩
  | passed at_ => exact ⟨at_ ▸ ⟨rfl, nofun⟩, rfl, nofun⟩
  | ready at_ => exact ⟨at_ ▸ ⟨rfl, nofun⟩, rfl, nofun⟩
  | refused at_ => exact ⟨at_ ▸ ⟨rfl, nofun⟩, rfl, nofun⟩
  | dialed at_ _ => exact ⟨at_ ▸ ⟨rfl, nofun⟩, rfl, nofun⟩
  | notDialed at_ => exact ⟨at_ ▸ ⟨rfl, nofun⟩, rfl, nofun⟩
  | passwordSet at_ _ => exact ⟨at_ ▸ ⟨rfl, nofun⟩, rfl, nofun⟩

/-- A move keeps the process of the launch, or gives it up. -/
theorem Moves.process {pc : StartPc} (h : Moves s t c e pc) : pc.process = c.pc.process ∨
    pc.process = none ∧ ((∃ p, c.pc.process = some p ∧ s.waiter p = some .closed) ∨
      ∃ i p q err, c.pc = .authenticating i p q ∧ e = .passwordSet t (.error err)) := by
  cases h with
  | notSpawned at_ next =>
      exact Or.inl (by rw [(process_of_betweenLaunches next).1, at_]; rfl)
  | sawExit at_ closed next =>
      exact Or.inr ⟨(process_of_betweenLaunches next).1, Or.inl ⟨_, by rw [at_]; rfl, closed⟩⟩
  | reaped at_ closed next =>
      exact Or.inr ⟨(process_of_betweenLaunches next).1, Or.inl ⟨_, by rw [at_]; rfl, closed⟩⟩
  | gaveUp at_ next =>
      exact Or.inr ⟨(process_of_betweenLaunches next).1, Or.inr ⟨_, _, _, _, at_, rfl⟩⟩
  | passed at_ => exact Or.inl (by rw [at_]; rfl)
  | ready at_ => exact Or.inl (by rw [at_]; rfl)
  | refused at_ => exact Or.inl (by rw [at_]; rfl)
  | dialed at_ _ => exact Or.inl (by rw [at_]; rfl)
  | notDialed at_ => exact Or.inl (by rw [at_]; rfl)
  | passwordSet at_ _ => exact Or.inl (by rw [at_]; rfl)

theorem mem_pending (found : s.calls[t]? = some c) (going : c.pc.inProgress = true) :
    c.pc ∈ s.pending := by
  obtain ⟨before, after, old, _⟩ := pending_set found going
  simp [old]

theorem mem_pending_set (found : s.calls[t]? = some c) (going : c.pc.inProgress = true)
    {c' : StartCall} {pc : StartPc} (h : pc ∈ (s.calls.set t c').flatMap (·.pc.pending)) :
    pc ∈ s.pending ∨ pc = c'.pc ∧ pc.inProgress = true := by
  obtain ⟨before, after, old, new⟩ := pending_set found going
  have own {pc' : StartPc} (h : pc ∈ pc'.pending) : pc = pc' ∧ pc.inProgress = true := by
    unfold StartPc.pending at h
    split at h
    · obtain rfl := List.mem_singleton.mp h
      exact ⟨rfl, ‹_›⟩
    · cases h
  rw [new, List.append_assoc, List.mem_append, List.mem_append] at h
  obtain h | h | h := h
  · exact Or.inl (by simp [old, h])
  · exact Or.inr (own h)
  · exact Or.inl (by simp [old, h])

/-- A changed call launches no process that no call was launching. -/
theorem process_of_set (found : s.calls[t]? = some c) (going : c.pc.inProgress = true)
    {c' : StartCall} (process : c'.pc.process = c.pc.process ∨ c'.pc.process = none)
    {pc : StartPc} (h : pc ∈ (s.calls.set t c').flatMap (·.pc.pending))
    (launch : pc.process = some q) : ∃ pc' ∈ s.pending, pc'.process = some q := by
  obtain old | ⟨rfl, _⟩ := mem_pending_set found going h
  · exact ⟨pc, old, launch⟩
  · obtain same | gone := process
    · exact ⟨c.pc, mem_pending found going, same.symm.trans launch⟩
    · rw [gone] at launch
      cases launch

/-- A launch of a process was pending before the step, unless the step spawned the process. -/
theorem Effect.process (effect : Effect s e s') {pc : StartPc} (h : pc ∈ s'.pending)
    (launch : pc.process = some q) :
    (∃ pc' ∈ s.pending, pc'.process = some q) ∨ q = s.procs.length := by
  have admitted (h : pc ∈ (s.calls ++ [({} : StartCall)]).flatMap (·.pc.pending)) :
      ∃ pc' ∈ s.pending, pc'.process = some q := by
    rw [pending_admitted, List.mem_append, List.mem_singleton] at h
    obtain old | rfl := h
    · exact ⟨pc, old, launch⟩
    · cases launch
  cases effect with
  | admitted _ => exact Or.inl (admitted h)
  | restarted _ _ _ => exact Or.inl (admitted h)
  | moved found moves at_ =>
      refine Or.inl (process_of_set found moves.going.1.1 ?_ h launch)
      rw [at_]
      exact moves.process.imp_right And.left
  | spawned found at_ =>
      obtain old | ⟨rfl, _⟩ := mem_pending_set found (at_ ▸ rfl) h
      · exact Or.inl ⟨pc, old, launch⟩
      · exact Or.inr (Option.some.inj launch).symm
  | published found at_ past =>
      refine Or.inl (process_of_set found (at_ ▸ rfl) (Or.inr ?_) h launch)
      obtain rfl | rfl := past <;> rfl
  | noted found at_ =>
      exact Or.inl (process_of_set found (at_ ▸ rfl) (Or.inr rfl) h launch)
  | failed found at_ =>
      exact Or.inl (process_of_set found (at_ ▸ rfl) (Or.inr rfl) h launch)
  | _ => exact Or.inl ⟨pc, h, launch⟩

/-! ## Stop calls -/

/-- `Shutdown` gets as far as its second critical section only while the manager runs. -/
theorem Effect.marking (effect : Effect s e s') {j : Nat} {x : StopCall} {r : Qmp}
    (found : s'.stops[j]? = some x) (at_ : x.pc = .marking r) :
    (∃ x, s.stops[j]? = some x ∧ x.pc = .marking r) ∨ s.m.state = .running := by
  have changed {i : Nat} {y y' : StopCall} (call : s.stops[i]? = some y)
      (found : (s.stops.set i y')[j]? = some x)
      (new : y'.pc = .marking r → s.m.state = .running) :
      (∃ x, s.stops[j]? = some x ∧ x.pc = .marking r) ∨ s.m.state = .running := by
    obtain ⟨_, rfl⟩ | ⟨_, old⟩ := of_getElem?_set call found
    · exact Or.inr (new at_)
    · exact Or.inl ⟨x, old, at_⟩
  cases effect with
  | @called kind =>
      obtain ⟨_, rfl⟩ | old := of_getElem?_concat found
      · cases kind <;> cases at_
      · exact Or.inl ⟨x, old, at_⟩
  | stopped call moves =>
      apply changed call found
      intro new
      cases moves with
      | client _ client => exact (Option.ite_none_right_eq_some.mp client).1
      | _ => cases new
  | marked call marks =>
      apply changed call found
      intro new
      cases marks <;> cases new
  | _ => exact Or.inl ⟨x, found, at_⟩

end VmServer.Vm
