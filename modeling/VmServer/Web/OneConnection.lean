import VmServer.Library.Contributions
import VmServer.Web.Console

/-!
# When the page has one console connection

`connect` makes no second object while `rfb` refers to one, and `disconnect`
tells the object it forgets. The "disconnect" handler clears `rfb` whichever
object reports, so the late report of a replaced object hides its successor,
which the next poll then doubles.
-/

namespace VmServer.Web

open TransitionSystem

/-- The object is open or opening and was not told to disconnect. -/
def Page.Active (s : Page) (i : Nat) : Prop :=
  ∃ o, s.objects[i]? = some o ∧ o.active = true

/-- There is at most one such object, and `rfb` refers to it. -/
structure OneConnection (s : Page) : Prop where
  unique : ∀ i j, s.Active i → s.Active j → i = j
  referred : ∀ i, s.Active i → s.rfb = some i

/-- No object reports its end while `rfb` refers to another one. -/
def ReportsInTime (s : Page) : PageEvent → Prop
  | .disconnected i => s.rfb = none ∨ s.rfb = some i
  | _ => True

/-- `rfb` refers to the active object, and to nothing when there is none. -/
def Page.Tracks (s : Page) : Prop :=
  ∀ i, s.Active i ↔ s.rfb = some i

theorem oneConnection_iff {s : Page} : OneConnection s ↔ ∀ i, s.Active i → s.rfb = some i := by
  refine ⟨fun h => h.referred, fun h => ⟨fun i j hi hj => ?_, h⟩⟩
  exact Option.some.inj ((h i hi).symm.trans (h j hj))

namespace Page

variable {s t : Page}

theorem active_modify {i j : Nat} {f : Rfb → Rfb} (keep : ∀ o, (f o).active = o.active) :
    ({ s with objects := s.objects.modify i f } : Page).Active j ↔ s.Active j := by
  simp only [Active, List.getElem?_modify]
  by_cases same : i = j
  · simp [same, keep]
  · simp [same]

theorem tracks_modify (h : s.Tracks) {i : Nat} {f : Rfb → Rfb}
    (keep : ∀ o, (f o).active = o.active) :
    ({ s with objects := s.objects.modify i f } : Page).Tracks :=
  fun j => (active_modify keep).trans (h j)

theorem disconnect_active (o : Rfb) : o.disconnect.active = false := by
  unfold Rfb.disconnect
  by_cases active : o.active = true
  · rw [if_pos active]
    rfl
  · rw [if_neg active]
    exact Bool.eq_false_iff.mpr active

/-- A new object is the only active one. -/
theorem Tracks.connect (h : s.Tracks) : s.connect.Tracks := by
  unfold Page.connect
  split
  case h_1 => exact h
  case h_2 idle =>
    intro i
    constructor
    · rintro ⟨o, ho, active⟩
      rcases Contributions.of_getElem?_concat ho with ⟨rfl, _⟩ | old
      · rfl
      · cases ((h i).mp ⟨o, old, active⟩).symm.trans idle
    · intro hi
      obtain rfl : s.objects.length = i := Option.some.inj hi
      exact ⟨_, List.getElem?_concat_length, rfl⟩

/-- The object that is forgotten is told to disconnect. -/
theorem Tracks.disconnect (h : s.Tracks) : s.disconnect.Tracks := by
  unfold Page.disconnect
  split
  case h_1 j current =>
    refine fun i => ⟨fun active => ?_, fun none_ => by cases none_⟩
    obtain ⟨o, ho, active⟩ := active
    rw [List.getElem?_modify] at ho
    by_cases same : j = i
    · obtain ⟨o', _, rfl⟩ : ∃ o', s.objects[i]? = some o' ∧ o'.disconnect = o := by
        simpa [same] using ho
      exact absurd active (by simp [disconnect_active])
    · have old : s.Active i := ⟨o, by simpa [same] using ho, active⟩
      exact absurd (Option.some.inj (current.symm.trans ((h i).mp old))) same
  case h_2 => exact h

theorem Tracks.setViewOnly (h : s.Tracks) (viewOnly : Bool) : (s.setViewOnly viewOnly).Tracks := by
  unfold Page.setViewOnly
  split
  case h_1 => exact tracks_modify h fun o => rfl
  case h_2 => exact h

theorem Tracks.reconnect (h : s.Tracks) : s.disconnect.connect.Tracks :=
  h.disconnect.connect

theorem Tracks.toControl (h : s.Tracks) : s.toControl.Tracks := by
  unfold Page.toControl
  split
  · exact Tracks.reconnect (s := { s with mode := .control }) h
  · exact h

theorem Tracks.applyControl (h : s.Tracks) (c : Control) : (s.applyControl c).Tracks := by
  have h : ({ s with control := c } : Page).Tracks := h
  simp only [Page.applyControl]
  split
  · exact h
  · split
    · exact h.toControl.setViewOnly false
    · split
      · exact h.setViewOnly true
      · exact h.toControl

theorem Tracks.applyVMStatus (h : s.Tracks) (st : Vm.VmState) : (s.applyVMStatus st).Tracks := by
  have h : ({ s with lastStatus := st } : Page).Tracks := h
  simp only [Page.applyVMStatus]
  split
  · split
    · exact h.connect
    · exact h
  · exact Tracks.disconnect h

theorem Tracks.takeControl (h : s.Tracks) (c : Option Control) : (s.takeControl c).Tracks := by
  have h : ({ s with mode := .control } : Page).disconnect.connect.Tracks := Tracks.reconnect h
  cases c with
  | none => exact h
  | some c => exact h.applyControl c

theorem Tracks.resume (h : s.Tracks) : s.resume.Tracks := by
  unfold Page.resume
  split
  · exact h.connect
  · exact h

theorem Tracks.onConnect (h : s.Tracks) {i : Nat} {o : Rfb} (found : s.objects[i]? = some o)
    (ht : s.onConnect i o = some t) : t.Tracks := by
  unfold Page.onConnect at ht
  split at ht
  case isTrue opening =>
    obtain rfl := Option.some.inj ht
    intro j
    refine Iff.trans ⟨?_, ?_⟩ (h j)
    · rintro ⟨o', ho', active⟩
      rcases Contributions.of_getElem?_set found ho' with ⟨rfl, _⟩ | ⟨_, old⟩
      · exact ⟨o, found, by simp [Rfb.active, opening]⟩
      · exact ⟨o', old, active⟩
    · rintro ⟨o', ho', active⟩
      by_cases same : i = j
      · subst same
        exact ⟨_, by rw [Contributions.getElem?_set found, if_pos rfl], rfl⟩
      · exact ⟨o', by rw [Contributions.getElem?_set found, if_neg same, ho'], active⟩
  case isFalse => cases ht

/-- The "disconnect" handler clears `rfb` and ends its own object only. -/
theorem onDisconnect_eq {i : Nat} {o : Rfb} (found : s.objects[i]? = some o)
    (ht : s.onDisconnect i o = some t) :
    t.rfb = none ∧ ∀ j, t.Active j ↔ i ≠ j ∧ s.Active j := by
  unfold Page.onDisconnect at ht
  split at ht
  case isTrue open_ =>
    obtain rfl := Option.some.inj ht
    refine ⟨rfl, fun j => ⟨?_, ?_⟩⟩
    · rintro ⟨o', ho', active⟩
      rcases Contributions.of_getElem?_set found ho' with ⟨_, rfl⟩ | ⟨ne, old⟩
      · cases active
      · exact ⟨ne, o', old, active⟩
    · rintro ⟨ne, o', ho', active⟩
      refine ⟨o', ?_, active⟩
      rw [Page.scheduleReconnect, Contributions.getElem?_set found, if_neg ne, ho']
  case isFalse => cases ht

/-- Every event but the report of an object's end keeps `rfb` on the active object. -/
theorem Tracks.next (h : s.Tracks) {e : PageEvent} (ht : s.next e = some t)
    (other : ∀ i, e ≠ .disconnected i) : t.Tracks := by
  cases e with
  | status vm control => exact Option.some.inj ht ▸ (h.applyVMStatus vm).applyControl control
  | vmAction vm => exact Option.some.inj ht ▸ h.applyVMStatus vm
  | takeControl c => exact Option.some.inj ht ▸ h.takeControl c
  | timer =>
      simp only [Page.next] at ht
      split at ht
      · exact Option.some.inj ht ▸ h
      · cases ht
  | resume =>
      simp only [Page.next] at ht
      split at ht
      · cases ht
      · exact Option.some.inj ht ▸ Tracks.resume (s := { s with resuming := s.resuming - 1 }) h
  | connected i =>
      obtain ⟨o, found, ht⟩ := Option.bind_eq_some_iff.mp ht
      exact h.onConnect found ht
  | disconnected i => exact absurd rfl (other i)

/-- After a report, what is still active is what `rfb` no longer refers to. -/
theorem Tracks.disconnected_iff (h : s.Tracks) {i : Nat}
    (ht : s.next (.disconnected i) = some t) :
    (∀ j, t.Active j → t.rfb = some j) ↔ s.rfb = none ∨ s.rfb = some i := by
  obtain ⟨o, found, ht⟩ := Option.bind_eq_some_iff.mp ht
  obtain ⟨cleared, active⟩ := onDisconnect_eq found ht
  constructor
  · intro held
    cases current : s.rfb with
    | none => exact .inl rfl
    | some j =>
        by_cases same : i = j
        · exact .inr (congrArg some same.symm)
        · have still : t.Active j := (active j).mpr ⟨same, (h j).mpr current⟩
          exact absurd ((held j still).symm.trans cleared) (Option.some_ne_none j)
  · intro inTime j still
    obtain ⟨ne, before⟩ := (active j).mp still
    have current := (h j).mp before
    rcases inTime with none_ | own
    · cases none_.symm.trans current
    · exact absurd (Option.some.inj (own.symm.trans current)) ne

theorem tracks_initial (st : Vm.VmState) :
    (({ lastStatus := st } : Page).applyVMStatus st).Tracks := by
  refine Tracks.applyVMStatus (fun i => ⟨fun active => ?_, fun none_ => by cases none_⟩) st
  obtain ⟨o, ho, _⟩ := active
  cases ho

/-- What `rfb` refers to is active whatever happens. -/
theorem referred_active {e : PageEvent} (h : s.Tracks) (ht : s.next e = some t)
    (held : ∀ i, t.Active i → t.rfb = some i) : t.Tracks := by
  refine fun i => ⟨held i, fun current => ?_⟩
  by_cases report : ∃ j, e = .disconnected j
  · obtain ⟨j, rfl⟩ := report
    obtain ⟨o, found, ht⟩ := Option.bind_eq_some_iff.mp ht
    exact absurd ((onDisconnect_eq found ht).1.symm.trans current) (Option.some_ne_none i).symm
  · exact (h.next ht (fun j same => report ⟨j, same⟩) i).mpr current

end Page

/-- A page has one console connection, and `rfb` refers to it, in exactly those runs in which no
object reports its end while `rfb` refers to another one. -/
theorem one_connection_iff (x : Execution pageSystem) :
    x.Always OneConnection ↔ x.Meets ReportsInTime := by
  have tracked : x.Always (fun s => ∀ i, s.Active i → s.rfb = some i) ↔ x.Meets ReportsInTime := by
    refine x.run.always_iff (I := Page.Tracks) ?_ ?_ ?_
    · rintro s ⟨st, rfl⟩
      exact ⟨Page.tracks_initial st, fun i => (Page.tracks_initial st i).mp⟩
    · intro s e t tracks _ held ht
      exact Page.referred_active tracks ht held
    · intro s e t tracks _ ht
      by_cases report : ∃ j, e = .disconnected j
      · obtain ⟨j, rfl⟩ := report
        exact tracks.disconnected_iff ht
      · have kept := tracks.next ht fun j same => report ⟨j, same⟩
        refine ⟨fun _ => ?_, fun _ i => (kept i).mp⟩
        cases e with
        | disconnected j => exact absurd ⟨j, rfl⟩ report
        | _ => trivial
  refine Iff.trans ⟨fun h => ?_, fun h => ?_⟩ tracked
  · exact h.mono fun s => oneConnection_iff.mp
  · exact h.mono fun s => oneConnection_iff.mpr

/-- After Take control the replaced object reports late, and then the status is polled. -/
def lateReport : List PageEvent :=
  [.takeControl (some ⟨true, "admin"⟩), .disconnected 0, .status .running ⟨true, "admin"⟩]

/-- The next poll opens a second connection beside the one that is open. -/
theorem late_report_doubles : ∃ x : Execution pageSystem,
    ¬ x.Always OneConnection ∧ x.final.Active 1 ∧ x.final.Active 2 := by
  obtain ⟨x, hx, _⟩ := Execution.of_exec (M := pageSystem)
    (s := ({ lastStatus := .running } : Page).applyVMStatus .running) ⟨.running, rfl⟩
    (show exec _ _ lateReport = some _ from rfl)
  have first : x.final.Active 1 := hx ▸ ⟨_, rfl, rfl⟩
  have second : x.final.Active 2 := hx ▸ ⟨_, rfl, rfl⟩
  exact ⟨x, fun held => absurd (held.2.unique 1 2 first second) (by decide), first, second⟩

end VmServer.Web
