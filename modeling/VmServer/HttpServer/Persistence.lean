import VmServer.HttpServer.Settings

/-!
# Memory and disk over runs of settings requests

A request that fails after it has assigned the configuration leaves the
assignment behind. Memory and disk then differ, unless the request asked for
what was there. All other requests keep them equal.
-/

namespace VmServer.HttpServer

open Config TransitionSystem

/-- A settings request with what the host answers while it is served. -/
structure SettingsEvent where
  request : SettingsRequest
  answers : Answers

namespace Settings

/-- The file holds the configuration in memory, and the VM manager its VM section. -/
def Agree (s : Settings) : Prop := s.cfg = s.file ∧ s.vm = s.cfg.vm

instance (s : Settings) : Decidable s.Agree := inferInstanceAs (Decidable (_ ∧ _))

/-- An error that comes before `Save` has succeeded leaves everything as it was. -/
def ErrorKeeps (s : Settings) (e : SettingsEvent) : Prop :=
  (s.respond e.request e.answers).2.code ≠ 200 →
    (s.respond e.request e.answers).2.saved = false →
      (s.respond e.request e.answers).1 = s

/-- A step between the assignment and the end of `Save` fails, and the request asked for a
change. -/
def LateFailure (s : Settings) (e : SettingsEvent) : Prop :=
  ∃ cfg text, e.request.check s.cfg e.answers = .ok cfg ∧
    e.request.failure s e.answers cfg = some text ∧ cfg ≠ s.cfg

end Settings

/-- Settings requests one after another, each with failures at any of its steps. -/
def settingsSystem : System Settings SettingsEvent where
  initial := {s | s.Agree}
  next := fun s e => some (s.respond e.request e.answers).1

/-- Memory, manager and file agree after every response, and an early error keeps them. -/
def MemoryAndDiskAgree (x : Execution settingsSystem) : Prop :=
  x.Always Settings.Agree ∧ ∀ p ∈ x.history, p.1.ErrorKeeps p.2

variable {s : Settings} {e : SettingsEvent}

/-- The requests that do not tell the VM manager leave the VM section alone. -/
theorem check_vm {r : SettingsRequest} {a : Answers} {cfg cfg' : Config} (quiet : r.tells = false)
    (h : r.check cfg a = .ok cfg') : cfg'.vm = cfg.vm := by
  cases r with
  | setup body => cases quiet
  | eject => cases quiet
  | tunnel body =>
      obtain ⟨_, _, -, -, rfl⟩ := checkTunnel_ok h
      rfl
  | tailscale body =>
      simp only [SettingsRequest.check] at h
      obtain ⟨_, _, -, -, rfl⟩ := checkTailscale_ok h
      rfl
  | addUser body =>
      obtain ⟨_, rfl⟩ := checkAddUser_ok h
      rfl
  | changePassword username password =>
      obtain ⟨_, rfl⟩ := checkChangePassword_ok h
      rfl

namespace Settings

/-- What is assigned agrees with the manager. -/
theorem assigned_vm {r : SettingsRequest} {a : Answers} {cfg : Config} (agree : s.Agree)
    (checked : r.check s.cfg a = .ok cfg) : (s.assigned r cfg).vm = cfg.vm := by
  simp only [assigned]
  split
  · rfl
  · rename_i quiet
    rw [agree.2, check_vm (Bool.eq_false_iff.mpr quiet) checked]

theorem agree_respond_iff (agree : s.Agree) :
    (s.respond e.request e.answers).1.Agree ↔ ¬ s.LateFailure e := by
  generalize answered : s.respond e.request e.answers = result
  have outcome := answered ▸ s.respond_outcome e.request e.answers
  cases outcome with
  | refused checked =>
      apply iff_of_true agree
      rintro ⟨cfg, text, other, _⟩
      rw [checked] at other
      cases other
  | @failed cfg text checked failure =>
      constructor
      · rintro ⟨same, _⟩ ⟨cfg', _, checked', _, change⟩
        obtain rfl := Except.ok.inj (checked.symm.trans checked')
        exact change (same.trans agree.1.symm)
      · intro none
        have same : cfg = s.cfg := by
          by_contra change
          exact none ⟨cfg, text, checked, failure, change⟩
        exact ⟨same.trans agree.1, assigned_vm agree checked⟩
  | saved checked success kept =>
      apply iff_of_true ⟨rfl, assigned_vm agree checked⟩
      rintro ⟨cfg', text, checked', failure, _⟩
      obtain rfl := Except.ok.inj (checked.symm.trans checked')
      rw [success] at failure
      cases failure

theorem errorKeeps_of_not_lateFailure (agree : s.Agree) (timely : ¬ s.LateFailure e) :
    s.ErrorKeeps e := by
  intro error early
  generalize answered : s.respond e.request e.answers = result at error early ⊢
  have outcome := answered ▸ s.respond_outcome e.request e.answers
  cases outcome with
  | refused checked => rfl
  | @failed cfg text checked failure =>
      have same : cfg = s.cfg := by
        by_contra change
        exact timely ⟨cfg, text, checked, failure, change⟩
      have vm := assigned_vm agree checked
      subst same
      calc s.assigned e.request s.cfg
          = { s with vm := (s.assigned e.request s.cfg).vm } := rfl
        _ = { s with vm := s.cfg.vm } := by rw [vm]
        _ = s := by rw [← agree.2]
  | saved checked success kept =>
      rw [kept] at early
      cases early

end Settings

/-- Memory and disk agree throughout a run, and errors change nothing, exactly when no request
for a change fails after its assignment. -/
theorem memory_and_disk_agree_iff (x : Execution settingsSystem) :
    MemoryAndDiskAgree x ↔ x.Meets fun s e => ¬ s.LateFailure e := by
  have same : x.Always Settings.Agree ↔ x.Meets fun s e => ¬ s.LateFailure e := by
    apply x.run.always_iff (I := fun _ => True)
    · intro s agree
      exact ⟨trivial, agree⟩
    · intro _ _ _ _ _ _ _
      trivial
    · intro s e t _ agree step
      obtain rfl := Option.some.inj step
      exact Settings.agree_respond_iff agree
  constructor
  · intro held
    exact same.mp held.1
  · intro timely
    have agree := same.mpr timely
    refine ⟨agree, fun p member => ?_⟩
    exact Settings.errorKeeps_of_not_lateFailure (agree.1 p member) (timely p member)

/-- A configuration with an installation medium, as it was saved. -/
def installing : Settings :=
  let cfg := Config.default "data" "vm/win10.qcow2"
  let cfg := { cfg with vm := { cfg.vm with isoPath := "win10.iso" } }
  { cfg, vm := cfg.vm, file := cfg, path := "config.yaml" }

/-- The media are detached, and the new file cannot be renamed. -/
def ejectUnsaved : SettingsEvent where
  request := .eject
  answers := {
    lower := .onASCII
    busy := false
    isFile := fun _ => true
    diskExists := fun _ => true
    createDisk := fun _ => none
    hashPassword := fun password => .ok password
    save := { rename := some "permission denied" }
    start := none }

/-- After the failed request memory and manager have no medium, while the file still has it. -/
theorem eject_lost_after_failed_save :
    ∃ x : Execution settingsSystem, ¬ MemoryAndDiskAgree x := by
  have late : (installing.respond ejectUnsaved.request ejectUnsaved.answers).1.cfg ≠
      (installing.respond ejectUnsaved.request ejectUnsaved.answers).1.file := by decide
  have run : exec settingsSystem installing [ejectUnsaved] =
      some (installing.respond ejectUnsaved.request ejectUnsaved.answers).1 := rfl
  obtain ⟨x, hx⟩ := Execution.exists_not_always (M := settingsSystem) (P := Settings.Agree)
    (s := installing) ⟨rfl, rfl⟩ run
    fun agree => late agree.1
  exact ⟨x, fun held => hx held.1⟩

end VmServer.HttpServer
