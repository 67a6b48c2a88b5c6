import VmServer.Auth.Manager

/-!
# What ends the validity of a session

At one moment in time a session that is valid stays valid under every
operation but its own logout and a login that draws its id again. This needs
that no session was seen in the future.
-/

namespace VmServer.Auth.Manager

variable {opts : Options} {creds : Credentials} {m : Manager} {id key : String} {now t : Int}
  {cookie : Option String}

/-- No stored session was seen after the given time. -/
def SeenBy (m : Manager) (now : Int) : Prop := ∀ id, ∀ s ∈ m.sessions id, s.lastSeen ≤ now

theorem SeenBy.later (seen : m.SeenBy now) (hle : now ≤ t) : m.SeenBy t :=
  fun id s h => (seen id s h).trans hle

theorem SeenBy.of_update {m' : Manager} {x : Option Session} (seen : m.SeenBy now)
    (sessions : m'.sessions = Function.update m.sessions key x)
    (new : ∀ s ∈ x, s.lastSeen ≤ now) : m'.SeenBy now := by
  intro id s h
  rw [sessions] at h
  by_cases same : id = key
  · rw [same, Function.update_self] at h
    exact new s h
  · rw [Function.update_of_ne same] at h
    exact seen id s h

theorem SeenBy.drop (seen : m.SeenBy now) : (m.drop key).SeenBy now :=
  seen.of_update rfl (by simp)

theorem SeenBy.see (seen : m.SeenBy now) : (m.see key now).SeenBy now := by
  refine seen.of_update rfl fun s h => ?_
  obtain ⟨old, _, rfl⟩ := Option.map_eq_some_iff.mp h
  exact le_rfl

theorem SeenBy.login {ip username password : String} {random : Except String SessionID}
    (seen : m.SeenBy now) (past : t ≤ now) :
    (m.login opts creds ip t username password random).1.SeenBy now := by
  obtain ⟨_, _, same⟩ | ⟨s, _, _, _, last, changed⟩ :=
    login_sessions (Prod.mk.eta (p := m.login opts creds ip t username password random)).symm
  · exact fun id s h => seen id s (same ▸ h)
  · refine seen.of_update changed fun x h => ?_
    obtain rfl := Option.some.inj h
    exact last.trans_le past

/-- A request drops the session of its cookie when that is expired, or marks it as seen. -/
theorem sessionFromRequest_manager (opts : Options) (m : Manager) (cookie : Option String)
    (now : Int) :
    (m.sessionFromRequest opts cookie now).1 = m ∨
      (∃ key, ∃ s ∈ m.sessions key, expired opts s now ∧
        (m.sessionFromRequest opts cookie now).1 = m.drop key) ∨
      ∃ key, (m.sessionFromRequest opts cookie now).1 = m.see key now := by
  cases cookie with
  | none => exact Or.inl rfl
  | some key =>
      cases found : m.sessions key with
      | none => exact Or.inl (congrArg Prod.fst (sessionFromRequest_unknown found))
      | some s =>
          cases old : expired opts s now with
          | true =>
              exact Or.inr (Or.inl ⟨key, s, found, old,
                congrArg Prod.fst (sessionFromRequest_expired found old)⟩)
          | false =>
              exact Or.inr (Or.inr ⟨key, congrArg Prod.fst (sessionFromRequest_live found old)⟩)

theorem SeenBy.sessionFromRequest (seen : m.SeenBy now) :
    (m.sessionFromRequest opts cookie now).1.SeenBy now := by
  obtain same | ⟨key, _, _, _, dropped⟩ | ⟨key, marked⟩ :=
    sessionFromRequest_manager opts m cookie now
  · rwa [same]
  · exact dropped ▸ seen.drop
  · exact marked ▸ seen.see

theorem touch_eq (m : Manager) (key : String) (now : Int) :
    m.touch key now = m ∨ m.touch key now = m.see key now := by
  unfold touch
  split
  · exact Or.inl rfl
  · exact Or.inr rfl

theorem SeenBy.touch (seen : m.SeenBy now) : (m.touch key now).SeenBy now := by
  rcases touch_eq m key now with same | marked
  · rwa [same]
  · exact marked ▸ seen.see

theorem SeenBy.reap (seen : m.SeenBy now) : (m.reap opts t).SeenBy now :=
  fun id s h => seen id s (Option.filter_eq_some_iff.mp h).1

theorem valid_see (seen : m.SeenBy now) (h : m.valid opts id now) :
    (m.see key now).valid opts id now := by
  obtain ⟨s, hs, age, idle⟩ := valid_iff.mp h
  have last := seen id s hs
  rw [valid_iff, see_sessions]
  by_cases same : id = key
  · subst same
    rw [Function.update_self]
    have marked : now - now ≤ opts.idleTimeout := by omega
    exact ⟨_, Option.mem_map_of_mem _ hs, age, marked⟩
  · rw [Function.update_of_ne same]
    exact ⟨s, hs, age, idle⟩

theorem valid_drop : (m.drop key).valid opts id now ↔ m.valid opts id now ∧ key ≠ id := by
  rw [valid_iff, valid_iff, drop_sessions]
  by_cases same : id = key
  · subst same
    rw [Function.update_self]
    exact iff_of_false (by simp) fun h => h.2 rfl
  · rw [Function.update_of_ne same]
    exact (and_iff_left (Ne.symm same)).symm

theorem valid_sessionFromRequest (seen : m.SeenBy now) (h : m.valid opts id now) :
    (m.sessionFromRequest opts cookie now).1.valid opts id now := by
  obtain same | ⟨key, s, hs, old, dropped⟩ | ⟨key, marked⟩ :=
    sessionFromRequest_manager opts m cookie now
  · rwa [same]
  · rw [dropped, valid_drop]
    refine ⟨h, ?_⟩
    rintro rfl
    obtain ⟨x, hx, alive⟩ := valid_iff.mp h
    obtain rfl := Option.some.inj (hs.symm.trans hx)
    rw [expired_eq_false.mpr alive] at old
    cases old
  · rw [marked]
    exact valid_see seen h

theorem valid_touch (seen : m.SeenBy now) (h : m.valid opts id now) :
    (m.touch key now).valid opts id now := by
  rcases touch_eq m key now with same | marked
  · rwa [same]
  · rw [marked]
    exact valid_see seen h

/-- The reaper leaves alone what is valid now, also when it looked at the clock before. -/
theorem valid_reap (past : t ≤ now) (h : m.valid opts id now) :
    (m.reap opts t).valid opts id now := by
  obtain ⟨s, hs, age, idle⟩ := valid_iff.mp h
  have young : expired opts s t = false := expired_eq_false.mpr ⟨by omega, by omega⟩
  refine valid_iff.mpr ⟨s, ?_, age, idle⟩
  rw [Option.mem_def, reap_sessions_some hs, young]
  rfl

theorem valid_logout :
    (m.logout opts cookie).1.valid opts id now ↔ m.valid opts id now ∧ cookie ≠ some id := by
  cases cookie with
  | none => simp [logout]
  | some key =>
      rw [logout, valid_drop, Ne, Ne, Option.some.injEq]

/-- A login ends a session only by drawing its id for a session that is already expired. -/
theorem valid_login {ip username password : String} {random : Except String SessionID}
    (h : m.valid opts id now) :
    (m.login opts creds ip t username password random).1.valid opts id now ↔
      ∀ s cookie, (m.login opts creds ip t username password random).2 = .ok (s, cookie) →
        s.id = id → expired opts s now = false := by
  obtain ⟨e, failed, same⟩ | ⟨s, cookie, done, _, _, changed⟩ :=
    login_sessions (Prod.mk.eta (p := m.login opts creds ip t username password random)).symm
  · rw [failed, valid_iff, same, ← valid_iff]
    exact iff_of_true h fun s cookie made => by cases made
  · rw [done, valid_iff, changed]
    by_cases drawn : s.id = id
    · subst drawn
      rw [Function.update_self]
      constructor
      · rintro ⟨x, hx, alive⟩ s' cookie' made _
        obtain rfl := Option.some.inj hx
        obtain ⟨rfl, _⟩ := Prod.mk.inj (Except.ok.inj made)
        exact expired_eq_false.mpr alive
      · exact fun young => ⟨s, rfl, expired_eq_false.mp (young s cookie rfl rfl)⟩
    · rw [Function.update_of_ne (Ne.symm drawn), ← valid_iff]
      refine iff_of_true h fun s' cookie' made same => ?_
      obtain ⟨rfl, _⟩ := Prod.mk.inj (Except.ok.inj made)
      exact absurd same drawn

end VmServer.Auth.Manager
