import VmServer.HttpServer.Routes

/-!
# Every guarded call is mediated

The middleware lets a request through only with a live session, as an
administrator, or from this site. Each registered handler is checked against
its own pattern and wrappers, and the two muxes then carry these facts to
every request.
-/

namespace VmServer.HttpServer

open Auth Routing

/-- The calls that change the guest, its snapshots, the controller seat, the configuration or
what is shared. -/
def Call.guarded : Call → Bool
  | .vm _ => true
  | .saveSnapshot _ => true
  | .loadSnapshot _ => true
  | .deleteSnapshot _ => true
  | .createDisk => true
  | .updateConfig => true
  | .setConfig => true
  | .saveConfig => true
  | .startTunnel => true
  | .startTailnet => true
  | .take _ => true
  | _ => false

/-- The endpoints for administrators. -/
def Endpoint.adminOnly : Endpoint → Bool
  | .setup => true
  | .eject => true
  | .tunnel => true
  | .tailscale => true
  | .users => true
  | _ => false

variable (w : World)

/-- The request carries the cookie of the session, which was live at the check. -/
def LiveAt (r : Request) (check : Nat) (sess : Session) : Prop :=
  r.cookie = some sess.id ∧ (w.auth check).sessions sess.id = some sess ∧
    Manager.expired w.opts sess (w.now check) = false

/-- The origin is absent or has the host of the request, ignoring case. -/
def FromThisHost (r : Request) : Prop :=
  r.origin = "" ∨ ∃ h, w.net.parseHost r.origin = some h ∧ w.net.equalFold h r.host = true

/-- What a request has passed before the handler of the endpoint makes a guarded call. -/
structure Mediated (r : Request) (endpoint : Option Endpoint) : Prop where
  session : ∃ check sess, LiveAt w r check sess ∧
    (endpoint.any (·.adminOnly) → sess.admin = true)
  method : r.target.method ≠ "GET" ∧ r.target.method ≠ "HEAD"
  site : r.secFetchSite = "" ∨ r.secFetchSite = "same-origin" ∨ r.secFetchSite = "none"
  origin : FromThisHost w r

/-- Every call made in serving the request is mediated, and the seat is acquired only for a
live session from this host. -/
def CompletelyMediated (r : Request) : Prop :=
  ∀ e ∈ buildHandler w r, (e.call.guarded → Mediated w r e.endpoint) ∧
    ∀ sess, e.call = .acquire sess →
      (∃ check stored, LiveAt w r check stored) ∧ FromThisHost w r

/-- Neither guarded nor an acquisition of the seat. -/
def Event.Harmless (e : Event) : Prop :=
  e.call.guarded = false ∧ ∀ sess, e.call ≠ .acquire sess

variable {w}

theorem harmless_refuse {endpoint : Option Endpoint} {code : Nat} {text : String} :
    (⟨endpoint, .refuse code text⟩ : Event).Harmless := ⟨rfl, by simp⟩

theorem fromThisHost_of_sameOrigin {r : Request} (h : sameOrigin w r = true) :
    FromThisHost w r := by
  simp only [sameOrigin, originMatchesHost, Bool.or_eq_true, decide_eq_true_eq] at h
  rcases h with absent | same
  · exact Or.inl absent
  · split at same
    · cases same
    · rename_i host parsed
      exact Or.inr ⟨host, parsed, same⟩

/-- A session that passes the check is stored, live and named by the cookie. -/
theorem liveAt_of_sessionFromRequest {c : Context} {sess : Session}
    (h : c.sessionFromRequest w = some sess) :
    ∃ stored, LiveAt w c.request c.checks stored ∧ stored.admin = sess.admin := by
  obtain ⟨stored, carried, found, young, rfl⟩ := Manager.sessionFromRequest_some h
  exact ⟨stored, ⟨carried, found, young⟩, rfl⟩

/-- Behind `requireAuth` the request has a live session; the middleware itself only answers. -/
theorem mem_requireAuth {next : Handler Context Event} {c : Context} {e : Event}
    (h : e ∈ requireAuth w next c) :
    e.Harmless ∨ ∃ sess stored, LiveAt w c.request c.checks stored ∧
      stored.admin = sess.admin ∧
      e ∈ next { c with session := some sess, checks := c.checks + 1 } := by
  rcases mem_behind.mp h with stopped | ⟨c', passed, inside⟩
  · cases found : c.sessionFromRequest w with
    | none =>
        simp only [found] at stopped
        obtain rfl := Except.error.inj stopped
        apply Or.inl
        unfold Event.Harmless
        dsimp only
        split <;> exact ⟨rfl, by simp⟩
    | some sess => simp [found] at stopped
  · cases found : c.sessionFromRequest w with
    | none => simp [found] at passed
    | some sess =>
        simp only [found] at passed
        obtain rfl := Except.ok.inj passed
        obtain ⟨stored, live, same⟩ := liveAt_of_sessionFromRequest found
        exact Or.inr ⟨sess, stored, live, same, inside⟩

/-- Behind `requireAdmin` the live session is an administrator's. -/
theorem mem_requireAdmin {next : Handler Context Event} {c : Context} {e : Event}
    (h : e ∈ requireAdmin w next c) :
    e.Harmless ∨ ∃ c' stored, LiveAt w c.request c.checks stored ∧ stored.admin = true ∧
      e ∈ next c' := by
  rcases mem_requireAuth h with harmless | ⟨sess, stored, live, same, inside⟩
  · exact Or.inl harmless
  · rcases mem_behind.mp inside with stopped | ⟨c', passed, inside⟩
    · simp only [Option.any_some] at stopped
      split at stopped
      · cases stopped
      · exact Or.inl (Except.error.inj stopped ▸ harmless_refuse)
    · simp only [Option.any_some] at passed
      split at passed
      · rename_i admin
        exact Or.inr ⟨c', stored, live, same.trans admin, inside⟩
      · cases passed

/-- Behind `csrfGuard` a request with a method that may change something comes from this site. -/
theorem mem_csrfGuard {next : Handler Context Event} {c : Context} {e : Event}
    (h : e ∈ csrfGuard w next c) :
    e.Harmless ∨ (e ∈ next c ∧
      (c.request.target.method ≠ "GET" → c.request.target.method ≠ "HEAD" →
        (c.request.secFetchSite = "" ∨ c.request.secFetchSite = "same-origin" ∨
          c.request.secFetchSite = "none") ∧ FromThisHost w c.request)) := by
  rcases mem_behind.mp h with stopped | ⟨c', passed, inside⟩
  · dsimp only at stopped
    split at stopped
    · split at stopped
      · exact Or.inl (Except.error.inj stopped ▸ harmless_refuse)
      · split at stopped
        · exact Or.inl (Except.error.inj stopped ▸ harmless_refuse)
        · cases stopped
    · cases stopped
  · apply Or.inr
    dsimp only at passed
    split at passed
    · split at passed
      · cases passed
      · rename_i site
        split at passed
        · cases passed
        · rename_i origin
          obtain rfl := Except.ok.inj passed
          refine ⟨inside, fun _ _ => ⟨by tauto, ?_⟩⟩
          apply fromThisHost_of_sameOrigin
          simp only [sameOrigin, Bool.or_eq_true, decide_eq_true_eq]
          tauto
    · rename_i reads
      obtain rfl := Except.ok.inj passed
      exact ⟨inside, fun get head => absurd ⟨get, head⟩ reads⟩

theorem mem_run {endpoint : Endpoint} {c : Context} {e : Event} :
    e ∈ run w endpoint c ↔ e.endpoint = some endpoint ∧ e.call ∈ endpoint.calls w c := by
  cases e
  simp only [run, List.mem_map, Event.mk.injEq]
  constructor
  · rintro ⟨call, made, rfl, rfl⟩
    exact ⟨rfl, made⟩
  · rintro ⟨rfl, made⟩
    exact ⟨_, made, rfl, rfl⟩

@[simp] theorem acquire_mem_attempt {call : Call} {rest : List Call} {sess : Session} :
    .acquire sess ∈ attempt w call rest ↔
      .acquire sess = call ∨ (w.fails call = none ∧ .acquire sess ∈ rest) := by
  unfold attempt
  cases w.fails call <;> simp

@[simp] theorem acquire_mem_decoding {rest : List Call} {sess : Session} :
    .acquire sess ∈ decoding w rest ↔ w.decoded ∧ .acquire sess ∈ rest := by
  unfold decoding
  split <;> simp_all

@[simp] theorem acquire_mem_checking {rest : List Call} {sess : Session} :
    .acquire sess ∈ checking w rest ↔ w.rejected = none ∧ .acquire sess ∈ rest := by
  unfold checking
  cases w.rejected <;> simp

@[simp] theorem acquire_mem_withSession {c : Context} {rest : Session → List Call}
    {sess : Session} : .acquire sess ∈ withSession c rest ↔
      ∃ own, c.session = some own ∧ .acquire sess ∈ rest own := by
  unfold withSession
  cases c.session <;> simp

/-- Of the handlers only that of `/ws/vnc` acquires the seat. -/
theorem acquire_in_vnc {endpoint : Endpoint} {c : Context} {sess : Session}
    (h : .acquire sess ∈ endpoint.calls w c) : endpoint = .vnc := by
  cases endpoint with
  | vnc => rfl
  | root =>
      simp only [Endpoint.calls, handleRoot] at h
      split at h <;> simp at h
  | loginPage =>
      simp only [Endpoint.calls, handleLoginPage] at h
      split at h <;> simp at h
  | login =>
      simp only [Endpoint.calls, handleLogin] at h
      split at h <;> simp at h
  | logout =>
      simp only [Endpoint.calls, handleLogout] at h
      split at h <;> simp at h
  | setup =>
      simp only [Endpoint.calls, apiSetup] at h
      split at h <;> split at h <;> simp at h
  | takeControl => simp [Endpoint.calls, apiTakeControl] at h
  | releaseControl => simp [Endpoint.calls, apiReleaseControl] at h
  | vmAction op => simp [Endpoint.calls, HttpServer.vmAction] at h
  | listSnapshots => simp [Endpoint.calls, apiListSnapshots] at h
  | createSnapshot => simp [Endpoint.calls, apiCreateSnapshot] at h
  | restoreSnapshot => simp [Endpoint.calls, apiRestoreSnapshot] at h
  | deleteSnapshot => simp [Endpoint.calls, apiDeleteSnapshot] at h
  | eject => simp [Endpoint.calls, apiEject] at h
  | tunnel => simp [Endpoint.calls, apiTunnel] at h
  | tailscale => simp [Endpoint.calls, apiTailscale] at h
  | users => simp [Endpoint.calls, apiAddUser] at h
  | password => simp [Endpoint.calls, apiChangePassword] at h
  | static => simp [Endpoint.calls] at h
  | healthz => simp [Endpoint.calls] at h
  | console => simp [Endpoint.calls] at h
  | setupPage => simp [Endpoint.calls] at h
  | status => simp [Endpoint.calls] at h
  | me => simp [Endpoint.calls] at h
  | tunnelLog => simp [Endpoint.calls] at h

/-! ## The API routes -/

/-- A guarded call of the handler needs a method that is not for reading, and an
administrator's session where the endpoint is for administrators. -/
def ApiGuarded (w : World) (c : Context) (e : Event) : Prop :=
  (e.call.guarded → (c.request.target.method ≠ "GET" ∧ c.request.target.method ≠ "HEAD") ∧
    (e.endpoint.any (·.adminOnly) →
      ∃ stored, LiveAt w c.request c.checks stored ∧ stored.admin = true)) ∧
  ∀ sess, e.call ≠ .acquire sess

def RouteGuarded (w : World) (route : Pattern × Handler Context Event) : Prop :=
  ∀ c e, route.1.takes (target c) → e ∈ route.2 c → ApiGuarded w c e

theorem apiGuarded_of_harmless {c : Context} {e : Event} (h : e.Harmless) :
    ApiGuarded w c e := by
  constructor
  · intro guarded
    simp [h.1] at guarded
  · exact h.2

theorem method_of_writes {m : String} {path : List Segment} {c : Context}
    (writes : m = "POST" ∨ m = "DELETE") (h : (⟨some m, path⟩ : Pattern).takes (target c)) :
    c.request.target.method ≠ "GET" ∧ c.request.target.method ≠ "HEAD" := by
  rcases writes with rfl | rfl
  · have method : c.request.target.method = "POST" := Pattern.method_of_takes (by decide) h
    simp [method]
  · have method : c.request.target.method = "DELETE" := Pattern.method_of_takes (by decide) h
    simp [method]

theorem routeGuarded_of_writes {m : String} {path : List Segment} {endpoint : Endpoint}
    (writes : m = "POST" ∨ m = "DELETE") (anyUser : endpoint.adminOnly = false)
    (noSeat : endpoint ≠ .vnc) : RouteGuarded w (⟨some m, path⟩, run w endpoint) := by
  intro c e takes inside
  obtain ⟨own, made⟩ := mem_run.mp inside
  constructor
  · intro _
    refine ⟨method_of_writes writes takes, fun admin => ?_⟩
    simp [own, anyUser] at admin
  · intro sess acquired
    exact noSeat (acquire_in_vnc (acquired ▸ made))

theorem routeGuarded_of_admin {path : List Segment} {endpoint : Endpoint}
    (noSeat : endpoint ≠ .vnc) :
    RouteGuarded w (⟨some "POST", path⟩, requireAdmin w (run w endpoint)) := by
  intro c e takes inside
  rcases mem_requireAdmin inside with harmless | ⟨c', stored, live, admin, inside⟩
  · exact apiGuarded_of_harmless harmless
  · constructor
    · intro _
      exact ⟨method_of_writes (Or.inl rfl) takes, fun _ => ⟨stored, live, admin⟩⟩
    · intro sess acquired
      exact noSeat (acquire_in_vnc (acquired ▸ (mem_run.mp inside).2))

/-- The endpoints that any user may ask for with any method. -/
def Endpoint.harmless : Endpoint → Bool
  | .vnc => false
  | .static => true
  | .root => true
  | .loginPage => true
  | .login => true
  | .logout => true
  | .healthz => true
  | .console => true
  | .setupPage => true
  | .status => true
  | .me => true
  | .listSnapshots => true
  | .tunnelLog => true
  | _ => false

theorem attempt_quiet {call : Call} {rest : List Call} (first : call.guarded = false)
    (later : ∀ x ∈ rest, x.guarded = false) : ∀ x ∈ attempt w call rest, x.guarded = false := by
  simp only [attempt, List.forall_mem_cons]
  refine ⟨first, ?_⟩
  split
  · exact List.forall_mem_singleton.mpr rfl
  · exact later

theorem calls_quiet {endpoint : Endpoint} (h : endpoint.harmless = true) (c : Context) :
    ∀ call ∈ endpoint.calls w c, call.guarded = false := by
  have answer (code : Nat) : ∀ x ∈ [Call.answer code], x.guarded = false :=
    List.forall_mem_singleton.mpr rfl
  have redirect (url : String) : ∀ x ∈ [Call.redirect url], x.guarded = false :=
    List.forall_mem_singleton.mpr rfl
  cases endpoint with
  | root =>
      simp only [Endpoint.calls, handleRoot]
      split
      · exact redirect _
      · exact redirect _
  | loginPage =>
      simp only [Endpoint.calls, handleLoginPage]
      split
      · exact redirect _
      · exact answer _
  | login =>
      simp only [Endpoint.calls, handleLogin]
      split
      · exact attempt_quiet rfl (redirect _)
      · exact List.forall_mem_singleton.mpr rfl
  | logout =>
      simp only [Endpoint.calls, handleLogout]
      split <;> simp [Call.guarded]
  | listSnapshots => exact attempt_quiet rfl (answer _)
  | static => exact answer _
  | healthz => exact answer _
  | console => exact answer _
  | setupPage => exact answer _
  | status => exact answer _
  | me => exact answer _
  | tunnelLog => exact answer _
  | _ => simp [Endpoint.harmless] at h

theorem harmless_of_run {endpoint : Endpoint} {c : Context} {e : Event}
    (h : endpoint.harmless = true) (inside : e ∈ run w endpoint c) : e.Harmless := by
  obtain ⟨_, made⟩ := mem_run.mp inside
  constructor
  · exact calls_quiet h c _ made
  · intro sess acquired
    obtain rfl := acquire_in_vnc (acquired ▸ made)
    cases h

/-- A harmless handler may have any pattern. -/
theorem routeGuarded_of_harmless {p : Pattern} {endpoint : Endpoint}
    (h : endpoint.harmless = true) : RouteGuarded w (p, run w endpoint) := by
  intro c e _ inside
  exact apiGuarded_of_harmless (harmless_of_run h inside)

theorem routeGuarded_of_harmless_admin {p : Pattern} {endpoint : Endpoint}
    (h : endpoint.harmless = true) : RouteGuarded w (p, requireAdmin w (run w endpoint)) := by
  intro c e _ inside
  apply apiGuarded_of_harmless
  rcases mem_requireAdmin inside with harmless | ⟨c', _, _, _, inside⟩
  · exact harmless
  · exact harmless_of_run h inside

theorem api_guarded : ∀ route ∈ api w, RouteGuarded w route := by
  have post : "POST" = "POST" ∨ "POST" = "DELETE" := Or.inl rfl
  have delete : "DELETE" = "POST" ∨ "DELETE" = "DELETE" := Or.inr rfl
  simp only [api, List.forall_mem_cons]
  exact ⟨routeGuarded_of_harmless rfl,
    routeGuarded_of_harmless rfl,
    routeGuarded_of_writes post rfl (by decide), routeGuarded_of_writes post rfl (by decide),
    routeGuarded_of_writes post rfl (by decide), routeGuarded_of_writes post rfl (by decide),
    routeGuarded_of_writes post rfl (by decide), routeGuarded_of_writes post rfl (by decide),
    routeGuarded_of_writes post rfl (by decide), routeGuarded_of_writes post rfl (by decide),
    routeGuarded_of_harmless rfl,
    routeGuarded_of_writes post rfl (by decide), routeGuarded_of_writes post rfl (by decide),
    routeGuarded_of_writes delete rfl (by decide),
    routeGuarded_of_admin (by decide), routeGuarded_of_admin (by decide),
    routeGuarded_of_admin (by decide), routeGuarded_of_harmless_admin rfl,
    routeGuarded_of_admin (by decide), routeGuarded_of_admin (by decide),
    routeGuarded_of_writes post rfl (by decide), by simp⟩

/-! ## The whole handler -/

/-- The upgrader has checked the origin before the seat is acquired. -/
theorem acquire_fromThisHost {c : Context} {sess : Session}
    (h : .acquire sess ∈ handleVNC w c) : FromThisHost w c.request := by
  simp only [handleVNC, acquire_mem_withSession] at h
  obtain ⟨own, _, h⟩ := h
  split at h
  · simp at h
  · split at h
    · cases h
    · rename_i upgraded
      rw [Decidable.not_not] at upgraded
      exact fromThisHost_of_sameOrigin (w.net.upgrade_checks upgraded)

/-- A call is mediated, and an acquired seat is for a live session from this host. -/
def Safe (w : World) (c : Context) (e : Event) : Prop :=
  (e.call.guarded → Mediated w c.request e.endpoint) ∧
    ∀ sess, e.call = .acquire sess →
      (∃ check stored, LiveAt w c.request check stored) ∧ FromThisHost w c.request

theorem safe_of_harmless {c : Context} {e : Event} (h : e.Harmless) : Safe w c e := by
  constructor
  · intro guarded
    simp [h.1] at guarded
  · intro sess acquired
    exact absurd acquired (h.2 sess)

theorem vnc_quiet (c : Context) :
    ∀ call ∈ Endpoint.vnc.calls w c, call.guarded = false := by
  intro call made
  simp only [Endpoint.calls, handleVNC, withSession] at made
  split at made
  · cases made
  · split at made
    · obtain rfl := List.mem_singleton.mp made
      rfl
    · split at made
      · cases made
      · split at made <;> split at made <;> simp at made <;> grind [Call.guarded]

theorem safe_vnc {c : Context} {e : Event} (h : e ∈ requireAuth w (run w .vnc) c) :
    Safe w c e := by
  rcases mem_requireAuth h with harmless | ⟨sess, stored, live, _, inside⟩
  · exact safe_of_harmless harmless
  · obtain ⟨_, made⟩ := mem_run.mp inside
    constructor
    · intro guarded
      simp [vnc_quiet _ _ made] at guarded
    · intro own acquired
      have fromHere := acquire_fromThisHost (acquired ▸ made)
      exact ⟨⟨_, stored, live⟩, fromHere⟩

theorem safe_api {c : Context} {e : Event}
    (h : e ∈ requireAuth w (csrfGuard w (mux target (api w))) c) : Safe w c e := by
  rcases mem_requireAuth h with harmless | ⟨sess, stored, live, _, inside⟩
  · exact safe_of_harmless harmless
  · rcases mem_csrfGuard inside with harmless | ⟨inside, fromHere⟩
    · exact safe_of_harmless harmless
    · obtain ⟨guards, noSeat⟩ := mux_forall (P := ApiGuarded w) api_guarded inside
      constructor
      · intro guarded
        obtain ⟨method, admin⟩ := guards guarded
        obtain ⟨site, origin⟩ := fromHere method.1 method.2
        refine ⟨?_, method, site, origin⟩
        by_cases restricted : e.endpoint.any (·.adminOnly) = true
        · obtain ⟨owner, live, isAdmin⟩ := admin restricted
          exact ⟨_, owner, live, fun _ => isAdmin⟩
        · exact ⟨_, stored, live, fun yes => absurd yes restricted⟩
      · intro own acquired
        exact absurd acquired (noSeat own)

/-- A page behind `requireAuth` or in the open is harmless. -/
theorem safe_run {endpoint : Endpoint} {c : Context} {e : Event}
    (h : endpoint.harmless = true) (inside : e ∈ run w endpoint c) : Safe w c e :=
  safe_of_harmless (harmless_of_run h inside)

theorem safe_console {c : Context} {e : Event} (inside : e ∈ requireAuth w (run w .console) c) :
    Safe w c e := by
  apply safe_of_harmless
  rcases mem_requireAuth inside with harmless | ⟨_, _, _, _, inside⟩
  · exact harmless
  · exact harmless_of_run rfl inside

theorem safe_setupPage {c : Context} {e : Event}
    (inside : e ∈ requireAdmin w (run w .setupPage) c) : Safe w c e := by
  apply safe_of_harmless
  rcases mem_requireAdmin inside with harmless | ⟨_, _, _, _, inside⟩
  · exact harmless
  · exact harmless_of_run rfl inside

theorem routes_safe : ∀ route ∈ routes w, ∀ c e, route.1.takes (target c) → e ∈ route.2 c →
    Safe w c e := by
  simp only [routes, List.forall_mem_cons]
  exact ⟨fun _ _ _ => safe_run rfl, fun _ _ _ => safe_run rfl, fun _ _ _ => safe_run rfl,
    fun _ _ _ => safe_run rfl, fun _ _ _ => safe_run rfl, fun _ _ _ => safe_run rfl,
    fun _ _ _ => safe_console, fun _ _ _ => safe_setupPage, fun _ _ _ => safe_vnc,
    fun _ _ _ => safe_api, by simp⟩

/-- Complete mediation: whatever a request makes the server call has been checked before. -/
theorem complete_mediation (w : World) (r : Request) : CompletelyMediated w r := by
  intro e inside
  exact mux_forall routes_safe inside

/-- A world with one live session of an administrator, where every call succeeds. -/
def sampleWorld : World where
  opts := defaultOptions
  net := {
    parseHost := fun _ => some "vm.test"
    equalFold := fun a b => a = b
    queryEscape := id
    upgrade := fun checkOrigin r => checkOrigin r
    upgrade_checks := id }
  auth := fun _ =>
    Manager.new.add (Manager.newSession sampleID "10.0.0.1" 0 "admin" true) sampleID.property
  now := fun _ => 0
  fails := fun _ => none
  formParsed := true
  decoded := true
  snapshotName := "fresh"
  rejected := none
  diskExists := true
  wantsStart := false
  vncCredentials := true
  acquired := true

/-- A request to detach the installation media. -/
def ejectRequest (method origin : String) : Request where
  target := ⟨method, ["api", "vm", "eject"], true⟩
  path := "/api/vm/eject"
  requestURI := "/api/vm/eject"
  host := "vm.test"
  secFetchSite := ""
  origin := origin
  cookie := some "token"
  mode := ""
  name := ""
  next := ""

example : (buildHandler sampleWorld (ejectRequest "POST" "")).map (·.call) =
    [.setConfig, .updateConfig, .saveConfig, .answer 200] := by decide

example : buildHandler sampleWorld (ejectRequest "HEAD" "") = [] := by decide

end VmServer.HttpServer
