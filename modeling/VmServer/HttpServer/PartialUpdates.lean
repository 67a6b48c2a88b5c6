import VmServer.Config.RoundTrip
import VmServer.HttpServer.Settings

/-!
# Settings requests that mention only some fields

The bodies of `apiTunnel` and `apiTailscale` are JSON objects, in which any
key may be missing. A field of the handler's `body` variable that is not
mentioned is zero or nil; what that does to the stored section is a matter of
each field.

## Implementation notes

A key belongs to a field when the two are equal under case folding, and the
last of several values counts, as in `encoding/json`. A `null` empties a
pointer and leaves a string alone, and as a whole body it is an object without
keys; any other mismatch of types makes the body invalid.
-/

namespace VmServer.HttpServer

open Config

namespace Json

inductive Value
  | null
  | bool (b : Bool)
  | string (s : String)
  | other
  deriving DecidableEq, Repr

abbrev Object := List (String × Value)

/-- `strings.EqualFold`, which is known on ASCII. -/
structure EqualFold where
  eq : String → String → Bool
  ascii : ∀ s t, s.toList.all (·.val < 128) = true → t.toList.all (·.val < 128) = true →
    eq s t = decide (s.toList.map Char.toLower = t.toList.map Char.toLower)

/-- The case folding of ASCII alone. -/
def EqualFold.onASCII : EqualFold where
  eq s t := decide (s.toList.map Char.toLower = t.toList.map Char.toLower)
  ascii _ _ _ _ := rfl

variable (fold : EqualFold)

/-- The values that the object has for a field, in order. -/
def values (o : Object) (field : String) : List Value :=
  (o.filter fun p => fold.eq p.1 field).map Prod.snd

def boolPointer (vs : List Value) : Option (Option Bool) :=
  vs.foldlM (fun _ v =>
    match v with
    | .null => some none
    | .bool b => some (some b)
    | _ => none) none

def string (vs : List Value) : Option String :=
  vs.foldlM (fun s v =>
    match v with
    | .null => some s
    | .string t => some t
    | _ => none) ""

def stringPointer (vs : List Value) : Option (Option String) :=
  vs.foldlM (fun _ v =>
    match v with
    | .null => some none
    | .string t => some (some t)
    | _ => none) none

end Json

open Json

variable (fold : EqualFold)

/-- `Decode(&body)` in `apiTunnel`. -/
def decodeTunnel (o : Object) : Option TunnelBody := do
  let enabled ← boolPointer (values fold o "enabled")
  let mode ← string (values fold o "mode")
  let token ← string (values fold o "token")
  let hostname ← string (values fold o "hostname")
  let autoDownload ← boolPointer (values fold o "auto_download")
  return { enabled, mode, token, hostname, autoDownload }

/-- `Decode(&body)` in `apiTailscale`. -/
def decodeTailscale (o : Object) : Option TailscaleBody := do
  let enabled ← boolPointer (values fold o "enabled")
  let hostname ← string (values fold o "hostname")
  let funnel ← boolPointer (values fold o "funnel")
  let authKey ← string (values fold o "auth_key")
  let controlURL ← stringPointer (values fold o "control_url")
  return { enabled, hostname, funnel, authKey, controlURL }

/-- The object does not mention the field. -/
def Absent (o : Object) (field : String) : Prop := values fold o field = []

instance (o : Object) (field : String) : Decidable (Absent fold o field) :=
  inferInstanceAs (Decidable (values fold o field = []))

/-- What the object does not mention is kept. -/
structure TunnelKept (o : Object) (t u : Tunnel) : Prop where
  enabled : Absent fold o "enabled" → u.enabled = t.enabled
  mode : Absent fold o "mode" → u.mode = t.mode
  token : Absent fold o "token" → u.token = t.token
  hostname : Absent fold o "hostname" → u.hostname = t.hostname
  autoDownload : Absent fold o "auto_download" → u.autoDownload = t.autoDownload
  binaryPath : u.binaryPath = t.binaryPath

structure TailscaleKept (o : Object) (t u : Tailscale) : Prop where
  enabled : Absent fold o "enabled" → u.enabled = t.enabled
  hostname : Absent fold o "hostname" → u.hostname = t.hostname
  funnel : Absent fold o "funnel" → u.funnel = t.funnel
  authKey : Absent fold o "auth_key" → u.authKey = t.authKey
  controlURL : Absent fold o "control_url" → u.controlURL = t.controlURL

/-- What the Share toggles send. -/
def shareToggle (on : Bool) : Object := [("enabled", .bool on)]

/-- The hostname of a Tailscale section in its normal form. -/
def normalHostname (lower : Lower) (hostname : String) : String :=
  let trimmed := toLower lower (trimSpace hostname)
  if trimmed = "" then "vmserver" else trimmed

/-- The request whose body is the object. -/
def postTunnel (s : Settings) (a : Answers) (o : Object) : Settings × Reply :=
  s.apiTunnel a (decodeTunnel fold o)

def postTailscale (s : Settings) (a : Answers) (o : Object) : Settings × Reply :=
  s.apiTailscale a (decodeTailscale fold o)

/-- Nothing but `enabled` has changed. -/
def SameTunnel (t u : Tunnel) : Prop := { u with enabled := t.enabled } = t

def SameTailscale (t u : Tailscale) : Prop := { u with enabled := t.enabled } = t

variable {fold} {o : Object} {lower : Lower}

/-! ## The sections a body leads to -/

theorem validateTunnel_ok {t u : Tunnel} (h : validateTunnel t = .ok u) :
    u = { t with mode := if t.mode = "" then "quick" else t.mode } := by
  unfold validateTunnel at h
  split at h
  · rename_i quick
    obtain rfl := Except.ok.inj h
    obtain none | quick := quick
    · rw [if_pos none]
    · simp [quick]
  · rename_i other
    split at h
    · split at h
      · cases h
      · obtain rfl := Except.ok.inj h
        rw [if_neg (not_or.mp other).1]
    · cases h

theorem validateTailscale_ok {t u : Tailscale} (h : validateTailscale lower t = .ok u) :
    u = { t with hostname := normalHostname lower t.hostname } := by
  have named : (if toLower lower (trimSpace t.hostname) = "" then "vmserver"
    else toLower lower (trimSpace t.hostname)) = normalHostname lower t.hostname := rfl
  simp only [validateTailscale, named] at h
  generalize normalHostname lower t.hostname = hostname at h
  split at h
  · cases h
  · split at h
    · cases h
    · exact (Except.ok.inj h).symm

variable {t u : Tunnel} {x y : Tailscale}

/-- A field that is not mentioned keeps the value that decoding starts with. -/
theorem absent_value {α : Type} {decode : List Value → Option α} {field : String} {d e : α}
    (absent : Absent fold o field) (h : decode (values fold o field) = some d)
    (start : decode [] = some e) : d = e := by
  rw [absent, start] at h
  exact (Option.some.inj h).symm

/-- An accepted body keeps what it does not mention, but for a hostname, which it empties, and an
empty mode, which is filled in. -/
theorem tunnelKept_iff {body : TunnelBody} (decoded : decodeTunnel fold o = some body)
    (valid : validateTunnel (body.apply t) = .ok u) :
    TunnelKept fold o t u ↔
      (Absent fold o "hostname" → t.hostname = "") ∧ (Absent fold o "mode" → t.mode ≠ "") := by
  simp only [decodeTunnel, bind, pure, Option.bind_eq_some_iff] at decoded
  obtain ⟨enabled, he, mode, hm, token, ht, hostname, hh, autoDownload, ha, made⟩ := decoded
  obtain rfl := Option.some.inj made
  obtain rfl := validateTunnel_ok valid
  constructor
  · intro kept
    refine ⟨fun absent => ?_, fun absent none => ?_⟩
    · rw [← kept.hostname absent, absent_value absent hh rfl]
      rfl
    · have same := kept.mode absent
      obtain rfl := absent_value absent hm rfl
      simp [TunnelBody.apply, none] at same
  · rintro ⟨blank, named⟩
    refine ⟨fun absent => ?_, fun absent => ?_, fun absent => ?_, fun absent => ?_,
      fun absent => ?_, rfl⟩
    · obtain rfl := absent_value absent he rfl
      rfl
    · obtain rfl := absent_value absent hm rfl
      simp [TunnelBody.apply, named absent]
    · obtain rfl := absent_value absent ht rfl
      rfl
    · obtain rfl := absent_value absent hh rfl
      exact (blank absent).symm
    · obtain rfl := absent_value absent ha rfl
      rfl

/-- An accepted body keeps what it does not mention, but for a hostname that is not in normal
form. -/
theorem tailscaleKept_iff {body : TailscaleBody} (decoded : decodeTailscale fold o = some body)
    (valid : validateTailscale lower (body.apply x) = .ok y) :
    TailscaleKept fold o x y ↔
      (Absent fold o "hostname" → normalHostname lower x.hostname = x.hostname) := by
  simp only [decodeTailscale, bind, pure, Option.bind_eq_some_iff] at decoded
  obtain ⟨enabled, he, hostname, hh, funnel, hf, authKey, ha, controlURL, hc, made⟩ := decoded
  obtain rfl := Option.some.inj made
  obtain rfl := validateTailscale_ok valid
  constructor
  · intro kept absent
    obtain rfl := absent_value absent hh rfl
    simpa [TailscaleBody.apply] using kept.hostname absent
  · intro normal
    refine ⟨fun absent => ?_, fun absent => ?_, fun absent => ?_, fun absent => ?_,
      fun absent => ?_⟩
    · obtain rfl := absent_value absent he rfl
      rfl
    · obtain rfl := absent_value absent hh rfl
      simpa [TailscaleBody.apply] using normal absent
    · obtain rfl := absent_value absent hf rfl
      rfl
    · obtain rfl := absent_value absent ha rfl
      rfl
    · obtain rfl := absent_value absent hc rfl
      rfl

/-! ## Accepted requests -/

variable {s : Settings} {a : Answers}

theorem saved_of_ok {f : SaveSteps} {cfg : Config} (h : (s.store f (.ok cfg)).2 = .ok) :
    (s.store f (.ok cfg)).1.cfg = cfg ∧ (s.store f (.ok cfg)).1.file = cfg := by
  simp only [Settings.store, Settings.save] at h ⊢
  split at h
  · cases h
  · simp

/-- An accepted body is valid, and what it leads to is in memory and in the file. -/
theorem accepted_tunnel {body : Option TunnelBody} (h : (s.apiTunnel a body).2 = .ok) :
    ∃ b u, body = some b ∧ validateTunnel (b.apply s.cfg.tunnel) = .ok u ∧
      (s.apiTunnel a body).1.cfg.tunnel = u ∧ (s.apiTunnel a body).1.file.tunnel = u := by
  unfold Settings.apiTunnel at h ⊢
  cases body with
  | none => cases h
  | some b =>
      cases valid : validateTunnel (b.apply s.cfg.tunnel) with
      | error text =>
          have checked : checkTunnel s.cfg (some b) = .error (refused 400 text) := by
            unfold checkTunnel
            simp only
            rw [valid]
          rw [checked] at h
          cases h
      | ok u =>
          have checked : checkTunnel s.cfg (some b) = .ok { s.cfg with tunnel := u } := by
            unfold checkTunnel
            simp only
            rw [valid]
          rw [checked] at h ⊢
          obtain ⟨memory, file⟩ := saved_of_ok h
          exact ⟨b, u, rfl, valid, by rw [memory], by rw [file]⟩

theorem accepted_tailscale {body : Option TailscaleBody} (h : (s.apiTailscale a body).2 = .ok) :
    ∃ b u, body = some b ∧ validateTailscale a.lower (b.apply s.cfg.tailscale) = .ok u ∧
      (s.apiTailscale a body).1.cfg.tailscale = u ∧
        (s.apiTailscale a body).1.file.tailscale = u := by
  unfold Settings.apiTailscale at h ⊢
  cases body with
  | none => cases h
  | some b =>
      cases valid : validateTailscale a.lower (b.apply s.cfg.tailscale) with
      | error text =>
          have checked : checkTailscale s.cfg a (some b) = .error (refused 400 text) := by
            unfold checkTailscale
            simp only
            rw [valid]
          rw [checked] at h
          cases h
      | ok u =>
          have checked : checkTailscale s.cfg a (some b) = .ok { s.cfg with tailscale := u } := by
            unfold checkTailscale
            simp only
            rw [valid]
          rw [checked] at h ⊢
          obtain ⟨memory, file⟩ := saved_of_ok h
          exact ⟨b, u, rfl, valid, by rw [memory], by rw [file]⟩

/-! ## The Share toggles -/

theorem values_shareToggle (on : Bool) (field : String)
    (ascii : field.toList.all (·.val < 128) = true) : values fold (shareToggle on) field =
      if "enabled".toList = field.toList.map Char.toLower then [.bool on] else [] := by
  have folded := fold.ascii "enabled" field (by decide) ascii
  have lowered : "enabled".toList.map Char.toLower = "enabled".toList := by decide
  rw [lowered] at folded
  simp only [values, shareToggle, List.filter_cons, List.filter_nil, folded, decide_eq_true_eq]
  split <;> rfl

theorem absent_shareToggle (on : Bool) {field : String}
    (ascii : field.toList.all (·.val < 128) = true)
    (other : "enabled".toList ≠ field.toList.map Char.toLower) :
    values fold (shareToggle on) field = [] := by
  rw [values_shareToggle on field ascii, if_neg other]

theorem enabled_shareToggle (on : Bool) :
    values fold (shareToggle on) "enabled" = [.bool on] := by
  rw [values_shareToggle on "enabled" (by decide), if_pos (by decide)]

theorem decodeTunnel_shareToggle (on : Bool) : decodeTunnel fold (shareToggle on) =
    some { enabled := some on, mode := "", token := "", hostname := "", autoDownload := none } := by
  unfold decodeTunnel
  rw [enabled_shareToggle, absent_shareToggle on (by decide) (by decide),
    absent_shareToggle on (by decide) (by decide), absent_shareToggle on (by decide) (by decide),
    absent_shareToggle on (by decide) (by decide)]
  rfl

theorem decodeTailscale_shareToggle (on : Bool) : decodeTailscale fold (shareToggle on) =
    some { enabled := some on, hostname := "", funnel := none, authKey := "",
           controlURL := none } := by
  unfold decodeTailscale
  rw [enabled_shareToggle, absent_shareToggle on (by decide) (by decide),
    absent_shareToggle on (by decide) (by decide), absent_shareToggle on (by decide) (by decide),
    absent_shareToggle on (by decide) (by decide)]
  rfl

theorem sameTunnel_iff {enabled : Bool} {hostname mode : String} :
    SameTunnel t { t with enabled, hostname, mode } ↔ hostname = t.hostname ∧ mode = t.mode := by
  cases t
  simp [SameTunnel, and_comm]

theorem sameTailscale_iff {enabled : Bool} {hostname : String} :
    SameTailscale x { x with enabled, hostname } ↔ hostname = x.hostname := by
  cases x
  simp [SameTailscale]

/-- What a toggle leads to: the hostname is emptied and an empty mode filled in. -/
theorem toggled_tunnel {on : Bool} (h : (postTunnel fold s a (shareToggle on)).2 = .ok) :
    (postTunnel fold s a (shareToggle on)).1.cfg.tunnel =
        (postTunnel fold s a (shareToggle on)).1.file.tunnel ∧
      (postTunnel fold s a (shareToggle on)).1.file.tunnel = { s.cfg.tunnel with
        enabled := on, hostname := "",
        mode := if s.cfg.tunnel.mode = "" then "quick" else s.cfg.tunnel.mode } := by
  obtain ⟨b, u, decoded, valid, memory, file⟩ := accepted_tunnel h
  refine ⟨memory.trans file.symm, file.trans ?_⟩
  rw [decodeTunnel_shareToggle] at decoded
  obtain rfl := Option.some.inj decoded
  exact validateTunnel_ok valid

theorem toggled_tailscale {on : Bool} (h : (postTailscale fold s a (shareToggle on)).2 = .ok) :
    (postTailscale fold s a (shareToggle on)).1.cfg.tailscale =
        (postTailscale fold s a (shareToggle on)).1.file.tailscale ∧
      (postTailscale fold s a (shareToggle on)).1.file.tailscale = { s.cfg.tailscale with
        enabled := on, hostname := normalHostname a.lower s.cfg.tailscale.hostname } ∧
      ∀ lower, normalHostname lower (normalHostname a.lower s.cfg.tailscale.hostname) =
        normalHostname a.lower s.cfg.tailscale.hostname := by
  obtain ⟨b, u, decoded, valid, memory, file⟩ := accepted_tailscale h
  rw [decodeTailscale_shareToggle] at decoded
  obtain rfl := Option.some.inj decoded
  have applied : ({ enabled := some on, hostname := "", funnel := none, authKey := "",
                    controlURL := none } : TailscaleBody).apply s.cfg.tailscale =
      { s.cfg.tailscale with enabled := on } := by
    simp [TailscaleBody.apply]
  rw [applied] at valid
  have made := validateTailscale_ok valid
  refine ⟨memory.trans file.symm, file.trans made, fun lower => ?_⟩
  have again := congrArg Tailscale.hostname
    (validateTailscale_ok (validateTailscale_idem lower valid))
  rw [made] at again
  dsimp only at again
  exact again.symm

/-- For every stored section and every accepted body, what the body does not mention is kept
exactly when no stored hostname of the tunnel is left out, and the stored values that are left out
are in normal form; so turning sharing off and on again keeps the section only without a hostname
of the tunnel. -/
theorem partial_updates_iff (fold : EqualFold) (s : Settings) (a a' : Answers) (o : Object) :
    ((postTunnel fold s a o).2 = .ok →
      (TunnelKept fold o s.cfg.tunnel (postTunnel fold s a o).1.file.tunnel ↔
        (Absent fold o "hostname" → s.cfg.tunnel.hostname = "") ∧
          (Absent fold o "mode" → s.cfg.tunnel.mode ≠ ""))) ∧
    ((postTailscale fold s a o).2 = .ok →
      (TailscaleKept fold o s.cfg.tailscale (postTailscale fold s a o).1.file.tailscale ↔
        (Absent fold o "hostname" →
          normalHostname a.lower s.cfg.tailscale.hostname = s.cfg.tailscale.hostname))) ∧
    ((postTunnel fold s a (shareToggle false)).2 = .ok →
      (postTunnel fold (postTunnel fold s a (shareToggle false)).1 a' (shareToggle true)).2 = .ok →
      (SameTunnel s.cfg.tunnel (postTunnel fold (postTunnel fold s a (shareToggle false)).1 a'
          (shareToggle true)).1.file.tunnel ↔
        s.cfg.tunnel.hostname = "" ∧ s.cfg.tunnel.mode ≠ "")) ∧
    ((postTailscale fold s a (shareToggle false)).2 = .ok →
      (postTailscale fold (postTailscale fold s a (shareToggle false)).1 a'
          (shareToggle true)).2 = .ok →
      (SameTailscale s.cfg.tailscale (postTailscale fold
          (postTailscale fold s a (shareToggle false)).1 a' (shareToggle true)).1.file.tailscale ↔
        normalHostname a.lower s.cfg.tailscale.hostname = s.cfg.tailscale.hostname)) := by
  refine ⟨fun h => ?_, fun h => ?_, fun off on => ?_, fun off on => ?_⟩
  · obtain ⟨b, u, decoded, valid, _, file⟩ := accepted_tunnel h
    have file : (postTunnel fold s a o).1.file.tunnel = u := file
    rw [file]
    exact tunnelKept_iff decoded valid
  · obtain ⟨b, u, decoded, valid, _, file⟩ := accepted_tailscale h
    have file : (postTailscale fold s a o).1.file.tailscale = u := file
    rw [file]
    exact tailscaleKept_iff decoded valid
  · obtain ⟨memory, file⟩ := toggled_tunnel off
    rw [(toggled_tunnel on).2, memory, file]
    refine sameTunnel_iff.trans (and_congr eq_comm ?_)
    by_cases none : s.cfg.tunnel.mode = ""
    · simp [none]
    · simp [none]
  · obtain ⟨memory, file, again⟩ := toggled_tailscale off
    rw [(toggled_tailscale on).2.1, memory, file]
    refine sameTailscale_iff.trans ?_
    rw [again]

/-- A configuration whose tunnel has a name of its own. -/
def namedTunnel : Settings :=
  let cfg := Config.default "data" "vm/win10.qcow2"
  let cfg := { cfg with tunnel := { cfg.tunnel with enabled := true, mode := "named",
                                                    token := "token",
                                                    hostname := "vm.example.com" } }
  { cfg, vm := cfg.vm, file := cfg, path := "config.yaml" }

/-- A host on which nothing fails. -/
def willing : Answers :=
  ⟨.onASCII, false, fun _ => true, fun _ => true, fun _ => none, .ok, {}, none⟩

/-- Turning sharing off forgets the hostname. -/
theorem share_toggle_forgets_hostname :
    (postTunnel .onASCII namedTunnel willing (shareToggle false)).2 = .ok ∧
      ¬ TunnelKept .onASCII (shareToggle false) namedTunnel.cfg.tunnel
        (postTunnel .onASCII namedTunnel willing (shareToggle false)).1.file.tunnel := by
  refine ⟨by decide, fun kept => ?_⟩
  have lost := kept.hostname (by decide)
  exact absurd lost (by decide)

end VmServer.HttpServer
