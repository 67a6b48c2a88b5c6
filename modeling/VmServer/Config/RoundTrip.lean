import Mathlib.Data.List.TakeWhile
import VmServer.Config.Document

/-!
# A validated configuration is read back as it was written

Each section check returns a section that it accepts unchanged, so validation
changes nothing a second time. `Normal` is this fixed point for the whole
configuration; a normal configuration survives `Save` and `Load`.
-/

namespace VmServer.Config

/-- A text with its default is never empty. -/
theorem filled_ne {s d : String} (h : d ≠ "") : (if s = "" then d else s) ≠ "" := by
  by_cases empty : s = ""
  · rwa [if_pos empty]
  · rwa [if_neg empty]

theorem validateVM_idem {c d : VM} (h : validateVM c = .ok d) : validateVM d = .ok d := by
  unfold validateVM at h
  iterate 6
    split at h
    · cases h
  rename_i ram cpus vnc qmp disk accel
  obtain rfl := Except.ok.inj h
  have disk' := filled_ne (s := c.diskInterface) (d := "sata") (by decide)
  have accel' := filled_ne (s := c.accel) (d := "auto") (by decide)
  have disk_known : ¬ ((if c.diskInterface = "" then "sata" else c.diskInterface) ≠ "" ∧
      (if c.diskInterface = "" then "sata" else c.diskInterface) ≠ "sata" ∧
      (if c.diskInterface = "" then "sata" else c.diskInterface) ≠ "virtio") := by
    by_cases empty : c.diskInterface = ""
    · simp [empty]
    · simpa [empty] using disk
  have accel_known : ¬ (if c.accel = "" then "auto" else c.accel) ∉
      ["", "auto", "whpx", "kvm", "hvf", "tcg"] := by
    by_cases empty : c.accel = ""
    · simp [empty]
    · simpa [empty] using accel
  unfold validateVM
  rw [if_neg ram, if_neg cpus, if_neg vnc, if_neg qmp, if_neg disk_known, if_neg accel_known,
    if_neg disk', if_neg accel']

theorem validateTunnel_idem {t u : Tunnel} (h : validateTunnel t = .ok u) :
    validateTunnel u = .ok u := by
  unfold validateTunnel at h
  split at h
  · obtain rfl := Except.ok.inj h
    rfl
  · split at h
    · split at h
      · cases h
      · rename_i quick named token
        obtain rfl := Except.ok.inj h
        rw [validateTunnel, if_neg quick, if_pos named, if_neg token]
    · cases h

/-- A rune that a hostname may have. -/
def hostRune (r : Char) : Bool :=
  ('a' ≤ r && r ≤ 'z') || ('0' ≤ r && r ≤ '9') || r = '-'

theorem hostRune_of_hostnameRunes {hostname : String} (h : hostnameRunes hostname = true) :
    ∀ r ∈ hostname.toList, hostRune r = true := by
  intro r hr
  obtain ⟨i, hi⟩ := List.getElem?_of_mem hr
  have place : (r, i) ∈ hostname.toList.zipIdx := by
    rw [List.mem_zipIdx_iff_getElem?]
    exact hi
  have ok := List.all_eq_true.mp h _ place
  simp only [hostRune, Bool.or_eq_true, Bool.and_eq_true] at ok ⊢
  exact ok.imp id And.left

theorem hostRune_lt {r : Char} (h : hostRune r = true) : r.toNat < 128 := by
  have bounds : (97 ≤ r.val.toNat ∧ r.val.toNat ≤ 122) ∨ (48 ≤ r.val.toNat ∧ r.val.toNat ≤ 57) ∨
      r = '-' := by
    simpa [hostRune, or_assoc, Char.le_def, UInt32.le_iff_toNat_le] using h
  rcases bounds with b | b | rfl
  · exact Nat.lt_of_le_of_lt b.2 (by decide)
  · exact Nat.lt_of_le_of_lt b.2 (by decide)
  · decide

/-- The runes of a hostname are lower case already and no space. -/
theorem hostRune_fixed {r : Char} (h : hostRune r = true) :
    r.toLower = r ∧ isSpace r = false := by
  have ascii : ∀ n : Fin 128, hostRune (Char.ofNat n) = true →
      (Char.ofNat n).toLower = Char.ofNat n ∧ isSpace (Char.ofNat n) = false := by decide
  have at_ := ascii ⟨r.toNat, hostRune_lt h⟩
  rw [Char.ofNat_toNat] at at_
  exact at_ h

theorem dropWhile_of_all {α : Type*} {p : α → Bool} {l : List α} (h : ∀ a ∈ l, p a = false) :
    l.dropWhile p = l :=
  List.dropWhile_eq_self_iff.mpr fun hl => by simp [h _ (List.getElem_mem hl)]

/-- Trimming and lower-casing leave a hostname that has passed the check alone. -/
theorem toLower_trimSpace (lower : Lower) {hostname : String}
    (h : ∀ r ∈ hostname.toList, hostRune r = true) :
    toLower lower (trimSpace hostname) = hostname := by
  have space : ∀ r ∈ hostname.toList, isSpace r = false :=
    fun r hr => (hostRune_fixed (h r hr)).2
  have trimmed : trimSpace hostname = hostname := by
    rw [trimSpace, dropWhile_of_all space, dropWhile_of_all (by simpa using space),
      List.reverse_reverse, String.ofList_toList]
  have lowered : hostname.toList.map lower.rune = hostname.toList := by
    refine (List.map_congr_left fun r hr => ?_).trans (List.map_id _)
    have small : r.val < 128 := UInt32.lt_iff_toNat_lt.mpr (hostRune_lt (h r hr))
    exact (lower.ascii r small).trans (hostRune_fixed (h r hr)).1
  rw [trimmed, toLower, lowered, String.ofList_toList]

theorem validateTailscale_idem {lower : Lower} (lower' : Lower) {t u : Tailscale}
    (h : validateTailscale lower t = .ok u) : validateTailscale lower' u = .ok u := by
  simp only [validateTailscale] at h
  have named := filled_ne (s := toLower lower (trimSpace t.hostname)) (d := "vmserver") (by decide)
  generalize (if toLower lower (trimSpace t.hostname) = "" then "vmserver"
    else toLower lower (trimSpace t.hostname)) = hostname at h named
  split at h
  · cases h
  · split at h
    · cases h
    · rename_i long runes
      obtain rfl := Except.ok.inj h
      have fixed := toLower_trimSpace lower' (hostRune_of_hostnameRunes (not_not.mp runes))
      simp only [validateTailscale, fixed, if_neg named]
      rw [if_neg long, if_neg runes]

/-- A limit with its default is positive. -/
theorem filled_pos {d x : Int} (h : 0 < d) : ¬ (if x ≤ 0 then d else x) ≤ 0 := by
  split <;> omega

theorem normalise_idem (a : AuthLimits) : a.normalise.normalise = a.normalise := by
  rw [AuthLimits.normalise, AuthLimits.mk.injEq]
  exact ⟨if_neg (filled_pos (by decide)), if_neg (filled_pos (by decide)),
    if_neg (filled_pos (by decide)), if_neg (filled_pos (by decide))⟩

/-- Validation accepts the configuration and changes nothing. -/
structure Normal (c : Config) : Prop where
  listenAddr : c.listenAddr ≠ ""
  tls : c.tls.check = none
  vm : validateVM c.vm = .ok c.vm
  tunnel : validateTunnel c.tunnel = .ok c.tunnel
  tailscale : ∀ lower, validateTailscale lower c.tailscale = .ok c.tailscale
  auth : c.auth.normalise = c.auth

theorem Normal.validate {c : Config} (h : Normal c) (lower : Lower) :
    validate lower c = .ok c := by
  unfold Config.validate
  rw [if_neg h.listenAddr, h.tls, h.vm, h.tunnel, h.tailscale lower, h.auth]
  rfl

/-- What validation returns is normal. -/
theorem normal_of_validate {lower : Lower} {c d : Config} (h : validate lower c = .ok d) :
    Normal d := by
  unfold Config.validate at h
  split at h
  · cases h
  rename_i listenAddr
  split at h
  · cases h
  rename_i tls
  cases vm : validateVM c.vm with
  | error text => simp [vm, bind, Except.bind] at h
  | ok v =>
      cases tunnel : validateTunnel c.tunnel with
      | error text => simp [vm, tunnel, bind, Except.bind] at h
      | ok t =>
          cases tailscale : validateTailscale lower c.tailscale with
          | error text => simp [vm, tunnel, tailscale, bind, Except.bind] at h
          | ok u =>
              simp only [vm, tunnel, tailscale, bind, Except.bind] at h
              obtain rfl := Except.ok.inj h
              exact ⟨listenAddr, tls, validateVM_idem vm, validateTunnel_idem tunnel,
                fun lower' => validateTailscale_idem lower' tailscale, normalise_idem c.auth⟩

theorem normal_default (dataDir diskPath : String) : Normal (default dataDir diskPath) where
  listenAddr := by simp [default]
  tls := rfl
  vm := rfl
  tunnel := rfl
  tailscale lower := validateTailscale_idem lower (default_valid dataDir diskPath).2.2
  auth := rfl

/-- A normal configuration survives `Save` and `Load`. -/
theorem Normal.load_saved {c : Config} (h : Normal c) {Text : Type*} (yaml : Yaml Text)
    (lower : Lower) (path dataDir diskPath : String) :
    load yaml lower path dataDir diskPath (saved yaml c) = .ok c := by
  rw [load, saved, yaml.inverts]
  simp only [emit_unmarshalInto_default]
  exact h.validate lower

end VmServer.Config
