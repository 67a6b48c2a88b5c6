import Mathlib.Data.List.DropRight
import VmServer.Config.RoundTrip
import VmServer.Library.Utf8

/-!
# The host names that `ValidateTailscale` accepts

A hostname may be any bytes. It is trimmed and lower-cased rune by rune, and
the loop over the result looks at byte positions to find its two ends. Only
ASCII passes the loop, and on ASCII positions and runes agree; so what passes
is a DNS label.

## Implementation notes

Trimming from the end reads the same runes as reading from the front, as no
encoding begins inside another one. `unicode.ToLower` leaves U+FFFD alone,
which stands for the bytes that are not UTF-8.
-/

namespace VmServer.Config

open Utf8

/-- `unicode.ToLower`, known on ASCII and on the replacement character. -/
structure UnicodeLower extends Lower where
  replacement : rune '\ufffd' = '\ufffd'

def UnicodeLower.onASCII : UnicodeLower := { Lower.onASCII with replacement := rfl }

/-- The section `tailscale` with texts of any bytes. -/
structure RawTailscale where
  enabled : Bool
  hostname : Bytes
  funnel : Bool
  authKey : Bytes
  controlURL : Bytes
  deriving DecidableEq, Repr

def trimSpaceBytes (s : Bytes) : Bytes :=
  (((runes s).dropWhile (isSpace ·.value)).rdropWhile (isSpace ·.value)).flatMap Rune.bytes

def toLowerBytes (lower : UnicodeLower) (s : Bytes) : Bytes :=
  encode ((runes s).map (lower.rune ·.value))

/-- The hostname before the length and the runes are checked. -/
def normalBytes (lower : UnicodeLower) (hostname : Bytes) : Bytes :=
  toLowerBytes lower (trimSpaceBytes hostname)

/-- One round of the loop over a hostname of so many bytes. -/
def hostnameRune (length i : Nat) (r : Char) : Bool :=
  ('a' ≤ r && r ≤ 'z') || ('0' ≤ r && r ≤ '9') || (r = '-' && (0 < i && i < length - 1))

/-- `ValidateTailscale` on texts of any bytes. -/
def validateRaw (lower : UnicodeLower) (t : RawTailscale) : Except String RawTailscale :=
  let trimmed := normalBytes lower t.hostname
  let hostname := if trimmed = [] then encode "vmserver".toList else trimmed
  if 63 < hostname.length then .error "tailscale.hostname must be at most 63 characters"
  else if ¬ (offsets 0 (runes hostname)).all fun p =>
      hostnameRune hostname.length p.1 p.2.value then
    .error "tailscale.hostname may only contain lowercase letters, digits and inner hyphens"
  else .ok { t with hostname }

def hyphen : UInt8 := 0x2d

def labelByte (b : UInt8) : Bool := (0x61 ≤ b && b ≤ 0x7a) || (0x30 ≤ b && b ≤ 0x39) || b = hyphen

/-- A DNS label in lower case. -/
structure Label (name : Bytes) : Prop where
  nonempty : 1 ≤ name.length
  short : name.length ≤ 63
  letters : ∀ b ∈ name, labelByte b = true
  first : name.head? ≠ some hyphen
  last : name.getLast? ≠ some hyphen

/-! ## The loop -/

section Loop

variable {cs : List Char}

/-- A rune that a hostname may have is one byte. -/
theorem utf8Size_of_hostRune {c : Char} (h : hostRune c = true) : c.utf8Size = 1 :=
  Char.utf8Size_eq_one_iff.mpr (UInt32.le_iff_toNat_le.mpr (Nat.le_of_lt_succ (hostRune_lt h)))

/-- Its byte is one that a label may have. -/
theorem hostRune_byte {c : Char} (h : hostRune c = true) :
    labelByte c.toUInt8 = true ∧ (c.toUInt8 = hyphen ↔ c = '-') := by
  have letters : ∀ n : Fin 128, hostRune (Char.ofNat n) = true →
      labelByte (Char.ofNat n).toUInt8 = true := by decide
  have letter := letters ⟨c.toNat, hostRune_lt h⟩
  rw [Char.ofNat_toNat] at letter
  refine ⟨letter h, fun dash => ?_, fun dash => dash ▸ rfl⟩
  have small := hostRune_lt h
  have same : c.toNat % 256 = 45 := congrArg UInt8.toNat dash
  rw [← Char.ofNat_toNat c, show c.toNat = 45 by omega]

/-- A byte that a label may have is a rune that a hostname may have. -/
theorem labelByte_rune {b : UInt8} (h : labelByte b = true) :
    hostRune (Char.ofNat b.toNat) = true ∧ (Char.ofNat b.toNat).toUInt8 = b := by
  have small : b.toNat < 128 := by
    simp only [labelByte, hyphen, Bool.or_eq_true, Bool.and_eq_true, decide_eq_true_eq,
      UInt8.le_iff_toNat_le, ← UInt8.toNat_inj] at h
    simp only [UInt8.reduceToNat] at h
    omega
  have letters : ∀ n : Fin 128, labelByte (UInt8.ofNat n) = true →
      hostRune (Char.ofNat n) = true := by decide
  have letter := letters ⟨b.toNat, small⟩
  rw [UInt8.ofNat_toNat] at letter
  refine ⟨letter h, UInt8.toNat_inj.mp ?_⟩
  have valid : b.toNat.isValidChar := .inl (by omega)
  have code : (Char.ofNat b.toNat).toNat = b.toNat := by
    rw [Char.ofNat, dif_pos valid]
    rfl
  exact (congrArg (· % 256) code).trans (Nat.mod_eq_of_lt b.toNat_lt)

theorem encode_of_hostRunes (h : ∀ c ∈ cs, hostRune c = true) :
    encode cs = cs.map Char.toUInt8 := by
  induction cs with
  | nil => rfl
  | cons c cs ih =>
      obtain ⟨first, rest⟩ := List.forall_mem_cons.mp h
      rw [encode, List.flatMap_cons,
        String.utf8EncodeChar_eq_singleton (utf8Size_of_hostRune first),
        List.map_cons, ← ih rest]
      rfl

/-- A label is the encoding of runes that a hostname may have. -/
theorem Label.encoded {name : Bytes} (h : Label name) :
    ∃ cs, name = encode cs ∧ ∀ c ∈ cs, hostRune c = true := by
  have runes : ∀ c ∈ name.map fun b => Char.ofNat b.toNat, hostRune c = true := by
    intro c member
    obtain ⟨b, inside, rfl⟩ := List.mem_map.mp member
    exact (labelByte_rune (h.letters b inside)).1
  refine ⟨_, ?_, runes⟩
  have back : name.map (Char.toUInt8 ∘ fun b => Char.ofNat b.toNat) = name.map id :=
    List.map_congr_left fun b inside => (labelByte_rune (h.letters b inside)).2
  rw [encode_of_hostRunes runes, List.map_map, back, List.map_id]

/-- Neither the first rune nor the last one is a hyphen. -/
def InnerHyphens (cs : List Char) : Prop := cs.head? ≠ some '-' ∧ cs.getLast? ≠ some '-'

theorem innerHyphens_iff : InnerHyphens cs ↔
    ∀ i c, cs[i]? = some c → c = '-' → 0 < i ∧ i < cs.length - 1 := by
  rw [InnerHyphens, List.head?_eq_getElem?, List.getLast?_eq_getElem?]
  constructor
  · rintro ⟨first, last⟩ i c found rfl
    have inside := (List.getElem?_eq_some_iff.mp found).1
    have notFirst : i ≠ 0 := fun same => first (same ▸ found)
    have notLast : i ≠ cs.length - 1 := fun same => last (same ▸ found)
    omega
  · intro inner
    refine ⟨fun first => ?_, fun last => ?_⟩
    · exact absurd (inner 0 '-' first rfl).1 (Nat.lt_irrefl 0)
    · exact absurd (inner _ '-' last rfl).2 (Nat.lt_irrefl _)

theorem label_encode_iff (h : ∀ c ∈ cs, hostRune c = true) :
    Label (encode cs) ↔ 1 ≤ cs.length ∧ cs.length ≤ 63 ∧ InnerHyphens cs := by
  have hyphens (o : Option Char) (known : ∀ c, o = some c → hostRune c = true) :
      o.map Char.toUInt8 ≠ some hyphen ↔ o ≠ some '-' := by
    cases o with
    | none => simp
    | some c => simpa using not_congr (hostRune_byte (known c rfl)).2
  have first := hyphens cs.head? fun c found => h c (List.mem_of_head? found)
  have last := hyphens cs.getLast? fun c found => h c (List.mem_of_getLast? found)
  rw [encode_of_hostRunes h]
  constructor
  · intro label
    refine ⟨?_, ?_, ?_, ?_⟩
    · simpa using label.nonempty
    · simpa using label.short
    · exact first.mp (List.head?_map .. ▸ label.first)
    · exact last.mp (List.getLast?_map .. ▸ label.last)
  · rintro ⟨nonempty, short, front, back⟩
    refine ⟨by simpa using nonempty, by simpa using short, fun b member => ?_, ?_, ?_⟩
    · obtain ⟨c, inside, rfl⟩ := List.mem_map.mp member
      exact (hostRune_byte (h c inside)).1
    · rw [List.head?_map]
      exact first.mpr front
    · rw [List.getLast?_map]
      exact last.mpr back

/-- A round of the loop, where positions are those of runes. -/
theorem hostnameRune_iff {length i : Nat} {c : Char} : hostnameRune length i c = true ↔
    hostRune c = true ∧ (c = '-' → 0 < i ∧ i < length - 1) := by
  simp only [hostnameRune, hostRune, Bool.or_eq_true, Bool.and_eq_true, decide_eq_true_eq]
  by_cases dash : c = '-'
  · subst dash
    simp
  · simp [dash]

/-- The loop over the bytes of a text. -/
theorem loop_iff (cs : List Char) : ((offsets 0 (runes (encode cs))).all fun p =>
      hostnameRune (encode cs).length p.1 p.2.value) = true ↔
    (∀ c ∈ cs, hostRune c = true) ∧ InnerHyphens cs := by
  rw [runes_of_encode, List.all_eq_true]
  constructor
  · intro passes
    have letters : ∀ c ∈ cs, hostRune c = true := by
      intro c member
      obtain ⟨j, inside⟩ := mem_offsets (List.mem_map_of_mem member) 0
      exact (hostnameRune_iff.mp (passes _ inside)).1
    refine ⟨letters, innerHyphens_iff.mpr fun i c found => ?_⟩
    have place : (i, Rune.char c) ∈ offsets 0 (cs.map .char) := by
      rw [offsets_map_char fun c member => utf8Size_of_hostRune (letters c member)]
      exact List.mem_map.mpr ⟨(c, i), List.mem_zipIdx_iff_getElem?.mpr found, rfl⟩
    have round := (hostnameRune_iff.mp (passes _ place)).2
    rwa [encode_of_hostRunes letters, List.length_map] at round
  · rintro ⟨letters, inner⟩ p member
    rw [offsets_map_char fun c member => utf8Size_of_hostRune (letters c member)] at member
    obtain ⟨⟨c, i⟩, inside, rfl⟩ := List.mem_map.mp member
    have found := List.mem_zipIdx_iff_getElem?.mp inside
    rw [encode_of_hostRunes letters, List.length_map]
    exact hostnameRune_iff.mpr
      ⟨letters c (List.mem_of_getElem? found), innerHyphens_iff.mp inner i c found⟩

end Loop

/-! ## The whole check -/

variable {lower lower' : UnicodeLower} {t u : RawTailscale} {cs : List Char}

theorem trimSpaceBytes_encode (cs : List Char) : trimSpaceBytes (encode cs) =
    encode ((cs.dropWhile isSpace).rdropWhile isSpace) := by
  rw [trimSpaceBytes, runes_of_encode, List.dropWhile_map, List.rdropWhile, ← List.map_reverse,
    List.dropWhile_map, ← List.map_reverse, List.flatMap_map]
  rfl

theorem toLowerBytes_encode (cs : List Char) :
    toLowerBytes lower (encode cs) = encode (cs.map lower.rune) := by
  rw [toLowerBytes, runes_of_encode, List.map_map]
  rfl

/-- Trimming and lower-casing leave a text of such runes alone. -/
theorem normalBytes_of_hostRunes (h : ∀ c ∈ cs, hostRune c = true) :
    normalBytes lower (encode cs) = encode cs := by
  have space : ∀ c ∈ cs, isSpace c = false := fun c member => (hostRune_fixed (h c member)).2
  have lowered : cs.map lower.rune = cs.map id := by
    refine List.map_congr_left fun c member => ?_
    have small : c.val < 128 := UInt32.lt_iff_toNat_lt.mpr (hostRune_lt (h c member))
    exact (lower.ascii c small).trans (hostRune_fixed (h c member)).1
  rw [normalBytes, trimSpaceBytes_encode, dropWhile_of_all space, List.rdropWhile,
    dropWhile_of_all (by simpa using space), List.reverse_reverse, toLowerBytes_encode, lowered,
    List.map_id]

/-- What a hostname is filled in with. -/
def stored (lower : UnicodeLower) (hostname : Bytes) : Bytes :=
  if normalBytes lower hostname = [] then encode "vmserver".toList else normalBytes lower hostname

theorem stored_encoded (lower : UnicodeLower) (hostname : Bytes) :
    ∃ cs, stored lower hostname = encode cs ∧ cs ≠ [] := by
  unfold stored
  split
  · exact ⟨_, rfl, by decide⟩
  · rename_i some
    refine ⟨_, rfl, ?_⟩
    rintro none
    rw [normalBytes, toLowerBytes, none] at some
    exact some rfl

/-- The two checks on a hostname that is not empty. -/
theorem label_iff (nonempty : cs ≠ []) : Label (encode cs) ↔ (encode cs).length ≤ 63 ∧
    ((offsets 0 (runes (encode cs))).all fun p =>
      hostnameRune (encode cs).length p.1 p.2.value) = true := by
  rw [loop_iff]
  constructor
  · intro label
    obtain ⟨ds, same, letters⟩ := label.encoded
    obtain rfl := encode_injective same
    exact ⟨label.short, letters, ((label_encode_iff letters).mp label).2.2⟩
  · rintro ⟨short, letters, inner⟩
    rw [encode_of_hostRunes letters, List.length_map] at short
    exact (label_encode_iff letters).mpr ⟨List.length_pos_iff.mpr nonempty, short, inner⟩

/-- The two checks look at the hostname that is stored. -/
theorem validateRaw_eq (lower : UnicodeLower) (t : RawTailscale) : validateRaw lower t =
    if 63 < (stored lower t.hostname).length then
      .error "tailscale.hostname must be at most 63 characters"
    else if ¬ (offsets 0 (runes (stored lower t.hostname))).all fun p =>
        hostnameRune (stored lower t.hostname).length p.1 p.2.value then
      .error "tailscale.hostname may only contain lowercase letters, digits and inner hyphens"
    else .ok { t with hostname := stored lower t.hostname } := rfl

/-- The check passes exactly the labels. -/
theorem validateRaw_eq_ok : validateRaw lower t = .ok u ↔
    Label (stored lower t.hostname) ∧ u = { t with hostname := stored lower t.hostname } := by
  obtain ⟨cs, encoded, nonempty⟩ := stored_encoded lower t.hostname
  rw [validateRaw_eq, encoded, label_iff nonempty]
  split
  · rename_i long
    simp only [reduceCtorEq, false_iff, not_and]
    rintro ⟨short, _⟩
    omega
  · rename_i short
    split
    · rename_i stops
      simp only [reduceCtorEq, false_iff, not_and]
      rintro ⟨_, passes⟩
      exact absurd passes stops
    · rename_i passes
      rw [Except.ok.injEq, and_iff_right ⟨Nat.le_of_not_lt short, not_not.mp passes⟩]
      exact eq_comm

theorem label_vmserver : Label (encode "vmserver".toList) := by
  have letters : ∀ c ∈ "vmserver".toList, hostRune c = true := by simp [hostRune]
  exact (label_encode_iff letters).mpr (by simp [InnerHyphens])

/-- A rune is lower-cased to one that a hostname may have only if it is a character. -/
theorem char_of_hostRune {r : Rune} (h : hostRune (lower.rune r.value) = true) :
    ∃ c, r = .char c := by
  cases r with
  | char c => exact ⟨c, rfl⟩
  | bad b =>
      rw [Rune.value, lower.replacement] at h
      cases h

/-! ## The check on texts -/

/-- The section as bytes. -/
def Tailscale.raw (t : Tailscale) : RawTailscale where
  enabled := t.enabled
  hostname := encode t.hostname.toList
  funnel := t.funnel
  authKey := encode t.authKey.toList
  controlURL := encode t.controlURL.toList

theorem length_encode (s : String) : (encode s.toList).length = s.utf8ByteSize :=
  calc (encode s.toList).length = (String.ofList s.toList).toByteArray.size := by
        rw [String.toByteArray_ofList]
        exact List.size_toByteArray.symm
    _ = s.utf8ByteSize := by rw [String.ofList_toList, String.size_toByteArray]

/-- The loop over the runes of a text, with its length in bytes. -/
theorem hostnameRunes_iff {hostname : String} : hostnameRunes hostname = true ↔
    (∀ c ∈ hostname.toList, hostRune c = true) ∧ InnerHyphens hostname.toList := by
  have rounds : hostnameRunes hostname = true ↔ ∀ i c, hostname.toList[i]? = some c →
      hostnameRune hostname.utf8ByteSize i c = true := by
    refine List.all_eq_true.trans ⟨fun passes i c found => ?_, fun passes p member => ?_⟩
    · exact passes (c, i) (List.mem_zipIdx_iff_getElem?.mpr found)
    · exact passes p.2 p.1 (List.mem_zipIdx_iff_getElem?.mp member)
  have size (letters : ∀ c ∈ hostname.toList, hostRune c = true) :
      hostname.utf8ByteSize = hostname.toList.length := by
    rw [← length_encode, encode_of_hostRunes letters, List.length_map]
  constructor
  · intro passes
    have letters := hostRune_of_hostnameRunes passes
    rw [rounds, size letters] at passes
    exact ⟨letters, innerHyphens_iff.mpr fun i c found =>
      (hostnameRune_iff.mp (passes i c found)).2⟩
  · rintro ⟨letters, inner⟩
    rw [rounds, size letters]
    exact fun i c found => hostnameRune_iff.mpr
      ⟨letters c (List.mem_of_getElem? found), innerHyphens_iff.mp inner i c found⟩

theorem normalBytes_encode (lower : UnicodeLower) (s : String) :
    normalBytes lower (encode s.toList) = encode (toLower lower.toLower (trimSpace s)).toList := by
  rw [normalBytes, trimSpaceBytes_encode, toLowerBytes_encode, toLower, trimSpace,
    String.toList_ofList, String.toList_ofList]
  rfl

theorem stored_encode (lower : UnicodeLower) (s : String) : stored lower (encode s.toList) =
    encode (if toLower lower.toLower (trimSpace s) = "" then "vmserver"
      else toLower lower.toLower (trimSpace s)).toList := by
  have empty (name : String) : encode name.toList = [] ↔ name = "" := by
    refine ⟨fun none => String.toList_eq_nil_iff.mp (encode_injective none), ?_⟩
    rintro rfl
    rfl
  rw [stored, normalBytes_encode]
  by_cases none : toLower lower.toLower (trimSpace s) = ""
  · rw [if_pos none, if_pos ((empty _).mpr none)]
  · rw [if_neg none, if_neg (mt (empty _).mp none)]

/-- On texts the check on bytes is the one on characters. -/
theorem validateRaw_raw (lower : UnicodeLower) (t : Tailscale) :
    validateRaw lower t.raw = (validateTailscale lower.toLower t).map Tailscale.raw := by
  have name := stored_encode lower t.hostname
  simp only [validateTailscale]
  generalize (if toLower lower.toLower (trimSpace t.hostname) = "" then "vmserver"
    else toLower lower.toLower (trimSpace t.hostname)) = hostname at name ⊢
  have runes_ := (loop_iff hostname.toList).trans hostnameRunes_iff.symm
  have raw : stored lower t.raw.hostname = encode hostname.toList := name
  rw [validateRaw_eq, raw, length_encode]
  split
  · rfl
  · rw [← length_encode]
    by_cases passes : hostnameRunes hostname = true
    · rw [if_neg (not_not.mpr (runes_.mpr passes)), if_neg (not_not.mpr passes)]
      rfl
    · rw [if_pos (mt runes_.mp passes), if_pos passes]
      rfl

/-! ## The accepted hostnames -/

/-- A hostname of any bytes is accepted exactly when, trimmed and lower-cased, it is empty or a DNS
label. It is then stored as this label, or as `vmserver`; the other fields stay, and a second
validation changes nothing. All runes of an accepted hostname are characters that lower-casing
turns into letters, digits and hyphens. On a hostname that is text, this is the check of the
settings. -/
theorem hostname_grammar (lower : UnicodeLower) (t : RawTailscale) :
    ((∃ u, validateRaw lower t = .ok u) ↔
      normalBytes lower t.hostname = [] ∨ Label (normalBytes lower t.hostname)) ∧
    (∀ u, validateRaw lower t = .ok u →
      u = { t with hostname := if normalBytes lower t.hostname = [] then encode "vmserver".toList
                               else normalBytes lower t.hostname } ∧
      Label u.hostname ∧ (∀ lower', validateRaw lower' u = .ok u) ∧
      ∀ r ∈ runes (trimSpaceBytes t.hostname),
        ∃ c, r = .char c ∧ hostRune (lower.rune c) = true) ∧
    ∀ t : Tailscale,
      validateRaw lower t.raw = (validateTailscale lower.toLower t).map Tailscale.raw := by
  refine ⟨?_, fun u ok => ?_, validateRaw_raw lower⟩
  · simp only [validateRaw_eq_ok, exists_and_left, exists_eq, and_true, stored]
    split
    · rename_i none
      exact iff_of_true label_vmserver (.inl none)
    · rename_i some
      exact (or_iff_right some).symm
  · obtain ⟨label, rfl⟩ := validateRaw_eq_ok.mp ok
    obtain ⟨cs, encoded, letters⟩ := label.encoded
    have fixed (lower' : UnicodeLower) :
        stored lower' (stored lower t.hostname) = stored lower t.hostname := by
      obtain ⟨ds, same, nonempty⟩ := stored_encoded lower t.hostname
      obtain rfl := encode_injective (encoded.symm.trans same)
      rw [encoded, stored, normalBytes_of_hostRunes letters, if_neg]
      exact fun none => nonempty (encode_injective none)
    refine ⟨rfl, label, fun lower' => validateRaw_eq_ok.mpr ?_, fun r member => ?_⟩
    · rw [fixed]
      exact ⟨label, rfl⟩
    · have lowered : lower.rune r.value ∈
          (runes (trimSpaceBytes t.hostname)).map (lower.rune ·.value) := List.mem_map_of_mem member
      have present : normalBytes lower t.hostname ≠ [] := fun none =>
        List.ne_nil_of_mem lowered (encode_injective none)
      rw [stored, if_neg present] at encoded
      rw [encode_injective encoded] at lowered
      obtain ⟨c, rfl⟩ := char_of_hostRune (letters _ lowered)
      exact ⟨c, rfl, letters _ lowered⟩

end VmServer.Config
