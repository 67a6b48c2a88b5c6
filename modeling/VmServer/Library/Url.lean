import Mathlib.Data.List.DropRight

/-!
# Locations on one site, as a server writes them and a browser reads them

The server side is that of Go: `url.Parse`, `path.Clean`, the location that
`http.Redirect` computes and the header value that goes out. The browser side
is the resolution of a reference by the URL standard against an `https` base.

## Implementation notes

All texts are byte strings. References are taken to begin with a slash, and
`parse` with one slash only: such a reference has no scheme and no authority
for Go. What a browser makes of the text of a host is a parameter; resolving
gives the host the browser goes to, `none` where the reference is invalid.
`redirect` is for references that `parse` accepts.
-/

namespace Url

abbrev Bytes := List UInt8

def slash : UInt8 := 0x2f
def backslash : UInt8 := 0x5c
def tab : UInt8 := 0x09
def lineFeed : UInt8 := 0x0a
def carriageReturn : UInt8 := 0x0d
def space : UInt8 := 0x20
def hash : UInt8 := 0x23
def percent : UInt8 := 0x25
def dot : UInt8 := 0x2e
def colon : UInt8 := 0x3a
def question : UInt8 := 0x3f
def at_ : UInt8 := 0x40
def leftBracket : UInt8 := 0x5b
def rightBracket : UInt8 := 0x5d

/-! ## The server -/

def isControl (b : UInt8) : Bool := b < 0x20 || b = 0x7f

def isDigit (b : UInt8) : Bool := 0x30 ≤ b && b ≤ 0x39

def isHex (b : UInt8) : Bool := isDigit b || (0x61 ≤ b && b ≤ 0x66) || (0x41 ≤ b && b ≤ 0x46)

/-- Every percent sign is followed by two hexadecimal digits. -/
def validEscapes : Bytes → Bool
  | [] => true
  | b :: rest =>
      if b = percent then
        match rest with
        | c :: d :: more => isHex c && isHex d && validEscapes more
        | _ => false
      else validEscapes rest

/-- The value of a hexadecimal digit. -/
def unhex (b : UInt8) : UInt8 :=
  if isDigit b then b - 0x30 else if 0x61 ≤ b then b - 0x61 + 10 else b - 0x41 + 10

/-- The text that is meant by an escaped path. -/
def unescape : Bytes → Option Bytes
  | [] => some []
  | b :: rest =>
      if b = percent then
        match rest with
        | c :: d :: more =>
            if isHex c && isHex d then (unescape more).map ((16 * unhex c + unhex d) :: ·)
            else none
        | _ => none
      else (unescape rest).map (b :: ·)

theorem unescape_cons {b : UInt8} (h : b ≠ percent) (s : Bytes) :
    unescape (b :: s) = (unescape s).map (b :: ·) := by
  rw [unescape.eq_def]
  simp only [if_neg h]

theorem validEscapes_of_unescape {s meant : Bytes} (h : unescape s = some meant) :
    validEscapes s = true := by
  fun_induction unescape s generalizing meant with
  | case1 => rfl
  | case2 c d more digits ih =>
      obtain ⟨meant, found, -⟩ := Option.map_eq_some_iff.mp h
      simpa [validEscapes, ih found] using digits
  | case3 | case4 => cases h
  | case5 b rest other ih =>
      obtain ⟨meant, found, -⟩ := Option.map_eq_some_iff.mp h
      rw [validEscapes.eq_def]
      simp only [if_neg other, ih found]

/-- A byte that is no part of an escape stands for itself. -/
theorem mem_of_unescape {s meant : Bytes} {b : UInt8} (h : unescape s = some meant) (mem : b ∈ s)
    (plain : b ≠ percent) (digit : isHex b = false) : b ∈ meant := by
  fun_induction unescape s generalizing meant with
  | case1 => cases mem
  | case2 c d more digits ih =>
      obtain ⟨meant, found, rfl⟩ := Option.map_eq_some_iff.mp h
      have both := Bool.and_eq_true_iff.mp digits
      have apart : b ≠ c ∧ b ≠ d := by
        constructor <;> rintro rfl <;> simp [digit] at both
      have inside : b ∈ more := by simpa [plain, apart] using mem
      exact List.mem_cons_of_mem _ (ih found inside)
  | case3 | case4 => cases h
  | case5 p rest other ih =>
      obtain ⟨meant, found, rfl⟩ := Option.map_eq_some_iff.mp h
      rcases List.mem_cons.mp mem with rfl | mem
      · exact List.mem_cons_self
      · exact List.mem_cons_of_mem _ (ih found mem)

/-- The text before the first separator. -/
def before (sep : UInt8) (s : Bytes) : Bytes := s.takeWhile (· ≠ sep)

/-- The text from the first separator on. -/
def since (sep : UInt8) (s : Bytes) : Bytes := s.dropWhile (· ≠ sep)

/-- The host that `url.Parse` finds in a reference with one slash at its front, which is empty.
It refuses control characters before the fragment, and bad escapes in the path and the fragment. -/
def parse (s : Bytes) : Option Bytes :=
  if (before hash s).any isControl then none
  else if validEscapes (before question (before hash s)) &&
      validEscapes ((since hash s).drop 1) then
    some []
  else none

/-- One element of a rooted path behind the ones kept so far. -/
def pushElement (kept : List Bytes) (element : Bytes) : List Bytes :=
  if element = [] ∨ element = [dot] then kept
  else if element = [dot, dot] then kept.dropLast
  else kept ++ [element]

/-- The elements of a rooted path that `path.Clean` keeps. -/
def elements (path : Bytes) : List Bytes := (path.splitOn slash).foldl pushElement []

/-- `path.Clean` of a rooted path. -/
def clean (path : Bytes) : Bytes := slash :: [slash].intercalate (elements path)

/-- The location that `http.Redirect` computes: the path is cleaned up to its trailing slash. -/
def redirect (url : Bytes) : Bytes :=
  let path := before question url
  let cleaned := clean path
  let cleaned :=
    if [slash].isSuffixOf path && !([slash].isSuffixOf cleaned) then cleaned ++ [slash] else cleaned
  cleaned ++ since question url

def hexDigit (n : UInt8) : UInt8 := if n < 10 then 0x30 + n else 0x61 + (n - 10)

/-- `hexEscapeNonASCII` -/
def hexEscapeNonASCII (s : Bytes) : Bytes :=
  s.flatMap fun b => if b < 0x80 then [b] else [percent, hexDigit (b / 16), hexDigit (b % 16)]

def isBlank (b : UInt8) : Bool := b = space || b = tab || b = lineFeed || b = carriageReturn

/-- Drops the bytes with the property from both ends. -/
def trim (p : UInt8 → Bool) (s : Bytes) : Bytes := (s.dropWhile p).rdropWhile p

/-- Line breaks are spaces in a header value. -/
def unbroken (s : Bytes) : Bytes :=
  s.map fun b => if b = lineFeed ∨ b = carriageReturn then space else b

/-- A header value as it is written: blanks at the ends are dropped. -/
def headerValue (s : Bytes) : Bytes := trim isBlank (unbroken s)

/-- The `Location` header of a redirect. -/
def locationHeader (url : Bytes) : Bytes := headerValue (hexEscapeNonASCII (redirect url))

/-! ## The browser -/

/-- Both slashes count in a URL with a special scheme. -/
def isSlash (b : UInt8) : Bool := b = slash || b = backslash

/-- What the parser looks at: controls and spaces at the ends, tabs and line breaks are gone. -/
def stripped (s : Bytes) : Bytes :=
  (trim (· ≤ space) s).filter fun b => b ≠ tab && b ≠ lineFeed && b ≠ carriageReturn

/-- The authority ends before a slash, the query or the fragment. -/
def authority (s : Bytes) : Bytes :=
  s.takeWhile fun b => !(isSlash b || b = question || b = hash)

/-- The text behind the last `@`, which ends the credentials. -/
def hostPort (authority : Bytes) : Bytes := authority.rtakeWhile (· ≠ at_)

/-- Cuts at the first colon that is not inside brackets. -/
def cutPort (inside : Bool) : Bytes → Bytes × Option Bytes
  | [] => ([], none)
  | b :: rest =>
      if b = colon ∧ inside = false then ([], some rest)
      else
        let (host, port) :=
          cutPort (if b = leftBracket then true else if b = rightBracket then false else inside)
            rest
        (b :: host, port)

/-- A port is decimal and has 16 bits; it may be missing behind the colon. -/
def validPort (port : Bytes) : Bool :=
  port.all isDigit && (port.foldl (fun n b => 10 * n + (b.toNat - 0x30)) 0) ≤ 65535

variable {Host : Type*}

/-- The host of an authority; neither the text of the host may be empty nor the port invalid. -/
def authorityHost (parseHost : Bytes → Option Host) (authority : Bytes) : Option Host :=
  let (host, port) := cutPort false (hostPort authority)
  if host = [] ∨ !(port.all validPort) then none else parseHost host

/-- The authority of a reference with two slashes at its front; further slashes are skipped. -/
def namedAuthority (s : Bytes) : Bytes := authority (s.dropWhile isSlash)

/-- Where a browser at `base` goes for a reference that begins with a slash. -/
def resolve (parseHost : Bytes → Option Host) (base : Host) (reference : Bytes) : Option Host :=
  match stripped reference with
  | a :: b :: rest =>
      if isSlash a && isSlash b then authorityHost parseHost (namedAuthority rest)
      else some base
  | _ => some base

/-! ## What the browser finds behind the first slash -/

/-- What a browser reads of the bytes behind the first slash of a location. -/
def readable (s : Bytes) : Bytes :=
  ((unbroken (hexEscapeNonASCII s)).rdropWhile (· ≤ space)).filter (· ≠ tab)

theorem redirect_cons (url : Bytes) : redirect url = slash :: (redirect url).tail := by
  unfold redirect clean
  dsimp only
  split <;> rfl

theorem trim_cons {p : UInt8 → Bool} {b : UInt8} (h : p b = false) (s : Bytes) :
    trim p (b :: s) = b :: s.rdropWhile p := by
  have kept : (b :: s).dropWhile p = b :: s := by simp [h]
  rw [trim, kept, List.rdropWhile, List.rdropWhile, List.reverse_cons, List.dropWhile_append]
  split
  · rename_i empty
    rw [List.isEmpty_iff.mp empty]
    simp [h]
  · rw [List.reverse_append]
    rfl

/-- Dropping bytes at the end does not change which of the other bytes is found. -/
theorem find?_rdropWhile {p q : UInt8 → Bool} {c : UInt8} (h : p c = false) (s : Bytes) :
    (s.rdropWhile p).find? q = some c ↔ s.find? q = some c := by
  induction s using List.reverseRecOn with
  | nil => rw [List.rdropWhile_nil]
  | append_singleton s b ih =>
      rw [List.rdropWhile_concat]
      split
      · rename_i dropped
        have other : [b].find? q ≠ some c := by
          intro found
          obtain rfl := List.mem_singleton.mp (List.mem_of_find?_eq_some found)
          rw [h] at dropped
          cases dropped
        rw [ih, List.find?_append]
        cases s.find? q with
        | none => simpa using other
        | some d => rfl
      · rfl

theorem find?_hexEscapeNonASCII {c : UInt8} (small : c < 0x80) (other : c ≠ percent) (s : Bytes) :
    (hexEscapeNonASCII s).find? (· ≠ tab) = some c ↔ s.find? (· ≠ tab) = some c := by
  induction s with
  | nil => rfl
  | cons b rest ih =>
      rw [hexEscapeNonASCII, List.flatMap_cons]
      split
      · rw [List.singleton_append, List.find?_cons, List.find?_cons]
        split
        · rfl
        · exact ih
      · rename_i large
        have apart : b ≠ c ∧ b ≠ tab := by
          refine ⟨?_, ?_⟩ <;> rintro rfl
          · exact large small
          · exact large (by decide)
        have first : (percent ≠ tab) := by decide
        simp [apart, first, other.symm]

theorem not_break_of_mem_unbroken {b : UInt8} {s : Bytes} (h : b ∈ unbroken s) :
    b ≠ lineFeed ∧ b ≠ carriageReturn := by
  obtain ⟨c, _, rfl⟩ := List.mem_map.mp h
  split
  · decide
  · exact not_or.mp (by assumption)

theorem find?_unbroken {c : UInt8} (plain : isBlank c = false) (s : Bytes) :
    (unbroken s).find? (· ≠ tab) = some c ↔ s.find? (· ≠ tab) = some c := by
  have kinds : space ≠ tab ∧ lineFeed ≠ tab ∧ carriageReturn ≠ tab := by decide
  have same : (fun b : UInt8 => decide (b ≠ tab)) ∘
      (fun b => if b = lineFeed ∨ b = carriageReturn then space else b) = (decide <| · ≠ tab) := by
    funext b
    by_cases broken : b = lineFeed ∨ b = carriageReturn
    · obtain rfl | rfl := broken <;> simp [kinds]
    · simp [not_or.mp broken]
  rw [unbroken, List.find?_map, same]
  cases s.find? (· ≠ tab) with
  | none => rfl
  | some b =>
      simp only [isBlank, Bool.or_eq_false_iff, decide_eq_false_iff_not] at plain
      simp only [Option.map_some, Option.some.injEq]
      by_cases broken : b = lineFeed ∨ b = carriageReturn
      · rw [if_pos broken]
        obtain rfl | rfl := broken
        · exact iff_of_false (Ne.symm plain.1.1.1) (Ne.symm plain.1.2)
        · exact iff_of_false (Ne.symm plain.1.1.1) (Ne.symm plain.2)
      · rw [if_neg broken]

theorem plain_of_isSlash {c : UInt8} (h : isSlash c = true) :
    isBlank c = false ∧ decide (c ≤ space) = false ∧ c < 0x80 ∧ c ≠ percent ∧ c ≠ tab ∧
      ¬(c = lineFeed ∨ c = carriageReturn) := by
  obtain rfl | rfl : c = slash ∨ c = backslash := by simpa [isSlash] using h
  · decide
  · decide

/-- The first byte that is read is a slash if it is one in the location, tabs aside. -/
theorem head?_readable {c : UInt8} (h : isSlash c = true) (s : Bytes) :
    (readable s).head? = some c ↔ s.find? (· ≠ tab) = some c := by
  obtain ⟨blank, control, small, other, -, -⟩ := plain_of_isSlash h
  rw [readable, List.head?_filter, find?_rdropWhile control, find?_unbroken blank,
    find?_hexEscapeNonASCII small other]

theorem rdropWhile_append_cons {p : UInt8 → Bool} {c : UInt8} (h : p c = false) (s rest : Bytes) :
    (s ++ c :: rest).rdropWhile p = s ++ c :: rest.rdropWhile p := by
  induction rest using List.reverseRecOn with
  | nil => exact List.rdropWhile_concat_neg _ _ _ (by simp [h])
  | append_singleton rest b ih =>
      have last : s ++ c :: (rest ++ [b]) = s ++ c :: rest ++ [b] := by simp
      rw [last, List.rdropWhile_concat, List.rdropWhile_concat, ih]
      split
      · rfl
      · rw [last]

/-- Behind the first slash that is read, the rest is read as it would be alone. -/
theorem readable_append {c : UInt8} (h : isSlash c = true) {tabs : Bytes}
    (blank : ∀ b ∈ tabs, b = tab) (rest : Bytes) :
    readable (tabs ++ c :: rest) = c :: readable rest := by
  obtain ⟨-, control, small, -, visible, whole⟩ := plain_of_isSlash h
  have low : tab < 0x80 ∧ ¬(tab = lineFeed ∨ tab = carriageReturn) := by decide
  have kept (n : Nat) : unbroken (hexEscapeNonASCII (List.replicate n tab ++ c :: rest)) =
      List.replicate n tab ++ c :: unbroken (hexEscapeNonASCII rest) := by
    simp [hexEscapeNonASCII, unbroken, List.flatMap_replicate, low, small, whole]
  rw [readable, List.eq_replicate_of_mem blank, kept, rdropWhile_append_cons control,
    List.filter_append, List.filter_cons_of_pos (by simpa using visible)]
  simp [readable]

theorem rdropWhile_rdropWhile {p q : UInt8 → Bool} (h : ∀ b, p b = true → q b = true)
    (s : Bytes) : (s.rdropWhile p).rdropWhile q = s.rdropWhile q := by
  induction s using List.reverseRecOn with
  | nil => rw [List.rdropWhile_nil]
  | append_singleton s b ih =>
      rw [List.rdropWhile_concat]
      split
      · rename_i dropped
        rw [ih, List.rdropWhile_concat_pos _ _ _ (h b dropped)]
      · rfl

/-- The first of the two slashes a browser sees is that of the location. -/
theorem stripped_locationHeader (url : Bytes) :
    stripped (locationHeader url) = slash :: readable (redirect url).tail := by
  have written : locationHeader url =
      slash :: (unbroken (hexEscapeNonASCII (redirect url).tail)).rdropWhile isBlank := by
    rw [locationHeader, redirect_cons]
    exact trim_cons (by decide) _
  have blanks : ∀ b, isBlank b = true → decide (b ≤ space) = true := by
    intro b h
    obtain ((rfl | rfl) | rfl) | rfl : ((b = space ∨ b = tab) ∨ b = lineFeed) ∨
      b = carriageReturn := by simpa [isBlank] using h
    all_goals decide
  rw [stripped, written, trim_cons (by decide), rdropWhile_rdropWhile blanks,
    List.filter_cons_of_pos (by decide), readable]
  refine congrArg (slash :: ·) (List.filter_congr fun b mem => ?_)
  have whole := not_break_of_mem_unbroken ((List.rdropWhile_prefix _ _).subset mem)
  simp [whole]

variable {parseHost : Bytes → Option Host} {base : Host} {url : Bytes}

/-- Following a redirect, a browser leaves the site for the authority behind a second slash. -/
theorem resolve_locationHeader {c : UInt8} (h : isSlash c = true) {tabs rest : Bytes}
    (blank : ∀ b ∈ tabs, b = tab) (location : (redirect url).tail = tabs ++ c :: rest) :
    resolve parseHost base (locationHeader url) =
      authorityHost parseHost (namedAuthority (readable rest)) := by
  have first : isSlash slash = true := by decide
  rw [resolve, stripped_locationHeader, location, readable_append h blank]
  simp [first, h]

/-- Without a second slash it stays. -/
theorem resolve_locationHeader_of_single
    (single : ∀ c, (redirect url).tail.find? (· ≠ tab) = some c → isSlash c = false) :
    resolve parseHost base (locationHeader url) = some base := by
  rw [resolve, stripped_locationHeader]
  cases read : readable (redirect url).tail with
  | nil => rfl
  | cons c rest =>
      cases h : isSlash c with
      | false => simp [h]
      | true =>
          have found := (head?_readable h _).mp (by rw [read]; rfl)
          exact absurd (single c found) (by simp [h])

end Url
