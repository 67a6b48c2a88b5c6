import VmServer.Library.Url
import VmServer.HttpServer.Routes

/-!
# Where the login page sends a browser

`safeNext` is given what follows `next=` in the request, which anybody may
have written into a link. It looks for a second slash by a prefix test and by
`url.Parse`; a browser also takes a backslash for one, and does not see tabs.

## Implementation notes

`next` is a byte string here, as `http.Redirect` and the browser look at its
bytes. On the bytes of a text this is `safeNext` of the routes. `requireAuth`
writes the target of the request into the link; a `#` in it, which no browser
sends, belongs to the query there and begins a fragment for `safeNext`.
-/

namespace VmServer.HttpServer.LoginRedirect

open Url

/-- The bytes of an ASCII text. -/
def ascii (text : List Char) : Bytes := text.map fun c => UInt8.ofNat c.toNat

def consolePage : Bytes := ascii ['/', 'c', 'o', 'n', 's', 'o', 'l', 'e']

def setupPage : Bytes := ascii ['/', 's', 'e', 't', 'u', 'p']

/-- The tests of `safeNext`. -/
def isSafe (next : Bytes) : Bool :=
  if next = [] ∨ ¬ [slash].isPrefixOf next ∨ [slash, slash].isPrefixOf next then false
  else
    match parse next with
    | none => false
    | some h => h = []

def safeNext (next : Bytes) : Bytes := if isSafe next then next else consolePage

variable {Host : Type*} {parseHost : Bytes → Option Host} {server : Host} {next : Bytes}

/-- Whether a browser that is redirected to the location ends up at the server, if anywhere. -/
def EndsHere (parseHost : Bytes → Option Host) (server : Host) (location : Bytes) : Prop :=
  ∀ h, resolve parseHost server (locationHeader location) = some h → h = server

/-- Whether a browser that logs in at the server and is sent on stays there. -/
def StaysHere (parseHost : Bytes → Option Host) (server : Host) (next : Bytes) : Prop :=
  EndsHere parseHost server (safeNext next)

/-- One slash in front, and nothing in the bytes that `url.Parse` refuses. -/
structure Passes (next : Bytes) : Prop where
  front : [slash].isPrefixOf next = true
  single : [slash, slash].isPrefixOf next = false
  plain : (before hash next).any isControl = false
  path : validEscapes (before question (before hash next)) = true
  fragment : validEscapes ((since hash next).drop 1) = true

/-- Cleaned, the text goes on behind its first slash, tabs aside, with one more slash of either
kind; `rest` is what follows. -/
structure Disguises (next rest : Bytes) : Prop extends Passes next where
  second : ∃ tabs c, (redirect next).tail = tabs ++ c :: rest ∧ (∀ b ∈ tabs, b = tab) ∧
    isSlash c = true

/-- The text of the host and the port that a browser reads in front of the next delimiter. -/
def hostText (rest : Bytes) : Bytes × Option Bytes :=
  cutPort false (hostPort (namedAuthority (readable rest)))

/-- No host, an invalid port, no host by the browser's rules, or the server's own. -/
def NoOtherHost (parseHost : Bytes → Option Host) (server : Host) (rest : Bytes) : Prop :=
  (hostText rest).1 = [] ∨ (hostText rest).2.any (!validPort ·) = true ∨
    parseHost (hostText rest).1 = none ∨ parseHost (hostText rest).1 = some server

/-- An absolute path with an optional query, both as they stand in a request. -/
structure OnSite (next : Bytes) : Prop where
  front : [slash].isPrefixOf next = true
  single : [slash, slash].isPrefixOf next = false
  plain : next.any isControl = false
  noHash : hash ∉ before question next
  escapes : validEscapes (before question next) = true

/-- The target of a request for a page behind `requireAuth`: its path means that of the page. -/
structure PageTarget (target : Bytes) : Prop where
  front : [slash].isPrefixOf target = true
  plain : target.any isControl = false
  page : ∃ page ∈ [consolePage, setupPage], unescape (before question target) = some page

theorem parse_cases (s : Bytes) : parse s = none ∨ parse s = some [] := by
  unfold parse
  split
  · exact Or.inl rfl
  · split
    · exact Or.inr rfl
    · exact Or.inl rfl

theorem parse_eq_some_iff (s : Bytes) : parse s = some [] ↔
    (before hash s).any isControl = false ∧ validEscapes (before question (before hash s)) = true ∧
      validEscapes ((since hash s).drop 1) = true := by
  unfold parse
  split
  · rename_i control
    simp [control]
  · rename_i plain
    simp [plain]

theorem isSafe_iff : isSafe next = true ↔ Passes next := by
  constructor
  · intro safe
    unfold isSafe at safe
    split at safe
    · cases safe
    · rename_i tests
      obtain ⟨-, front, single⟩ := not_or.mp tests |>.imp_right not_or.mp
      obtain refused | found := parse_cases next
      · rw [refused] at safe
        cases safe
      · obtain ⟨plain, path, fragment⟩ := (parse_eq_some_iff next).mp found
        exact ⟨not_not.mp front, Bool.eq_false_iff.mpr single, plain, path, fragment⟩
  · intro passes
    have some_ : next ≠ [] := by
      rintro rfl
      cases passes.front
    have found := (parse_eq_some_iff next).mpr ⟨passes.plain, passes.path, passes.fragment⟩
    simp [isSafe, found, some_, passes.front, passes.single]

theorem noOtherHost_iff {rest : Bytes} : NoOtherHost parseHost server rest ↔
    ∀ h, authorityHost parseHost (namedAuthority (readable rest)) = some h → h = server := by
  unfold NoOtherHost authorityHost
  change _ ↔ ∀ h, (if (hostText rest).1 = [] ∨ !((hostText rest).2.all validPort) then none
    else parseHost (hostText rest).1) = some h → h = server
  have ports : (hostText rest).2.any (!validPort ·) = true ↔
      (!((hostText rest).2.all validPort)) = true := by
    cases (hostText rest).2 <;> simp
  rw [ports, ← or_assoc]
  split
  · rename_i invalid
    exact iff_of_true (Or.inl invalid) nofun
  · rename_i valid
    rw [or_iff_right valid]
    cases parseHost (hostText rest).1 <;> simp

theorem endsHere_of_single
    (single : ∀ c, (redirect next).tail.find? (· ≠ tab) = some c → isSlash c = false) :
    EndsHere parseHost server next := by
  intro h resolved
  rw [resolve_locationHeader_of_single single] at resolved
  exact (Option.some.inj resolved).symm

theorem endsHere_consolePage : EndsHere parseHost server consolePage :=
  endsHere_of_single fun c found => by
    obtain rfl : UInt8.ofNat 'c'.toNat = c := Option.some.inj found
    rfl

theorem endsHere_of_second {tabs rest : Bytes} {c : UInt8} (h : isSlash c = true)
    (blank : ∀ b ∈ tabs, b = tab) (location : (redirect next).tail = tabs ++ c :: rest) :
    EndsHere parseHost server next ↔ NoOtherHost parseHost server rest := by
  rw [noOtherHost_iff, EndsHere, resolve_locationHeader h blank location]

/-- A browser stays on the server exactly when the texts that get past the tests and go on with a
second slash name no other host there. -/
theorem staysHere_iff : StaysHere parseHost server next ↔
    ∀ rest, Disguises next rest → NoOtherHost parseHost server rest := by
  unfold StaysHere safeNext
  by_cases passes : Passes next
  · rw [if_pos (isSafe_iff.mpr passes)]
    constructor
    · rintro stays rest ⟨-, tabs, c, location, blank, h⟩
      exact (endsHere_of_second h blank location).mp stays
    · intro harmless
      cases found : (redirect next).tail.find? (· ≠ tab) with
      | none => exact endsHere_of_single fun c same => by rw [found] at same; cases same
      | some c =>
          cases h : isSlash c with
          | false =>
              refine endsHere_of_single fun d same => ?_
              obtain rfl := Option.some.inj (found.symm.trans same)
              exact h
          | true =>
              obtain ⟨-, tabs, rest, location, blank⟩ := List.find?_eq_some_iff_append.mp found
              have blank : ∀ b ∈ tabs, b = tab := fun b mem => by simpa using blank b mem
              exact (endsHere_of_second h blank location).mpr
                (harmless rest ⟨passes, tabs, c, location, blank, h⟩)
  · rw [if_neg fun safe => passes (isSafe_iff.mp safe)]
    exact iff_of_true endsHere_consolePage fun rest disguised => absurd disguised.toPasses passes

/-! ## The link to the login page -/

theorem safeNext_eq_self_iff : safeNext next = next ↔ Passes next := by
  rw [← isSafe_iff, safeNext]
  by_cases safe : isSafe next = true
  · simp [safe]
  · rw [if_neg safe]
    refine iff_of_false ?_ safe
    rintro rfl
    exact safe (by decide)

/-- The tests pass a path of this site, and its query too if what follows a `#` in it has no bad
escapes. -/
theorem safeNext_of_onSite (h : OnSite next) :
    safeNext next = next ↔ validEscapes ((since hash next).drop 1) = true := by
  have path : before question (before hash next) = before question next := by
    have kept : before hash (before question next) = before question next :=
      List.takeWhile_eq_self_iff.mpr fun b mem => decide_eq_true fun same => h.noHash (same ▸ mem)
    rw [before, before, List.takeWhile_takeWhile] at kept ⊢
    rw [← before] at kept
    simpa only [and_comm] using kept
  have plain : (before hash next).any isControl = false := by
    rw [List.any_eq_false] at *
    exact fun b mem => List.any_eq_false.mp h.plain b ((List.takeWhile_sublist _).subset mem)
  rw [safeNext_eq_self_iff]
  exact ⟨Passes.fragment, fun fragment =>
    ⟨h.front, h.single, plain, path ▸ h.escapes, fragment⟩⟩

/-- What `requireAuth` puts into the link is a path of this site. -/
theorem onSite_of_page (h : PageTarget next) : OnSite next := by
  obtain ⟨page, among, meant⟩ := h.page
  have plain : hash ∉ page ∧ [slash, slash].isPrefixOf page = false := by
    obtain rfl | rfl : page = consolePage ∨ page = setupPage := by simpa using among
    all_goals decide
  refine ⟨h.front, ?_, h.plain, fun mem => plain.1 ?_, validEscapes_of_unescape meant⟩
  · refine Bool.eq_false_iff.mpr fun two => ?_
    obtain ⟨rest, rfl⟩ := List.isPrefixOf_iff_prefix.mp two
    have front : before question ([slash, slash] ++ rest) =
        slash :: slash :: before question rest := rfl
    have plainSlash : slash ≠ percent := by decide
    rw [front, unescape_cons plainSlash, unescape_cons plainSlash, Option.map_map] at meant
    obtain ⟨more, -, rfl⟩ := Option.map_eq_some_iff.mp meant
    exact absurd plain.2 (by simp)
  · exact mem_of_unescape meant mem (by decide) (by decide)

/-! ## The bytes of a text -/

def bytes (s : String) : Bytes := s.toList.flatMap String.utf8EncodeChar

/-- Only a slash is encoded with the byte of a slash at its front. -/
theorem utf8EncodeChar_front (c : Char) :
    ∃ b rest, String.utf8EncodeChar c = b :: rest ∧ (b = slash → c = '/' ∧ rest = []) := by
  have value {n : Nat} (h : UInt8.ofNat n = slash) : n % 256 = 47 := by
    simpa [slash] using congrArg UInt8.toNat h
  fun_cases String.utf8EncodeChar c with
  | case1 v small =>
      refine ⟨_, _, rfl, fun same => ⟨Char.toNat_inj.mp ?_, rfl⟩⟩
      have := value same
      change v = 47
      omega
  | case2 v =>
      refine ⟨_, _, rfl, fun same => ?_⟩
      have := value same
      omega
  | case3 v =>
      refine ⟨_, _, rfl, fun same => ?_⟩
      have := value same
      omega
  | case4 v =>
      refine ⟨_, _, rfl, fun same => ?_⟩
      have := value same
      omega

theorem isPrefixOf_flatMap (ps : Bytes) (c : Char) (cs : List Char) :
    (slash :: ps).isPrefixOf ((c :: cs).flatMap String.utf8EncodeChar) =
      (c == '/' && ps.isPrefixOf (cs.flatMap String.utf8EncodeChar)) := by
  rw [List.flatMap_cons]
  by_cases same : c = '/'
  · subst same
    rfl
  · obtain ⟨b, rest, encoded, only⟩ := utf8EncodeChar_front c
    have other : b ≠ slash := fun h => same (only h).1
    rw [encoded, List.cons_append, List.isPrefixOf, beq_false_of_ne other.symm,
      beq_false_of_ne same]
    rfl

theorem isPrefixOf_bytes (s : String) :
    [slash].isPrefixOf (bytes s) = underPath s "/" ∧
      [slash, slash].isPrefixOf (bytes s) = underPath s "//" := by
  unfold bytes underPath
  cases s.toList with
  | nil => exact ⟨rfl, rfl⟩
  | cons c cs =>
      rw [isPrefixOf_flatMap, isPrefixOf_flatMap]
      cases cs with
      | nil => simp [List.isPrefixOf, Bool.beq_comm]
      | cons d ds =>
          rw [isPrefixOf_flatMap]
          simp [List.isPrefixOf, Bool.beq_comm]

/-- On the bytes of a text this is the `safeNext` of the routes, whose `url.Parse` is a part of
the world. -/
theorem bytes_safeNext (w : World) (next : String)
    (agrees : w.net.parseHost next = (parse (bytes next)).map fun _ => "") :
    bytes (HttpServer.safeNext w next) = safeNext (bytes next) := by
  have console : bytes "/console" = consolePage := by decide
  obtain ⟨one, two⟩ := isPrefixOf_bytes next
  unfold HttpServer.safeNext safeNext isSafe
  rw [one, two, agrees]
  cases front : underPath next "/" with
  | false => simp [console]
  | true =>
      have some_ : next ≠ "" ∧ bytes next ≠ [] := by
        refine ⟨?_, ?_⟩
        · rintro rfl
          cases front
        · intro empty
          rw [front, empty] at one
          cases one
      cases underPath next "//" with
      | true => simp [console]
      | false =>
          obtain refused | found := parse_cases (bytes next)
          · simp [some_, refused, console]
          · simp [some_, found]

/-- The redirect of the login handlers stays on the server under the same condition. -/
theorem routes_endHere_iff (w : World) (parseHost : Bytes → Option Host) (server : Host)
    (next : String)
    (agrees : w.net.parseHost next = (parse (bytes next)).map fun _ => "") :
    EndsHere parseHost server (bytes (HttpServer.safeNext w next)) ↔
      ∀ rest, Disguises (bytes next) rest → NoOtherHost parseHost server rest := by
  rw [bytes_safeNext w next agrees]
  exact staysHere_iff

/-- For every `next`, a browser that follows the redirect of the login page stays on the server
exactly when `next` is refused by a test, or does not go on with a second slash once it is cleaned,
or names no other host there. A path of this site with its query is kept exactly when what follows
a `#` in the query has no bad escape; the targets that `requireAuth` writes are of this kind. -/
theorem login_redirect_iff (parseHost : Bytes → Option Host) (server : Host) (next : Bytes) :
    (StaysHere parseHost server next ↔
        ∀ rest, Disguises next rest → NoOtherHost parseHost server rest) ∧
      (OnSite next → (safeNext next = next ↔ validEscapes ((since hash next).drop 1) = true)) ∧
      (PageTarget next → OnSite next) :=
  ⟨staysHere_iff, safeNext_of_onSite, onSite_of_page⟩

/-- `/console?a` -/
def consoleQuery : Bytes := consolePage ++ ascii ['?', 'a']

theorem login_redirect_consoleQuery :
    PageTarget consoleQuery ∧ safeNext consoleQuery = consoleQuery := by
  have target : PageTarget consoleQuery :=
    ⟨by decide, by decide, ⟨consolePage, by decide, by decide⟩⟩
  obtain ⟨-, kept, onSite⟩ := login_redirect_iff some consolePage consoleQuery
  exact ⟨target, (kept (onSite target)).mpr (by decide)⟩

/-- `/\evil.com` -/
def foreign : Bytes := ascii ['/', '\\', 'e', 'v', 'i', 'l', '.', 'c', 'o', 'm']

/-- `/console?q#%zz` -/
def badFragment : Bytes := consolePage ++ ascii ['?', 'q', '#', '%', 'z', 'z']

/-- The browser ends up at another host than that of the server; and a request for the console is
not continued. -/
theorem backslash_leaves_site : ¬ StaysHere some (ascii ['v', 'm']) foreign ∧
    PageTarget badFragment ∧ safeNext badFragment ≠ badFragment := by
  refine ⟨fun stays => ?_, ⟨by decide, by decide, ⟨consolePage, by decide, by decide⟩⟩, by decide⟩
  have left := stays (ascii ['e', 'v', 'i', 'l', '.', 'c', 'o', 'm']) (by decide)
  cases left

end VmServer.HttpServer.LoginRedirect
