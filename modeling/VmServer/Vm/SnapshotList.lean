import VmServer.Library.Lines
import VmServer.Library.Regex
import VmServer.Config.Sections
import VmServer.Vm.Operations

/-!
# The list of snapshots

`info snapshots` prints headings and one row per snapshot. Every row can be
read in one way only, so the list holds what was printed, and each tag in it
is what the other snapshot commands take.

## Implementation notes

The rows are wider than what QEMU prints: the columns behind the date are any
text, and a heading is any line in which there is no date.
-/

namespace VmServer.Vm

open Regex Lines
open VmServer.Config (isSpace trimSpace)

/-- `\s` -/
def space : CharClass := oneOf ['\t', '\n', '\x0c', '\r', ' ']

/-- `\S` -/
def nonSpace : CharClass := fun c => !space c

def digits : List Char := ['0', '1', '2', '3', '4', '5', '6', '7', '8', '9']

/-- `\d` -/
def digit : CharClass := oneOf digits

/-- `[\d.]` -/
def sizeChar : CharClass := oneOf ('.' :: digits)

/-- `[KMGTP]` -/
def unitLetter : CharClass := oneOf ['K', 'M', 'G', 'T', 'P']

/-- `[\d.]+\s*[KMGTP]?i?B` -/
def sizeRe : Pattern :=
  inTurn [.many sizeChar 1, .many space 0, .opt (.char unitLetter), .opt (.char (oneOf ['i'])),
    .char (oneOf ['B'])]

/-- `\d{4}-\d{2}-\d{2} \d{2}:\d{2}:\d{2}` -/
def dateClasses : List CharClass :=
  [digit, digit, digit, digit, oneOf ['-'], digit, digit, oneOf ['-'], digit, digit, oneOf [' '],
    digit, digit, oneOf [':'], digit, digit, oneOf [':'], digit, digit]

def columnRes : List Pattern :=
  [.group (.many nonSpace 1), .many space 1, .group (.many nonSpace 1), .many space 1,
    .group sizeRe, .many space 1, .group (word dateClasses)]

def snapshotLineRe : Pattern := inTurn columnRes

structure SnapshotInfo where
  id : String
  tag : String
  size : String
  date : String
  deriving DecidableEq, Repr

/-- The entry of a match. -/
def snapshotOf (m : Match) : SnapshotInfo where
  id := String.ofList (m.submatch 1)
  tag := String.ofList (m.submatch 2)
  size := trimSpace (String.ofList (m.submatch 3))
  date := String.ofList (m.submatch 4)

/-- The entry of a line that is a row. -/
def snapshotLine (line : Text) : Option SnapshotInfo :=
  (matchFront snapshotLineRe (trimSpace (String.ofList line)).toList).map snapshotOf

def snapshotsIn (out : String) : List SnapshotInfo :=
  (out.toList.splitOn '\n').filterMap snapshotLine

/-- `ListSnapshots`, given what QEMU replies. -/
def Manager.snapshots (m : Manager) (reply : GuestRequest → Except String String) :
    Except String (List SnapshotInfo) := do
  let out ← reply (← m.listSnapshots)
  return snapshotsIn out

/-! ## What QEMU prints -/

/-- The blanks between two columns. -/
structure Gap where
  text : Text
  full : text ≠ []
  blank : ∀ c ∈ text, c = ' ' ∨ c = '\t'

def units : List Text :=
  [['B'], ['K', 'i', 'B'], ['M', 'i', 'B'], ['G', 'i', 'B'], ['T', 'i', 'B'], ['P', 'i', 'B']]

structure SnapshotRow where
  id : Text
  tag : String
  number : Text
  /-- The blanks between the number and the unit, of which there may be none. -/
  inner : Text
  unit : Text
  date : Text
  columns : Text
  afterId : Gap
  afterTag : Gap
  afterSize : Gap
  id_full : id ≠ []
  id_plain : ∀ c ∈ id, isSpace c = false
  tag_valid : validateSnapshotName tag = none
  number_full : number ≠ []
  number_decimal : ∀ c ∈ number, sizeChar c = true
  inner_blank : ∀ c ∈ inner, c = ' ' ∨ c = '\t'
  unit_known : unit ∈ units
  date_fits : fits dateClasses date = true
  columns_line : '\n' ∉ columns

namespace SnapshotRow

variable (r : SnapshotRow)

def size : Text := r.number ++ (r.inner ++ r.unit)

/-- The row as far as the list reads it. -/
def front : Text :=
  r.id ++ (r.afterId.text ++ (r.tag.toList ++ (r.afterTag.text ++
    (r.size ++ (r.afterSize.text ++ r.date)))))

def info : SnapshotInfo := ⟨String.ofList r.id, r.tag, String.ofList r.size, String.ofList r.date⟩

end SnapshotRow

inductive OutputLine
  | heading (text : Text) (dateless : find (word dateClasses) text = none) (line : '\n' ∉ text)
  | row (r : SnapshotRow)

namespace OutputLine

def text : OutputLine → Text
  | heading text _ _ => text
  | row r => r.front ++ r.columns

def info? : OutputLine → Option SnapshotInfo
  | heading _ _ _ => none
  | row r => some r.info

end OutputLine

/-- A line, with a carriage return where it is ended by CRLF. -/
def printed (l : OutputLine × Bool) : Text := l.1.text ++ if l.2 then ['\r'] else []

def output (lines : List (OutputLine × Bool)) : String :=
  String.ofList (unlines '\n' (lines.map printed))

/-- The manager sends the tag as it is, as the only argument of the command. -/
def Manager.SendsTag (m : Manager) (verb tag : String) (sent : Except String GuestRequest) : Prop :=
  (∃ line, sent = m.withClient (.hmp · line) ∧
    line.toList.splitOn ' ' = [verb.toList, tag.toList]) ∧
    tag ≠ "" ∧ ∀ c ∈ tag.toList, isSpace c = false

/-! ## Trimming a line -/

/-- `strings.TrimSpace` on the characters. -/
def trim (s : Text) : Text := (s.dropWhile isSpace).rdropWhile isSpace

theorem toList_trimSpace (s : Text) : (trimSpace (String.ofList s)).toList = trim s := by
  rw [trimSpace, String.toList_ofList, String.toList_ofList]
  rfl

theorem trim_inside (s : Text) : trim s <:+: s :=
  (List.rdropWhile_prefix isSpace _).isInfix.trans (List.dropWhile_suffix isSpace).isInfix

/-- The line end of CRLF leaves no trace. -/
theorem trim_return (s : Text) : trim (s ++ ['\r']) = trim s := by
  have skipped : isSpace '\r' = true := by decide
  rw [trim, trim, List.dropWhile_append]
  split
  · rename_i blank
    rw [List.isEmpty_iff.mp blank, List.dropWhile_cons_of_pos skipped]
    rfl
  · rw [List.rdropWhile_concat_pos isSpace _ _ skipped]

/-- Trimming stops at the first and the last character that is no space. -/
theorem trim_append {w : Text} {c d : Char} {v u : Text} (starts : w = c :: v) (ends : w = u ++ [d])
    (first : isSpace c = false) (last : isSpace d = false) (s : Text) :
    ∃ t, t <+: s ∧ trim (w ++ s) = w ++ t := by
  refine ⟨s.rdropWhile isSpace, List.rdropWhile_prefix isSpace s, ?_⟩
  have kept : (w ++ s).dropWhile isSpace = w ++ s := by
    rw [starts, List.cons_append, List.dropWhile_cons_of_neg (by simp [first])]
  have stopped : w.reverse.dropWhile isSpace = w.reverse := by
    rw [ends, List.reverse_append, List.reverse_singleton, List.singleton_append,
      List.dropWhile_cons_of_neg (by simp [last])]
  rw [trim, kept, List.rdropWhile, List.reverse_append, List.dropWhile_append]
  split
  · rename_i blank
    rw [stopped, List.reverse_reverse, List.rdropWhile, List.isEmpty_iff.mp blank,
      List.reverse_nil, List.append_nil]
  · rw [List.reverse_append, List.reverse_reverse]
    rfl

/-! ## Reading a row -/

theorem space_of_blank {c : Char} (h : c = ' ' ∨ c = '\t') : space c = true := by
  rcases h with rfl | rfl <;> decide

theorem nonSpace_of_plain {c : Char} (h : isSpace c = false) : nonSpace c = true := by
  have blanks : Apart space fun d => !isSpace d := Apart.oneOf (by decide)
  refine (Bool.not_eq_true' _).mpr (Bool.eq_false_iff.mpr fun blank => ?_)
  have covered : isSpace c = true := (Bool.not_eq_false' _).mp (blanks c blank)
  rw [h] at covered
  cases covered

theorem plain_of_digit {c : Char} (h : digit c = true) : isSpace c = false :=
  (Apart.oneOf (by decide) : Apart digit isSpace) c h

theorem plain_of_sizeChar {c : Char} (h : sizeChar c = true) : isSpace c = false :=
  (Apart.oneOf (by decide) : Apart sizeChar isSpace) c h

theorem plain_of_snapshotChar {c : Char} (h : snapshotChar c = true) : isSpace c = false := by
  refine Bool.or_eq_false_iff.mpr ⟨decide_eq_false fun listed => ?_, ?_⟩
  · have none : ['\t', '\n', '\x0b', '\x0c', '\r', ' ', '\u0085', '\u00a0', '\u1680', '\u2028',
        '\u2029', '\u202f', '\u205f', '\u3000'].any snapshotChar = false := by decide
    exact List.any_eq_false.mp none c listed h
  · have small : c ≤ 'z' := by
      simp only [snapshotChar, Bool.or_eq_true, Bool.and_eq_true, decide_eq_true_eq] at h
      rcases h with (((⟨_, h⟩ | ⟨_, h⟩) | ⟨_, h⟩) | rfl) | rfl
      · exact h
      · exact Char.le_trans h (by decide)
      · exact Char.le_trans h (by decide)
      · decide
      · decide
    have above : ¬ '\u2000' ≤ c := fun large => absurd (Char.le_trans large small) (by decide)
    rw [decide_eq_false above, Bool.false_and]

/-- A valid name is not empty, and has characters of one kind only. -/
theorem name_valid {name : String} (h : validateSnapshotName name = none) :
    name ≠ "" ∧ ∀ c ∈ name.toList, snapshotChar c = true := by
  unfold validateSnapshotName at h
  split at h
  · cases h
  · rename_i full
    split at h
    · rename_i all
      exact ⟨fun empty => full (.inl empty), List.all_eq_true.mp all⟩
    · cases h

theorem apart_nonSpace : Apart nonSpace space := fun _ h => (Bool.not_eq_true' _).mp h

theorem apart_space : Apart space nonSpace := fun _ h => (Bool.not_eq_false' _).mpr h

theorem apart_sizeChar : Apart sizeChar space := Apart.oneOf (by decide)

/-- `i?B` -/
abbrev byteRe : Pattern := inTurn [.opt (.char (oneOf ['i'])), .char (oneOf ['B'])]

/-- `[KMGTP]?i?B` -/
abbrev unitRe : Pattern := .seq (.opt (.char unitLetter)) byteRe

theorem byteRe_refuses {p : CharClass} (i : Apart p (oneOf ['i'])) (b : Apart p (oneOf ['B'])) :
    Refuses byteRe p := .opt (.char i) (.seq (.char b))

theorem unitRe_refuses {p : CharClass} (letter : Apart p unitLetter) (i : Apart p (oneOf ['i']))
    (b : Apart p (oneOf ['B'])) : Refuses unitRe p := .opt (.char letter) (byteRe_refuses i b)

/-- A unit is one letter, or three of which the first two are optional. -/
theorem units_cases {unit : Text} (known : unit ∈ units) :
    unit = ['B'] ∨ ∃ c, unitLetter c = true ∧ unit = [c, 'i', 'B'] := by
  simp only [units, List.mem_cons, List.not_mem_nil, or_false] at known
  rcases known with rfl | rfl | rfl | rfl | rfl | rfl
  · exact .inl rfl
  all_goals exact .inr ⟨_, by decide, rfl⟩

theorem unitRe_commits {unit : Text} (known : unit ∈ units) (b : Pattern) (s : Text) :
    Commits unitRe unit [] b s := by
  have last : Commits (inTurn [.char (oneOf ['B'])]) ['B'] [] b s := .last (.char (by decide))
  rcases units_cases known with rfl | ⟨c, letter, rfl⟩
  · have noI : Commits (.opt (.char (oneOf ['i']))) [] [] (inTurn [.char (oneOf ['B'])])
        (['B'] ++ s) := .skipped rfl
    have noLetter : Commits (.opt (.char unitLetter)) [] [] byteRe (['B'] ++ s) := .skipped rfl
    exact noLetter.seq (noI.seq last)
  · have i : Commits (.opt (.char (oneOf ['i']))) ['i'] [] (inTurn [.char (oneOf ['B'])])
        (['B'] ++ s) := .taken (.char (by decide)) rfl
    have refused : Refuses byteRe unitLetter :=
      byteRe_refuses (.oneOf (by decide)) (.oneOf (by decide))
    have first : Commits (.opt (.char unitLetter)) [c] [] byteRe (['i', 'B'] ++ s) :=
      .taken (.char letter) (refused c _ letter)
    exact first.seq (i.seq last)

/-- The blanks before what begins with no blank. -/
theorem Gap.commits (gap : Gap) {b r : Pattern} {w s : Text} {groups : List Text} {c : Char}
    {v : Text} (starts : w = c :: v) (other : space c = false) (refused : Refuses b space)
    (behind : Commits b w groups r s) :
    Commits (.seq (.many space 1) b) (gap.text ++ w) groups r s := by
  have blanks : Commits (.many space 1) gap.text [] b (w ++ s) :=
    .many (List.length_pos_iff.mpr gap.full) (fun d member => space_of_blank (gap.blank d member))
      (ends_cons starts other) refused
  exact blanks.seq behind

/-- A column ends where the blanks begin. -/
theorem column_commits {w u s : Text} {b r : Pattern} {groups : List Text} (full : w ≠ [])
    (plain : ∀ c ∈ w, isSpace c = false) (gap : Gap)
    (behind : Commits (.seq (.many space 1) b) (gap.text ++ u) groups r s) :
    Commits (.seq (.group (.many nonSpace 1)) (.seq (.many space 1) b)) (w ++ (gap.text ++ u))
      (w :: groups) r s := by
  have ends : ∀ c ∈ (gap.text ++ u ++ s).head?, nonSpace c = false := by
    rw [List.append_assoc]
    exact ends_append gap.full fun c member => apart_space c (space_of_blank (gap.blank c member))
  have column : Commits (.group (.many nonSpace 1)) w [w] (.seq (.many space 1) b)
      (gap.text ++ u ++ s) :=
    .group (.many (List.length_pos_iff.mpr full)
      (fun c member => nonSpace_of_plain (plain c member)) ends (.seq (.many apart_nonSpace)))
  exact column.seq behind

theorem units_plain {unit : Text} (known : unit ∈ units) : unit ≠ [] ∧
    ∀ c ∈ unit, space c = false ∧ sizeChar c = false ∧ isSpace c = false := by
  have all : units.all (fun unit => !unit.isEmpty &&
      unit.all fun c => !space c && !sizeChar c && !isSpace c) = true := by decide
  simpa [and_assoc] using List.all_eq_true.mp all unit known

namespace SnapshotRow

variable (r : SnapshotRow)

theorem size_commits (b : Pattern) (s : Text) : Commits (.group sizeRe) r.size [r.size] b s := by
  obtain ⟨unit_full, unit_plain⟩ := units_plain r.unit_known
  have behindInner : ∀ c ∈ (r.unit ++ s).head?, space c = false :=
    ends_append unit_full fun c member => (unit_plain c member).1
  have behindNumber : ∀ c ∈ (r.inner ++ (r.unit ++ s)).head?, sizeChar c = false := by
    by_cases joined : r.inner = []
    · rw [joined, List.nil_append]
      exact ends_append unit_full fun c member => (unit_plain c member).2.1
    · refine ends_append joined fun c member => ?_
      exact (Apart.oneOf (by decide) : Apart space sizeChar) c
        (space_of_blank (r.inner_blank c member))
  have inner : Commits (.many space 0) r.inner [] unitRe (r.unit ++ s) :=
    .many (Nat.zero_le _) (fun c member => space_of_blank (r.inner_blank c member)) behindInner
      (unitRe_refuses (.oneOf (by decide)) (.oneOf (by decide)) (.oneOf (by decide)))
  have number : Commits (.many sizeChar 1) r.number [] (.seq (.many space 0) unitRe)
      ((r.inner ++ r.unit) ++ s) := by
    rw [List.append_assoc]
    exact .many (List.length_pos_iff.mpr r.number_full) r.number_decimal behindNumber
      (.manyZero apart_sizeChar
        (unitRe_refuses (.oneOf (by decide)) (.oneOf (by decide)) (.oneOf (by decide))))
  exact .group (number.seq (inner.seq (unitRe_commits r.unit_known b s)))

theorem size_starts : ∃ c v, r.size = c :: v ∧ sizeChar c = true := by
  obtain ⟨c, v, starts⟩ := List.exists_cons_of_ne_nil r.number_full
  refine ⟨c, v ++ (r.inner ++ r.unit), ?_, r.number_decimal c (starts ▸ List.mem_cons_self)⟩
  rw [size, starts, List.cons_append]

theorem tag_plain : r.tag.toList ≠ [] ∧ ∀ c ∈ r.tag.toList, isSpace c = false := by
  obtain ⟨full, chars⟩ := name_valid r.tag_valid
  exact ⟨fun empty => full (String.toList_inj.mp empty),
    fun c member => plain_of_snapshotChar (chars c member)⟩

/-- The expression reads a row in one way only. -/
theorem front_commits (s : Text) :
    Commits snapshotLineRe r.front [r.id, r.tag.toList, r.size, r.date] .empty s := by
  obtain ⟨tag_full, tag_plain⟩ := r.tag_plain
  obtain ⟨t, tag', tag_starts⟩ := List.exists_cons_of_ne_nil tag_full
  obtain ⟨n, size', size_starts, number⟩ := r.size_starts
  obtain ⟨d, date', date_starts, digit⟩ := exists_first_of_fits r.date_fits
  have plain : space t = false := apart_nonSpace t
    (nonSpace_of_plain (tag_plain t (tag_starts ▸ List.mem_cons_self)))
  have date : Commits (inTurn [.group (word dateClasses)]) r.date [r.date] .empty s :=
    .last (.group (.word r.date_fits))
  have dated := r.afterSize.commits date_starts ((Apart.oneOf (by decide) : Apart _ space) d digit)
    (.seq (.group (.seq (.char (.oneOf (by decide)))))) date
  have sized := (r.size_commits _ _).seq dated
  have tagged := column_commits tag_full tag_plain r.afterTag
    (r.afterTag.commits (by rw [size_starts, List.cons_append]) (apart_sizeChar n number)
      (.seq (.group (.seq (.many (.oneOf (by decide)))))) sized)
  exact column_commits r.id_full r.id_plain r.afterId
    (r.afterId.commits (by rw [tag_starts, List.cons_append]) plain
      (.seq (.group (.many apart_space))) tagged)

theorem front_ends : ∃ c v u d, r.front = c :: v ∧ r.front = u ++ [d] ∧ isSpace c = false ∧
    isSpace d = false := by
  obtain ⟨c, v, starts⟩ := List.exists_cons_of_ne_nil r.id_full
  have date : fits (dateClasses.dropLast ++ [digit]) r.date = true := r.date_fits
  obtain ⟨u, d, ends, last⟩ := exists_last_of_fits date
  obtain ⟨behind, opens⟩ : ∃ behind, r.front = r.id ++ behind := ⟨_, rfl⟩
  obtain ⟨before, closes⟩ : ∃ before, r.front = before ++ r.date := by
    simp only [front, ← List.append_assoc]
    exact ⟨_, rfl⟩
  refine ⟨c, v ++ behind, before ++ u, d, ?_, ?_, r.id_plain c (starts ▸ List.mem_cons_self),
    plain_of_digit last⟩
  · rw [opens, starts, List.cons_append]
  · rw [closes, ends, List.append_assoc]

theorem trimSpace_size : trimSpace (String.ofList r.size) = String.ofList r.size := by
  obtain ⟨c, v, starts, number⟩ := r.size_starts
  obtain ⟨full, plain⟩ := units_plain r.unit_known
  have ends : r.size = (r.number ++ (r.inner ++ r.unit.dropLast)) ++ [r.unit.getLast full] := by
    rw [size, List.append_assoc, List.append_assoc, List.dropLast_concat_getLast]
  obtain ⟨t, nothing, trimmed⟩ := trim_append starts ends (plain_of_sizeChar number)
    (plain _ (List.getLast_mem full)).2.2 []
  rw [List.prefix_nil.mp nothing, List.append_nil] at trimmed
  rw [← String.toList_inj, toList_trimSpace, trimmed, String.toList_ofList]

theorem snapshotLine_eq (ending : Text) :
    snapshotLine (r.front ++ r.columns ++ ending) = some r.info := by
  obtain ⟨c, v, u, d, starts, ends, first, last⟩ := r.front_ends
  obtain ⟨t, _, trimmed⟩ := trim_append starts ends first last (r.columns ++ ending)
  rw [snapshotLine, toList_trimSpace, List.append_assoc, trimmed, (r.front_commits t).matchFront_eq]
  refine congrArg some ?_
  have tag : String.ofList r.tag.toList = r.tag := String.ofList_toList
  simp only [snapshotOf, Match.submatch, List.getD_cons_succ, List.getD_cons_zero, info, tag,
    trimSpace_size]

end SnapshotRow

/-- A line without a date is no row. -/
theorem snapshotLine_eq_none {text line : Text} (dateless : find (word dateClasses) text = none)
    (part : trim line <:+: text) : snapshotLine line = none := by
  have unmatched : tries snapshotLineRe (trim line) = [] := by
    refine List.eq_nil_iff_forall_not_mem.mpr fun m matched => ?_
    have last : .group (word dateClasses) ∈ columnRes := by simp [columnRes]
    obtain ⟨t, suffix, n, found⟩ := exists_suffix_of_inTurn last matched
    obtain ⟨date, inside, rfl⟩ := List.mem_map.mp found
    have here : date.text <:+: text :=
      (List.IsPrefix.isInfix ⟨date.rest, text_append_rest inside⟩).trans (suffix.isInfix.trans part)
    exact Bool.false_ne_true ((fits_eq_false dateless here).symm.trans (fits_of_word inside))
  rw [snapshotLine, toList_trimSpace, matchFront, unmatched]
  rfl

/-! ## The list as a whole -/

theorem snapshotLine_printed (l : OutputLine × Bool) : snapshotLine (printed l) = l.1.info? := by
  obtain ⟨l, crlf⟩ := l
  cases l with
  | heading text dateless line =>
      refine snapshotLine_eq_none dateless ?_
      cases crlf with
      | false =>
          change trim (text ++ []) <:+: text
          rw [List.append_nil]
          exact trim_inside text
      | true => exact (trim_return text).symm ▸ trim_inside text
  | row r => exact r.snapshotLine_eq _

theorem SnapshotRow.front_line (r : SnapshotRow) : '\n' ∉ r.front := by
  have blanks : ∀ gap : Gap, '\n' ∉ gap.text := fun gap member =>
    (gap.blank _ member).elim (by decide) (by decide)
  have id : '\n' ∉ r.id := fun member => absurd (r.id_plain _ member) (by decide)
  have tag : '\n' ∉ r.tag.toList := fun member => absurd (r.tag_plain.2 _ member) (by decide)
  have number : '\n' ∉ r.number := fun member => absurd (r.number_decimal _ member) (by decide)
  have inner : '\n' ∉ r.inner := fun member =>
    (r.inner_blank _ member).elim (by decide) (by decide)
  have unit : '\n' ∉ r.unit := fun member =>
    absurd ((units_plain r.unit_known).2 _ member).1 (by decide)
  have date : '\n' ∉ r.date := notMem_of_fits r.date_fits (by decide)
  simp only [SnapshotRow.front, SnapshotRow.size, List.mem_append, not_or]
  exact ⟨id, blanks _, tag, blanks _, ⟨number, inner, unit⟩, blanks _, date⟩

theorem printed_line (l : OutputLine × Bool) : '\n' ∉ printed l := by
  obtain ⟨l, crlf⟩ := l
  have text : '\n' ∉ l.text := by
    cases l with
    | heading text dateless line => exact line
    | row r => exact List.not_mem_append r.front_line r.columns_line
  have ending : '\n' ∉ if crlf then ['\r'] else [] := by cases crlf <;> decide
  exact List.not_mem_append text ending

theorem snapshotsIn_output (lines : List (OutputLine × Bool)) :
    snapshotsIn (output lines) = lines.filterMap (·.1.info?) := by
  have whole : ∀ l ∈ lines.map printed, '\n' ∉ l := fun l member => by
    obtain ⟨line, _, rfl⟩ := List.mem_map.mp member
    exact printed_line line
  have split := splitOn_unlines whole List.not_mem_nil
  rw [List.append_nil] at split
  have dateless : find (word dateClasses) [] = none := rfl
  have last : snapshotLine [] = none := snapshotLine_eq_none dateless (trim_inside [])
  rw [snapshotsIn, output, String.toList_ofList, split, List.filterMap_append, List.filterMap_map,
    List.filterMap_cons_none last, List.filterMap_nil, List.append_nil]
  simp only [Function.comp_def, snapshotLine_printed]

theorem Manager.onSnapshot_sendsTag (m : Manager) {verb tag : String} (word : ' ' ∉ verb.toList)
    (valid : validateSnapshotName tag = none) : m.SendsTag verb tag (m.onSnapshot verb tag) := by
  obtain ⟨full, chars⟩ := name_valid valid
  have plain : ∀ c ∈ tag.toList, isSpace c = false := fun c member =>
    plain_of_snapshotChar (chars c member)
  have word' : ' ' ∉ tag.toList := fun member => absurd (plain _ member) (by decide)
  refine ⟨⟨verb ++ " " ++ tag, ?_, ?_⟩, full, plain⟩
  · rw [onSnapshot, valid]
  · have line : (verb ++ " " ++ tag).toList = verb.toList ++ ' ' :: tag.toList := by simp
    rw [line, List.splitOn_append_cons_self_of_not_mem word, List.splitOn_eq_singleton word']

/-- The list holds exactly the rows, and each tag in it is sent on as it is. -/
theorem snapshot_list_faithful (m : Manager) (lines : List (OutputLine × Bool)) :
    m.snapshots (fun _ => .ok (output lines)) =
        m.listSnapshots.map (fun _ => lines.filterMap (·.1.info?)) ∧
      ∀ i ∈ lines.filterMap (·.1.info?), m.SendsTag "loadvm" i.tag (m.loadSnapshot i.tag) ∧
        m.SendsTag "delvm" i.tag (m.deleteSnapshot i.tag) := by
  constructor
  · rw [Manager.snapshots]
    cases m.listSnapshots with
    | error text => rfl
    | ok q => exact congrArg Except.ok (snapshotsIn_output lines)
  · intro i member
    obtain ⟨⟨l, crlf⟩, _, entry⟩ := List.mem_filterMap.mp member
    cases l with
    | heading text dateless line => cases entry
    | row r =>
        obtain rfl := Option.some.inj entry
        exact ⟨m.onSnapshot_sendsTag (by simp) r.tag_valid,
          m.onSnapshot_sendsTag (by simp) r.tag_valid⟩

-- the row that the comment on the expression shows, with the line end of CRLF
example :
    snapshotLine "1         test1      10.7 MiB 2026-09-22 15:57:01  00:00:12.345  0\r".toList =
      some ⟨"1", "test1", "10.7 MiB", "2026-09-22 15:57:01"⟩ := by decide +kernel

end VmServer.Vm
