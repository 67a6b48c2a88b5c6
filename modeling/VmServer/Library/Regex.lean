import Mathlib.Data.List.Infix
import Mathlib.Data.List.TakeWhile

/-!
# Regular expressions with preferences

A match is the one a backtracking matcher finds first: repetitions and
options take as much as they can, and give back when the rest fails. The
matches at a place are listed in this order.

Where what follows a repetition cannot begin with what is repeated, giving
back never helps. `Commits` says that a pattern takes one text only, given
what stands behind it, and is put together from the parts of a pattern.

## Implementation notes

Repetitions are over classes of characters, which is all that is needed here.
The submatches are numbered in the order of the groups as long as no group is
inside an option.
-/

namespace Regex

abbrev Text := List Char
abbrev CharClass := Char → Bool

/-- A class given by its characters. -/
def oneOf (cs : List Char) : CharClass := fun c => c ∈ cs

inductive Pattern
  | empty
  | char (p : CharClass)
  /-- At least so many characters of the class. -/
  | many (p : CharClass) (least : Nat)
  | opt (r : Pattern)
  | seq (r s : Pattern)
  /-- What it matches is a submatch. -/
  | group (r : Pattern)

structure Match where
  text : Text
  groups : List Text
  rest : Text
  deriving DecidableEq, Repr

/-- The submatch of this number; the whole match is number 0. -/
def Match.submatch (m : Match) (k : Nat) : Text := (m.text :: m.groups).getD k []

/-- A match behind another one. -/
def Match.append (m n : Match) : Match := ⟨m.text ++ n.text, m.groups ++ n.groups, n.rest⟩

/-- The match as a submatch. -/
def Match.grouped (m : Match) : Match := { m with groups := m.text :: m.groups }

/-- The matches at the front of a text, the preferred ones first. -/
def tries : Pattern → Text → List Match
  | .empty, s => [⟨[], [], s⟩]
  | .char p, s =>
      match s with
      | [] => []
      | c :: rest => if p c then [⟨[c], [], rest⟩] else []
  | .many p least, s =>
      let longest := (s.takeWhile p).length
      (List.range (longest + 1 - least)).map fun given =>
        ⟨s.take (longest - given), [], s.drop (longest - given)⟩
  | .opt r, s => tries r s ++ [⟨[], [], s⟩]
  | .seq a b, s => (tries a s).flatMap fun m => (tries b m.rest).map m.append
  | .group r, s => (tries r s).map Match.grouped

/-- The match at the front. -/
def matchFront (r : Pattern) (s : Text) : Option Match := (tries r s).head?

/-- The leftmost match. -/
def find (r : Pattern) (s : Text) : Option Match := s.tails.findSome? (matchFront r)

def inTurn (rs : List Pattern) : Pattern := rs.foldr .seq .empty

/-- One character of each class in turn. -/
def word (ps : List CharClass) : Pattern := inTurn (ps.map .char)

def literal (text : Text) : Pattern := word (text.map fun c => oneOf [c])

/-- The text has one character of each class in turn. -/
def fits : List CharClass → Text → Bool
  | [], [] => true
  | p :: ps, c :: cs => p c && fits ps cs
  | _, _ => false

variable {r a b : Pattern} {p q : CharClass} {s w : Text} {m n : Match} {k : Nat}

theorem tries_char {c : Char} : tries (.char p) (c :: s) = if p c then [⟨[c], [], s⟩] else [] := rfl

theorem tries_many : tries (.many p k) s = (List.range ((s.takeWhile p).length + 1 - k)).map
    fun given => ⟨s.take ((s.takeWhile p).length - given), [],
      s.drop ((s.takeWhile p).length - given)⟩ := rfl

theorem tries_opt : tries (.opt r) s = tries r s ++ [⟨[], [], s⟩] := rfl

theorem tries_seq : tries (.seq a b) s =
    (tries a s).flatMap fun m => (tries b m.rest).map m.append := rfl

theorem tries_group : tries (.group r) s = (tries r s).map Match.grouped := rfl

/-! ## What a match is -/

theorem mem_tries_char (h : m ∈ tries (.char p) s) :
    ∃ c, p c = true ∧ s = c :: m.rest ∧ m.text = [c] := by
  cases s with
  | nil => cases h
  | cons c rest =>
      rw [tries_char] at h
      split at h
      · rename_i holds
        obtain rfl := List.mem_singleton.mp h
        exact ⟨c, holds, rfl, rfl⟩
      · cases h

theorem mem_tries_seq : m ∈ tries (.seq a b) s ↔
    ∃ m₁ ∈ tries a s, ∃ m₂ ∈ tries b m₁.rest, m = m₁.append m₂ := by
  simp only [tries_seq, List.mem_flatMap, List.mem_map, eq_comm]

/-- A match is the front of the text. -/
theorem text_append_rest (h : m ∈ tries r s) : m.text ++ m.rest = s := by
  induction r generalizing s m with
  | empty =>
      obtain rfl := List.mem_singleton.mp h
      rfl
  | char p =>
      obtain ⟨c, _, rfl, text⟩ := mem_tries_char h
      rw [text, List.singleton_append]
  | many p least =>
      obtain ⟨given, _, rfl⟩ := List.mem_map.mp h
      exact List.take_append_drop _ s
  | opt r ih =>
      rcases List.mem_append.mp h with taken | skipped
      · exact ih taken
      · obtain rfl := List.mem_singleton.mp skipped
        rfl
  | seq a b iha ihb =>
      obtain ⟨m₁, first, m₂, second, rfl⟩ := mem_tries_seq.mp h
      rw [Match.append, List.append_assoc, ihb second, iha first]
  | group r ih =>
      obtain ⟨n, inside, rfl⟩ := List.mem_map.mp h
      change n.text ++ n.rest = s
      exact ih inside

/-- Each part of a sequence matches somewhere in the text. -/
theorem exists_suffix_of_inTurn {rs : List Pattern} (member : r ∈ rs)
    (h : m ∈ tries (inTurn rs) s) : ∃ t, t <:+ s ∧ ∃ n, n ∈ tries r t := by
  induction rs generalizing s m with
  | nil => cases member
  | cons a rs ih =>
      obtain ⟨m₁, first, m₂, second, rfl⟩ := mem_tries_seq.mp h
      rcases List.mem_cons.mp member with rfl | later
      · exact ⟨s, List.suffix_refl s, m₁, first⟩
      · obtain ⟨t, suffix, found⟩ := ih later second
        exact ⟨t, suffix.trans ⟨m₁.text, text_append_rest first⟩, found⟩

theorem fits_of_word {ps : List CharClass} (h : m ∈ tries (word ps) s) : fits ps m.text = true := by
  induction ps generalizing s m with
  | nil =>
      obtain rfl := List.mem_singleton.mp h
      rfl
  | cons p ps ih =>
      obtain ⟨m₁, first, m₂, second, rfl⟩ := mem_tries_seq.mp h
      obtain ⟨c, holds, _, text⟩ := mem_tries_char first
      rw [Match.append, text]
      exact (Bool.and_eq_true _ _).mpr ⟨holds, ih second⟩

theorem notMem_of_fits {ps : List CharClass} {c : Char} (h : fits ps w = true)
    (others : ∀ p ∈ ps, p c = false) : c ∉ w := by
  induction ps generalizing w with
  | nil =>
      cases w with
      | nil => exact List.not_mem_nil
      | cons d w => cases h
  | cons p ps ih =>
      cases w with
      | nil => cases h
      | cons d w =>
          obtain ⟨first, rest⟩ := List.forall_mem_cons.mp others
          obtain ⟨holds, fit⟩ := (Bool.and_eq_true _ _).mp h
          refine List.not_mem_cons_of_ne_of_not_mem (fun same => ?_) (ih fit rest)
          rw [← same, first] at holds
          cases holds

theorem exists_first_of_fits {ps : List CharClass} (h : fits (p :: ps) w = true) :
    ∃ c v, w = c :: v ∧ p c = true := by
  cases w with
  | nil => cases h
  | cons c w => exact ⟨c, w, rfl, ((Bool.and_eq_true _ _).mp h).1⟩

/-- The last character of a text is in the last class. -/
theorem exists_last_of_fits {ps : List CharClass} (h : fits (ps ++ [p]) w = true) :
    ∃ v c, w = v ++ [c] ∧ p c = true := by
  induction ps generalizing w with
  | nil =>
      rcases w with _ | ⟨c, _ | ⟨d, w⟩⟩
      · cases h
      · exact ⟨[], c, rfl, ((Bool.and_eq_true _ _).mp h).1⟩
      · cases ((Bool.and_eq_true _ _).mp h).2
  | cons q ps ih =>
      cases w with
      | nil => cases h
      | cons c w =>
          obtain ⟨v, d, rfl, holds⟩ := ih ((Bool.and_eq_true _ _).mp h).2
          exact ⟨c :: v, d, rfl, holds⟩

theorem infix_of_find (h : find r s = some m) : m.text <:+: s := by
  obtain ⟨before, t, after, tails, found, _⟩ := List.findSome?_eq_some_iff.mp h
  have member : t ∈ s.tails := tails ▸ by simp
  have front := text_append_rest (List.mem_of_head? found)
  exact (List.IsPrefix.isInfix ⟨m.rest, front⟩).trans ((List.mem_tails t s).mp member).isInfix

/-! ## Patterns that take one text only -/

/-- No match begins with a character of the class. -/
def Refuses (r : Pattern) (p : CharClass) : Prop := ∀ c s, p c = true → tries r (c :: s) = []

/-- As `b` has to match next, the pattern takes the front `w` of `w ++ s`. A
use of the match is kept from it where `b` does not match. -/
def Commits (r : Pattern) (w : Text) (groups : List Text) (b : Pattern) (s : Text) : Prop :=
  ∀ f : Match → List Match, (∀ m, tries b m.rest = [] → f m = []) →
    (tries r (w ++ s)).flatMap f = f ⟨w, groups, s⟩

/-- No character is in both classes. -/
def Apart (p q : CharClass) : Prop := ∀ c, p c = true → q c = false

theorem Apart.oneOf {cs : List Char} (h : cs.any q = false) : Apart (oneOf cs) q :=
  fun c member => Bool.eq_false_iff.mpr (List.any_eq_false.mp h c (of_decide_eq_true member))

namespace Refuses

theorem char (apart : Apart p q) : Refuses (.char q) p := fun c s holds => by
  rw [tries_char, if_neg (by simp [apart c holds])]

theorem many (apart : Apart p q) : Refuses (.many q (k + 1)) p := fun c s holds => by
  simp [tries_many, apart c holds]

theorem seq (first : Refuses a p) : Refuses (.seq a b) p := fun c s holds => by
  rw [tries_seq, first c s holds, List.flatMap_nil]

theorem group (inside : Refuses r p) : Refuses (.group r) p := fun c s holds => by
  rw [tries_group, inside c s holds, List.map_nil]

theorem opt (here : Refuses r p) (behind : Refuses b p) : Refuses (.seq (.opt r) b) p :=
  fun c s holds => by
    simp only [tries_seq, tries_opt, here c s holds, behind c s holds, List.nil_append,
      List.flatMap_cons, List.flatMap_nil, List.map_nil]

theorem manyZero (apart : Apart p q) (behind : Refuses b p) : Refuses (.seq (.many q 0) b) p :=
  fun c s holds => by
    have none : ((c :: s).takeWhile q).length = 0 := by simp [apart c holds]
    rw [tries_seq, tries_many, none]
    simp [behind c s holds]

end Refuses

namespace Commits

variable {g₁ g₂ gs : List Text} {w₁ w₂ : Text}

theorem empty : Commits .empty [] [] b s := fun f _ => by
  exact List.flatMap_singleton ..

theorem char {c : Char} (holds : p c = true) : Commits (.char p) [c] [] b s := fun f _ => by
  rw [List.singleton_append, tries_char, if_pos holds, List.flatMap_singleton]

theorem group (inside : Commits r w gs b s) : Commits (.group r) w (w :: gs) b s := fun f hf => by
  rw [tries_group, List.flatMap_map]
  exact inside (fun m => f m.grouped) fun m none => hf m.grouped none

theorem seq (first : Commits a w₁ g₁ b (w₂ ++ s)) (second : Commits b w₂ g₂ r s) :
    Commits (.seq a b) (w₁ ++ w₂) (g₁ ++ g₂) r s := fun f hf => by
  rw [tries_seq, List.append_assoc, List.flatMap_assoc, first]
  · rw [List.flatMap_map]
    exact second (fun m => f (Match.append ⟨w₁, g₁, w₂ ++ s⟩ m)) fun m none => hf _ none
  · intro m none
    rw [none, List.map_nil, List.flatMap_nil]

/-- An option is taken when its text cannot be left to what follows. -/
theorem taken (here : Commits r w gs b s) (kept : tries b (w ++ s) = []) :
    Commits (.opt r) w gs b s := fun f hf => by
  have nothing : f ⟨[], [], w ++ s⟩ = [] := hf _ kept
  rw [tries_opt, List.flatMap_append, here f hf, List.flatMap_singleton, nothing, List.append_nil]

theorem skipped (none : tries r s = []) : Commits (.opt r) [] [] b s := fun f _ => by
  rw [List.nil_append, tries_opt, none, List.nil_append, List.flatMap_singleton]

/-- A repetition takes the longest front when nothing of it can be given back. -/
theorem many (least : k ≤ w.length) (inside : ∀ c ∈ w, p c = true)
    (ends : ∀ c ∈ s.head?, p c = false) (refused : Refuses b p) :
    Commits (.many p k) w [] b s := fun f hf => by
  have longest : (w ++ s).takeWhile p = w := by
    rw [List.takeWhile_append_of_pos inside]
    cases s with
    | nil => rw [List.takeWhile_nil, List.append_nil]
    | cons c s => rw [List.takeWhile_cons_of_neg (by simp [ends c rfl]), List.append_nil]
  obtain ⟨more, count⟩ := Nat.exists_eq_add_of_le least
  have range : w.length + 1 - k = more + 1 := by omega
  rw [tries_many, longest, range, List.range_succ_eq_map, List.map_cons, List.flatMap_cons]
  have rest : ∀ given ∈ (List.range more).map Nat.succ,
      f ⟨(w ++ s).take (w.length - given), [], (w ++ s).drop (w.length - given)⟩ = [] := by
    intro given member
    obtain ⟨before, small, rfl⟩ := List.mem_map.mp member
    have shorter : w.length - (before + 1) < w.length := by
      have := List.mem_range.mp small
      omega
    refine hf _ ?_
    rw [List.drop_append_of_le_length shorter.le, List.drop_eq_getElem_cons shorter,
      List.cons_append]
    exact refused _ _ (inside _ (List.getElem_mem shorter))
  rw [List.flatMap_map, List.flatMap_eq_nil_iff.mpr rest, Nat.sub_zero, List.take_left,
    List.drop_left, List.append_nil]

theorem word {ps : List CharClass} (fit : fits ps w = true) : Commits (word ps) w [] b s := by
  induction ps generalizing w with
  | nil =>
      cases w with
      | nil => exact empty
      | cons c w => cases fit
  | cons p ps ih =>
      cases w with
      | nil => cases fit
      | cons c w =>
          obtain ⟨holds, fit⟩ := (Bool.and_eq_true _ _).mp fit
          exact (seq (char holds) (ih fit) : Commits _ ([c] ++ w) ([] ++ []) b s)

/-- With nothing to follow, the match is the only one. -/
theorem tries_eq (h : Commits r w gs .empty s) : tries r (w ++ s) = [⟨w, gs, s⟩] := by
  have all := h (fun m => [m]) fun m none => absurd none (List.cons_ne_nil _ _)
  rwa [List.flatMap_singleton'] at all

/-- The last part of a sequence. -/
theorem last (h : Commits r w gs b s) : Commits (inTurn [r]) w gs b s := fun f hf => by
  have alone : tries (inTurn [r]) (w ++ s) = tries r (w ++ s) := by
    have same : ∀ m : Match, m.append ⟨[], [], m.rest⟩ = m := fun m => by
      rw [Match.append, List.append_nil, List.append_nil]
    have nothing : ∀ t, tries .empty t = [⟨[], [], t⟩] := fun t => rfl
    simp only [inTurn, List.foldr, tries_seq, nothing, List.map_cons, List.map_nil, same,
      List.flatMap_singleton']
  rw [alone]
  exact h f hf

theorem matchFront_eq (h : Commits r w gs .empty s) : matchFront r (w ++ s) = some ⟨w, gs, s⟩ := by
  rw [matchFront, h.tries_eq]
  rfl

end Commits

/-- Where a word is not found, no part of the text has its characters. -/
theorem fits_eq_false {ps : List CharClass} (h : find (word ps) s = none) (part : w <:+: s) :
    fits ps w = false := by
  obtain ⟨before, after, rfl⟩ := part
  rw [List.append_assoc] at h
  refine Bool.eq_false_iff.mpr fun fit => ?_
  have place : w ++ after ∈ (before ++ (w ++ after)).tails :=
    (List.mem_tails _ _).mpr (List.suffix_append before _)
  have missed := List.findSome?_eq_none_iff.mp h _ place
  rw [(Commits.word fit).matchFront_eq] at missed
  cases missed

/-- A repetition ends before a text that begins with another character. -/
theorem ends_cons {c : Char} {v : Text} (starts : w = c :: v) (other : p c = false) :
    ∀ d ∈ (w ++ s).head?, p d = false := by
  subst starts
  exact fun d member => Option.some.inj member ▸ other

theorem ends_append (full : w ≠ []) (others : ∀ c ∈ w, p c = false) :
    ∀ c ∈ (w ++ s).head?, p c = false := by
  obtain ⟨c, v, starts⟩ := List.exists_cons_of_ne_nil full
  exact ends_cons starts (others c (starts ▸ List.mem_cons_self))

end Regex
