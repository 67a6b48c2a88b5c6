import Mathlib.Data.List.Basic

/-!
# Options of the form `key=value,key=value`

A value ends at a comma, and two commas stand for one. A text that is put
into a value as it is comes back from the parser exactly when it has no comma.
-/

namespace OptionSyntax

/-- A key with its value, if it has one. -/
abbrev Field := List Char × Option (List Char)

/-- The value at the front of a text, and what follows its comma. -/
def value : List Char → List Char × List Char
  | [] => ([], [])
  | [c] => if c = ',' then ([], []) else ([c], [])
  | c :: d :: rest =>
      if c = ',' then
        if d = ',' then (',' :: (value rest).1, (value rest).2) else ([], d :: rest)
      else (c :: (value (d :: rest)).1, (value (d :: rest)).2)

/-- Reads on, with the key so far and the value so far behind an equals sign. -/
def scan : List Char → Option (List Char) → List Char → List Field
  | key, none, [] => if key = [] then [] else [(key, none)]
  | key, some v, [] => [(key, some v)]
  | key, none, c :: rest =>
      if c = '=' then scan key (some []) rest
      else if c = ',' then (key, none) :: scan [] none rest
      else scan (key ++ [c]) none rest
  | key, some v, [c] => [(key, some (if c = ',' then v else v ++ [c]))]
  | key, some v, c :: d :: rest =>
      if c = ',' then
        if d = ',' then scan key (some (v ++ [','])) rest
        else (key, some v) :: scan [] none (d :: rest)
      else scan key (some (v ++ [c])) (d :: rest)

def parse (s : List Char) : List Field := scan [] none s

example : parse "file=a,,b,media=cdrom".toList =
    [("file".toList, some "a,b".toList), ("media".toList, some "cdrom".toList)] := by decide

theorem value_cons {c : Char} (h : c ≠ ',') (s : List Char) :
    value (c :: s) = (c :: (value s).1, (value s).2) := by
  cases s with
  | nil => simp [value, h]
  | cons d rest => simp [value, h]

theorem value_two_commas (s : List Char) :
    value (',' :: ',' :: s) = (',' :: (value s).1, (value s).2) := by
  simp [value]

theorem value_comma {s : List Char} (h : s.head? ≠ some ',') : value (',' :: s) = ([], s) := by
  cases s with
  | nil => simp [value]
  | cons d rest =>
      have other : d ≠ ',' := fun same => h (by rw [same]; rfl)
      simp [value, other]

/-- The parser takes the value at the front and goes on behind it. -/
theorem scan_some (key v s : List Char) :
    scan key (some v) s = (key, some (v ++ (value s).1)) :: scan [] none (value s).2 := by
  fun_induction value s generalizing v with
  | case1 => simp [scan]
  | case2 => simp [scan]
  | case3 c h => simp [scan, h]
  | case4 rest ih => simp [scan, ih]
  | case5 d rest h => simp [scan, h]
  | case6 c d rest h ih => simp [scan, h, ih]

theorem scan_key {key : List Char} (plain : ∀ c ∈ key, c ≠ '=' ∧ c ≠ ',') (front s : List Char) :
    scan front none (key ++ '=' :: s) = scan (front ++ key) (some []) s := by
  induction key generalizing front with
  | nil => simp [scan]
  | cons c rest ih =>
      obtain ⟨noEquals, noComma⟩ := plain c (by simp)
      rw [List.cons_append, scan, if_neg noEquals, if_neg noComma,
        ih fun d mem => plain d (by simp [mem])]
      simp

theorem parse_field {key : List Char} (plain : ∀ c ∈ key, c ≠ '=' ∧ c ≠ ',') (s : List Char) :
    parse (key ++ '=' :: s) = (key, some (value s).1) :: parse (value s).2 := by
  rw [parse, scan_key plain, scan_some, List.nil_append, List.nil_append, parse]

/-- The options behind a value begin with no comma, and so does no comma end the first of them. -/
structure Continues (t : List Char) : Prop where
  head : t.head? ≠ some ','
  last : ∃ d, d ≠ ',' ∧ (value t).1.getLast? = some d

variable {t : List Char}

theorem value_of_no_comma (h : t.head? ≠ some ',') {p : List Char} (plain : ',' ∉ p) :
    value (p ++ ',' :: t) = (p, t) := by
  induction p with
  | nil => exact value_comma h
  | cons c rest ih =>
      have other : c ≠ ',' := fun same => plain (by simp [same])
      rw [List.cons_append, value_cons other, ih fun mem => plain (by simp [mem])]

theorem getLast?_cons_some {a d : Char} {l : List Char} (h : l.getLast? = some d) :
    (a :: l).getLast? = some d := by
  rw [List.getLast?_cons, h, Option.getD_some]

/-- The value of a text with a comma is shorter, unless it runs on into the options behind. -/
theorem value_shorter (continues : Continues t) (p : List Char) :
    ((value (p ++ ',' :: t)).1.length ≤ p.length ∧
        (',' ∈ p → (value (p ++ ',' :: t)).1.length < p.length)) ∨
      (p.getLast? = some ',' ∧ ∃ d, d ≠ ',' ∧ (value (p ++ ',' :: t)).1.getLast? = some d) := by
  fun_induction value p with
  | case1 =>
      rw [List.nil_append, value_comma continues.head]
      exact Or.inl ⟨Nat.le_refl _, nofun⟩
  | case2 =>
      obtain ⟨d, other, last⟩ := continues.last
      rw [List.singleton_append, value_two_commas]
      exact Or.inr ⟨rfl, d, other, getLast?_cons_some last⟩
  | case3 c h =>
      rw [List.singleton_append, value_cons h, value_comma continues.head]
      exact Or.inl ⟨Nat.le_refl _, fun mem => (h (List.mem_singleton.mp mem).symm).elim⟩
  | case4 rest ih =>
      rw [List.cons_append, List.cons_append, value_two_commas]
      obtain ⟨shorter, _⟩ | ⟨ends, d, other, last⟩ := ih
      · exact Or.inl (by simp only [List.length_cons]; omega)
      · exact Or.inr ⟨getLast?_cons_some (getLast?_cons_some ends), d, other,
          getLast?_cons_some last⟩
  | case5 d rest h =>
      have front : (d :: rest ++ ',' :: t).head? ≠ some ',' := fun same => h (Option.some.inj same)
      rw [List.cons_append, value_comma front]
      exact Or.inl ⟨Nat.zero_le _, fun _ => Nat.succ_pos _⟩
  | case6 c d rest h ih =>
      rw [List.cons_append, value_cons h]
      obtain ⟨shorter, strictly⟩ | ⟨ends, e, other, last⟩ := ih
      · refine Or.inl ⟨Nat.succ_le_succ shorter, fun mem => Nat.succ_lt_succ (strictly ?_)⟩
        exact (List.mem_cons.mp mem).resolve_left (Ne.symm h)
      · exact Or.inr ⟨getLast?_cons_some ends, e, other, getLast?_cons_some last⟩

/-- A text comes back as the value of its key, with the options behind it, exactly when it has no
comma. -/
theorem parse_field_iff {key : List Char} (plain : ∀ c ∈ key, c ≠ '=' ∧ c ≠ ',')
    (continues : Continues t) (p : List Char) :
    parse (key ++ '=' :: (p ++ ',' :: t)) = (key, some p) :: parse t ↔ ',' ∉ p := by
  rw [parse_field plain]
  constructor
  · intro same comma
    have kept : (value (p ++ ',' :: t)).1 = p := by
      have first := (List.cons.inj same).1
      exact Option.some.inj (Prod.mk.inj first).2
    obtain ⟨_, strictly⟩ | ⟨ends, d, other, last⟩ := value_shorter continues p
    · have less := strictly comma
      rw [kept] at less
      exact Nat.lt_irrefl _ less
    · rw [kept, ends] at last
      exact other (Option.some.inj last).symm
  · intro absent
    rw [value_of_no_comma continues.head absent]

end OptionSyntax
