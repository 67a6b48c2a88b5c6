import Mathlib.Data.List.DropRight

/-!
# Lines of a stream

A stream is in exactly one way a list of terminated lines with an unfinished
one behind them. Reading on from the unfinished line gives the lines of the
longer stream, wherever the cut is.
-/

namespace Lines

variable {α : Type*} (sep : α)

/-- Each line with a separator behind it. -/
def unlines (lines : List (List α)) : List α := lines.flatMap (· ++ [sep])

variable {sep} {lines : List (List α)} {s t r : List α}

theorem unlines_cons (l : List α) : unlines sep (l :: lines) = l ++ sep :: unlines sep lines := by
  rw [unlines, List.flatMap_cons, List.append_assoc, List.singleton_append]
  rfl

theorem unlines_append (more : List (List α)) :
    unlines sep (lines ++ more) = unlines sep lines ++ unlines sep more :=
  List.flatMap_append

variable [DecidableEq α]

/-- The lines that a separator ends. -/
def complete (sep : α) (s : List α) : List (List α) := (s.splitOn sep).dropLast

/-- What follows the last separator. -/
def pending (sep : α) (s : List α) : List α := (s.splitOn sep).getLastD []

theorem splitOn_unlines (whole : ∀ l ∈ lines, sep ∉ l) (rest : sep ∉ r) :
    (unlines sep lines ++ r).splitOn sep = lines ++ [r] := by
  induction lines with
  | nil => exact List.splitOn_eq_singleton rest
  | cons l lines ih =>
      obtain ⟨first, whole⟩ := List.forall_mem_cons.mp whole
      rw [unlines_cons, List.append_assoc, List.cons_append,
        List.splitOn_append_cons_self_of_not_mem first, ih whole, List.cons_append]

theorem complete_unlines (whole : ∀ l ∈ lines, sep ∉ l) (rest : sep ∉ r) :
    complete sep (unlines sep lines ++ r) = lines := by
  rw [complete, splitOn_unlines whole rest, List.dropLast_concat]

theorem pending_unlines (whole : ∀ l ∈ lines, sep ∉ l) (rest : sep ∉ r) :
    pending sep (unlines sep lines ++ r) = r := by
  rw [pending, splitOn_unlines whole rest, List.getLastD_concat]

/-- Every stream is made of lines. -/
theorem exists_lines (sep : α) (s : List α) : ∃ lines r, (∀ l ∈ lines, sep ∉ l) ∧ sep ∉ r ∧
    s = unlines sep lines ++ r := by
  induction s with
  | nil => exact ⟨[], [], by simp, List.not_mem_nil, rfl⟩
  | cons a s ih =>
      obtain ⟨lines, r, whole, rest, rfl⟩ := ih
      by_cases ends : a = sep
      · subst ends
        exact ⟨[] :: lines, r, List.forall_mem_cons.mpr ⟨List.not_mem_nil, whole⟩, rest, rfl⟩
      · cases lines with
        | nil => exact ⟨[], a :: r, by simp, by simp [rest, Ne.symm ends], rfl⟩
        | cons l lines =>
            obtain ⟨first, whole⟩ := List.forall_mem_cons.mp whole
            refine ⟨(a :: l) :: lines, r, List.forall_mem_cons.mpr ⟨?_, whole⟩, rest, rfl⟩
            simp [first, Ne.symm ends]

/-- A longer stream goes on from the unfinished line. -/
theorem append_eq (sep : α) (s t : List α) :
    complete sep (s ++ t) = complete sep s ++ complete sep (pending sep s ++ t) ∧
      pending sep (s ++ t) = pending sep (pending sep s ++ t) := by
  obtain ⟨lines, r, whole, rest, rfl⟩ := exists_lines sep s
  obtain ⟨more, r', whole', rest', joined⟩ := exists_lines sep (r ++ t)
  have all : ∀ l ∈ lines ++ more, sep ∉ l := fun l member =>
    (List.mem_append.mp member).elim (whole l) (whole' l)
  rw [complete_unlines whole rest, pending_unlines whole rest, List.append_assoc, joined,
    ← List.append_assoc, ← unlines_append, complete_unlines all rest', pending_unlines all rest',
    complete_unlines whole' rest', pending_unlines whole' rest']
  exact ⟨rfl, rfl⟩

/-! ## The last few elements -/

/-- What has been dropped before is not among the last ones later. -/
theorem rtake_append {β : Type*} (k : Nat) (l m : List β) :
    (l.rtake k ++ m).rtake k = (l ++ m).rtake k := by
  simp only [List.rtake, List.length_append, List.length_drop, List.drop_append, List.drop_drop]
  congr 2 <;> omega

end Lines
