import Mathlib.Data.List.TakeDrop

/-!
# Slices over a backing array

A slice shows the first cells of an array. Appending writes behind the shown
part while the array has room, and filtering may reuse the array it reads.
Neither is visible in the list of the shown cells.
-/

/-- The cells of the backing array and how many of them the slice shows. -/
structure Slice (α : Type*) where
  cells : List α
  length : Nat
  fits : length ≤ cells.length

namespace Slice

variable {α : Type*}

/-- The shown cells. -/
def toList (s : Slice α) : List α := s.cells.take s.length

@[simp] theorem length_toList (s : Slice α) : s.toList.length = s.length := by
  simp [toList, s.fits]

/-- A slice without an array. -/
def empty : Slice α := ⟨[], 0, Nat.le_refl 0⟩

/-- Appends one element. A full array is copied to a new one with `spare` more cells. -/
def append [Inhabited α] (s : Slice α) (spare : Nat) (a : α) : Slice α :=
  if room : s.length < s.cells.length then
    ⟨s.cells.set s.length a, s.length + 1, by rw [List.length_set]; exact room⟩
  else
    ⟨s.toList ++ a :: List.replicate spare default, s.length + 1, by simp⟩

theorem toList_append [Inhabited α] (s : Slice α) (spare : Nat) (a : α) :
    (s.append spare a).toList = s.toList ++ [a] := by
  unfold append
  split
  · rename_i room
    simp only [toList]
    rw [List.take_add_one, List.take_set_of_le (Nat.le_refl s.length),
      List.getElem?_set_self room]
    rfl
  · simp only [toList]
    rw [List.take_append, List.take_take, List.length_take]
    have all : min s.length s.cells.length = s.length := Nat.min_eq_left s.fits
    simp [all]

/-- The loop of an in-place filter: `n` more elements are read from position `i` on, and those
that pass are written back from position `j` on. -/
def keepLoop (p : α → Bool) : Nat → Nat → Nat → List α → List α × Nat
  | 0, _, j, cells => (cells, j)
  | n + 1, i, j, cells =>
      match cells[i]? with
      | none => (cells, j)
      | some a =>
          if p a then keepLoop p n (i + 1) (j + 1) (cells.set j a)
          else keepLoop p n (i + 1) j cells

/-- The array the loop started with is unchanged from the reading position on, and in front
of the writing position it holds what passed so far. -/
theorem keepLoop_spec {p : α → Bool} {all : List α} {n i j : Nat} {cells : List α}
    (inside : i + n ≤ all.length) (behind : j ≤ i) (same : cells.length = all.length)
    (unread : cells.drop i = all.drop i) (kept : cells.take j = (all.take i).filter p) :
    (keepLoop p n i j cells).1.length = all.length ∧
      (keepLoop p n i j cells).2 ≤ i + n ∧
      (keepLoop p n i j cells).1.take (keepLoop p n i j cells).2 =
        (all.take (i + n)).filter p := by
  induction n generalizing i j cells with
  | zero => exact ⟨same, behind, kept⟩
  | succ n ih =>
      have here : i < all.length := by omega
      have read : cells[i]? = some all[i] := by
        have first : (cells.drop i)[0]? = (all.drop i)[0]? := by rw [unread]
        simpa [List.getElem?_eq_getElem here] using first
      have next : (all.take (i + 1)).filter p =
          (all.take i).filter p ++ if p all[i] then [all[i]] else [] := by
        rw [List.take_add_one, List.getElem?_eq_getElem here, List.filter_append]
        simp [List.filter_cons]
      have ends : i + (n + 1) = i + 1 + n := by omega
      simp only [keepLoop, read, ends]
      split
      · rename_i passes
        rw [if_pos passes] at next
        apply ih
        · omega
        · omega
        · simpa using same
        · have later := congrArg (List.drop 1) unread
          simp only [List.drop_drop] at later
          rw [List.drop_set_of_lt (by omega)]
          exact later
        · rw [List.take_add_one, List.take_set_of_le (Nat.le_refl j),
            List.getElem?_set_self (by omega), kept, next]
          rfl
      · rename_i fails
        rw [if_neg fails, List.append_nil] at next
        apply ih
        · omega
        · omega
        · exact same
        · have later := congrArg (List.drop 1) unread
          simpa only [List.drop_drop] using later
        · rw [kept, next]

/-- What the loop does to the whole slice. -/
theorem keepLoop_toList (p : α → Bool) (s : Slice α) :
    (keepLoop p s.length 0 0 s.cells).1.length = s.cells.length ∧
      (keepLoop p s.length 0 0 s.cells).2 ≤ s.length ∧
      (keepLoop p s.length 0 0 s.cells).1.take (keepLoop p s.length 0 0 s.cells).2 =
        s.toList.filter p := by
  have run := keepLoop_spec (p := p) (n := s.length) (i := 0) (j := 0)
    (by simpa using s.fits) (Nat.le_refl 0) rfl rfl (by simp)
  simpa [toList] using run

/-- Keeps the elements that pass, written to the front of the same array. -/
def keep (s : Slice α) (p : α → Bool) : Slice α where
  cells := (keepLoop p s.length 0 0 s.cells).1
  length := (keepLoop p s.length 0 0 s.cells).2
  fits := by
    obtain ⟨same, inside, _⟩ := keepLoop_toList p s
    exact same ▸ Nat.le_trans inside s.fits

theorem toList_keep (s : Slice α) (p : α → Bool) : (s.keep p).toList = s.toList.filter p :=
  (keepLoop_toList p s).2.2

end Slice
