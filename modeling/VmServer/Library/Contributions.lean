import Mathlib.Data.List.Basic

/-!
# Changing one element of a list that is read as a whole

A property of all elements together is often the concatenation of what each
of them contributes. Replacing one element then replaces one contribution.
-/

namespace Contributions

variable {α β : Type*} {l : List α} {i : Nat} {a : α}

theorem split_at (h : l[i]? = some a) : l = l.take i ++ a :: l.drop (i + 1) := by
  obtain ⟨inside, rfl⟩ := List.getElem?_eq_some_iff.mp h
  rw [← List.drop_eq_getElem_cons inside, List.take_append_drop]

/-- What one element contributes, apart from the others. -/
theorem flatMap_set (h : l[i]? = some a) (f : α → List β) : ∃ before after,
    l.flatMap f = before ++ f a ++ after ∧
      ∀ b, (l.set i b).flatMap f = before ++ f b ++ after := by
  have inside := (List.getElem?_eq_some_iff.mp h).1
  refine ⟨(l.take i).flatMap f, (l.drop (i + 1)).flatMap f, ?_, fun b => ?_⟩
  · calc l.flatMap f = (l.take i ++ a :: l.drop (i + 1)).flatMap f :=
          congrArg (List.flatMap f) (split_at h)
      _ = (l.take i).flatMap f ++ f a ++ (l.drop (i + 1)).flatMap f := by
          rw [List.flatMap_append, List.flatMap_cons, List.append_assoc]
  · rw [List.set_eq_take_append_cons_drop, if_pos inside]
    simp

/-- A change that keeps the contribution of an element is not seen. -/
theorem flatMap_modify {f : α → List β} {g : α → α} (h : ∀ a, f (g a) = f a) (i : Nat) :
    (l.modify i g).flatMap f = l.flatMap f := by
  induction l generalizing i with
  | nil => simp
  | cons a l ih =>
      cases i with
      | zero => simp [h]
      | succ i => simp [ih]

theorem map_modify {f : α → β} {g : α → α} (h : ∀ a, f (g a) = f a) (i : Nat) :
    (l.modify i g).map f = l.map f := by
  have same : ∀ a, [f (g a)] = [f a] := fun a => congrArg (fun b => [b]) (h a)
  rw [List.map_eq_flatMap, List.map_eq_flatMap, flatMap_modify same]

/-- How many elements pass a test, when one of them is replaced. -/
theorem countP_set (h : l[i]? = some a) (p : α → Bool) (b : α) :
    (l.set i b).countP p + (p a).toNat = l.countP p + (p b).toNat := by
  have split_set : ∀ c, (l.set i c).countP p =
      (l.take i).countP p + ((l.drop (i + 1)).countP p + (p c).toNat) := by
    intro c
    have inside := (List.getElem?_eq_some_iff.mp h).1
    rw [List.set_eq_take_append_cons_drop, if_pos inside, List.countP_append, List.countP_cons]
    cases p c <;> rfl
  have unchanged : l.countP p = (l.set i a).countP p := by
    obtain ⟨inside, rfl⟩ := List.getElem?_eq_some_iff.mp h
    rw [List.set_getElem_self]
  rw [unchanged, split_set, split_set]
  omega

theorem countP_modify {p : α → Bool} {g : α → α} (h : ∀ a, p (g a) = p a) (i : Nat) :
    (l.modify i g).countP p = l.countP p := by
  have counted : ∀ l : List α, l.countP p = (l.map p).countP id := fun l => by
    rw [List.countP_map, Function.id_comp]
  rw [counted, map_modify h, ← counted]

theorem getElem?_set (h : l[i]? = some a) (b : α) (j : Nat) :
    (l.set i b)[j]? = if i = j then some b else l[j]? := by
  have inside := (List.getElem?_eq_some_iff.mp h).1
  by_cases same : i = j
  · subst same
    rw [List.getElem?_set_self inside, if_pos rfl]
  · rw [List.getElem?_set_ne same, if_neg same]

theorem getElem?_concat (b : α) (j : Nat) :
    (l ++ [b])[j]? = if l.length = j then some b else l[j]? := by
  rcases Nat.lt_trichotomy j l.length with less | same | more
  · rw [List.getElem?_append_left less, if_neg (by omega)]
  · subst same
    simp
  · rw [if_neg (by omega), List.getElem?_eq_none (by simp; omega),
      List.getElem?_eq_none (by omega)]

/-- An element of a list with one element replaced is the new one or was there before. -/
theorem of_getElem?_set (h : l[i]? = some a) {b c : α} {j : Nat} (hc : (l.set i b)[j]? = some c) :
    (i = j ∧ c = b) ∨ (i ≠ j ∧ l[j]? = some c) := by
  rw [getElem?_set h] at hc
  by_cases same : i = j
  · rw [if_pos same] at hc
    exact .inl ⟨same, (Option.some.inj hc).symm⟩
  · rw [if_neg same] at hc
    exact .inr ⟨same, hc⟩

theorem of_getElem?_concat {b c : α} {j : Nat} (hc : (l ++ [b])[j]? = some c) :
    (l.length = j ∧ c = b) ∨ l[j]? = some c := by
  rw [getElem?_concat] at hc
  by_cases same : l.length = j
  · rw [if_pos same] at hc
    exact .inl ⟨same, (Option.some.inj hc).symm⟩
  · rw [if_neg same] at hc
    exact .inr hc

end Contributions
