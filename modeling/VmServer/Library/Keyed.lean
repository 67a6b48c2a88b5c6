import Mathlib.Data.List.Basic

/-!
# Lists whose elements are found by a key

A list may hold several elements with one key; a search finds the first of
them. Putting an element in replaces that first one, or adds the element at
the end. The elements that a put leaves alone are the list without the one
it replaces.
-/

namespace Keyed

variable {α κ : Type*} [DecidableEq κ] (key : α → κ)

/-- The first element with a key. -/
def get (k : κ) (l : List α) : Option α := l.find? (key · = k)

/-- Replaces the first element with the same key, or adds the element at the end. -/
def put (a : α) : List α → List α
  | [] => [a]
  | b :: l => if key b = key a then a :: l else b :: put a l

/-- The list without the first element with a key. -/
def others (k : κ) (l : List α) : List α := l.eraseP (key · = k)

variable {key} {a b : α} {k : κ} {l : List α}

@[simp] theorem get_put_self (key : α → κ) (a : α) (l : List α) :
    get key (key a) (put key a l) = some a := by
  induction l with
  | nil => simp [get, put]
  | cons b l ih =>
      by_cases same : key b = key a
      · simp [get, put, same]
      · rw [put, if_neg same, get, List.find?_cons_of_neg (by simpa using same)]
        exact ih

theorem get_put_of_ne (h : k ≠ key a) : get key k (put key a l) = get key k l := by
  induction l with
  | nil => simp [get, put, h.symm]
  | cons b l ih =>
      by_cases same : key b = key a
      · simp [get, put, same, h.symm]
      · rw [put, if_neg same, get, get, List.find?_cons, List.find?_cons]
        exact congrArg (fun rest => bif decide (key b = k) then some b else rest) ih

/-- A put keeps the elements with other keys, in their order. -/
theorem filter_put (key : α → κ) (a : α) (l : List α) :
    (put key a l).filter (key · ≠ key a) = l.filter (key · ≠ key a) := by
  induction l with
  | nil => simp [put]
  | cons b l ih =>
      by_cases same : key b = key a
      · simp [put, same]
      · simp only [put, if_neg same, List.filter_cons, ih]

theorem mem_put : b ∈ put key a l ↔ b = a ∨ b ∈ others key (key a) l := by
  induction l with
  | nil => simp [put, others]
  | cons c l ih =>
      by_cases same : key c = key a
      · simp [put, others, same]
      · have kept : others key (key a) (c :: l) = c :: others key (key a) l :=
          List.eraseP_cons_of_neg (by simpa using same)
        rw [put, if_neg same, kept, List.mem_cons, List.mem_cons, ih]
        exact or_left_comm

/-- Changing the first element with a key into one element is a put of it. -/
theorem modify_findIdx {f : α → α} (found : (get key (key a) l).isSome)
    (change : ∀ b, key b = key a → f b = a) :
    l.modify (l.findIdx (key · = key a)) f = put key a l := by
  induction l with
  | nil => simp [get] at found
  | cons b l ih =>
      by_cases same : key b = key a
      · simp [List.findIdx_cons, put, same, change b same]
      · have found : (get key (key a) l).isSome := by
          rwa [get, List.find?_cons_of_neg (by simpa using same)] at found
        rw [put, if_neg same, ← ih found, List.findIdx_cons]
        simp [same]

theorem concat_of_missing (missing : ¬ (get key (key a) l).isSome) : l ++ [a] = put key a l := by
  induction l with
  | nil => rfl
  | cons b l ih =>
      by_cases same : key b = key a
      · simp [get, same] at missing
      · rw [get, List.find?_cons_of_neg (by simpa using same)] at missing
        rw [put, if_neg same, ← ih missing, List.cons_append]

/-- A change that keeps the keys, of the first element with a key, seen by a search for it. -/
theorem get_modify_self {f : α → α} (keep : ∀ a, key (f a) = key a) :
    get key k (l.modify (l.findIdx (key · = k)) f) = (get key k l).map f := by
  induction l with
  | nil => rfl
  | cons b l ih =>
      by_cases same : key b = k
      · simp [get, List.findIdx_cons, same, keep]
      · rw [List.findIdx_cons, decide_eq_false same, cond_false, List.modify_succ_cons, get, get,
          List.find?_cons_of_neg (by simpa using same),
          List.find?_cons_of_neg (by simpa using same)]
        exact ih

/-- A search for another key does not see the change. -/
theorem get_modify_of_ne {f : α → α} {k' : κ} (keep : ∀ a, key (f a) = key a) (other : k' ≠ k) :
    get key k' (l.modify (l.findIdx (key · = k)) f) = get key k' l := by
  induction l with
  | nil => rfl
  | cons b l ih =>
      by_cases same : key b = k
      · simp [get, List.findIdx_cons, same, keep, other.symm]
      · rw [List.findIdx_cons, decide_eq_false same, cond_false, List.modify_succ_cons, get, get,
          List.find?_cons, List.find?_cons]
        exact congrArg (fun rest => bif decide (key b = k') then some b else rest) ih

end Keyed
