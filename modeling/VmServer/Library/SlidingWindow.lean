import Mathlib.Algebra.Order.Group.Basic
import Mathlib.Data.List.Perm.Subperm

/-!
# Counting events in sliding windows

A list of times is bounded when no window of the given width holds more than
the limit. An event may be added whenever fewer than the limit lie in the
window that ends with it or later: events that are already known but lie
after the new one count as well.
-/

namespace SlidingWindow

variable {T : Type*} [AddCommGroup T] [LinearOrder T]

/-- How many of the times lie in the half-open window of width `w` that ends at `t`. -/
def countIn (w t : T) (l : List T) : Nat := l.countP fun u => t - w < u ∧ u ≤ t

/-- How many of the times lie after the start of the window that ends at `t`. -/
def countSince (w t : T) (l : List T) : Nat := l.countP fun u => t - w < u

/-- No window holds more than `k` of the times. -/
def Bounded (w : T) (k : Nat) (l : List T) : Prop := ∀ t, countIn w t l ≤ k

variable {w n : T} {k : Nat} {l l' : List T}

theorem bounded_nil : Bounded w k [] := fun _ => Nat.zero_le k

theorem Bounded.of_subperm (h : Bounded w k l) (sub : l'.Subperm l) : Bounded w k l' :=
  fun t => (sub.countP_le _).trans (h t)

theorem countSince_eq_length_filter :
    countSince w n l = (l.filter fun u => n - w < u).length :=
  List.countP_eq_length_filter

/-- A new event fits if the ones since the start of its window leave room. -/
theorem Bounded.cons [IsOrderedAddMonoid T] (h : Bounded w k l) (room : countSince w n l < k) :
    Bounded w k (n :: l) := by
  intro t
  unfold countIn
  rw [List.countP_cons]
  split
  · rename_i inside
    obtain ⟨_, ends⟩ := of_decide_eq_true inside
    have fewer : l.countP (fun u => t - w < u ∧ u ≤ t) ≤ countSince w n l := by
      apply List.countP_mono_left
      intro u _ hu
      obtain ⟨after, _⟩ := of_decide_eq_true hu
      exact decide_eq_true ((sub_le_sub_right ends w).trans_lt after)
    omega
  · exact h t

end SlidingWindow
