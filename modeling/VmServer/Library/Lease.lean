import Mathlib.Algebra.Order.Group.Basic
import Mathlib.Data.List.Chain

/-!
# Leases with an absolute and an idle limit

A lease is created once and kept alive by beats. It is alive at a time when
it is not older than its total limit and no two consecutive moments of its
life, the time itself included, are further apart than the idle limit. A
dead lease is dead for good, whatever beats follow.
-/

variable {T : Type*}

/-- The creation of a lease and the beats after it, in order. -/
structure Lease (T : Type*) where
  created : T
  beats : List T := []

namespace Lease

variable {ttl idle : T} {l : Lease T} {t u : T}

/-- The last moment at which the lease was kept alive. -/
def last (l : Lease T) : T := l.beats.getLast?.getD l.created

/-- One more beat. -/
def beat (l : Lease T) (u : T) : Lease T := { l with beats := l.beats ++ [u] }

@[simp] theorem created_beat : (l.beat u).created = l.created := rfl

@[simp] theorem last_beat : (l.beat u).last = u := by
  simp [last, beat]

variable [AddCommGroup T] [LinearOrder T]

/-- No two consecutive moments so far are further apart than the limit. -/
def Unbroken (idle : T) (l : Lease T) : Prop :=
  (l.created :: l.beats).IsChain fun a b => b - a ≤ idle

/-- The lease is alive at `t`, if nothing else happens to it before. -/
def AliveAt (ttl idle : T) (l : Lease T) (t : T) : Prop :=
  t - l.created ≤ ttl ∧ (l.beat t).Unbroken idle

@[simp] theorem unbroken_fresh : (⟨t, []⟩ : Lease T).Unbroken idle := by
  simp [Unbroken]

theorem unbroken_beat : (l.beat u).Unbroken idle ↔ l.Unbroken idle ∧ u - l.last ≤ idle := by
  have moments : l.created :: (l.beats ++ [u]) = (l.created :: l.beats) ++ [u] := rfl
  have ends : (l.created :: l.beats).getLast? = some l.last := by
    simp [last, List.getLast?_cons]
  unfold Unbroken
  rw [beat, moments, List.isChain_append]
  simp [ends]

theorem aliveAt_iff :
    l.AliveAt ttl idle t ↔ t - l.created ≤ ttl ∧ l.Unbroken idle ∧ t - l.last ≤ idle := by
  rw [AliveAt, unbroken_beat]

variable [IsOrderedAddMonoid T]

/-- What is alive later is alive now. -/
theorem AliveAt.of_le (alive : l.AliveAt ttl idle u) (h : t ≤ u) : l.AliveAt ttl idle t := by
  obtain ⟨age, unbroken, gap⟩ := aliveAt_iff.mp alive
  exact aliveAt_iff.mpr ⟨(sub_le_sub_right h _).trans age, unbroken,
    (sub_le_sub_right h _).trans gap⟩

/-- No beat brings a dead lease back. -/
theorem AliveAt.of_beat (alive : (l.beat u).AliveAt ttl idle t) (h : u ≤ t) :
    l.AliveAt ttl idle u := by
  obtain ⟨age, unbroken, _⟩ := aliveAt_iff.mp alive
  exact ⟨(sub_le_sub_right h _).trans age, unbroken⟩

end Lease
