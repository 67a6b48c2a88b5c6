import Mathlib.Order.Basic

/-!
# Resumable handlers of an input queue

A handler works on a state and the unread part of a stream. It finishes, asks
for more input, pauses for another reason, or fails. When more input has come
it is called again from its beginning, on the state it has left and on the
unread input. It is resumable when the result does not tell how the input was
cut. The combinators below build handlers that are, from reads of a size that
the input announces.
-/

namespace Handler

variable {σ τ β ε α γ κ : Type*}

/-- What a call of a handler comes back with: a value and the unread input, a request for more
input, a pause, or an error. -/
inductive Outcome (σ β ε α : Type*) where
  | done (a : α) (s : σ) (rest : List β)
  | more (s : σ) (rest : List β)
  | paused (s : σ) (rest : List β)
  | failed (s : σ) (error : ε)

end Handler

abbrev Handler (σ β ε α : Type*) := σ → List β → Handler.Outcome σ β ε α

namespace Handler

variable {σ τ β ε α γ κ : Type*}

/-- The end of a handler that has read its input: an error, or a value and a state. -/
abbrev Ending (σ ε α : Type*) := Except (σ × ε) (α × σ)

namespace Outcome

/-- More input arrives: behind what is unread, or for another call. -/
def feed (h : Handler σ β ε α) (v : List β) : Outcome σ β ε α → Outcome σ β ε α
  | done a s rest => done a s (rest ++ v)
  | more s rest => h s (rest ++ v)
  | paused s rest => paused s (rest ++ v)
  | failed s e => failed s e

def bind (k : α → Handler σ β ε γ) : Outcome σ β ε α → Outcome σ β ε γ
  | done a s rest => k a s rest
  | more s rest => more s rest
  | paused s rest => paused s rest
  | failed s e => failed s e

def conclude (rest : List β) : Ending σ ε α → Outcome σ β ε α
  | .ok (a, s) => done a s rest
  | .error (s, e) => failed s e

/-- The same with the states put in place. -/
def lift (put : σ → τ) : Outcome σ β ε α → Outcome τ β ε α
  | done a s rest => done a (put s) rest
  | more s rest => more (put s) rest
  | paused s rest => paused (put s) rest
  | failed s e => failed (put s) e

/-- What was read before the call is put back when it waits. -/
def goback (b : β) : Outcome σ β ε α → Outcome σ β ε α
  | more s rest => more s (b :: rest)
  | o => o

def state : Outcome σ β ε α → σ
  | done _ s _ | more s _ | paused s _ | failed s _ => s

/-- The unread input, of which a failure leaves nothing. -/
def rest : Outcome σ β ε α → List β
  | done _ _ q | more _ q | paused _ q => q
  | failed _ _ => []

@[simp] theorem feed_conclude (h : Handler σ β ε α) (v q : List β) (r : Ending σ ε α) :
    (conclude q r).feed h v = conclude (q ++ v) r := by
  cases r <;> rfl

theorem conclude_rest_le (q : List β) (r : Ending σ ε α) :
    (conclude q r).rest.length ≤ q.length := by
  cases r with
  | ok r => exact Nat.le_refl _
  | error r => exact Nat.zero_le _

@[simp] theorem conclude_ne_more {q q' : List β} {r : Ending σ ε α} {s : σ} :
    conclude q r ≠ .more s q' := by
  cases r <;> simp [conclude]

@[simp] theorem lift_rest (put : σ → τ) (o : Outcome σ β ε α) : (o.lift put).rest = o.rest := by
  cases o <;> rfl

@[simp] theorem goback_state (b : β) (o : Outcome σ β ε α) : (o.goback b).state = o.state := by
  cases o <;> rfl

theorem goback_rest_le (b : β) (o : Outcome σ β ε α) :
    (o.goback b).rest.length ≤ o.rest.length + 1 := by
  cases o with
  | more s q => exact Nat.le_refl _
  | done a s q | paused s q | failed s e => exact Nat.le_succ _

end Outcome

open Outcome

/-- The result does not depend on where the input was cut, and input is only ever taken. -/
structure Resumable (h : Handler σ β ε α) : Prop where
  feed : ∀ s u v, h s (u ++ v) = (h s u).feed h v
  rest_le : ∀ s q, (h s q).rest.length ≤ q.length

/-- What a handler that waits has done to the state. -/
def Waits (h : Handler σ β ε α) (R : σ → σ → Prop) : Prop :=
  ∀ ⦃s q s' q'⦄, h s q = .more s' q' → R s s'

/-- A handler that waits stays as it is when nothing arrives. -/
theorem Resumable.again {h : Handler σ β ε α} (resumable : Resumable h) {s s' : σ} {q q' : List β}
    (waits : h s q = .more s' q') : h s' q' = .more s' q' := by
  have fed := resumable.feed s q []
  rw [waits, List.append_nil, waits] at fed
  exact (fed.trans (congrArg (h s') (List.append_nil q'))).symm

/-! ## Reads -/

/-- Reads as many bytes as the input announces, all of them at once. -/
def sized (size : σ → List β → Option Nat) (use : σ → List β → Ending σ ε α) :
    Handler σ β ε α := fun s q =>
  match size s q with
  | none => .more s q
  | some n => if q.length < n then .more s q else .conclude (q.drop n) (use s (q.take n))

/-- An announced size does not change when more input arrives. -/
def Stable (size : σ → List β → Option Nat) : Prop :=
  ∀ ⦃s u n⦄ v, size s u = some n → size s (u ++ v) = some n

theorem stable_some (n : σ → Nat) : Stable fun s (_ : List β) => some (n s) := fun _ _ _ _ h => h

/-- A size that is told once a number of bytes is there, and may be another. -/
def once (need : σ → List β → Option Nat) (takes : σ → List β → Nat) (s : σ) (q : List β) :
    Option Nat :=
  match need s q with
  | none => none
  | some n => if q.length < n then none else some (takes s (q.take n))

theorem stable_once {need : σ → List β → Option Nat} (stable : Stable need)
    (takes : σ → List β → Nat) : Stable (once need takes) := by
  intro s u n v announced
  unfold once at announced ⊢
  split at announced
  · cases announced
  case h_2 m needed =>
    split at announced
    · cases announced
    case isFalse enough =>
      rw [stable v needed]
      dsimp only
      rw [List.length_append, if_neg (by omega), List.take_append_of_le_length (by omega)]
      exact announced

/-- A size that is told by a header of fixed length. -/
def header (n : Nat) (tells : σ → List β → Nat) : σ → List β → Option Nat :=
  once (fun _ _ => some n) tells

theorem stable_header (n : Nat) (tells : σ → List β → Nat) : Stable (header n tells) :=
  stable_once (stable_some _) tells

section Sized

variable {size : σ → List β → Option Nat} {use : σ → List β → Ending σ ε α}

theorem resumable_sized (stable : Stable size) : Resumable (sized size use) where
  feed s u v := by
    unfold sized
    cases announced : size s u with
    | none => rfl
    | some n =>
        rw [stable v announced]
        dsimp only
        rw [List.length_append]
        by_cases enough : n ≤ u.length
        · rw [if_neg (by omega), if_neg (by omega), feed_conclude,
            List.take_append_of_le_length enough, List.drop_append_of_le_length enough]
        · rw [if_pos (Nat.not_le.mp enough)]
          simp only [Outcome.feed, stable v announced, List.length_append]
  rest_le s q := by
    unfold sized
    split
    · exact Nat.le_refl _
    · split
      · exact Nat.le_refl _
      · exact Nat.le_trans (conclude_rest_le _ _) (by simp)

theorem sized_more {s s' : σ} {q q' : List β} (h : sized size use s q = .more s' q') :
    s' = s ∧ ∀ n, size s q = some n → q.length < n := by
  unfold sized at h
  split at h
  case h_1 none =>
    obtain ⟨rfl, -⟩ := Outcome.more.inj h
    exact ⟨rfl, fun n announced => by simp [none] at announced⟩
  case h_2 n announced =>
    split at h
    case isTrue short =>
      obtain ⟨rfl, -⟩ := Outcome.more.inj h
      exact ⟨rfl, fun m same => by rw [announced] at same; exact Option.some.inj same ▸ short⟩
    case isFalse => exact absurd h conclude_ne_more

/-- Waiting for a read changes nothing. -/
theorem sized_stays {P : σ → Prop} ⦃s : σ⦄ ⦃q : List β⦄ ⦃s' : σ⦄ ⦃q' : List β⦄ (held : P s)
    (h : sized size use s q = .more s' q') : P s' :=
  (sized_more h).1 ▸ held

theorem sized_done {s s' : σ} {q q' : List β} {a : α} (h : sized size use s q = .done a s' q') :
    ∃ n, size s q = some n ∧ n ≤ q.length ∧ use s (q.take n) = .ok (a, s') ∧ q' = q.drop n := by
  unfold sized at h
  split at h
  · cases h
  case h_2 n announced =>
    split at h
    · cases h
    case isFalse enough =>
      refine ⟨n, announced, Nat.not_lt.mp enough, ?_⟩
      cases ended : use s (q.take n) with
      | error r => rw [ended] at h; cases h
      | ok r =>
          rw [ended] at h
          obtain ⟨rfl, rfl, rfl⟩ := Outcome.done.inj h
          exact ⟨rfl, rfl⟩

end Sized

/-- Changes the state without reading. -/
def update (f : σ → σ) : Handler σ β ε Unit := fun s q => .done () (f s) q

theorem resumable_update (f : σ → σ) : Resumable (update f : Handler σ β ε Unit) :=
  ⟨fun _ _ _ => rfl, fun _ _ => Nat.le_refl _⟩

/-- Throws whatever the input is. -/
def fail (e : ε) : Handler σ β ε α := fun s _ => .failed s e

theorem resumable_fail (e : ε) : Resumable (fail e : Handler σ β ε α) :=
  ⟨fun _ _ _ => rfl, fun _ _ => Nat.zero_le _⟩

/-! ## One handler after another -/

/-- Works on what a handler has read, without reading any more. -/
def finish (h : Handler σ β ε α) (k : α → σ → Ending σ ε γ) : Handler σ β ε γ := fun s q =>
  (h s q).bind fun a s rest => .conclude rest (k a s)

section Finish

variable {h : Handler σ β ε α} {k : α → σ → Ending σ ε γ}

theorem finish_more {s s' : σ} {q q' : List β} :
    finish h k s q = .more s' q' ↔ h s q = .more s' q' := by
  unfold finish
  cases h s q with
  | done a s rest => simp [Outcome.bind]
  | more s rest | paused s rest | failed s e => simp [Outcome.bind]

theorem resumable_finish (resumable : Resumable h) : Resumable (finish h k) where
  feed s u v := by
    simp only [finish, resumable.feed s u v]
    cases h s u with
    | done a s rest => exact (feed_conclude (finish h k) v rest (k a s)).symm
    | more s rest | paused s rest | failed s e => rfl
  rest_le s q := by
    have taken := resumable.rest_le s q
    unfold finish
    revert taken
    cases h s q with
    | done a s rest => exact Nat.le_trans (conclude_rest_le _ _)
    | more s rest | paused s rest | failed s e => exact id

end Finish

/-- A handler in two parts, of which the first is over when the state says so. -/
def stage (todo : σ → Prop) [DecidablePred todo] (head : Handler σ β ε Unit)
    (body : Handler σ β ε α) : Handler σ β ε α := fun s q =>
  if todo s then (head s q).bind fun _ => body else body s q

/-- A state in which the second part is called. -/
def Entered (todo : σ → Prop) (head : Handler σ β ε Unit) (s : σ) : Prop :=
  todo s → ∃ s₀ q₀ q, head s₀ q₀ = .done () s q

section Stage

variable {todo : σ → Prop} [DecidablePred todo] {head : Handler σ β ε Unit}
  {body : Handler σ β ε α}

theorem resumable_stage (first : Resumable head) (second : Resumable body)
    (stays : ∀ ⦃s q s' q'⦄, todo s → head s q = .more s' q' → todo s')
    (ended : ∀ ⦃s q s' q'⦄, Entered todo head s → body s q = .more s' q' → ¬todo s') :
    Resumable (stage todo head body) where
  feed s u v := by
    have later : ∀ s u, Entered todo head s →
        body s (u ++ v) = (body s u).feed (stage todo head body) v := by
      intro s u entered
      rw [second.feed]
      cases waits : body s u with
      | done a s rest | paused s rest | failed s e => rfl
      | more s' rest => exact (if_neg (ended entered waits)).symm
    unfold stage
    split
    case isTrue begun =>
      rw [first.feed]
      cases waits : head s u with
      | done a s' rest => exact later s' rest fun _ => ⟨s, u, rest, waits⟩
      | paused s' rest | failed s' e => rfl
      | more s' rest => exact (if_pos (stays begun waits)).symm
    case isFalse ended => exact later s u fun todo => absurd todo ended
  rest_le s q := by
    unfold stage
    split
    · have taken := first.rest_le s q
      revert taken
      cases head s q with
      | done a s' rest => exact Nat.le_trans (second.rest_le s' rest)
      | more s' rest | paused s' rest | failed s' e => exact id
    · exact second.rest_le s q

/-- Where the second part stops to wait, whether or not the first was run. -/
theorem stage_more {s s' : σ} {q q' : List β} (h : stage todo head body s q = .more s' q') :
    head s q = .more s' q' ∨ (¬todo s ∧ body s q = .more s' q') ∨
      ∃ s₁ q₁, head s q = .done () s₁ q₁ ∧ body s₁ q₁ = .more s' q' := by
  unfold stage at h
  split at h
  · cases started : head s q with
    | done a s₁ rest =>
        rw [started] at h
        exact .inr (.inr ⟨s₁, rest, rfl, h⟩)
    | more s₁ rest =>
        rw [started] at h
        obtain ⟨rfl, rfl⟩ := Outcome.more.inj h
        exact .inl rfl
    | paused s₁ rest | failed s₁ e =>
        rw [started] at h
        cases h
  case isFalse ended => exact .inr (.inl ⟨ended, h⟩)

end Stage

/-- A handler chosen by a part of the state. -/
def branch (key : σ → κ) (h : κ → Handler σ β ε α) : Handler σ β ε α := fun s q => h (key s) s q

theorem resumable_branch {key : σ → κ} {h : κ → Handler σ β ε α}
    (resumable : ∀ k, Resumable (h k))
    (same : ∀ k, (h k).Waits fun s s' => key s = k → key s' = k) :
    Resumable (branch key h) where
  feed s u v := by
    unfold branch
    rw [(resumable _).feed]
    cases waits : h (key s) s u with
    | done a s' rest | paused s' rest | failed s' e => rfl
    | more s' rest =>
        simp only [Outcome.feed]
        rw [same _ waits rfl]
  rest_le s q := (resumable _).rest_le s q

/-- A part of a state, read and written. -/
structure Lens (τ σ : Type*) where
  get : τ → σ
  put : τ → σ → τ
  get_put : ∀ t s, get (put t s) = s
  put_put : ∀ t s s', put (put t s) s' = put t s'

/-- A handler of a part of the state. -/
def within (l : Lens τ σ) (h : Handler σ β ε α) : Handler τ β ε α := fun t q =>
  (h (l.get t) q).lift (l.put t)

section Within

variable {l : Lens τ σ} {h : Handler σ β ε α}

theorem resumable_within (resumable : Resumable h) : Resumable (within l h) where
  feed t u v := by
    unfold within
    rw [resumable.feed]
    cases h (l.get t) u with
    | done a s rest | paused s rest | failed s e => rfl
    | more s rest =>
        have put : l.put (l.put t s) = l.put t := funext (l.put_put t s)
        simp only [Outcome.feed, Outcome.lift, l.get_put, put]
  rest_le t q := by
    unfold within
    rw [lift_rest]
    exact resumable.rest_le _ q

end Within

/-! ## Loops -/

/-- At most so many rounds of a loop. -/
def rounds (again : σ → Prop) [DecidablePred again] (body : Handler σ β ε Unit) :
    Nat → Handler σ β ε Unit
  | 0 => .done ()
  | n + 1 => fun s q =>
      if again s then (body s q).bind fun _ => rounds again body n else .done () s q

/-- The loop that runs its body while the state says so, for a body that goes down in rank
whenever it finishes. -/
def loop (again : σ → Prop) [DecidablePred again] (rank : σ → List β → Nat)
    (body : Handler σ β ε Unit) : Handler σ β ε Unit := fun s q =>
  rounds again body (rank s q + 1) s q

/-- A body that finishes goes down in rank. -/
def Descends (again : σ → Prop) (rank : σ → List β → Nat) (body : Handler σ β ε Unit) : Prop :=
  ∀ ⦃s q s' q'⦄, again s → body s q = .done () s' q' → rank s' q' < rank s q

section Loop

variable {again : σ → Prop} [DecidablePred again] {rank : σ → List β → Nat}
  {body : Handler σ β ε Unit}

theorem rounds_succ (n : Nat) (s : σ) (q : List β) :
    rounds again body (n + 1) s q =
      if again s then (body s q).bind fun _ => rounds again body n else .done () s q := rfl

theorem rounds_eq (descends : Descends again rank body) {m n : Nat} {s : σ} {q : List β}
    (left : rank s q ≤ m) (right : rank s q ≤ n) :
    rounds again body (m + 1) s q = rounds again body (n + 1) s q := by
  induction m generalizing n s q with
  | zero =>
      rw [rounds_succ, rounds_succ]
      split
      case isFalse => rfl
      case isTrue go =>
        cases step : body s q with
        | done _ s' rest => exact absurd (descends go step) (by omega)
        | more s' rest | paused s' rest | failed s' e => rfl
  | succ m ih =>
      rw [rounds_succ, rounds_succ]
      split
      case isFalse => rfl
      case isTrue go =>
        cases step : body s q with
        | more s' rest | paused s' rest | failed s' e => rfl
        | done _ s' rest =>
            have down := descends go step
            obtain ⟨n, rfl⟩ : ∃ k, n = k + 1 := ⟨n - 1, by omega⟩
            exact ih (by omega) (by omega)

/-- The loop unfolds to a round and the rest of it. -/
theorem loop_eq (descends : Descends again rank body) (s : σ) (q : List β) :
    loop again rank body s q =
      if again s then (body s q).bind fun _ => loop again rank body else .done () s q := by
  conv => lhs; rw [loop, rounds_succ]
  split
  case isFalse => rfl
  case isTrue go =>
    cases step : body s q with
    | more s' rest | paused s' rest | failed s' e => rfl
    | done _ s' rest =>
        have down := descends go step
        obtain ⟨n, enough⟩ : ∃ n, rank s q = n + 1 := ⟨rank s q - 1, by omega⟩
        simp only [Outcome.bind, enough]
        exact rounds_eq descends (by omega) (Nat.le_refl _)

omit [DecidablePred again] in
/-- Induction along the rounds of a loop. -/
theorem rounds_induction (descends : Descends again rank body) {motive : σ → List β → Prop}
    (round : ∀ s q, (again s → ∀ s' q', body s q = .done () s' q' → motive s' q') → motive s q)
    (s : σ) (q : List β) : motive s q := by
  suffices below : ∀ n s q, rank s q < n → motive s q from below _ s q (Nat.lt_succ_self _)
  intro n
  induction n with
  | zero => exact fun _ _ h => absurd h (Nat.not_lt_zero _)
  | succ n ih =>
      intro s q bound
      refine round s q fun go s' q' step => ih s' q' ?_
      have down := descends go step
      omega

theorem resumable_loop (descends : Descends again rank body) (resumable : Resumable body)
    (stays : ∀ ⦃s q s' q'⦄, again s → body s q = .more s' q' → again s') :
    Resumable (loop again rank body) where
  feed s u v := by
    induction s, u using rounds_induction descends with
    | _ s u ih =>
    rw [loop_eq descends, loop_eq descends s u]
    split
    case isFalse => rfl
    case isTrue go =>
      rw [resumable.feed]
      cases step : body s u with
      | done _ s' rest => exact ih go s' rest step
      | paused s' rest | failed s' e => rfl
      | more s' rest => exact ((loop_eq descends _ _).trans (if_pos (stays go step))).symm
  rest_le s q := by
    induction s, q using rounds_induction descends with
    | _ s q ih =>
    rw [loop_eq descends]
    split
    case isFalse => exact Nat.le_refl _
    case isTrue go =>
      have taken := resumable.rest_le s q
      revert taken
      cases step : body s q with
      | more s' rest | paused s' rest | failed s' e => exact id
      | done _ s' rest => exact Nat.le_trans (ih go s' rest step)

/-- A loop that does not finish stops where a round of it does. -/
theorem loop_stops (descends : Descends again rank body) {s : σ} {q : List β}
    {o : Outcome σ β ε Unit} (stops : loop again rank body s q = o)
    (unfinished : ∀ s' q', o ≠ .done () s' q') : ∃ s₁ q₁, again s₁ ∧ body s₁ q₁ = o := by
  induction s, q using rounds_induction descends with
  | _ s q ih =>
  rw [loop_eq descends] at stops
  split at stops
  case isFalse => exact absurd stops.symm (unfinished s q)
  case isTrue go =>
    cases step : body s q with
    | done _ s₁ rest =>
        rw [step] at stops
        exact ih go s₁ rest step stops
    | more s₁ rest | paused s₁ rest | failed s₁ e =>
        exact ⟨s, q, go, by rw [step] at stops ⊢; exact stops⟩

/-- A loop waits where a round of it does. -/
theorem loop_more (descends : Descends again rank body) {s s' : σ} {q q' : List β}
    (waits : loop again rank body s q = .more s' q') :
    ∃ s₁ q₁, again s₁ ∧ body s₁ q₁ = .more s' q' :=
  loop_stops descends waits nofun

/-- A loop of reads waits in a state in which it goes on. -/
theorem loop_sized_more {size : σ → List β → Option Nat} {use : σ → List β → Ending σ ε Unit}
    (descends : Descends again rank (sized size use)) {s s' : σ} {q q' : List β}
    (waits : loop again rank (sized size use) s q = .more s' q') : again s' := by
  obtain ⟨s₁, q₁, go, waits⟩ := loop_more descends waits
  exact (sized_more waits).1 ▸ go

theorem resumable_loop_sized {size : σ → List β → Option Nat}
    {use : σ → List β → Ending σ ε Unit} (descends : Descends again rank (sized size use))
    (stable : Stable size) : Resumable (loop again rank (sized size use)) :=
  resumable_loop descends (resumable_sized stable) sized_stays

end Loop

/-! ## Assertions

What holds of the state before a call holds while the handler waits and when
it fails, and something else holds when it has finished.
-/

namespace Ending

def Holds (P : σ → Prop) (Q : α → σ → Prop) : Ending σ ε α → Prop
  | .ok (a, s) => Q a s
  | .error (s, _) => P s

end Ending

/-- `Q` when the handler has finished, and `P` when it has not. -/
def Outcome.Holds (P : σ → Prop) (Q : α → σ → Prop) : Outcome σ β ε α → Prop
  | .done a s _ => Q a s
  | .more s _ | .failed s _ => P s
  | .paused _ _ => False

/-- The handler does not pause, either. -/
def Ensures (P : σ → Prop) (h : Handler σ β ε α) (Q : α → σ → Prop) : Prop :=
  ∀ s q, P s → (h s q).Holds P Q

section Ensures

variable {P : σ → Prop} {Q : α → σ → Prop} {R : γ → σ → Prop}

theorem holds_conclude {r : Ending σ ε α} (h : Ending.Holds P Q r) (rest : List β) :
    (Outcome.conclude rest r).Holds P Q := by
  cases r <;> exact h

theorem holds_sized {size : σ → List β → Option Nat} {use : σ → List β → Ending σ ε α} {s : σ}
    {q : List β} (held : P s) (ends : ∀ data, size s q = some data.length →
      q.take data.length = data → Ending.Holds P Q (use s data)) :
    (sized size use s q).Holds P Q := by
  unfold sized
  split
  · exact held
  case h_2 n announced =>
    split
    · exact held
    case isFalse enough =>
      have length : (q.take n).length = n := by
        rw [List.length_take]
        omega
      exact holds_conclude (ends _ (by rw [length, announced]) (by rw [length])) _

omit P Q in
theorem ending_holds_true (r : Ending σ ε α) :
    Ending.Holds (fun _ => True) (fun _ _ => True) r := by
  cases r <;> trivial

theorem ensures_sized {size : σ → List β → Option Nat} {use : σ → List β → Ending σ ε α}
    (ends : ∀ s q data, P s → size s q = some data.length → Ending.Holds P Q (use s data)) :
    Ensures P (sized size use) Q :=
  fun s q held => holds_sized held fun data announced _ => ends s q data held announced

theorem ensures_update {f : σ → σ} {Q : Unit → σ → Prop} (ends : ∀ s, P s → Q () (f s)) :
    Ensures P (update f : Handler σ β ε Unit) Q := fun s _ held => ends s held

theorem ensures_fail (e : ε) : Ensures P (fail e : Handler σ β ε α) Q := fun _ _ held => held

theorem ensures_finish {h : Handler σ β ε α} {k : α → σ → Ending σ ε γ} (first : Ensures P h Q)
    (ends : ∀ a s, Q a s → Ending.Holds P R (k a s)) : Ensures P (finish h k) R := by
  intro s q held
  have called := first s q held
  unfold finish
  revert called
  cases h s q with
  | done a s' rest => exact fun called => holds_conclude (ends a s' called) rest
  | more s' rest | paused s' rest | failed s' e => exact id

/-- Whatever a handler comes back with, when the same holds before and after. -/
theorem Outcome.Holds.state {o : Outcome σ β ε α} (held : o.Holds P fun _ => P) : P o.state := by
  revert held
  cases o with
  | done a s rest | more s rest | failed s e => exact id
  | paused s rest => exact False.elim

theorem Outcome.Holds.and {P' : σ → Prop} {Q' : α → σ → Prop} {o : Outcome σ β ε α}
    (left : o.Holds P Q) (right : o.Holds P' Q') :
    o.Holds (fun s => P s ∧ P' s) fun a s => Q a s ∧ Q' a s := by
  revert left right
  cases o with
  | done a s rest | more s rest | failed s e => exact And.intro
  | paused s rest => exact fun left _ => left

theorem Ensures.mono {h : Handler σ β ε α} {Q' : α → σ → Prop} (called : Ensures P h Q)
    (weaker : ∀ a s, Q a s → Q' a s) : Ensures P h Q' := by
  intro s q held
  have called := called s q held
  revert called
  cases h s q with
  | done a s' rest => exact weaker a s'
  | more s' rest | paused s' rest | failed s' e => exact id

theorem ensures_stage {todo : σ → Prop} [DecidablePred todo] {head : Handler σ β ε Unit}
    {body : Handler σ β ε α} (first : Ensures P head fun _ => P) (second : Ensures P body Q) :
    Ensures P (stage todo head body) Q := by
  intro s q held
  unfold stage
  split
  · have called := first s q held
    revert called
    cases head s q with
    | done a s' rest => exact second s' rest
    | more s' rest | paused s' rest | failed s' e => exact id
  · exact second s q held

/-- The first part leads to where the second is called. -/
theorem ensures_stage_of {M : σ → Prop} {todo : σ → Prop} [DecidablePred todo]
    {head : Handler σ β ε Unit} {body : Handler σ β ε α}
    (first : ∀ s q, P s → todo s → (head s q).Holds P fun _ => M) (skip : ∀ s, P s → ¬todo s → M s)
    (second : Ensures M body Q) (weaker : ∀ s, M s → P s) : Ensures P (stage todo head body) Q := by
  have later : ∀ s q, M s → (body s q).Holds P Q := by
    intro s q held
    have called := second s q held
    revert called
    cases body s q with
    | done a s' rest => exact id
    | more s' rest | failed s' e => exact weaker s'
    | paused s' rest => exact id
  intro s q held
  unfold stage
  split
  case isTrue begun =>
    have called := first s q held begun
    revert called
    cases head s q with
    | done a s' rest => exact later s' rest
    | more s' rest | paused s' rest | failed s' e => exact id
  case isFalse ended => exact later s q (skip s held ended)

theorem ensures_branch {key : σ → κ} {h : κ → Handler σ β ε α} (each : ∀ k, Ensures P (h k) Q) :
    Ensures P (branch key h) Q := fun s q held => each (key s) s q held

theorem ensures_within {l : Lens τ σ} {h : Handler σ β ε α} {P' : τ → Prop} {Q' : α → τ → Prop}
    (called : Ensures P h Q) (get : ∀ t, P' t → P (l.get t))
    (put : ∀ t s, P' t → P s → P' (l.put t s)) (done : ∀ t a s, P' t → Q a s → Q' a (l.put t s)) :
    Ensures P' (within l h) Q' := by
  intro t q held
  have called := called (l.get t) q (get t held)
  unfold within
  revert called
  cases h (l.get t) q with
  | done a s rest => exact done t a s held
  | more s rest | failed s e => exact put t s held
  | paused s rest => exact id

theorem ensures_loop {again : σ → Prop} [DecidablePred again] {rank : σ → List β → Nat}
    {body : Handler σ β ε Unit} (descends : Descends again rank body)
    (round : ∀ s q, P s → again s → (body s q).Holds P fun _ => P) :
    Ensures P (loop again rank body) fun _ s => P s ∧ ¬again s := by
  intro s q held
  induction s, q using rounds_induction descends with
  | _ s q ih =>
  rw [loop_eq descends]
  split
  case isFalse stop => exact ⟨held, stop⟩
  case isTrue go =>
    have called := round s q held go
    revert called
    cases step : body s q with
    | done _ s' rest => exact ih go s' rest step
    | more s' rest | paused s' rest | failed s' e => exact id

end Ensures

/-! ## Pauses

A handler that is called over and over stops when the input runs out and when
a call pauses. A paused state sleeps: what arrives is kept until the state is
woken, and then the calls go on.
-/

section Pauses

variable (asleep : σ → Prop) [DecidablePred asleep] (wake : σ → σ) (rank : σ → List β → Nat)
  (body : Handler σ β ε Unit)

/-- One call, unless the state sleeps or nothing is unread. -/
def ready : Handler σ β ε Unit := fun s q =>
  if asleep s then .paused s q else if q.isEmpty then .more s q else body s q

/-- Calls the handler until it waits or pauses. -/
def pump : Handler σ β ε Unit := loop (fun _ => True) rank (ready asleep body)

/-- One call that does not stop at a pause. -/
def sleepless : Handler σ β ε Unit := fun s q =>
  if q.isEmpty then .more s q
  else match body s q with
    | .paused s' rest => .done () (wake s') rest
    | o => o

/-- Calls the handler until it waits, and goes on after a pause at once. -/
def through : Handler σ β ε Unit := loop (fun _ => True) rank (sleepless wake body)

/-- A handler that can be called over and over, and how it goes to sleep and wakes up. -/
structure Sleeps : Prop where
  resumable : Resumable body
  down : ∀ ⦃s q s' q'⦄, q ≠ [] →
    body s q = .done () s' q' ∨ (∃ s₁, body s q = .paused s₁ q' ∧ s' = wake s₁) →
    rank s' q' < rank s q
  awake : ∀ ⦃s q s' q'⦄, ¬asleep s →
    body s q = .done () s' q' ∨ body s q = .more s' q' → ¬asleep s'
  pauses : ∀ ⦃s q s' q'⦄, body s q = .paused s' q' → asleep s'
  wakes : ∀ s, ¬asleep (wake s)

variable {asleep wake rank body}

omit [DecidablePred asleep] in
theorem sleepless_done {s s' : σ} {q q' : List β}
    (h : sleepless wake body s q = .done () s' q') : q ≠ [] ∧
      (body s q = .done () s' q' ∨ ∃ s₁, body s q = .paused s₁ q' ∧ s' = wake s₁) := by
  unfold sleepless at h
  split at h
  · cases h
  case isFalse unread =>
    refine ⟨fun empty => unread (empty ▸ rfl), ?_⟩
    split at h
    case h_1 s₁ rest paused =>
      obtain ⟨-, rfl, rfl⟩ := Outcome.done.inj h
      exact .inr ⟨s₁, paused, rfl⟩
    case h_2 => exact .inl h

namespace Sleeps

variable (sleeps : Sleeps asleep wake rank body)

include sleeps

omit [DecidablePred asleep] in
theorem sleepless_descends : Descends (fun _ => True) rank (sleepless wake body) := by
  intro s q s' q' _ h
  obtain ⟨unread, h⟩ := sleepless_done h
  exact sleeps.down unread h

theorem ready_descends : Descends (fun _ => True) rank (ready asleep body) := by
  intro s q s' q' _ h
  unfold ready at h
  split at h
  · cases h
  · split at h
    · cases h
    case isFalse unread => exact sleeps.down (fun empty => unread (empty ▸ rfl)) (.inl h)

omit [DecidablePred asleep] in
theorem resumable_sleepless : Resumable (sleepless wake body) where
  feed s u v := by
    cases u with
    | nil => rfl
    | cons b u =>
        have fed := sleeps.resumable.feed s (b :: u) v
        simp only [sleepless, List.cons_append, List.isEmpty_cons, Bool.false_eq_true, if_false]
          at fed ⊢
        rw [fed]
        cases called : body s (b :: u) with
        | done _ s' rest | paused s' rest | failed s' e => rfl
        | more s' rest =>
            simp only [Outcome.feed]
            by_cases empty : (rest ++ v).isEmpty
            · obtain ⟨rfl, rfl⟩ := List.append_eq_nil_iff.mp (List.isEmpty_iff.mp empty)
              rw [List.append_nil, sleeps.resumable.again called]
              rfl
            · rw [sleepless, if_neg empty]
  rest_le s q := by
    have taken := sleeps.resumable.rest_le s q
    unfold sleepless
    split
    · exact Nat.le_refl _
    · revert taken
      cases body s q with
      | done _ s' rest | more s' rest | paused s' rest | failed s' e => exact id

omit [DecidablePred asleep] in
theorem resumable_through : Resumable (through wake rank body) :=
  resumable_loop sleeps.sleepless_descends sleeps.resumable_sleepless fun _ _ _ _ go _ => go

omit [DecidablePred asleep] in
theorem through_eq (s : σ) (q : List β) : through wake rank body s q =
    (sleepless wake body s q).bind fun _ => through wake rank body :=
  (loop_eq sleeps.sleepless_descends s q).trans (if_pos trivial)

theorem pump_eq (s : σ) (q : List β) : pump asleep rank body s q =
    (ready asleep body s q).bind fun _ => pump asleep rank body :=
  (loop_eq sleeps.ready_descends s q).trans (if_pos trivial)

/-- Where the calls have got to, seen by the calls that do not stop at a pause: they wait there
too, go on from there, or fail there. -/
theorem through_of_pump {s : σ} (awake : ¬asleep s) (q : List β) :
    match pump asleep rank body s q with
    | .done _ _ _ => False
    | .more s' q' => ¬asleep s' ∧ through wake rank body s q = .more s' q'
    | .paused s' q' => asleep s' ∧
        through wake rank body s q = through wake rank body (wake s') q'
    | .failed s' e => through wake rank body s q = .failed s' e := by
  induction s, q using rounds_induction sleeps.sleepless_descends with
  | _ s q ih =>
  rw [sleeps.pump_eq, sleeps.through_eq, ready, if_neg awake]
  cases q with
  | nil => exact ⟨awake, rfl⟩
  | cons b q =>
      have calls : sleepless wake body s (b :: q) = match body s (b :: q) with
          | .paused s' rest => .done () (wake s') rest
          | o => o := rfl
      simp only [List.isEmpty_cons, Bool.false_eq_true, if_false]
      rw [calls]
      cases called : body s (b :: q) with
      | done _ s' rest =>
          exact ih trivial s' rest (by rw [calls, called]) (sleeps.awake awake (.inl called))
      | more s' rest => exact ⟨sleeps.awake awake (.inr called), rfl⟩
      | paused s' rest => exact ⟨sleeps.pauses called, rfl⟩
      | failed s' e => rfl

end Sleeps

/-- A reader at rest between two events, with what it has not read. -/
inductive Reader (σ β ε : Type*) where
  | live (s : σ) (queue : List β)
  | failed (s : σ) (error : ε)

def Outcome.reader : Outcome σ β ε α → Reader σ β ε
  | .done _ s rest | .more s rest | .paused s rest => .live s rest
  | .failed s e => .failed s e

def Reader.state : Reader σ β ε → σ
  | live s _ | failed s _ => s

@[simp] theorem Outcome.reader_state (o : Outcome σ β ε α) : o.reader.state = o.state := by
  cases o <;> rfl

/-- Input arrives, or the end of a pause is reported. -/
inductive ReaderEvent (β : Type*) where
  | arrived (v : List β)
  | woken

def ReaderEvent.input : ReaderEvent β → List β
  | arrived v => v
  | woken => []

variable (asleep wake rank body)

def Reader.next : Reader σ β ε → ReaderEvent β → Reader σ β ε
  | live s queue, .arrived v => (pump asleep rank body s (queue ++ v)).reader
  | live s queue, .woken =>
      if asleep s then (pump asleep rank body (wake s) queue).reader else live s queue
  | failed s e, _ => failed s e

/-- What a reader stands for: where the calls that do not stop at a pause take it. -/
def Reader.Shows (o : Outcome σ β ε Unit) : Reader σ β ε → Prop
  | live s queue => (asleep s → through wake rank body (wake s) queue = o) ∧
      (¬asleep s → o = .more s queue)
  | failed s e => o = .failed s e

variable {asleep wake rank body}

def Reader.awake (asleep : σ → Prop) : Reader σ β ε → Prop
  | live s _ => ¬asleep s
  | failed _ _ => True

instance (r : Reader σ β ε) : Decidable (r.awake asleep) :=
  match r with
  | .live s _ => inferInstanceAs (Decidable ¬asleep s)
  | .failed _ _ => .isTrue trivial

namespace Sleeps

variable (sleeps : Sleeps asleep wake rank body)

include sleeps

theorem shows_pump {s : σ} (up : ¬asleep s) (q : List β) :
    Reader.Shows asleep wake rank body (through wake rank body s q)
      (pump asleep rank body s q).reader := by
  have reached := sleeps.through_of_pump up q
  revert reached
  cases pump asleep rank body s q with
  | done _ s' rest => exact False.elim
  | more s' rest => exact fun ⟨up, same⟩ => ⟨fun down => absurd down up, fun _ => same⟩
  | paused s' rest => exact fun ⟨down, same⟩ => ⟨fun _ => same.symm, fun up => absurd down up⟩
  | failed s' e => exact id

theorem shows_next {r : Reader σ β ε} {s₀ : σ} {received : List β}
    (h : r.Shows asleep wake rank body (through wake rank body s₀ received))
    (e : ReaderEvent β) :
    (r.next asleep wake rank body e).Shows asleep wake rank body
      (through wake rank body s₀ (received ++ e.input)) := by
  rw [sleeps.resumable_through.feed]
  match r, e with
  | .failed s e, .arrived v | .failed s e, .woken =>
      rw [show through wake rank body s₀ received = .failed s e from h]
      rfl
  | .live s queue, .arrived v =>
      by_cases down : asleep s
      · have sleeping : pump asleep rank body s (queue ++ v) = .paused s (queue ++ v) := by
          rw [sleeps.pump_eq, ready, if_pos down]
          rfl
        rw [← h.1 down]
        simp only [Reader.next, sleeping, ReaderEvent.input]
        exact ⟨fun _ => sleeps.resumable_through.feed _ _ _, fun up => absurd down up⟩
      · rw [h.2 down]
        exact sleeps.shows_pump down (queue ++ v)
  | .live s queue, .woken =>
      simp only [Reader.next, ReaderEvent.input]
      split
      case isTrue down =>
        rw [← h.1 down, ← sleeps.resumable_through.feed, List.append_nil]
        exact sleeps.shows_pump (sleeps.wakes s) queue
      case isFalse up =>
        have waits := h.2 up
        rw [waits]
        refine ⟨fun down => absurd down up, fun _ => ?_⟩
        rw [Outcome.feed, List.append_nil]
        exact sleeps.resumable_through.again waits

/-- What every call and every waking keep is kept throughout. -/
theorem reader_keeps {I : σ → Prop} (keeps : ∀ s q, I s → I (body s q).state)
    (wakes : ∀ s, I s → I (wake s)) {s₀ : σ} (start : I s₀) (events : List (ReaderEvent β)) :
    I (events.foldl (Reader.next asleep wake rank body) (.live s₀ [])).state := by
  have pumped : ∀ s q, I s → I (pump asleep rank body s q).state := by
    intro s q held
    induction s, q using rounds_induction sleeps.ready_descends with
    | _ s q ih =>
    have called : I (ready asleep body s q).state := by
      unfold ready
      split
      · exact held
      · split
        · exact held
        · exact keeps s q held
    rw [sleeps.pump_eq]
    revert called
    cases step : ready asleep body s q with
    | done _ s' rest => exact ih trivial s' rest step
    | more s' rest | paused s' rest | failed s' e => exact id
  have next : ∀ (r : Reader σ β ε) (e : ReaderEvent β), I r.state →
      I (r.next asleep wake rank body e).state := by
    intro r e held
    match r, e with
    | .failed s e, .arrived v | .failed s e, .woken => exact held
    | .live s queue, .arrived v =>
        rw [Reader.next, Outcome.reader_state]
        exact pumped s _ held
    | .live s queue, .woken =>
        rw [Reader.next]
        split
        · rw [Outcome.reader_state]
          exact pumped _ queue (wakes s held)
        · exact held
  have all : ∀ (events : List (ReaderEvent β)) (r : Reader σ β ε), I r.state →
      I (events.foldl (Reader.next asleep wake rank body) r).state := by
    intro events
    induction events with
    | nil => exact fun _ held => held
    | cons e events ih => exact fun r held => ih _ (next r e held)
  exact all events (.live s₀ []) start

/-- However the input was cut, and whenever the pauses ended: a reader that is awake is where
one call on all of the input takes it, if it does not stop at a pause. -/
theorem reader_eq {s₀ : σ} (up : ¬asleep s₀) (events : List (ReaderEvent β))
    (rested : (events.foldl (Reader.next asleep wake rank body) (.live s₀ [])).awake asleep) :
    events.foldl (Reader.next asleep wake rank body) (.live s₀ []) =
      (through wake rank body s₀ (events.flatMap ReaderEvent.input)).reader := by
  have shows : ∀ (events : List (ReaderEvent β)) (received : List β) (r : Reader σ β ε),
      r.Shows asleep wake rank body (through wake rank body s₀ received) →
      (events.foldl (Reader.next asleep wake rank body) r).Shows asleep wake rank body
        (through wake rank body s₀ (received ++ events.flatMap ReaderEvent.input)) := by
    intro events
    induction events with
    | nil => simp
    | cons e events ih =>
        intro received r h
        rw [List.foldl_cons, List.flatMap_cons, ← List.append_assoc]
        exact ih _ _ (sleeps.shows_next h e)
  have start : Reader.Shows asleep wake rank body (through wake rank body s₀ []) (.live s₀ []) :=
    ⟨fun down => absurd down up, fun _ => by rw [sleeps.through_eq]; rfl⟩
  have reached := shows events [] _ start
  rw [List.nil_append] at reached
  revert reached rested
  cases events.foldl (Reader.next asleep wake rank body) (.live s₀ []) with
  | live s queue => exact fun up reached => by rw [reached.2 up]; rfl
  | failed s e => exact fun _ reached => by rw [show _ = _ from reached]; rfl

end Sleeps

end Pauses

end Handler
