import Mathlib.Data.List.TakeWhile
import Mathlib.Data.List.TakeDrop

/-!
# Self-delimiting framings of a stream

A header reader looks at more and more of the front of a message until it
knows how long the message is, or that there is none. It never looks past the
end of the message it measures, so a complete message keeps its length
whatever follows it. A stream then splits in one way into complete messages
and a rest that starts with none.
-/

variable {β : Type*}

/-- A decision about the length of a message, taken on longer and longer parts of its front. -/
inductive Header (β : Type*)
  | fail
  | total (n : Nat)
  | read (upto : Nat) (next : List β → Header β)

namespace Header

/-- The length the header announces, once the symbols it looks at have arrived. -/
def announced : Header β → List β → Option Nat
  | fail, _ => none
  | total n, _ => some n
  | read k next, s => if k ≤ s.length then (next (s.take k)).announced s else none

theorem announced_read {k : Nat} {next : List β → Header β} {s : List β} (h : k ≤ s.length) :
    (read k next).announced s = (next (s.take k)).announced s := by
  simp [announced, h]

theorem announced_read_short {k : Nat} {next : List β → Header β} {s : List β}
    (h : s.length < k) : (read k next).announced s = none := by
  simp [announced, Nat.not_le.mpr h]

@[simp] theorem announced_ite (p : Prop) [Decidable p] (a b : Header β) (s : List β) :
    (if p then a else b).announced s = if p then a.announced s else b.announced s := by
  split <;> rfl

/-- The message always holds the symbols that were read to measure it. -/
def Fits : Header β → Nat → Prop
  | fail, _ => True
  | total n, seen => 0 < n ∧ seen ≤ n
  | read k next, seen => ∀ b, (next b).Fits (max seen k)

@[simp] theorem fits_fail (seen : Nat) : (fail : Header β).Fits seen ↔ True := Iff.rfl

@[simp] theorem fits_total (n seen : Nat) :
    (total n : Header β).Fits seen ↔ 0 < n ∧ seen ≤ n := Iff.rfl

@[simp] theorem fits_read (k seen : Nat) (next : List β → Header β) :
    (read k next).Fits seen ↔ ∀ b, (next b).Fits (max seen k) := Iff.rfl

@[simp] theorem fits_ite (p : Prop) [Decidable p] (a b : Header β) (seen : Nat) :
    (if p then a else b).Fits seen ↔ (p → a.Fits seen) ∧ (¬ p → b.Fits seen) := by
  split <;> simp_all

theorem announced_pos {h : Header β} {seen : Nat} (fits : h.Fits seen) {s : List β} {n : Nat}
    (ann : h.announced s = some n) : 0 < n := by
  induction h generalizing seen with
  | fail => simp [announced] at ann
  | total m =>
      obtain rfl : m = n := by simpa [announced] using ann
      exact fits.1
  | read k next ih =>
      simp only [announced] at ann
      split at ann
      · exact ih _ (fits _) ann
      · simp at ann

/-- The announced length depends on a front of the message only. -/
theorem announced_take {h : Header β} {seen : Nat} (fits : h.Fits seen) {s : List β} {n : Nat}
    (ann : h.announced s = some n) :
    ∃ k, seen ≤ k ∧ k ≤ n ∧ ∀ rest, h.announced (s.take k ++ rest) = some n := by
  induction h generalizing seen with
  | fail => simp [announced] at ann
  | total m =>
      obtain rfl : m = n := by simpa [announced] using ann
      exact ⟨seen, le_rfl, fits.2, fun _ => rfl⟩
  | read j next ih =>
      simp only [announced] at ann
      split at ann
      · rename_i arrived
        obtain ⟨k, hk, hn, stable⟩ := ih _ (fits _) ann
        have hj : j ≤ k := (le_max_right _ _).trans hk
        refine ⟨k, (le_max_left _ _).trans hk, hn, fun rest => ?_⟩
        have enough : j ≤ (s.take k ++ rest).length := by
          rw [List.length_append, List.length_take]
          omega
        have front : (s.take k ++ rest).take j = s.take j := by
          rw [List.take_append_of_le_length (by rw [List.length_take]; omega),
            List.take_take, min_eq_left hj]
        simp only [announced, enough, if_true, front]
        exact stable rest
      · simp at ann

/-- Whether symbols that the header must look at have not arrived. -/
def waits : Header β → List β → Prop
  | fail, _ => False
  | total _, _ => False
  | read k next, s => k ≤ s.length → (next (s.take k)).waits s

/-- Whether the symbols that have arrived start no message. -/
def rejects : Header β → List β → Prop
  | fail, _ => True
  | total _, _ => False
  | read k next, s => k ≤ s.length ∧ (next (s.take k)).rejects s

/-- A header that announces no length waits or rejects. -/
theorem announced_eq_none_iff {h : Header β} {s : List β} :
    h.announced s = none ↔ h.waits s ∨ h.rejects s := by
  induction h with
  | fail => simp [announced, waits, rejects]
  | total n => simp [announced, waits, rejects]
  | read k next ih =>
      by_cases arrived : k ≤ s.length
      · rw [announced_read arrived, ih]
        simp only [waits, rejects, arrived, true_implies, true_and]
      · rw [announced_read_short (Nat.not_le.mp arrived)]
        simp only [waits, rejects, arrived, false_implies, false_and, true_or]

theorem rejects_read_iff {k : Nat} {next : List β → Header β} {s : List β} :
    (read k next).rejects s ↔ k ≤ s.length ∧ (next (s.take k)).rejects s := Iff.rfl

@[simp] theorem rejects_fail (s : List β) : (fail : Header β).rejects s ↔ True := Iff.rfl

@[simp] theorem rejects_total (n : Nat) (s : List β) : (total n).rejects s ↔ False := Iff.rfl

@[simp] theorem rejects_ite (p : Prop) [Decidable p] (a b : Header β) (s : List β) :
    (if p then a else b).rejects s ↔ (p → a.rejects s) ∧ (¬ p → b.rejects s) := by
  split <;> simp_all

end Header

/-- A header reader whose messages hold what it reads of them. -/
structure Framing (β : Type*) where
  header : Header β
  fits : header.Fits 0

namespace Framing

/-- The length announced by the front of the stream. -/
def announced (F : Framing β) (s : List β) : Option Nat := F.header.announced s

/-- The length of the first message, when all of it has arrived. -/
def size (F : Framing β) (s : List β) : Option Nat :=
  match F.announced s with
  | some n => if n ≤ s.length then some n else none
  | none => none

/-- The framing whose first symbol tells the type of the message. -/
def tagged (d : β) (headerOf : β → Header β) (fits : ∀ t, (headerOf t).Fits 1) : Framing β where
  header := .read 1 fun b => headerOf (b.headD d)
  fits := fun _ => fits _

theorem tagged_announced {d : β} {headerOf : β → Header β} {fits : ∀ t, (headerOf t).Fits 1}
    (t : β) (body : List β) :
    (tagged d headerOf fits).announced (t :: body) = (headerOf t).announced (t :: body) := by
  simp [announced, tagged, Header.announced]

variable {F G : Framing β}

theorem size_eq_some {s : List β} {n : Nat} :
    F.size s = some n ↔ F.announced s = some n ∧ n ≤ s.length := by
  unfold size
  cases h : F.announced s with
  | none => simp
  | some m =>
      by_cases hm : m ≤ s.length
      · simp only [hm, if_true, Option.some.injEq]
        exact ⟨fun e => ⟨e, e ▸ hm⟩, fun e => e.1⟩
      · simp only [hm, if_false, Option.some.injEq, reduceCtorEq, false_iff, not_and]
        rintro rfl
        exact hm

theorem size_of_not_announced {s : List β} (h : F.announced s = none) : F.size s = none := by
  simp [size, h]

theorem size_of_incomplete {s : List β} {n : Nat} (h : F.announced s = some n)
    (short : s.length < n) : F.size s = none := by
  simp [size, h, Nat.not_le.mpr short]

theorem size_pos {s : List β} {n : Nat} (h : F.size s = some n) : 0 < n :=
  Header.announced_pos F.fits (size_eq_some.mp h).1

theorem size_le {s : List β} {n : Nat} (h : F.size s = some n) : n ≤ s.length :=
  (size_eq_some.mp h).2

@[simp] theorem size_nil : F.size [] = none := by
  cases h : F.size [] with
  | none => rfl
  | some n => exact absurd (size_le h) (by simpa using (size_pos h).ne')

/-- The complete messages at the head of the stream, in order. -/
def messages (F : Framing β) (s : List β) : List (List β) :=
  match _h : F.size s with
  | none => []
  | some n => s.take n :: F.messages (s.drop n)
termination_by s.length
decreasing_by
  have := size_pos _h
  have := size_le _h
  rw [List.length_drop]
  omega

/-- What is left of the stream after its complete messages. -/
def leftover (F : Framing β) (s : List β) : List β :=
  match _h : F.size s with
  | none => s
  | some n => F.leftover (s.drop n)
termination_by s.length
decreasing_by
  have := size_pos _h
  have := size_le _h
  rw [List.length_drop]
  omega

theorem messages_of_none {s : List β} (h : F.size s = none) : F.messages s = [] := by
  rw [messages]
  split
  · rfl
  · simp_all

theorem messages_of_some {s : List β} {n : Nat} (h : F.size s = some n) :
    F.messages s = s.take n :: F.messages (s.drop n) := by
  rw [messages]
  split
  · simp_all
  · simp_all

theorem leftover_of_none {s : List β} (h : F.size s = none) : F.leftover s = s := by
  rw [leftover]
  split
  · rfl
  · simp_all

theorem leftover_of_some {s : List β} {n : Nat} (h : F.size s = some n) :
    F.leftover s = F.leftover (s.drop n) := by
  rw [leftover]
  split
  · simp_all
  · simp_all

/-- The stream ends before the header or the message it announces has arrived. -/
def Incomplete (F : Framing β) (s : List β) : Prop :=
  F.header.waits s ∨ ∃ n, F.announced s = some n ∧ s.length < n

/-- The symbols at the front of the stream start no message. -/
def Rejects (F : Framing β) (s : List β) : Prop := F.header.rejects s

/-- Where no complete message starts, there is the beginning of one or none at all. -/
theorem size_eq_none_iff {s : List β} : F.size s = none ↔ F.Incomplete s ∨ F.Rejects s := by
  unfold size Incomplete Rejects
  cases ann : F.announced s with
  | none =>
      have headers := Header.announced_eq_none_iff.mp ann
      simpa using headers
  | some n =>
      have headers : ¬ (F.header.waits s ∨ F.header.rejects s) := fun h =>
        Option.some_ne_none n (ann.symm.trans (Header.announced_eq_none_iff.mpr h))
      rw [not_or] at headers
      by_cases whole : n ≤ s.length
      · simp [headers, whole]
      · simp [headers, whole, Nat.lt_of_not_le whole]

theorem tagged_rejects {d : β} {headerOf : β → Header β} {fits : ∀ t, (headerOf t).Fits 1}
    {s : List β} : (tagged d headerOf fits).Rejects s ↔
      ∃ t body, s = t :: body ∧ (headerOf t).rejects s := by
  cases s with
  | nil => simp [Rejects, tagged, Header.rejects]
  | cons t body => simp [Rejects, tagged, Header.rejects]

theorem size_leftover (s : List β) : F.size (F.leftover s) = none := by
  induction s using leftover.induct F with
  | case1 s hs => rwa [leftover_of_none hs]
  | case2 s n hs ih => rwa [leftover_of_some hs]

/-- The complete messages and the rest are the stream, with nothing lost or moved. -/
theorem messages_flatten_leftover (s : List β) :
    (F.messages s).flatten ++ F.leftover s = s := by
  induction s using messages.induct F with
  | case1 s hs => simp [messages_of_none hs, leftover_of_none hs]
  | case2 s n hs ih =>
      rw [messages_of_some hs, leftover_of_some hs, List.flatten_cons, List.append_assoc, ih,
        List.take_append_drop]

/-- A complete message and nothing more. -/
def IsMessage (F : Framing β) (m : List β) : Prop := F.size m = some m.length

instance (F : Framing β) (m : List β) : Decidable (F.IsMessage m) :=
  inferInstanceAs (Decidable (F.size m = some m.length))

theorem IsMessage.ne_nil {m : List β} (h : F.IsMessage m) : m ≠ [] := by
  rintro rfl
  simp [IsMessage] at h

/-- What follows a complete message does not change its length. -/
theorem IsMessage.size_append {m : List β} (h : F.IsMessage m) (rest : List β) :
    F.size (m ++ rest) = some m.length := by
  have ann := (size_eq_some.mp h).1
  obtain ⟨k, _, hk, stable⟩ := Header.announced_take F.fits ann
  have split : m ++ rest = m.take k ++ (m.drop k ++ rest) := by
    rw [← List.append_assoc, List.take_append_drop]
  exact size_eq_some.mpr ⟨split ▸ stable _, by simp⟩

/-- The symbols the head of a stream announces form a complete message. -/
theorem isMessage_take {s : List β} {n : Nat} (h : F.size s = some n) :
    F.IsMessage (s.take n) := by
  obtain ⟨ann, hn⟩ := size_eq_some.mp h
  obtain ⟨k, _, hk, stable⟩ := Header.announced_take F.fits ann
  have split : s.take n = s.take k ++ (s.take n).drop k := by
    rw [show s.take k = (s.take n).take k by rw [List.take_take, min_eq_left hk],
      List.take_append_drop]
  have len : (s.take n).length = n := by simp [hn]
  refine size_eq_some.mpr ⟨?_, le_rfl⟩
  rw [len, split]
  exact stable _

theorem IsMessage.messages_append {m : List β} (h : F.IsMessage m) (rest : List β) :
    F.messages (m ++ rest) = m :: F.messages rest := by
  rw [messages_of_some (h.size_append rest)]
  simp

theorem IsMessage.leftover_append {m : List β} (h : F.IsMessage m) (rest : List β) :
    F.leftover (m ++ rest) = F.leftover rest := by
  rw [leftover_of_some (h.size_append rest)]
  simp

/-- Complete messages in front of a stream are read off one by one. -/
theorem messages_flatten_append {ms : List (List β)} (h : ∀ m ∈ ms, F.IsMessage m)
    (rest : List β) : F.messages (ms.flatten ++ rest) = ms ++ F.messages rest := by
  induction ms with
  | nil => simp
  | cons m ms ih =>
      have tail := ih fun x hx => h x (by simp [hx])
      rw [List.flatten_cons, List.append_assoc,
        (h m (by simp)).messages_append, tail, List.cons_append]

theorem leftover_flatten_append {ms : List (List β)} (h : ∀ m ∈ ms, F.IsMessage m)
    (rest : List β) : F.leftover (ms.flatten ++ rest) = F.leftover rest := by
  induction ms with
  | nil => rfl
  | cons m ms ih =>
      have tail := ih fun x hx => h x (List.mem_cons_of_mem _ hx)
      rw [List.flatten_cons, List.append_assoc, (h m List.mem_cons_self).leftover_append, tail]

theorem mem_messages {s m : List β} (h : m ∈ F.messages s) : F.IsMessage m := by
  induction s using messages.induct F with
  | case1 s hs => simp [messages_of_none hs] at h
  | case2 s n hs ih =>
      rw [messages_of_some hs, List.mem_cons] at h
      rcases h with rfl | h
      · exact isMessage_take hs
      · exact ih h

/-- What follows the head of a stream does not change the length it announces. -/
theorem size_append {s : List β} {n : Nat} (h : F.size s = some n) (rest : List β) :
    F.size (s ++ rest) = some n := by
  have split : s ++ rest = s.take n ++ (s.drop n ++ rest) := by
    rw [← List.append_assoc, List.take_append_drop]
  rw [split, (isMessage_take h).size_append, List.length_take, min_eq_left (size_le h)]

/-- A reader that knows some of the messages and stops for good at the others finds, in any
front of the stream, whole messages of it and at last the beginning of one. -/
theorem messages_of_prefix {ms : List (List β)}
    (h : ∀ m ∈ ms, m ≠ [] ∧ (G.IsMessage m ∨ ∀ rest, G.size (m ++ rest) = none))
    {p : List β} (hp : p <+: ms.flatten) :
    (∀ m ∈ G.messages p, m ∈ ms) ∧ ∀ b ∈ (G.leftover p).head?, ∃ m ∈ ms, b ∈ m.head? := by
  induction ms generalizing p with
  | nil =>
      obtain rfl := List.prefix_nil.mp hp
      simp [messages_of_none, leftover_of_none]
  | cons m ms ih =>
      obtain ⟨nonempty, known⟩ := h m (by simp)
      obtain ⟨r, hr⟩ := hp
      rw [List.flatten_cons] at hr
      by_cases whole : G.IsMessage m ∧ m.length ≤ p.length
      · obtain ⟨rest, rfl⟩ : m <+: p :=
          List.prefix_of_prefix_length_le (List.prefix_append m ms.flatten)
            (hr ▸ List.prefix_append p r) whole.2
        rw [List.append_assoc, List.append_cancel_left_eq] at hr
        obtain ⟨inside, last⟩ := ih (fun x hx => h x (by simp [hx])) ⟨r, hr⟩
        rw [whole.1.messages_append, whole.1.leftover_append]
        refine ⟨fun x hx => ?_, fun b hb => ?_⟩
        · rcases List.mem_cons.mp hx with rfl | hx
          · simp
          · exact List.mem_cons_of_mem _ (inside x hx)
        · obtain ⟨x, hx, hb⟩ := last b hb
          exact ⟨x, List.mem_cons_of_mem _ hx, hb⟩
      · have stuck : G.size p = none := by
          cases hs : G.size p with
          | none => rfl
          | some n =>
              have along := size_append hs r
              rw [hr] at along
              rcases known with isMessage | never
              · rw [isMessage.size_append, Option.some.injEq] at along
                exact absurd ⟨isMessage, along ▸ size_le hs⟩ whole
              · simp [never] at along
        rw [messages_of_none stuck, leftover_of_none stuck]
        refine ⟨by simp, fun b hb => ⟨m, by simp, ?_⟩⟩
        obtain ⟨x, m, rfl⟩ := List.exists_cons_of_ne_nil nonempty
        cases p with
        | nil => simp at hb
        | cons y p =>
            rw [List.cons_append, List.cons_append, List.cons.injEq] at hr
            simpa [hr.1] using hb

end Framing
