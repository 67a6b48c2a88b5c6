import VmServer.Novnc.MessageLoop

/-!
# However the stream arrives

The relay cuts the server's stream where it likes, and the display is ready
when it likes. A client that is not waiting for the display is where the bytes
it has received take it. Only an update without rectangles tells whether the
display was busy: it is then neither shown nor followed by a request.

## Implementation notes

A run ends at its first fault. What the client does with the rest of its queue
and with later messages does depend on where the stream was cut: a cursor of an
unknown type is begun again with the next message, and after a disconnect or an
exception the loop goes on, or not, with what the queue holds.
-/

namespace VmServer.Novnc

open Handler

namespace Client

variable {Z : Zlib}

/-- The client after what has arrived and the flushes that have ended. -/
def run (pending : Nat → Bool) (c : Client Z) (events : List (ReaderEvent UInt8)) :
    Reader (Client Z) UInt8 Fault :=
  events.foldl (Reader.next (fun c => c.flushing) flushed rank (normalMsg pending)) (.live c [])

/-- All of the input in one call, if no update has to wait. -/
def readAll (pending : Nat → Bool) : Reads (Client Z) Unit :=
  through flushed rank (normalMsg pending)

/-- Between two updates there is no rectangle. -/
def Settled (c : Client Z) : Prop := c.fbu.rects = 0 → c.fbu.encoding = none

theorem readRect_settled : Ensures (fun c : Client Z => 0 < c.fbu.rects) readRect
    fun _ c => c.fbu.encoding = none := by
  intro c q some
  have steady := readRect_steady c c q ⟨steady_refl c, rfl⟩
  have ended : ∀ c' rest, readRect c q = .done () c' rest → c'.fbu.encoding = none := by
    intro c' rest h
    unfold readRect finish at h
    revert h
    cases stage (fun c => c.fbu.encoding = none) readRectHeader (branch key handleRect) c q with
    | done _ c₁ q₁ =>
        intro h
        obtain ⟨-, rfl, -⟩ := Outcome.done.inj h
        rfl
    | more c₁ q₁ | paused c₁ q₁ | failed c₁ e => exact fun h => nomatch h
  revert steady ended
  cases readRect c q with
  | done _ c' rest => exact fun _ ended => ended c' rest rfl
  | more c' rest | failed c' e => exact fun steady _ => some.trans_eq steady.2.symm
  | paused c' rest => exact fun steady _ => steady

theorem readRects_settled : Ensures (Settled (Z := Z)) readRects fun _ => Settled := by
  refine ensures_finish (ensures_loop readRect_descends fun c q held some => ?_)
    fun _ c ⟨held, _⟩ => ?_
  · have called := readRect_settled c q some
    revert called
    cases readRect c q with
    | done _ c' rest => exact fun none _ => none
    | more c' rest | failed c' e => exact fun some none => absurd none (Nat.pos_iff_ne_zero.mp some)
    | paused c' rest => exact id
  · dsimp only [Ending.Holds]
    split <;> exact held

/-- What a call leaves: between two updates there is no rectangle, and updates that were read
stay read. -/
def Onward (c c' : Client Z) : Prop := Settled c' ∧ c.updates <+: c'.updates

theorem readRects_onward {c : Client Z} (settled : Settled c) (q : List UInt8) :
    Onward c (readRects c q).state := by
  have called := readRects_settled c q settled
  have steady := readRects_steady c c q (steady_refl c)
  revert called steady
  cases readRects c q with
  | done _ c' rest =>
      exact fun settled steady => ⟨settled, steady.1.2.2 ▸ List.prefix_rfl⟩
  | more c' rest | failed c' e =>
      exact fun settled steady => ⟨settled, steady.2.2 ▸ List.prefix_rfl⟩
  | paused c' rest => exact False.elim

/-- The client with the header of an update read. -/
def headed (c : Client Z) (rects : Nat) : Client Z :=
  { c with fbu := { c.fbu with rects }, updates := c.updates ++ [rects] }

theorem readUpdate_eq (pending : Nat → Bool) (c : Client Z) {q : List UInt8}
    (long : 3 ≤ q.length) : readUpdate pending c q =
      if pending c.updates.length then
        .paused { c.headed (u16 q 1) with flushing := true } (q.drop 3)
      else .done () (c.headed (u16 q 1)) (q.drop 3) := if_neg (Nat.not_lt.mpr long)

theorem headed_onward {c : Client Z} (none : c.fbu.encoding = none) (rects : Nat) :
    Onward c (c.headed rects) := ⟨fun _ => none, List.prefix_append _ _⟩

/-- What holds of a client wherever a call of the loop takes it. -/
theorem normalMsg_keeps {I : Client Z → Prop} {pending : Nat → Bool} {c : Client Z} (held : I c)
    (q : List UInt8) (rects : 0 < c.fbu.rects → I (readRects c q).state)
    (waits : ∀ n, ¬0 < c.fbu.rects → pending c.updates.length →
      I { c.headed n with flushing := true })
    (reads : ∀ n q, ¬0 < c.fbu.rects → ¬pending c.updates.length →
      I (readRects (c.headed n) q).state)
    (other : ∀ msgType q, ¬0 < c.fbu.rects → I (handleOther msgType c q).state) :
    I (normalMsg pending c q).state := by
  by_cases some : 0 < c.fbu.rects
  · rw [normalMsg_rects pending some]
    exact rects some
  · cases q with
    | nil =>
        rw [show normalMsg pending c [] = .more c [] from if_neg some]
        exact held
    | cons msgType rest =>
        rw [normalMsg_type pending some]
        split
        case isTrue =>
          by_cases long : 3 ≤ rest.length
          · rw [readUpdate_eq pending c long]
            split
            case isTrue busy => exact waits _ some busy
            case isFalse idle => exact reads _ _ some idle
          · rw [show readUpdate pending c rest = .more c rest from if_pos (Nat.not_le.mp long)]
            exact held
        case isFalse =>
          rw [Outcome.goback_state]
          exact other msgType rest some

theorem normalMsg_onward (pending : Nat → Bool) {c : Client Z} (settled : Settled c)
    (q : List UInt8) : Onward c (normalMsg pending c q).state := by
  have headed (some : ¬0 < c.fbu.rects) (n : Nat) : Onward c (c.headed n) :=
    headed_onward (settled (Nat.eq_zero_of_not_pos some)) n
  refine normalMsg_keeps ⟨settled, List.prefix_rfl⟩ q (fun _ => readRects_onward settled q)
    (fun n some _ => headed some n) (fun n q some _ => ?_) fun msgType q _ => ?_
  · have read := readRects_onward (headed some n).1 q
    exact ⟨read.1, (headed some n).2.trans read.2⟩
  · have kept : Kept c (handleOther msgType c q).state :=
      Outcome.Holds.state (handleOther_kept msgType c c q (kept_refl c))
    refine ⟨fun ended => ?_, kept.2.2.2 ▸ List.prefix_rfl⟩
    rw [kept.1] at ended ⊢
    exact settled ended

theorem sleepless_onward (pending : Nat → Bool) {c : Client Z} (settled : Settled c)
    (q : List UInt8) : Onward c (sleepless flushed (normalMsg pending) c q).state := by
  have onward := normalMsg_onward pending settled q
  unfold sleepless
  split
  · exact ⟨settled, List.prefix_rfl⟩
  · revert onward
    cases normalMsg pending c q with
    | done _ c' rest | more c' rest | paused c' rest | failed c' e => exact id

theorem readAll_eq (pending : Nat → Bool) (c : Client Z) (q : List UInt8) :
    readAll pending c q =
      (sleepless flushed (normalMsg pending) c q).bind fun _ => readAll pending :=
  (sleeps pending).through_eq c q

theorem readAll_updates (pending : Nat → Bool) {c : Client Z} (settled : Settled c)
    (q : List UInt8) : (sleepless flushed (normalMsg pending) c q).state.updates <+:
      (readAll pending c q).state.updates := by
  induction c, q using rounds_induction (sleeps pending).sleepless_descends with
  | _ c q ih =>
  have onward := sleepless_onward pending settled q
  rw [readAll_eq]
  cases called : sleepless flushed (normalMsg pending) c q with
  | done _ c' rest =>
      rw [called] at onward
      have next := sleepless_onward pending onward.1 rest
      exact next.2.trans (ih trivial c' rest called onward.1)
  | more c' rest | paused c' rest | failed c' e => exact List.prefix_rfl

/-! ## The display -/

/-- The rectangles of an update are read in one go or over several calls. -/
theorem readAll_rects (pending : Nat → Bool) {c : Client Z} (some : 0 < c.fbu.rects)
    (none : c.fbu.encoding = none) (q : List UInt8) :
    readAll pending c q = (readRects c q).bind fun _ => readAll pending := by
  rw [readAll_eq]
  congr 1
  cases q with
  | nil =>
      have waits : readRect c [] = .more c [] := by
        unfold readRect finish stage
        rw [if_pos none]
        rfl
      unfold readRects finish
      rw [loop_eq readRect_descends, if_pos some, waits]
      rfl
  | cons b q =>
      have called := normalMsg_rects pending some (b :: q)
      have readRects_sleepless : sleepless flushed (normalMsg pending) c (b :: q) =
          readRects c (b :: q) := by
        unfold sleepless
        rw [if_neg (by simp), called]
        cases called : readRects c (b :: q) with
        | done _ c' rest | more c' rest | failed c' e => rfl
        | paused c' rest => exact absurd called readRects_ne_paused
      exact readRects_sleepless

theorem sleepless_call (pending : Nat → Bool) {c : Client Z} {q : List UInt8}
    (unread : q ≠ []) : sleepless flushed (normalMsg pending) c q =
      match normalMsg pending c q with
      | .paused c' rest => .done () (flushed c') rest
      | o => o := by
  unfold sleepless
  rw [if_neg (by simpa using unread)]
  cases normalMsg pending c q <;> rfl

/-- A call that reads the header of an update. -/
theorem sleepless_update (pending : Nat → Bool) {c : Client Z} (ended : ¬0 < c.fbu.rects)
    (up : c.flushing = false) {rest : List UInt8} (long : 3 ≤ rest.length) :
    sleepless flushed (normalMsg pending) c (0 :: rest) =
      if pending c.updates.length then .done () (c.headed (u16 rest 1)) (rest.drop 3)
      else readRects (c.headed (u16 rest 1)) (rest.drop 3) := by
  rw [sleepless_call pending (List.cons_ne_nil _ _), normalMsg_type pending ended, if_pos rfl,
    readUpdate_eq pending c long]
  by_cases busy : pending c.updates.length
  · have woken : flushed { c.headed (u16 rest 1) with flushing := true } = c.headed (u16 rest 1) :=
      congrArg (fun flushing => { c.headed (u16 rest 1) with flushing }) up.symm
    rw [if_pos busy, if_pos busy]
    simp only [Outcome.goback, Outcome.bind, woken]
  · rw [if_neg busy, if_neg busy]
    simp only [Outcome.goback, Outcome.bind]
    cases called : readRects (c.headed (u16 rest 1)) (rest.drop 3) with
    | done _ c' rest | more c' rest | failed c' e => rfl
    | paused c' rest => exact absurd called readRects_ne_paused

/-- An update with rectangles takes the client to them, whether or not it has to wait. -/
theorem readAll_update (pending : Nat → Bool) {c : Client Z} (settled : Settled c)
    (ended : ¬0 < c.fbu.rects) (up : c.flushing = false) {rest : List UInt8}
    (long : 3 ≤ rest.length) (some : 0 < u16 rest 1) : readAll pending c (0 :: rest) =
      readAll pending (c.headed (u16 rest 1)) (rest.drop 3) := by
  have none := settled (Nat.eq_zero_of_not_pos ended)
  rw [readAll_eq, sleepless_update pending ended up long]
  split
  · rfl
  · exact (readAll_rects pending (c := c.headed (u16 rest 1)) some none (rest.drop 3)).symm

theorem sleepless_up {pending : Nat → Bool} {c c' : Client Z} {q q' : List UInt8}
    (up : c.flushing = false)
    (h : sleepless flushed (normalMsg pending) c q = .done () c' q') : c'.flushing = false := by
  obtain ⟨-, called | ⟨c₁, -, rfl⟩⟩ := sleepless_done h
  · have outcome := normalMsg_outcome pending c q
    rw [called] at outcome
    exact outcome.1.trans up
  · rfl

/-- Only whether an update without rectangles found the display busy makes a difference. -/
theorem readAll_congr {pending pending' : Nat → Bool} {c : Client Z} (settled : Settled c)
    (up : c.flushing = false) (q : List UInt8)
    (agree : ∀ k, (readAll pending c q).state.updates[k]? = some 0 → pending k = pending' k) :
    readAll pending c q = readAll pending' c q := by
  induction below : rank c q using Nat.strong_induction_on generalizing c q with
  | _ n ih =>
  subst below
  -- a call that is the same for both leaves the rest of the input
  have later (same : sleepless flushed (normalMsg pending) c q =
      sleepless flushed (normalMsg pending') c q) : readAll pending c q = readAll pending' c q := by
    have onward := sleepless_onward pending settled q
    rw [readAll_eq] at agree
    rw [readAll_eq, readAll_eq, ← same]
    cases called : sleepless flushed (normalMsg pending) c q with
    | more c' rest | paused c' rest | failed c' e => rfl
    | done _ c' rest =>
        rw [called] at onward agree
        have less := (sleeps pending).sleepless_descends trivial called
        exact ih _ less onward.1 (sleepless_up up called) rest agree rfl
  cases q with
  | nil => exact later rfl
  | cons msgType rest =>
  by_cases ended : 0 < c.fbu.rects
  · apply later
    rw [sleepless_call _ (List.cons_ne_nil _ _), sleepless_call _ (List.cons_ne_nil _ _),
      normalMsg_rects pending ended, normalMsg_rects pending' ended]
  by_cases update : msgType = 0
  case neg =>
    apply later
    rw [sleepless_call _ (List.cons_ne_nil _ _), sleepless_call _ (List.cons_ne_nil _ _),
      normalMsg_type pending ended, normalMsg_type pending' ended, if_neg update, if_neg update]
  subst update
  by_cases long : 3 ≤ rest.length
  case neg =>
    have short (pending : Nat → Bool) : readUpdate pending c rest = .more c rest :=
      if_pos (Nat.not_le.mp long)
    apply later
    rw [sleepless_call _ (List.cons_ne_nil _ _), sleepless_call _ (List.cons_ne_nil _ _),
      normalMsg_type pending ended, normalMsg_type pending' ended, if_pos rfl, if_pos rfl,
      short, short]
  by_cases some : 0 < u16 rest 1
  · rw [readAll_update pending settled ended up long some] at agree ⊢
    rw [readAll_update pending' settled ended up long some]
    have none := settled (Nat.eq_zero_of_not_pos ended)
    refine ih _ ?_ (headed_onward none _).1 up (rest.drop 3) agree rfl
    simp only [rank, List.length_drop, List.length_cons]
    split <;> omega
  · apply later
    have empty : u16 rest 1 = 0 := Nat.eq_zero_of_not_pos some
    have same : pending c.updates.length = pending' c.updates.length := by
      refine agree _ ?_
      have none := settled (Nat.eq_zero_of_not_pos ended)
      have header : (c.headed 0).updates <+:
          (sleepless flushed (normalMsg pending) c (0 :: rest)).state.updates := by
        rw [sleepless_update pending ended up long, empty]
        split
        · exact List.prefix_rfl
        · exact (readRects_onward (headed_onward none 0).1 _).2
      have read := header.trans (readAll_updates pending settled (0 :: rest))
      obtain ⟨after, same⟩ := read
      rw [← same]
      simp [headed]
    rw [sleepless_update pending ended up long, sleepless_update pending' ended up long, same]

/-- An inflater of what is not compressed. -/
def plain : Zlib where
  deflate := id
  Stream := List UInt8
  init := []
  setInput _ data := data
  inflate z n := if n ≤ z.length then .ok (z.take n, z.drop n) else .error "Incomplete zlib block"
  reset _ := []
  left := List.length
  inflate_length {z n bytes z'} h := by
    split at h
    case isTrue enough =>
      obtain ⟨rfl, -⟩ := Prod.mk.inj (Except.ok.inj h)
      exact List.length_take_of_le enough
    case isFalse => cases h
  inflate_left {z n bytes z'} h := by
    split at h
    case isTrue enough =>
      obtain ⟨-, rfl⟩ := Prod.mk.inj (Except.ok.inj h)
      rw [List.length_drop]
      omega
    case isFalse => cases h

/-- An update of one black pixel, which has to wait between its header and its rectangle. -/
def onePixel : List (ReaderEvent UInt8) :=
  [.arrived [0, 0, 0], .arrived [1, 0, 0, 0, 0], .woken, .arrived [0, 1, 0, 1, 0, 0, 0, 0, 0],
    .arrived [0, 0, 255]]

theorem onePixel_updates :
    (run (fun _ => true) ({} : Client plain) onePixel).state.updates = [1] := by
  decide +kernel

end Client

end VmServer.Novnc
