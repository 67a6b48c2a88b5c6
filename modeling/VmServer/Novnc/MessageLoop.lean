import VmServer.Novnc.Drawn
import VmServer.Novnc.ServerMessages

/-!
# The message loop of the console client

WebSocket messages are added to the receive queue and the queue is handled
message by message, until it runs out in the middle of one or an update has to
wait for the display. Where the relay cuts the server's stream, and when the
display is ready, makes no difference to what the client does in the end.
-/

namespace VmServer.Novnc

open Proxy Handler

namespace Client

variable {Z : Zlib}

/-- A message from its type, or the rest of an update. -/
def normalMsg (pending : Nat → Bool) : Reads (Client Z) Unit := fun c q =>
  if 0 < c.fbu.rects then readRects c q
  else match q with
    | [] => .more c []
    | msgType :: rest =>
        if msgType = 0 then ((readUpdate pending c rest).goback 0).bind fun _ => readRects
        else (handleOther msgType c rest).goback msgType

/-! ## What the handlers leave as it is -/

/-- The update being read, the depth of the pixels, the pause and the updates that were read are
as they were. -/
def Kept (c c' : Client Z) : Prop :=
  c'.fbu = c.fbu ∧ c'.fbDepth = c.fbDepth ∧ c'.flushing = c.flushing ∧ c'.updates = c.updates

theorem kept_refl (c : Client Z) : Kept c c := ⟨rfl, rfl, rfl, rfl⟩

theorem Kept.trans {c c' c'' : Client Z} (h : Kept c c') (h' : Kept c' c'') : Kept c c'' :=
  ⟨h'.1.trans h.1, h'.2.1.trans h.2.1, h'.2.2.1.trans h.2.2.1, h'.2.2.2.trans h.2.2.2⟩

theorem updateCursor_kept (c : Client Z) (pixels : List Rgba) (hotx hoty w h : Nat) :
    Kept c (c.updateCursor pixels hotx hoty w h) := by
  unfold updateCursor
  split <;> exact kept_refl c

theorem updateContinuousUpdates_kept (c : Client Z) : Kept c c.updateContinuousUpdates := by
  unfold updateContinuousUpdates
  split <;> exact kept_refl c

theorem resize_kept (c : Client Z) (width height : Nat) : Kept c (c.resize width height) :=
  updateContinuousUpdates_kept _

theorem within_kept {δ : Type} {l : Lens (Client Z) (Drawing δ)} {h : Reads (Drawing δ) Unit}
    (ends : Ensures (fun _ => True) h fun _ _ => True) (put : ∀ c d, Kept c (l.put c d))
    (c₀ : Client Z) : Ensures (Kept c₀) (within l h) fun _ => Kept c₀ :=
  ensures_within ends (fun _ _ => trivial) (fun c d held _ => held.trans (put c d))
    fun c _ d held _ => held.trans (put c d)

theorem handleDataRect_kept (depth : Nat) (r : Rect) (encoding : Int) (c₀ : Client Z) :
    Ensures (Kept c₀) (handleDataRect depth r encoding) fun _ => Kept c₀ := by
  refine handleDataRect_of (motive := fun _ h => Ensures (Kept c₀) h fun _ => Kept c₀)
    (fun _ e => ensures_fail e) ?_ encoding
  simp only [decoders, List.forall_mem_cons]
  refine ⟨?_, ?_, ?_, ?_, ?_, ?_, ?_, ?_, ?_, ?_, by simp⟩ <;>
    refine within_kept ?_ (fun c _ => kept_refl c) c₀
  · exact Drew.ends fun _ => RawDecoder.decodeRect_draws depth r
  · exact Drew.ends fun _ => CopyRectDecoder.decodeRect_draws r
  · exact Drew.ends fun _ => RREDecoder.decodeRect_draws r
  · exact HextileDecoder.decodeRect_ends r
  · exact Drew.ends fun _ => ZlibDecoder.decodeRect_draws r
  · exact Drew.ends fun _ => TightDecoder.decodeRect_draws (TightDecoder.methods_draws r)
  · exact Drew.ends fun _ => TightDecoder.decodeRect_draws (TightPNGDecoder.methods_draws r)
  · exact Drew.ends fun _ => ZRLEDecoder.decodeRect_draws r
  · exact Drew.ends fun _ => JPEGDecoder.decodeRect_draws r
  · exact Drew.ends fun _ => H264Decoder.decodeRect_draws r

/-- A handler that only reads once keeps what its use of the bytes keeps. -/
theorem sized_kept {size : Client Z → List UInt8 → Option Nat}
    {use : Client Z → List UInt8 → Ending (Client Z) Fault Unit}
    (uses : ∀ c data, Ending.Holds (Kept c) (fun _ => Kept c) (use c data)) (c₀ : Client Z) :
    Ensures (Kept c₀) (sized size use) fun _ => Kept c₀ := by
  refine ensures_sized fun c q data held _ => ?_
  have used := uses c data
  revert used
  cases use c data with
  | ok r => exact held.trans
  | error r => exact held.trans

theorem handleVMwareCursor_kept (r : Rect) (c₀ : Client Z) :
    Ensures (Kept c₀) (handleVMwareCursor r) fun _ => Kept c₀ := by
  refine sized_kept (fun c data => ?_) c₀
  dsimp only
  split_ifs
  · exact kept_refl c
  · exact updateCursor_kept _ _ _ _ _ _
  · exact updateCursor_kept _ _ _ _ _ _
  · exact kept_refl c

theorem handleCursor_kept (r : Rect) (c₀ : Client Z) :
    Ensures (Kept c₀) (handleCursor r) fun _ => Kept c₀ := by
  refine sized_kept (fun c data => ?_) c₀
  exact updateCursor_kept _ _ _ _ _ _

theorem handleDesktopName_kept (c₀ : Client Z) :
    Ensures (Kept c₀) handleDesktopName fun _ => Kept c₀ := by
  refine sized_kept (fun c data => ?_) c₀
  exact kept_refl c

theorem handleExtendedDesktopSize_kept (r : Rect) (c₀ : Client Z) :
    Ensures (Kept c₀) (handleExtendedDesktopSize r) fun _ => Kept c₀ := by
  refine sized_kept (fun c data => ?_) c₀
  dsimp only [Ending.Holds]
  split_ifs <;> first | exact resize_kept _ _ _ | exact kept_refl c

theorem handleLedEvent_kept (c₀ : Client Z) :
    Ensures (Kept c₀) handleLedEvent fun _ => Kept c₀ := by
  refine sized_kept (fun c data => ?_) c₀
  exact kept_refl c

/-- The update being read, as the last rectangle leaves it. -/
def lastRect (c : Client Z) : Client Z := { c with fbu := { c.fbu with rects := 1 } }

theorem handleRect_kept (k : FBU × Nat) (c₀ : Client Z) :
    Ensures (Kept c₀) (handleRect k) fun _ c => Kept c₀ c ∨ Kept c₀.lastRect c := by
  have updates {f : Client Z → Client Z} (kept : ∀ c, Kept c (f c)) :
      Ensures (Kept c₀) (update f : Reads (Client Z) Unit)
        fun _ c => Kept c₀ c ∨ Kept c₀.lastRect c :=
    ensures_update fun c held => .inl (held.trans (kept c))
  unfold handleRect
  split
  · exact updates kept_refl
  · dsimp only
    split_ifs
    · refine ensures_update fun c ⟨fbu, rest⟩ => .inr ⟨?_, rest⟩
      exact congrArg (fun f : FBU => { f with rects := 1 }) fbu
    · exact (handleVMwareCursor_kept _ c₀).mono fun _ _ => .inl
    · exact (handleCursor_kept _ c₀).mono fun _ _ => .inl
    · exact updates fun c => kept_refl c
    · exact (handleDesktopName_kept c₀).mono fun _ _ => .inl
    · exact updates fun c => resize_kept c _ _
    · exact (handleExtendedDesktopSize_kept _ c₀).mono fun _ _ => .inl
    · exact updates fun c => kept_refl c
    · exact (handleLedEvent_kept c₀).mono fun _ _ => .inl
    · exact (handleDataRect_kept _ _ _ c₀).mono fun _ _ => .inl

/-- Waiting in the middle of a rectangle leaves the update as it is. -/
theorem handleRect_waits (k : FBU × Nat) :
    (handleRect k : Reads (Client Z) Unit).Waits Kept := by
  intro c q c' q' waits
  have called := handleRect_kept k c c q (kept_refl c)
  rw [waits] at called
  exact called

/-! ## Rectangles are found where they were left -/

theorem resumable_handleDataRect (depth : Nat) (r : Rect) (encoding : Int) :
    (handleDataRect depth r encoding : Reads (Client Z) Unit).Resumable := by
  refine handleDataRect_of (motive := fun _ => Resumable) (fun _ => resumable_fail) ?_ encoding
  simp only [decoders, List.forall_mem_cons]
  refine ⟨?_, ?_, ?_, ?_, ?_, ?_, ?_, ?_, ?_, ?_, by simp⟩ <;> refine resumable_within ?_
  · exact RawDecoder.resumable_decodeRect depth r
  · exact CopyRectDecoder.resumable_decodeRect r
  · exact RREDecoder.resumable_decodeRect r
  · exact HextileDecoder.resumable_decodeRect r
  · exact ZlibDecoder.resumable_decodeRect r
  · exact TightDecoder.resumable_decodeRect TightDecoder.lawful_methods r
  · exact TightDecoder.resumable_decodeRect TightPNGDecoder.lawful_methods r
  · exact ZRLEDecoder.resumable_decodeRect r
  · exact JPEGDecoder.resumable_decodeRect r
  · exact H264Decoder.resumable_decodeRect r

theorem resumable_handleRect (k : FBU × Nat) :
    (handleRect k : Reads (Client Z) Unit).Resumable := by
  unfold handleRect
  split
  · exact resumable_update _
  · dsimp only
    split_ifs
    · exact resumable_update _
    · exact resumable_sized (stable_header _ _)
    · exact resumable_sized (stable_some _)
    · exact resumable_update _
    · exact resumable_sized (stable_header _ _)
    · exact resumable_update _
    · exact resumable_sized (stable_header _ _)
    · exact resumable_update _
    · exact resumable_sized (stable_some _)
    · exact resumable_handleDataRect _ _ _

/-- The client between rectangles: the depth, the pause and the updates that were read. -/
def Steady (c c' : Client Z) : Prop :=
  c'.fbDepth = c.fbDepth ∧ c'.flushing = c.flushing ∧ c'.updates = c.updates

theorem steady_refl (c : Client Z) : Steady c c := ⟨rfl, rfl, rfl⟩

theorem Kept.steady {c c' : Client Z} (h : Kept c c') : Steady c c' := h.2

theorem Steady.trans {c c' c'' : Client Z} (h : Steady c c') (h' : Steady c' c'') :
    Steady c c'' :=
  ⟨h'.1.trans h.1, h'.2.1.trans h.2.1, h'.2.2.trans h.2.2⟩

theorem readRect_steady (c₀ : Client Z) :
    Ensures (fun c => Steady c₀ c ∧ c.fbu.rects = c₀.fbu.rects) readRect
      fun _ c => Steady c₀ c ∧ (c.fbu.rects = c₀.fbu.rects - 1 ∨ c.fbu.rects = 0) := by
  refine ensures_finish (Q := fun _ c => Steady c₀ c ∧
    (c.fbu.rects = c₀.fbu.rects ∨ c.fbu.rects = 1)) (ensures_stage
      (ensures_sized fun c q data held _ => held) (ensures_branch fun k c q held => ?_))
    fun _ c ⟨steady, rects⟩ => ⟨steady, ?_⟩
  · have called := handleRect_kept k c c q (kept_refl c)
    revert called
    cases handleRect k c q with
    | done _ c' rest =>
        rintro (kept | kept)
        · exact ⟨held.1.trans kept.steady, .inl ((congrArg FBU.rects kept.1).trans held.2)⟩
        · exact ⟨held.1.trans kept.steady, .inr (congrArg FBU.rects kept.1)⟩
    | more c' rest | failed c' e =>
        exact fun kept => ⟨held.1.trans kept.steady, (congrArg FBU.rects kept.1).trans held.2⟩
    | paused c' rest => exact id
  · dsimp only
    omega

theorem readRect_descends :
    Descends (fun c : Client Z => 0 < c.fbu.rects) (fun c _ => c.fbu.rects) readRect := by
  intro c q c' q' some h
  have called := readRect_steady c c q ⟨steady_refl c, rfl⟩
  rw [h] at called
  have less := called.2
  dsimp only at some ⊢
  omega

theorem readRect_waits : (readRect : Reads (Client Z) Unit).Waits
    fun c c' => Steady c c' ∧ c'.fbu.rects = c.fbu.rects := by
  intro c q c' q' waits
  have called := readRect_steady c c q ⟨steady_refl c, rfl⟩
  rw [waits] at called
  exact called

theorem resumable_readRect : (readRect : Reads (Client Z) Unit).Resumable := by
  refine resumable_finish (resumable_stage (resumable_sized (stable_some _))
    (resumable_branch resumable_handleRect fun k c q c' q' waits same => ?_) sized_stays
    fun c q c' q' entered waits => ?_)
  · have kept := handleRect_waits k waits
    rw [key, kept.1, kept.2.1]
    exact same
  · have kept := handleRect_waits _ waits
    rw [kept.1]
    intro none
    obtain ⟨c₀, q₀, q₁, started⟩ := entered none
    obtain ⟨n, -, -, used, -⟩ := sized_done started
    obtain ⟨-, rfl⟩ := Prod.mk.inj (Except.ok.inj used)
    exact Option.some_ne_none _ none

theorem readRects_steady (c₀ : Client Z) :
    Ensures (Steady c₀) readRects fun _ c => Steady c₀ c ∧ c.fbu.rects = 0 := by
  refine ensures_finish (ensures_loop readRect_descends fun c q held _ => ?_)
    fun _ c ⟨steady, ended⟩ => ?_
  · have called := readRect_steady c c q ⟨steady_refl c, rfl⟩
    revert called
    cases readRect c q with
    | done _ c' rest | more c' rest | failed c' e => exact fun after => held.trans after.1
    | paused c' rest => exact id
  · dsimp only [Ending.Holds]
    split <;> exact ⟨steady, Nat.eq_zero_of_not_pos ended⟩

theorem readRects_waits : (readRects : Reads (Client Z) Unit).Waits
    fun c c' => Steady c c' ∧ 0 < c'.fbu.rects := by
  intro c q c' q' waits
  have called := readRects_steady c c q (steady_refl c)
  rw [waits] at called
  obtain ⟨c₁, q₁, some, waits⟩ := loop_more readRect_descends (finish_more.mp waits)
  exact ⟨called, (readRect_waits waits).2 ▸ some⟩

theorem resumable_readRects : (readRects : Reads (Client Z) Unit).Resumable :=
  resumable_finish (resumable_loop readRect_descends resumable_readRect
    fun _ _ _ _ some waits => (readRect_waits waits).2 ▸ some)

/-! ## Messages are found where they were left -/

theorem extendedCutText_kept (c : Client Z) (data : List UInt8) :
    Ending.Holds (Kept c) (fun _ => Kept c) (c.extendedCutText data) := by
  unfold extendedCutText
  dsimp only
  repeat' split
  all_goals exact kept_refl c

theorem handleServerCutText_kept (c₀ : Client Z) :
    Ensures (Kept c₀) handleServerCutText fun _ => Kept c₀ := by
  refine sized_kept (fun c data => ?_) c₀
  dsimp only
  split_ifs
  · exact kept_refl c
  · exact kept_refl c
  · exact kept_refl c
  · exact extendedCutText_kept c data

theorem handleOther_kept (msgType : UInt8) (c₀ : Client Z) :
    Ensures (Kept c₀) (handleOther msgType) fun _ => Kept c₀ := by
  unfold handleOther
  split_ifs
  · exact ensures_fail _
  · exact ensures_update fun c held => held.trans (kept_refl c)
  · exact handleServerCutText_kept c₀
  · refine ensures_update fun c held => held.trans ?_
    unfold endOfContinuousUpdates
    dsimp only
    split
    · exact updateContinuousUpdates_kept _
    · exact kept_refl c
  · refine sized_kept (fun c data => ?_) c₀
    dsimp only
    split_ifs <;> exact kept_refl c
  · refine sized_kept (fun c data => ?_) c₀
    dsimp only
    split_ifs <;> exact kept_refl c
  · exact ensures_fail _

theorem resumable_handleOther (msgType : UInt8) :
    (handleOther msgType : Reads (Client Z) Unit).Resumable := by
  unfold handleOther
  split_ifs
  · exact resumable_fail _
  · exact resumable_update _
  · exact resumable_sized (stable_once (stable_header _ _) _)
  · exact resumable_update _
  · exact resumable_sized (stable_once (stable_header _ _) _)
  · exact resumable_sized (stable_some _)
  · exact resumable_fail _

theorem resumable_readUpdate (pending : Nat → Bool) :
    (readUpdate pending : Reads (Client Z) Unit).Resumable where
  feed c u v := by
    by_cases short : u.length < 3
    · rw [show readUpdate pending c u = .more c u from if_pos short]
      rfl
    · have rects : u16 (u ++ v) 1 = u16 u 1 := u16_append v (by omega)
      unfold readUpdate
      rw [List.length_append, if_neg (by omega), if_neg short, rects,
        List.drop_append_of_le_length (by omega)]
      dsimp only
      split <;> rfl
  rest_le c q := by
    unfold readUpdate
    split
    · exact Nat.le_refl _
    · dsimp only
      split <;> simp [Outcome.rest]

/-- What the header of an update comes to. -/
theorem readUpdate_outcome (pending : Nat → Bool) (c : Client Z) (q : List UInt8) :
    match readUpdate pending c q with
    | .done _ c' q' => c'.flushing = c.flushing ∧ q'.length ≤ q.length
    | .more c' _ => c' = c
    | .paused c' q' => c'.flushing = true ∧ q'.length ≤ q.length
    | .failed _ _ => False := by
  unfold readUpdate
  by_cases short : q.length < 3
  · rw [if_pos short]
  · rw [if_neg short]
    dsimp only
    by_cases busy : pending c.updates.length
    · rw [if_pos busy]
      simp
    · rw [if_neg busy]
      simp

theorem normalMsg_rects (pending : Nat → Bool) {c : Client Z} (some : 0 < c.fbu.rects)
    (q : List UInt8) : normalMsg pending c q = readRects c q := if_pos some

theorem normalMsg_type (pending : Nat → Bool) {c : Client Z} (none : ¬0 < c.fbu.rects)
    (msgType : UInt8) (rest : List UInt8) : normalMsg pending c (msgType :: rest) =
      if msgType = 0 then ((readUpdate pending c rest).goback 0).bind fun _ => readRects
      else (handleOther msgType c rest).goback msgType := if_neg none

theorem resumable_normalMsg (pending : Nat → Bool) :
    (normalMsg pending : Reads (Client Z) Unit).Resumable where
  feed c u v := by
    have rects (c : Client Z) (u : List UInt8) :
        readRects c (u ++ v) = (readRects c u).feed (normalMsg pending) v := by
      rw [resumable_readRects.feed]
      cases waits : readRects c u with
      | done _ c' rest | paused c' rest | failed c' e => rfl
      | more c' rest => exact (if_pos (readRects_waits waits).2).symm
    by_cases some : 0 < c.fbu.rects
    · rw [normalMsg_rects pending some, normalMsg_rects pending some]
      exact rects c u
    · cases u with
      | nil =>
          rw [show normalMsg pending c [] = .more c [] from if_neg some]
          rfl
      | cons msgType rest =>
          rw [List.cons_append, normalMsg_type pending some, normalMsg_type pending some]
          split
          case isTrue =>
            rw [(resumable_readUpdate pending).feed]
            cases waits : readUpdate pending c rest with
            | done _ c' rest => exact rects c' rest
            | paused c' rest | failed c' e => rfl
            | more c' rest' =>
                have same := readUpdate_outcome pending c rest
                rw [waits] at same
                obtain rfl : c' = c := same
                exact ((normalMsg_type pending some 0 (rest' ++ v)).trans (if_pos rfl)).symm
          case isFalse other =>
            rw [(resumable_handleOther msgType).feed]
            cases waits : handleOther msgType c rest with
            | done _ c' rest | paused c' rest | failed c' e => rfl
            | more c' rest' =>
                have kept := handleOther_kept msgType c c rest (kept_refl c)
                rw [waits] at kept
                have none' : ¬0 < c'.fbu.rects := by rwa [kept.1]
                exact ((normalMsg_type pending none' msgType (rest' ++ v)).trans
                  (if_neg other)).symm
  rest_le c q := by
    unfold normalMsg
    split
    · exact resumable_readRects.rest_le c q
    · split
      · exact Nat.le_refl _
      case h_2 msgType rest =>
        split
        · have taken := (resumable_readUpdate pending).rest_le c rest
          revert taken
          cases readUpdate pending c rest with
          | done _ c' rest' =>
              exact fun taken => Nat.le_succ_of_le
                (Nat.le_trans (resumable_readRects.rest_le c' rest') taken)
          | more c' rest' => exact Nat.succ_le_succ
          | paused c' rest' | failed c' e => exact Nat.le_succ_of_le
        · exact Nat.le_trans (Outcome.goback_rest_le _ _)
            (Nat.succ_le_succ ((resumable_handleOther msgType).rest_le c rest))

/-! ## Pauses -/

/-- The display has shown the last update. -/
def flushed (c : Client Z) : Client Z := { c with flushing := false }

/-- Unread bytes, and rectangles that are to come without any more. -/
def rank (c : Client Z) (q : List UInt8) : Nat := 2 * q.length + if 0 < c.fbu.rects then 1 else 0

theorem readRects_down {c c' : Client Z} {q q' : List UInt8}
    (h : readRects c q = .done () c' q') :
    c'.flushing = c.flushing ∧ c'.fbu.rects = 0 ∧ q'.length ≤ q.length := by
  have steady := readRects_steady c c q (steady_refl c)
  have taken := resumable_readRects.rest_le c q
  rw [h] at steady taken
  exact ⟨steady.1.2.1, steady.2, taken⟩

theorem readRects_ne_paused {c c' : Client Z} {q q' : List UInt8} :
    readRects c q ≠ .paused c' q' := by
  intro h
  have steady := readRects_steady c c q (steady_refl c)
  rw [h] at steady
  exact steady

theorem rank_cons_lt {c c' : Client Z} {msgType : UInt8} {q rest : List UInt8}
    (none : c'.fbu.rects = 0) (taken : q.length ≤ rest.length) :
    rank c' q < rank c (msgType :: rest) := by
  simp only [rank, none, List.length_cons]
  split <;> omega

/-- What a call of the loop comes to: it is further on, and only an update pauses. -/
theorem normalMsg_outcome (pending : Nat → Bool) (c : Client Z) (q : List UInt8) :
    match normalMsg pending c q with
    | .done _ c' q' => c'.flushing = c.flushing ∧ rank c' q' < rank c q
    | .more c' _ => c'.flushing = c.flushing
    | .paused c' q' => c'.flushing = true ∧ rank c'.flushed q' < rank c q
    | .failed _ _ => True := by
  by_cases some : 0 < c.fbu.rects
  · rw [normalMsg_rects pending some]
    cases called : readRects c q with
    | done _ c' rest =>
        obtain ⟨flushing, none, taken⟩ := readRects_down called
        refine ⟨flushing, ?_⟩
        simp only [rank, none, if_pos some, Nat.lt_irrefl, if_false]
        omega
    | more c' rest => exact (readRects_waits called).1.2.1
    | paused c' rest => exact absurd called readRects_ne_paused
    | failed c' e => trivial
  · cases q with
    | nil =>
        rw [show normalMsg pending c [] = .more c [] from if_neg some]
    | cons msgType rest =>
        rw [normalMsg_type pending some]
        by_cases update : msgType = 0
        · rw [if_pos update]
          have header := readUpdate_outcome pending c rest
          revert header
          cases readUpdate pending c rest with
          | failed c' e => exact False.elim
          | more c' rest' => exact fun same => congrArg Client.flushing same
          | paused c' rest' =>
              rintro ⟨flushing, taken⟩
              refine ⟨flushing, ?_⟩
              simp only [rank, List.length_cons]
              split <;> omega
          | done _ c' rest' =>
              rintro ⟨flushing, taken⟩
              simp only [Outcome.goback, Outcome.bind]
              cases called : readRects c' rest' with
              | done _ c'' rest'' =>
                  obtain ⟨flushing', none, taken'⟩ := readRects_down called
                  exact ⟨flushing'.trans flushing, rank_cons_lt none (Nat.le_trans taken' taken)⟩
              | more c'' rest'' => exact (readRects_waits called).1.2.1.trans flushing
              | paused c'' rest'' => exact absurd called readRects_ne_paused
              | failed c'' e => trivial
        · rw [if_neg update]
          have kept := handleOther_kept msgType c c rest (kept_refl c)
          have taken := (resumable_handleOther msgType).rest_le c rest
          revert kept taken
          cases handleOther msgType c rest with
          | done _ c' rest' =>
              intro kept taken
              exact ⟨kept.2.2.1, rank_cons_lt (by rw [kept.1]; omega) taken⟩
          | more c' rest' => exact fun kept _ => kept.2.2.1
          | paused c' rest' => exact fun kept _ => kept.elim
          | failed c' e => exact fun _ _ => trivial

theorem sleeps (pending : Nat → Bool) :
    Sleeps (fun c : Client Z => c.flushing) flushed rank (normalMsg pending) where
  resumable := resumable_normalMsg pending
  down c q c' q' _ h := by
    have outcome := normalMsg_outcome pending c q
    rcases h with h | ⟨c₁, h, rfl⟩
    · rw [h] at outcome
      exact outcome.2
    · rw [h] at outcome
      exact outcome.2
  awake c q c' q' up h := by
    have outcome := normalMsg_outcome pending c q
    rcases h with h | h
    · rw [h] at outcome
      exact outcome.1 ▸ up
    · rw [h] at outcome
      exact outcome ▸ up
  pauses c q c' q' h := by
    have outcome := normalMsg_outcome pending c q
    rw [h] at outcome
    exact outcome.1
  wakes c := Bool.false_ne_true

end Client

end VmServer.Novnc
