import VmServer.Novnc.Arrival

/-!
# What updates come to

Whatever the server sends: every update that has been read is shown once, and
the next one is asked for at once, and a rectangle is drawn inside of what its
header says. All of this is so up to the first fault, where the model's run
ends; a client that goes on with what is left of its queue is not followed.
-/

namespace VmServer.Novnc

open Proxy Handler

/-! ## Effects -/

/-- A request for an update. -/
def Effect.asks : Effect → Bool
  | .send bytes => bytes.head? = some 3
  | _ => false

/-- The end of an update. -/
def Effect.shows : Effect → Bool
  | .draw op => op = .flip
  | _ => false

/-- What may be drawn for a rectangle with this encoding. -/
def DrawOp.Serves (r : Rect) (encoding : Int) : DrawOp → Prop
  | .resize width height =>
      (encoding = -223 ∨ encoding = -308) ∧ width = r.width ∧ height = r.height
  | .fillRect t _ => encoding = 2 ∨ t.Inside r
  | op => op.Fits r

/-- What may be done for a rectangle. -/
def Effect.Serves (r : Rect) (encoding : Int) : Effect → Prop
  | .draw op => op.Serves r encoding
  | e => e.asks = false

/-- What may be done between updates. -/
def Effect.Aside : Effect → Prop
  | .draw _ => False
  | e => e.asks = false

theorem DrawOp.Fits.serves {r : Rect} {encoding : Int} {op : DrawOp} (fits : op.Fits r) :
    op.Serves r encoding := by
  cases op with
  | fillRect t color => exact .inr fits
  | resize width height => exact fits.elim
  | blitImage t pixels => exact fits
  | copyImage oldX oldY t => exact fits
  | imageRect t mime data => exact fits
  | h264 t flags payload => exact fits
  | flip => exact fits

theorem DrawOp.IsFill.serves {r : Rect} {op : DrawOp} (fills : op.IsFill) : op.Serves r 2 := by
  cases op with
  | fillRect t color => exact .inl rfl
  | blitImage | copyImage | imageRect | h264 | resize | flip => exact fills.elim

theorem Effect.Serves.silent {r : Rect} {encoding : Int} {e : Effect}
    (serves : e.Serves r encoding) : e.asks = false ∧ e.shows = false := by
  cases e with
  | draw op =>
      refine ⟨rfl, decide_eq_false ?_⟩
      rintro rfl
      exact serves
  | send bytes => exact ⟨serves, rfl⟩
  | clipboard | bell | desktopname | capabilities | cursor => exact ⟨rfl, rfl⟩

theorem Effect.Aside.silent {e : Effect} (aside : e.Aside) : e.asks = false ∧ e.shows = false := by
  cases e with
  | draw op => exact aside.elim
  | send bytes => exact ⟨aside, rfl⟩
  | clipboard | bell | desktopname | capabilities | cursor => exact ⟨rfl, rfl⟩

namespace Client

variable {Z : Zlib}

/-! ## What the handlers add -/

/-- Effects of a kind were added. Continuous updates stay off where the server does not have
them. -/
structure Added (ok : Effect → Prop) (c c' : Client Z) : Prop where
  log : ∃ es, c'.log = c.log ++ es ∧ ∀ e ∈ es, ok e
  headers : c'.headers = c.headers
  continuous : c'.supportsContinuousUpdates = false → c.supportsContinuousUpdates = false ∧
    c'.enabledContinuousUpdates = c.enabledContinuousUpdates

/-- The tiles that hextile has left are the same, too. -/
structure Grown (ok : Effect → Prop) (c c' : Client Z) : Prop extends Added ok c c' where
  hextile : c'.hextile = c.hextile

variable {ok : Effect → Prop}

/-- A client that is the same as far as this goes. -/
theorem grown_same {c c' : Client Z} (log : c'.log = c.log) (headers : c'.headers = c.headers)
    (hextile : c'.hextile = c.hextile)
    (supports : c'.supportsContinuousUpdates = c.supportsContinuousUpdates)
    (enabled : c'.enabledContinuousUpdates = c.enabledContinuousUpdates) : Grown ok c c' :=
  ⟨⟨⟨[], by simp [log], by simp⟩, headers, fun none => ⟨supports ▸ none, enabled⟩⟩, hextile⟩

theorem grown_refl (c : Client Z) : Grown ok c c := grown_same rfl rfl rfl rfl rfl

theorem grown_effect (c : Client Z) {e : Effect} (fits : ok e) : Grown ok c (c.effect e) :=
  ⟨⟨⟨[e], rfl, by simpa using fits⟩, rfl, fun none => ⟨none, rfl⟩⟩, rfl⟩

theorem Grown.trans {c c' c'' : Client Z} (h : Grown ok c c') (h' : Grown ok c' c'') :
    Grown ok c c'' := by
  obtain ⟨es, log, all⟩ := h.log
  obtain ⟨es', log', all'⟩ := h'.log
  refine ⟨⟨⟨es ++ es', by rw [log', log, List.append_assoc], ?_⟩, h'.headers.trans h.headers,
    fun none => ?_⟩, h'.hextile.trans h.hextile⟩
  · exact fun e member => (List.mem_append.mp member).elim (all e) (all' e)
  · obtain ⟨none, enabled⟩ := h'.continuous none
    obtain ⟨none, enabled'⟩ := h.continuous none
    exact ⟨none, enabled.trans enabled'⟩

/-- The same client does something. -/
theorem grown_then {c c₁ : Client Z} {e : Effect} (fits : ok e) (log : c₁.log = c.log)
    (headers : c₁.headers = c.headers) (hextile : c₁.hextile = c.hextile)
    (supports : c₁.supportsContinuousUpdates = c.supportsContinuousUpdates)
    (enabled : c₁.enabledContinuousUpdates = c.enabledContinuousUpdates) :
    Grown ok c (c₁.effect e) :=
  (grown_same log headers hextile supports enabled).trans (grown_effect c₁ fits)

theorem updateContinuousUpdates_grown (c : Client Z)
    (sends : ∀ w h, ok (.send (Messages.enableContinuousUpdates 1 0 0 w h))) :
    Grown ok c c.updateContinuousUpdates := by
  unfold updateContinuousUpdates
  split
  · exact grown_effect c (sends _ _)
  · exact grown_refl c

theorem updateCursor_grown (c : Client Z) (pixels : List Rgba) (hotx hoty w h : Nat)
    (shows : ∀ pixels hotx hoty w h, ok (.cursor pixels hotx hoty w h)) :
    Grown ok c (c.updateCursor pixels hotx hoty w h) := by
  unfold updateCursor
  split <;> exact grown_effect c (shows _ _ _ _ _)

theorem sized_grown {size : Client Z → List UInt8 → Option Nat}
    {use : Client Z → List UInt8 → Ending (Client Z) Fault Unit} (c : Client Z)
    (uses : ∀ data, Ending.Holds (Grown ok c) (fun _ => Grown ok c) (use c data))
    (q : List UInt8) : (sized size use c q).Holds (Grown ok c) fun _ => Grown ok c :=
  holds_sized (grown_refl c) fun data _ _ => uses data

theorem update_grown {f : Client Z → Client Z} (c : Client Z) (grown : Grown ok c (f c))
    (q : List UInt8) : (update f c q : Outcome (Client Z) UInt8 Fault Unit).Holds (Grown ok c)
      fun _ => Grown ok c := grown

theorem clientCutText_aside (data : List UInt8) (extended : Bool) :
    (Effect.send (Messages.clientCutText data extended)).Aside := rfl

theorem clientFence_aside (flags : Int) (payload : List UInt16) :
    (Effect.send (Messages.clientFence flags payload)).Aside := rfl

theorem enableContinuousUpdates_aside (w h : Int) :
    (Effect.send (Messages.enableContinuousUpdates 1 0 0 w h)).Aside := rfl

theorem clipboard_aside (text : String) : (Effect.clipboard text).Aside := rfl

theorem extendedCutText_grown (c : Client Z) (data : List UInt8) :
    Ending.Holds (Grown Effect.Aside c) (fun _ => Grown Effect.Aside c)
      (c.extendedCutText data) := by
  have sent (bytes : List UInt8) :
      Grown Effect.Aside c (c.effect (.send (Messages.clientCutText bytes true))) :=
    grown_effect c (clientCutText_aside _ _)
  unfold extendedCutText
  dsimp only
  split
  · exact grown_then (clientCutText_aside _ _) rfl rfl rfl rfl rfl
  repeat' split
  all_goals first
    | exact grown_refl c
    | exact grown_same rfl rfl rfl rfl rfl
    | exact sent _
    | exact grown_then (clipboard_aside _) rfl rfl rfl rfl rfl

/-- Messages that are not updates draw nothing and ask for no update. -/
theorem handleOther_grown (msgType : UInt8) (c : Client Z) (q : List UInt8) :
    (handleOther msgType c q).Holds (Grown Effect.Aside c) fun _ => Grown Effect.Aside c := by
  unfold handleOther
  split_ifs
  · exact grown_refl c
  · refine update_grown c (grown_effect c ?_) q
    rfl
  · refine sized_grown c (fun data => ?_) q
    dsimp only
    split_ifs
    · exact grown_refl c
    · refine grown_effect c ?_
      rfl
    · exact grown_refl c
    · exact extendedCutText_grown c data
  · refine update_grown c ?_ q
    unfold endOfContinuousUpdates
    dsimp only
    split
    · have supported : Grown Effect.Aside c { c with
          supportsContinuousUpdates := true, enabledContinuousUpdates := true } :=
        ⟨⟨⟨[], by simp, by simp⟩, rfl, nofun⟩, rfl⟩
      exact supported.trans
        (updateContinuousUpdates_grown _ fun w h => enableContinuousUpdates_aside w h)
    · exact ⟨⟨⟨[], by simp, by simp⟩, rfl, nofun⟩, rfl⟩
  · refine sized_grown c (fun data => ?_) q
    dsimp only
    split_ifs
    · exact grown_then (clientFence_aside _ _) rfl rfl rfl rfl rfl
    · exact grown_same rfl rfl rfl rfl rfl
  · refine sized_grown c (fun data => ?_) q
    dsimp only
    split_ifs
    · exact grown_refl c
    · refine grown_then ?_ rfl rfl rfl rfl rfl
      rfl
    · exact grown_refl c
  · exact grown_refl c

/-! ## Rectangles -/

theorem drew_log {base : List Effect} {drawn : DrawOp → Prop} {δ : Type} {d : Drawing δ}
    (drew : Drew base drawn d) (fits : ∀ op, drawn op → ok (.draw op)) :
    ∃ es, d.log = base ++ es ∧ ∀ e ∈ es, ok e := by
  obtain ⟨ops, log, all⟩ := drew
  refine ⟨ops.map .draw, log, fun e member => ?_⟩
  obtain ⟨op, drawn, rfl⟩ := List.mem_map.mp member
  exact fits op (all op drawn)

/-- A decoder other than that of hextile. -/
theorem within_grown {δ : Type} {l : Lens (Client Z) (Drawing δ)} {h : Reads (Drawing δ) Unit}
    {drawn : DrawOp → Prop} (draws : ∀ base, Ensures (Drew base drawn) h fun _ => Drew base drawn)
    (fits : ∀ op, drawn op → ok (.draw op)) (c : Client Z) (get : (l.get c).log = c.log)
    (put : ∀ d, (l.put c d).log = d.log ∧ Grown ok { c with log := d.log } (l.put c d))
    (q : List UInt8) : (within l h c q).Holds (Grown ok c) fun _ => Grown ok c := by
  have placed (d : Drawing δ) (drew : Drew c.log drawn d) : Grown ok c (l.put c d) := by
    obtain ⟨log, grown⟩ := put d
    exact ⟨⟨log ▸ drew_log drew fits, grown.headers, grown.continuous⟩, grown.hextile⟩
  have called := draws c.log (l.get c) q (get ▸ Drew.refl (l.get c))
  unfold within
  revert called
  cases h (l.get c) q with
  | done _ d rest | more d rest | failed d e => exact placed d
  | paused d rest => exact id

/-- The tiles that hextile has left are those of the rectangle. -/
def Ready (r : Rect) (encoding : Int) (c : Client Z) : Prop :=
  if encoding = 5 then HextileDecoder.Begun r (hextileLens.get c) else c.hextile.tiles = 0

theorem Ready.of_hextile {r : Rect} {encoding : Int} {c c' : Client Z} (ready : Ready r encoding c)
    (same : c'.hextile = c.hextile) : Ready r encoding c' := by
  change if encoding = 5 then HextileDecoder.Begun r ⟨c'.hextile, []⟩ else c'.hextile.tiles = 0
  rw [same]
  exact ready

/-- What a rectangle comes to: it is drawn, and when it is over hextile has no tiles left. -/
def Handled (r : Rect) (encoding : Int) (c : Client Z)
    (o : Outcome (Client Z) UInt8 Fault Unit) : Prop :=
  o.Holds (fun c' => Added (Effect.Serves r encoding) c c' ∧ Ready r encoding c')
    fun _ c' => Added (Effect.Serves r encoding) c c' ∧ c'.hextile.tiles = 0

theorem handled_of_grown {r : Rect} {encoding : Int} {c : Client Z}
    {o : Outcome (Client Z) UInt8 Fault Unit} (other : encoding ≠ 5) (ready : Ready r encoding c)
    (grown : o.Holds (Grown (Effect.Serves r encoding) c)
      fun _ => Grown (Effect.Serves r encoding) c) : Handled r encoding c o := by
  have idle : c.hextile.tiles = 0 := by
    unfold Ready at ready
    rwa [if_neg other] at ready
  have after {c' : Client Z} (grown : Grown (Effect.Serves r encoding) c c') :
      Added (Effect.Serves r encoding) c c' ∧ c'.hextile.tiles = 0 :=
    ⟨grown.toAdded, grown.hextile ▸ idle⟩
  unfold Handled
  revert grown
  cases o with
  | done _ c' rest => exact after
  | more c' rest | failed c' e =>
      refine fun grown => ⟨grown.toAdded, ?_⟩
      unfold Ready
      rw [if_neg other]
      exact (after grown).2
  | paused c' rest => exact id

/-- A decoder that goes on where it was in the rectangle is called with the same one. -/
theorem hextile_handled (r : Rect) (c : Client Z) (q : List UInt8) (ready : Ready r 5 c) :
    Handled r 5 c (within hextileLens (HextileDecoder.decodeRect r) c q) := by
  have added {d : Drawing HextileDecoder} (drew : Drew c.log (·.Fits r) d) :
      Added (Effect.Serves r 5) c (hextileLens.put c d) :=
    ⟨drew_log drew fun op fits => fits.serves, rfl, fun none => ⟨none, rfl⟩⟩
  have start : Drew c.log (·.Fits r) (hextileLens.get c) := Drew.refl _
  have called := HextileDecoder.decodeRect_draws r (hextileLens.get c) q ⟨start, ready⟩
  unfold Handled within
  revert called
  cases HextileDecoder.decodeRect r (hextileLens.get c) q with
  | done _ d rest | more d rest | failed d e => exact fun called => ⟨added called.1, called.2⟩
  | paused d rest => exact id

theorem handleDataRect_handled (depth : Nat) (r : Rect) (c : Client Z) (q : List UInt8)
    (encoding : Int) (ready : Ready r encoding c) :
    Handled r encoding c (handleDataRect depth r encoding c q) := by
  have decoded {δ : Type} {l : Lens (Client Z) (Drawing δ)} {h : Reads (Drawing δ) Unit}
      {encoding : Int} (other : encoding ≠ 5)
      (draws : ∀ base, Ensures (Drew base (·.Fits r)) h fun _ => Drew base (·.Fits r))
      (get : (l.get c).log = c.log)
      (put : ∀ d, (l.put c d).log = d.log ∧
        Grown (Effect.Serves r encoding) { c with log := d.log } (l.put c d))
      (ready : Ready r encoding c) : Handled r encoding c (within l h c q) :=
    handled_of_grown other ready (within_grown draws (fun _ fits => fits.serves) c get put q)
  revert ready
  refine handleDataRect_of (motive := fun encoding h =>
    Ready r encoding c → Handled r encoding c (h c q)) (fun encoding e ready => ?_) ?_ encoding
  · exact ⟨(grown_refl c).toAdded, ready⟩
  simp only [decoders, List.forall_mem_cons]
  refine ⟨?_, ?_, ?_, hextile_handled r c q, ?_, ?_, ?_, ?_, ?_, ?_, by simp⟩
  · exact decoded (by decide) (fun _ => RawDecoder.decodeRect_draws depth r) rfl
      fun _ => ⟨rfl, grown_same rfl rfl rfl rfl rfl⟩
  · exact decoded (by decide) (fun _ => CopyRectDecoder.decodeRect_draws r) rfl
      fun _ => ⟨rfl, grown_same rfl rfl rfl rfl rfl⟩
  · exact fun ready => handled_of_grown (by decide) ready
      (within_grown (fun _ => RREDecoder.decodeRect_draws r) (fun _ fills => fills.serves) c rfl
        (fun _ => ⟨rfl, grown_same rfl rfl rfl rfl rfl⟩) q)
  · exact decoded (by decide) (fun _ => ZlibDecoder.decodeRect_draws r) rfl
      fun _ => ⟨rfl, grown_same rfl rfl rfl rfl rfl⟩
  · exact decoded (by decide)
      (fun _ => TightDecoder.decodeRect_draws (TightDecoder.methods_draws r)) rfl
      fun _ => ⟨rfl, grown_same rfl rfl rfl rfl rfl⟩
  · exact decoded (by decide)
      (fun _ => TightDecoder.decodeRect_draws (TightPNGDecoder.methods_draws r)) rfl
      fun _ => ⟨rfl, grown_same rfl rfl rfl rfl rfl⟩
  · exact decoded (by decide) (fun _ => ZRLEDecoder.decodeRect_draws r) rfl
      fun _ => ⟨rfl, grown_same rfl rfl rfl rfl rfl⟩
  · exact decoded (by decide) (fun _ => JPEGDecoder.decodeRect_draws r) rfl
      fun _ => ⟨rfl, grown_same rfl rfl rfl rfl rfl⟩
  · exact decoded (by decide) (fun _ => H264Decoder.decodeRect_draws r) rfl
      fun _ => ⟨rfl, grown_same rfl rfl rfl rfl rfl⟩

theorem resize_grown {r : Rect} {encoding : Int} {c c₁ : Client Z}
    (screen : encoding = -223 ∨ encoding = -308)
    (same : Grown (Effect.Serves r encoding) c c₁) :
    Grown (Effect.Serves r encoding) c (c₁.resize r.width r.height) := by
  unfold resize
  refine Grown.trans ?_ (updateContinuousUpdates_grown _ fun _ _ => rfl)
  exact same.trans (grown_then ⟨screen, rfl, rfl⟩ rfl rfl rfl rfl rfl)

/-- A rectangle is handled inside of what its header says. -/
theorem handleRect_handled {k : FBU × Nat} {c : Client Z} {encoding : Int}
    (begun : k.1.encoding = some encoding) (q : List UInt8) (ready : Ready k.1.rect encoding c) :
    Handled k.1.rect encoding c (handleRect k c q) := by
  have cursor (pixels : List Rgba) (hotx hoty w h : Nat) :
      Grown (Effect.Serves k.1.rect encoding) c (c.updateCursor pixels hotx hoty w h) :=
    updateCursor_grown c pixels hotx hoty w h fun _ _ _ _ _ => rfl
  unfold handleRect
  rw [begun]
  dsimp only
  split_ifs with last vmware classic extended name size screens pointer led
  · exact handled_of_grown (by omega) ready (grown_same rfl rfl rfl rfl rfl)
  · refine handled_of_grown (by omega) ready (sized_grown c (fun data => ?_) q)
    dsimp only
    split_ifs
    · exact grown_refl c
    · exact cursor _ _ _ _ _
    · exact cursor _ _ _ _ _
    · exact grown_refl c
  · refine handled_of_grown (by omega) ready (sized_grown c (fun data => ?_) q)
    exact cursor _ _ _ _ _
  · exact handled_of_grown (by omega) ready (grown_same rfl rfl rfl rfl rfl)
  · refine handled_of_grown (by omega) ready (sized_grown c (fun data => ?_) q)
    exact grown_then rfl rfl rfl rfl rfl rfl
  · exact handled_of_grown (by omega) ready (resize_grown (.inl size) (grown_refl c))
  · refine handled_of_grown (by omega) ready (sized_grown c (fun data => ?_) q)
    dsimp only [Ending.Holds]
    split_ifs
    all_goals first
      | exact grown_same rfl rfl rfl rfl rfl
      | exact resize_grown (.inr screens) (grown_same rfl rfl rfl rfl rfl)
  · exact handled_of_grown (by omega) ready (grown_same rfl rfl rfl rfl rfl)
  · refine handled_of_grown (by omega) ready (sized_grown c (fun data => ?_) q)
    exact grown_same rfl rfl rfl rfl rfl
  · exact handleDataRect_handled k.2 k.1.rect c q encoding ready

/-! ## What has been done -/

/-- How many updates were shown. -/
def shown (c : Client Z) : Nat := c.log.countP Effect.shows

/-- An update is shown and the next one is asked for, the one right behind the other, and neither
is done otherwise. -/
inductive Answered : List Effect → Prop
  | nothing : Answered []
  | aside {log : List Effect} {e : Effect} (before : Answered log)
      (silent : e.asks = false ∧ e.shows = false) : Answered (log ++ [e])
  | update {log : List Effect} {bytes : List UInt8} (before : Answered log)
      (asks : (Effect.send bytes).asks = true) : Answered (log ++ [.draw .flip, .send bytes])

theorem Answered.append {log es : List Effect} (answered : Answered log)
    (silent : ∀ e ∈ es, e.asks = false ∧ e.shows = false) : Answered (log ++ es) := by
  induction es generalizing log with
  | nil => rwa [List.append_nil]
  | cons e es ih =>
      rw [List.append_cons]
      exact ih (answered.aside (silent e List.mem_cons_self))
        fun f member => silent f (List.mem_cons_of_mem e member)

/-- Updates without rectangles that found the display busy. -/
def lost (pending : Nat → Bool) (updates : List Nat) : Nat :=
  updates.zipIdx.countP fun update => update.1 = 0 && pending update.2

theorem lost_append (pending : Nat → Bool) (updates : List Nat) (n : Nat) :
    lost pending (updates ++ [n]) =
      lost pending updates + if n = 0 ∧ pending updates.length then 1 else 0 := by
  simp [lost, List.zipIdx_append, List.countP_append, List.countP_singleton]

/-- The last header that was read before so much had been done. -/
def headerAt (headers : List (Nat × Rect × Int)) (i : Nat) : Option (Nat × Rect × Int) :=
  (headers.filter (·.1 ≤ i)).getLast?

theorem headerAt_append_of_lt {headers : List (Nat × Rect × Int)} {i n : Nat} (earlier : i < n)
    (header : Rect × Int) : headerAt (headers ++ [(n, header)]) i = headerAt headers i := by
  simp [headerAt, List.filter_append, Nat.not_le.mpr earlier]

theorem headerAt_of_marks {headers : List (Nat × Rect × Int)} {i : Nat}
    (marks : ∀ h ∈ headers, h.1 ≤ i) : headerAt headers i = headers.getLast? := by
  rw [headerAt, List.filter_eq_self.mpr fun h member => decide_eq_true (marks h member)]

/-- What is drawn after these headers is the end of an update or serves the last of them. -/
def Served (header : Option (Nat × Rect × Int)) (e : Effect) : Prop :=
  ∀ op, e = .draw op → op = .flip ∨
    ∃ n r encoding, header = some (n, r, encoding) ∧ op.Serves r encoding

/-- What was done, with the header that was last read by then. -/
def Drawn (headers : List (Nat × Rect × Int)) (log : List Effect) : Prop :=
  ∀ i e, log[i]? = some e → Served (headerAt headers i) e

theorem Drawn.append {headers : List (Nat × Rect × Int)} {log es : List Effect}
    (drawn : Drawn headers log) (marks : ∀ h ∈ headers, h.1 ≤ log.length)
    (served : ∀ e ∈ es, Served headers.getLast? e) : Drawn headers (log ++ es) := by
  intro i e at_i
  by_cases old : i < log.length
  · rw [List.getElem?_append_left old] at at_i
    exact drawn i e at_i
  · rw [List.getElem?_append_right (Nat.not_lt.mp old)] at at_i
    rw [headerAt_of_marks fun h member => Nat.le_trans (marks h member) (Nat.not_lt.mp old)]
    exact served e (List.mem_of_getElem? at_i)

theorem Drawn.header {headers : List (Nat × Rect × Int)} {log : List Effect}
    (drawn : Drawn headers log) (header : Rect × Int) :
    Drawn (headers ++ [(log.length, header)]) log := by
  intro i e at_i
  obtain ⟨old, -⟩ := List.getElem?_eq_some_iff.mp at_i
  rw [headerAt_append_of_lt old]
  exact drawn i e at_i

/-- What has been done so far, with a number of updates under way. -/
structure Sound (pending : Nat → Bool) (n : Nat) (c : Client Z) : Prop where
  marks : ∀ h ∈ c.headers, h.1 ≤ c.log.length
  drawn : Drawn c.headers c.log
  tally : c.shown + lost pending c.updates + n = c.updates.length
  requests : c.supportsContinuousUpdates = false →
    c.enabledContinuousUpdates = false ∧ Answered c.log

variable {pending : Nat → Bool} {n : Nat}

theorem Sound.added {c c' : Client Z} (sound : Sound pending n c) (added : Added ok c c')
    (updates : c'.updates = c.updates) (silent : ∀ e, ok e → e.asks = false ∧ e.shows = false)
    (served : ∀ e, ok e → Served c.headers.getLast? e) : Sound pending n c' := by
  obtain ⟨es, log, all⟩ := added.log
  have shown : c'.shown = c.shown := by
    have nothing : es.countP Effect.shows = 0 :=
      List.countP_eq_zero.mpr fun e member => by simp [silent e (all e member)]
    rw [Client.shown, Client.shown, log, List.countP_append, nothing, Nat.add_zero]
  refine ⟨?_, ?_, ?_, fun none => ?_⟩
  · rw [added.headers, log, List.length_append]
    exact fun h member => Nat.le_add_right_of_le (sound.marks h member)
  · rw [added.headers, log]
    exact sound.drawn.append sound.marks fun e member => served e (all e member)
  · rw [shown, updates]
    exact sound.tally
  · obtain ⟨none, same⟩ := added.continuous none
    obtain ⟨off, answered⟩ := sound.requests none
    exact ⟨same.trans off, log ▸ answered.append fun e member => silent e (all e member)⟩

/-- Hextile has tiles left only of the rectangle that is being read. -/
structure Clean (c : Client Z) : Prop where
  idle : c.fbu.encoding = none → c.hextile.tiles = 0
  reading : ∀ encoding, c.fbu.encoding = some encoding → Ready c.fbu.rect encoding c ∧
    ∃ n, c.headers.getLast? = some (n, c.fbu.rect, encoding)

theorem serves_served {headers : List (Nat × Rect × Int)} {m : Nat} {r : Rect} {encoding : Int}
    (last : headers.getLast? = some (m, r, encoding)) (e : Effect) (serves : e.Serves r encoding) :
    Served headers.getLast? e := by
  rintro op rfl
  exact .inr ⟨m, r, encoding, last, serves⟩

/-- A header is read: nothing has been drawn behind it yet. -/
theorem Sound.header {c : Client Z} (sound : Sound pending n c) (fbu : FBU) (header : Rect × Int) :
    Sound pending n { c with fbu, headers := c.headers ++ [(c.log.length, header)] } where
  marks h member := by
    rcases List.mem_append.mp member with old | new
    · exact sound.marks h old
    · exact Nat.le_of_eq (congrArg Prod.fst (List.mem_singleton.mp new))
  drawn := sound.drawn.header header
  tally := sound.tally
  requests := sound.requests

theorem readRectHeader_sound (c : Client Z) (q : List UInt8)
    (held : Sound pending n c ∧ Clean c) (ended : c.fbu.encoding = none) :
    (readRectHeader c q).Holds (fun c => Sound pending n c ∧ Clean c)
      fun _ c => (Sound pending n c ∧ Clean c) ∧ c.fbu.encoding ≠ none := by
  have idle := held.2.idle ended
  refine holds_sized held fun data _ _ => ⟨⟨held.1.header _ _, ?_⟩, Option.some_ne_none _⟩
  refine ⟨fun unread => absurd unread (Option.some_ne_none _), fun encoding same => ?_⟩
  obtain rfl := Option.some.inj same
  refine ⟨?_, c.log.length, List.getLast?_concat⟩
  unfold Ready
  split
  · exact fun tiles => absurd idle tiles
  · exact idle

theorem branch_sound (c : Client Z) (q : List UInt8)
    (held : (Sound pending n c ∧ Clean c) ∧ c.fbu.encoding ≠ none) :
    (branch key handleRect c q).Holds
      (fun c => (Sound pending n c ∧ Clean c) ∧ c.fbu.encoding ≠ none)
      fun _ c => Sound pending n c ∧ c.hextile.tiles = 0 := by
  obtain ⟨⟨sound, clean⟩, begun⟩ := held
  obtain ⟨encoding, begun⟩ := Option.ne_none_iff_exists'.mp begun
  obtain ⟨ready, m, last⟩ := clean.reading encoding begun
  have added {c' : Client Z} (added : Added (Effect.Serves c.fbu.rect encoding) c c')
      (updates : c'.updates = c.updates) : Sound pending n c' :=
    sound.added added updates (fun _ => Effect.Serves.silent) (serves_served last)
  have handled := handleRect_handled (k := key c) begun q ready
  have kept := handleRect_kept (key c) c c q (kept_refl c)
  have both := Outcome.Holds.and handled kept
  unfold branch
  revert both
  cases handleRect (key c) c q with
  | done _ c' rest =>
      rintro ⟨⟨more, ended⟩, kept | kept⟩
      · exact ⟨added more kept.2.2.2, ended⟩
      · exact ⟨added more kept.2.2.2, ended⟩
  | more c' rest | failed c' e =>
      rintro ⟨⟨more, ready⟩, kept⟩
      refine ⟨⟨added more kept.2.2.2, ?_, ?_⟩, ?_⟩
      · rw [kept.1, begun]
        exact fun ended => absurd ended (Option.some_ne_none _)
      · rw [kept.1, more.headers]
        intro other same
        obtain rfl := Option.some.inj (begun.symm.trans same)
        exact ⟨ready, m, last⟩
      · rw [kept.1, begun]
        exact Option.some_ne_none _
  | paused c' rest => exact id

theorem readRect_sound : Ensures (fun c : Client Z => Sound pending n c ∧ Clean c) readRect
    fun _ c => Sound pending n c ∧ Clean c := by
  refine ensures_finish (Q := fun _ c => Sound pending n c ∧ c.hextile.tiles = 0)
    (ensures_stage_of (M := fun c => (Sound pending n c ∧ Clean c) ∧ c.fbu.encoding ≠ none)
      readRectHeader_sound (fun c held begun => ⟨held, begun⟩) branch_sound fun c held => held.1)
    fun _ c ⟨sound, idle⟩ => ⟨⟨sound.marks, sound.drawn, sound.tally, sound.requests⟩, ?_⟩
  exact ⟨fun _ => idle, fun _ same => absurd same.symm (Option.some_ne_none _)⟩

theorem flip_served (header : Option (Nat × Rect × Int)) : Served header (.draw .flip) := by
  intro op same
  obtain rfl := Effect.draw.inj same
  exact .inl rfl

theorem send_served (header : Option (Nat × Rect × Int)) (bytes : List UInt8) :
    Served header (.send bytes) := fun _ same => nomatch same

/-- The end of an update: it is shown, and the next one is asked for. -/
theorem Sound.shows {c : Client Z} (sound : Sound pending 1 c) :
    let c := c.effect (.draw .flip)
    Sound pending 0 (if c.enabledContinuousUpdates then c
      else c.effect (.send
        (Messages.fbUpdateRequest true (some 0) (some 0) c.fbWidth c.fbHeight))) := by
  have flip : Drawn c.headers (c.effect (.draw .flip)).log :=
    sound.drawn.append sound.marks fun e member =>
      List.mem_singleton.mp member ▸ flip_served c.headers.getLast?
  have marks : ∀ h ∈ c.headers, h.1 ≤ (c.effect (.draw .flip)).log.length := fun h member =>
    Nat.le_trans (sound.marks h member) (by simp [effect])
  have tally : (c.effect (.draw .flip)).shown + lost pending c.updates + 0 = c.updates.length := by
    have tally := sound.tally
    simp only [shown, effect, List.countP_append] at tally ⊢
    rw [show [Effect.draw .flip].countP Effect.shows = 1 from rfl]
    omega
  dsimp only
  split
  case isTrue continuous =>
    refine ⟨marks, flip, tally, fun unsupported => ?_⟩
    have off := (sound.requests unsupported).1
    exact absurd (off.symm.trans continuous) Bool.false_ne_true
  case isFalse =>
    refine ⟨fun h member => Nat.le_trans (marks h member) (by simp [effect]), ?_, ?_, ?_⟩
    · exact flip.append marks fun e member =>
        List.mem_singleton.mp member ▸ send_served c.headers.getLast? _
    · simpa [shown, effect, List.countP_append, Effect.shows] using tally
    · intro unsupported
      obtain ⟨off, answered⟩ := sound.requests unsupported
      refine ⟨off, ?_⟩
      have both : Answered (c.log ++ [.draw .flip, .send
          (Messages.fbUpdateRequest true (some 0) (some 0) c.fbWidth c.fbHeight)]) :=
        answered.update rfl
      simpa only [effect, List.append_assoc, List.singleton_append] using both

theorem readRects_sound : Ensures (fun c : Client Z => Sound pending 1 c ∧ Clean c) readRects
    fun _ c => Sound pending 0 c ∧ Clean c := by
  refine ensures_finish (ensures_loop readRect_descends fun c q held _ => readRect_sound c q held)
    fun _ c ⟨⟨sound, clean⟩, _⟩ => ⟨sound.shows, ?_⟩
  split <;> exact ⟨clean.idle, clean.reading⟩

/-- An update that is not over has rectangles to come. -/
theorem readRects_rects (c : Client Z) (q : List UInt8) :
    (readRects c q).Holds (fun c => 0 < c.fbu.rects) fun _ c => c.fbu.rects = 0 := by
  have steady := readRects_steady c c q (steady_refl c)
  cases called : readRects c q with
  | done _ c' rest =>
      rw [called] at steady
      exact steady.2
  | more c' rest => exact (readRects_waits called).2
  | paused c' rest => exact readRects_ne_paused called
  | failed c' e =>
      have stopped : loop (fun c : Client Z => 0 < c.fbu.rects) (fun c _ => c.fbu.rects) readRect
          c q = .failed c' e := by
        unfold readRects finish at called
        revert called
        cases loop (fun c : Client Z => 0 < c.fbu.rects) (fun c _ => c.fbu.rects) readRect c q with
        | done _ c₁ q₁ => exact fun called => nomatch called
        | more c₁ q₁ | paused c₁ q₁ | failed c₁ e => exact id
      obtain ⟨c₁, q₁, some, failed⟩ := loop_stops readRect_descends stopped fun _ _ => by simp
      have steady := readRect_steady c₁ c₁ q₁ ⟨steady_refl c₁, rfl⟩
      rw [failed] at steady
      exact some.trans_eq steady.2.symm

/-- The updates under way. -/
def underWay (c : Client Z) : Nat := if 0 < c.fbu.rects then 1 else 0

/-- What is so of a client at any time. -/
def Watched (pending : Nat → Bool) (c : Client Z) : Prop :=
  Sound pending c.underWay c ∧ Clean c

theorem readRects_watched {c : Client Z} (sound : Sound pending 1 c) (clean : Clean c)
    (q : List UInt8) : Watched pending (readRects c q).state := by
  have both := (readRects_sound c q ⟨sound, clean⟩).and (readRects_rects c q)
  unfold Watched underWay
  revert both
  cases readRects c q with
  | done _ c' rest =>
      rintro ⟨⟨sound, clean⟩, ended⟩
      exact ⟨by rwa [Outcome.state, ended], clean⟩
  | more c' rest | failed c' e =>
      rintro ⟨⟨sound, clean⟩, some⟩
      exact ⟨by rwa [Outcome.state, if_pos some], clean⟩
  | paused c' rest => exact False.elim

/-- The header of an update is read: the update is under way, or it is lost if it has no
rectangles and finds the display busy. -/
theorem headed_watched {c : Client Z} (watched : Watched pending c) (ended : ¬0 < c.fbu.rects)
    (busy : pending c.updates.length) (rects : Nat) :
    Watched pending { c.headed rects with flushing := true } := by
  obtain ⟨sound, clean⟩ := watched
  have tally := sound.tally
  rw [underWay, if_neg ended] at tally
  refine ⟨⟨sound.marks, sound.drawn, ?_, sound.requests⟩, clean.idle, clean.reading⟩
  have count : (c.headed rects).shown = c.shown := rfl
  have under : (c.headed rects).underWay = if 0 < rects then 1 else 0 := rfl
  change (c.headed rects).shown + lost pending (c.updates ++ [rects]) + (c.headed rects).underWay =
    (c.updates ++ [rects]).length
  rw [count, under, lost_append, List.length_append, List.length_singleton]
  by_cases none : rects = 0
  · rw [if_pos ⟨none, busy⟩, if_neg (by omega)]
    omega
  · rw [if_neg fun both => none both.1, if_pos (Nat.pos_of_ne_zero none)]
    omega

theorem headed_sound {c : Client Z} (sound : Sound pending 0 c)
    (idle : ¬pending c.updates.length) (rects : Nat) : Sound pending 1 (c.headed rects) := by
  have tally := sound.tally
  refine ⟨sound.marks, sound.drawn, ?_, sound.requests⟩
  have count : (c.headed rects).shown = c.shown := rfl
  change (c.headed rects).shown + lost pending (c.updates ++ [rects]) + 1 =
    (c.updates ++ [rects]).length
  rw [count, lost_append, if_neg fun both => idle both.2, List.length_append,
    List.length_singleton]
  omega

theorem normalMsg_watched (c : Client Z) (q : List UInt8) (watched : Watched pending c) :
    Watched pending (normalMsg pending c q).state := by
  have ⟨sound, clean⟩ := watched
  refine normalMsg_keeps watched q (fun some => ?_) (fun n ended busy => ?_)
    (fun n q ended idle => ?_) fun msgType q ended => ?_
  · rw [underWay, if_pos some] at sound
    exact readRects_watched sound clean q
  · exact headed_watched watched ended busy n
  · rw [underWay, if_neg ended] at sound
    exact readRects_watched (headed_sound sound idle n) ⟨clean.idle, clean.reading⟩ q
  · have grown := Outcome.Holds.state (handleOther_grown msgType c q)
    have kept := Outcome.Holds.state (handleOther_kept msgType c c q (kept_refl c))
    refine ⟨?_, ?_, ?_⟩
    · rw [underWay, kept.1]
      exact sound.added grown.toAdded kept.2.2.2 (fun _ => Effect.Aside.silent)
        fun e aside op same => by subst same; exact aside.elim
    · rw [kept.1, grown.hextile]
      exact clean.idle
    · rw [kept.1, grown.headers]
      exact fun encoding begun =>
        ⟨(clean.reading encoding begun).1.of_hextile grown.hextile,
          (clean.reading encoding begun).2⟩

/-- A client behind the handshake, that has read and done nothing yet. -/
structure Fresh (c : Client Z) : Prop where
  fbu : c.fbu = {}
  flushing : c.flushing = false
  updates : c.updates = []
  headers : c.headers = []
  log : c.log = []
  hextile : c.hextile = {}
  continuous : c.supportsContinuousUpdates = false ∧ c.enabledContinuousUpdates = false

theorem Fresh.watched {c : Client Z} (fresh : Fresh c) : Watched pending c := by
  refine ⟨⟨?_, ?_, ?_, ?_⟩, ?_, ?_⟩
  · rw [fresh.headers]
    exact fun h member => nomatch member
  · rw [fresh.log]
    exact fun i e at_i => nomatch at_i
  · rw [shown, fresh.log, fresh.updates, underWay, fresh.fbu]
    rfl
  · rw [fresh.log]
    exact fun _ => ⟨fresh.continuous.2, .nothing⟩
  · rw [fresh.hextile]
    exact fun _ => rfl
  · rw [fresh.fbu]
    exact fun _ same => nomatch same

theorem flushed_watched {c : Client Z} (watched : Watched pending c) :
    Watched pending c.flushed := by
  obtain ⟨sound, clean⟩ := watched
  exact ⟨⟨sound.marks, sound.drawn, sound.tally, sound.requests⟩, clean.idle, clean.reading⟩

theorem run_watched (pending : Nat → Bool) {c : Client Z} (fresh : Fresh c)
    (events : List (ReaderEvent UInt8)) :
    Watched pending (run pending c events).state :=
  (sleeps pending).reader_keeps normalMsg_watched (fun _ => flushed_watched) fresh.watched events

theorem fresh_plain : Fresh ({} : Client plain) := ⟨rfl, rfl, rfl, rfl, rfl, rfl, rfl, rfl⟩

end Client

end VmServer.Novnc
