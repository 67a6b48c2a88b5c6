import VmServer.Novnc.Hextile
import VmServer.Novnc.Jpeg
import VmServer.Novnc.Tight
import VmServer.Novnc.Zrle

/-!
# What the decoders draw

Whatever the server sends, a decoder draws inside the rectangle it was called
with, and it gives the canvas images that are not empty and have as many
pixels as they are large. RRE alone does not look at where its subrectangles
are.
-/

namespace VmServer.Novnc

open Handler

/-- One rectangle is part of another. -/
def Rect.Inside (t r : Rect) : Prop :=
  r.x ≤ t.x ∧ t.x + t.width ≤ r.x + r.width ∧ r.y ≤ t.y ∧ t.y + t.height ≤ r.y + r.height

theorem Rect.inside_refl (r : Rect) : r.Inside r :=
  ⟨Nat.le_refl _, Nat.le_refl _, Nat.le_refl _, Nat.le_refl _⟩

/-- What may be drawn for a rectangle. -/
def DrawOp.Fits (r : Rect) : DrawOp → Prop
  | .fillRect t _ | .copyImage _ _ t | .imageRect t _ _ | .h264 t _ _ => t.Inside r
  | .blitImage t pixels =>
      t.Inside r ∧ 0 < t.width ∧ 0 < t.height ∧ pixels.length = t.width * t.height
  | .resize _ _ | .flip => False

def DrawOp.IsFill : DrawOp → Prop
  | .fillRect _ _ => True
  | _ => False

variable {δ : Type} {base : List Effect} {ok : DrawOp → Prop}

/-- What was done before, and drawings of a kind. -/
def Drew (base : List Effect) (ok : DrawOp → Prop) (d : Drawing δ) : Prop :=
  ∃ ops : List DrawOp, d.log = base ++ ops.map .draw ∧ ∀ op ∈ ops, ok op

theorem Drew.refl (d : Drawing δ) : Drew d.log ok d := ⟨[], by simp, by simp⟩

/-- What keeps to drawings of a kind does not pause. -/
theorem Drew.ends {α : Type} {h : Reads (Drawing δ) α}
    (draws : ∀ base, Ensures (Drew base ok) h fun _ => Drew base ok) :
    Ensures (fun _ => True) h fun _ _ => True := by
  intro d q _
  have called := draws d.log d q (Drew.refl d)
  revert called
  cases h d q with
  | done a d' rest | more d' rest | failed d' e => exact fun _ => trivial
  | paused d' rest => exact id

theorem Drew.draw {d : Drawing δ} (h : Drew base ok d) {op : DrawOp} (fits : ok op) :
    Drew base ok (d.draw op) := by
  obtain ⟨ops, log, all⟩ := h
  refine ⟨ops ++ [op], ?_, ?_⟩
  · rw [Drawing.draw, log, List.map_append, List.append_assoc]
    rfl
  · intro op' member
    rcases List.mem_append.mp member with old | new
    · exact all op' old
    · exact List.mem_singleton.mp new ▸ fits

theorem Drew.set {d : Drawing δ} (h : Drew base ok d) (s : δ) : Drew base ok (d.set s) := h

theorem rgbxPixels_length (data : List UInt8) : (rgbxPixels data).length = data.length / 4 := by
  fun_induction rgbxPixels data with
  | case1 r g b x rest ih =>
      simp only [List.length_cons, ih]
      omega
  | case2 data short =>
      match data with
      | [] | [_] | [_, _] | [_, _, _] => simp
      | r :: g :: b :: x :: rest => exact absurd rfl (short r g b x rest)

theorem rgbPixels_length (data : List UInt8) : (rgbPixels data).length = data.length / 3 := by
  fun_induction rgbPixels data with
  | case1 r g b rest ih =>
      simp only [List.length_cons, ih]
      omega
  | case2 data short =>
      match data with
      | [] | [_] | [_, _] => simp
      | r :: g :: b :: rest => exact absurd rfl (short r g b rest)

theorem fits_blitImage {r : Rect} (wide : 0 < r.width) (high : 0 < r.height) {pixels : List Rgba}
    (count : pixels.length = r.width * r.height) : (DrawOp.blitImage r pixels).Fits r :=
  ⟨r.inside_refl, wide, high, count⟩

/-! ## Raw, CopyRect, RRE and Zlib -/

theorem RawDecoder.pixels_length {depth n : Nat} {data : List UInt8}
    (length : data.length = n * pixelSize depth) : (pixels depth data).length = n := by
  unfold pixels
  unfold pixelSize at length
  split at length
  case isTrue low => rw [if_pos low, List.length_map, length, Nat.mul_one]
  case isFalse deep => rw [if_neg deep, rgbxPixels_length, length, Nat.mul_div_cancel _ (by omega)]

theorem RawDecoder.decodeRect_draws (depth : Nat) (r : Rect) :
    Ensures (Drew base (·.Fits r)) (decodeRect depth r) fun _ => Drew base (·.Fits r) := by
  unfold decodeRect
  split
  case isTrue => exact ensures_update fun d h => h
  case isFalse nonempty =>
    refine ensures_stage (ensures_update fun d h => h.set _)
      ((ensures_loop (line_descends depth r) fun d q h left =>
        holds_sized h fun data announced _ => ?_).mono fun _ _ => And.left)
    have length := (Option.some.inj announced).symm
    have inside : (⟨r.x, r.y + (r.height - d.decoder.lines), r.width, 1⟩ : Rect).Inside r :=
      ⟨Nat.le_refl _, Nat.le_refl _, Nat.le_add_right _ _, by dsimp only; omega⟩
    have fits : (DrawOp.blitImage ⟨r.x, r.y + (r.height - d.decoder.lines), r.width, 1⟩
        (pixels depth data)).Fits r :=
      ⟨inside, by dsimp only; omega, Nat.one_pos, by rw [pixels_length length, Nat.mul_one]⟩
    exact (h.draw fits).set _

theorem CopyRectDecoder.decodeRect_draws (r : Rect) :
    Ensures (Drew base (·.Fits r)) (decodeRect r) fun _ => Drew base (·.Fits r) := by
  refine ensures_sized fun d q data h _ => ?_
  dsimp only
  split
  · exact h
  · exact h.draw r.inside_refl

/-- The background is the rectangle itself; the others are anywhere. -/
theorem RREDecoder.decodeRect_draws (r : Rect) :
    Ensures (Drew base DrawOp.IsFill) (decodeRect r) fun _ => Drew base DrawOp.IsFill := by
  have fill {d : Drawing RREDecoder} (h : Drew base DrawOp.IsFill d) (t : Rect) (color : Rgba) :
      Drew base DrawOp.IsFill (d.draw (.fillRect t color)) := h.draw trivial
  refine ensures_stage (ensures_sized fun d q data h _ => (fill h _ _).set _)
    ((ensures_loop (subrect_descends r) fun d q h _ =>
      holds_sized h fun data _ _ => ?_).mono fun _ _ => And.left)
  exact (fill h _ _).set _

theorem ZlibDecoder.decodeRect_draws {Z : Zlib} (r : Rect) :
    Ensures (Drew base (·.Fits r)) (decodeRect r : Reads (Drawing (ZlibDecoder Z)) Unit)
      fun _ => Drew base (·.Fits r) := by
  unfold decodeRect
  split
  case isTrue => exact ensures_update fun d h => h
  case isFalse nonempty =>
    refine ensures_stage (ensures_sized fun _ _ _ h _ => h.set _)
      (ensures_sized fun d q data h _ => ?_)
    split
    case h_1 => exact h
    case h_2 data zlib inflated =>
      refine Drew.set (h.draw (fits_blitImage (by omega) (by omega) ?_)) _
      rw [rgbxPixels_length, Z.inflate_length inflated, Nat.mul_div_cancel _ (by omega)]

theorem H264Decoder.decodeRect_draws (r : Rect) :
    Ensures (Drew base (·.Fits r)) (decodeRect r) fun _ => Drew base (·.Fits r) := by
  refine ensures_sized fun _ _ data h _ => ?_
  cases H264Parser.parse (data.drop 8) with
  | some message => exact h
  | none => exact h.draw r.inside_refl

theorem JPEGDecoder.decodeRect_draws (r : Rect) :
    Ensures (Drew base (·.Fits r)) (decodeRect r) fun _ => Drew base (·.Fits r) := by
  refine ensures_finish (ensures_loop readSegment_descends fun d q h _ =>
    holds_sized h fun data _ _ => ?_) fun _ d h => ?_
  · dsimp only
    split
    · exact h
    · split
      · exact h
      · exact h.set _
  · unfold drawImage
    dsimp only
    split
    · exact h.1
    case h_2 sofIndex _ =>
      refine Drew.set (h.1.draw ?_) _
      exact r.inside_refl

/-! ## ZRLE -/

namespace ZRLEDecoder

variable {Z : Zlib}

/-- What an unpacking comes to, if it does not throw. -/
def Yields {α : Type} (m : Unpack Z α) (P : α → Prop) : Prop :=
  ∀ s a s', m s = .ok (a, s') → P a

section Yields

variable {α γ : Type} {P : α → Prop} {R : γ → Prop}

theorem yields_pure {a : α} (h : P a) : Yields (pure a : Unpack Z α) P := by
  intro s a' s' same
  obtain ⟨rfl, -⟩ := Prod.mk.inj (Except.ok.inj same)
  exact h

theorem yields_bind {m : Unpack Z α} {f : α → Unpack Z γ} (first : Yields m P)
    (second : ∀ a, P a → Yields (f a) R) : Yields (m >>= f) R := by
  intro s c s' same
  change (m s >>= fun p => f p.1 p.2) = _ at same
  cases called : m s with
  | error e => rw [called] at same; cases same
  | ok p =>
      rw [called] at same
      exact second p.1 (first s p.1 p.2 called) p.2 c s' same

theorem yields_true (m : Unpack Z α) : Yields m fun _ => True := fun _ _ _ _ => trivial

theorem yields_throw (e : Fault) : Yields (throw e : Unpack Z α) P := fun _ _ _ same => nomatch same

theorem yields_ite {c : Prop} [Decidable c] {m n : Unpack Z α} (yes : c → Yields m P)
    (no : ¬c → Yields n P) : Yields (if c then m else n) P := by
  split
  case isTrue h => exact yes h
  case isFalse h => exact no h

end Yields

theorem inflate_yields (expected : Nat) :
    Yields (inflate expected : Unpack Z _) (·.length = expected) := by
  intro s bytes s' same
  unfold inflate at same
  split at same
  · cases same
  case h_2 bytes' inflator inflated =>
    obtain ⟨rfl, -⟩ := Prod.mk.inj (Except.ok.inj same)
    exact Z.inflate_length inflated

theorem readPixels_yields (pixels : Nat) :
    Yields (readPixels pixels : Unpack Z _) (pixels ≤ ·.length) := by
  refine yields_bind (inflate_yields _) fun buffer length => ?_
  intro s data s' same
  obtain ⟨rfl, -⟩ := Prod.mk.inj (Except.ok.inj same)
  rw [List.length_append, rgbPixels_length, length, Nat.mul_div_cancel_left _ (by omega)]
  exact Nat.le_add_right _ _

theorem paletteRow_yields (palette : List Rgba) (bits n : Nat) (encoded : UInt8) (shift : Int) :
    Yields (paletteRow palette bits n encoded shift : Unpack Z _) (·.1.length = n) := by
  induction n generalizing encoded shift with
  | zero => exact yields_pure rfl
  | succ n ih =>
      refine yields_bind (yields_true (refill bits encoded shift)) fun next _ => ?_
      refine yields_bind (ih _ _) fun row length => yields_pure ?_
      exact congrArg (· + 1) length

theorem paletteRows_yields (palette : List Rgba) (bits tilew n : Nat) (encoded : UInt8) :
    Yields (paletteRows palette bits tilew n encoded : Unpack Z _) (·.length = tilew * n) := by
  induction n generalizing encoded with
  | zero => exact yields_pure rfl
  | succ n ih =>
      refine yields_bind (paletteRow_yields _ _ _ _ _) fun row length => ?_
      refine yields_bind (yields_true (nextRow _ _ _ _)) fun encoded _ => ?_
      refine yields_bind (ih _) fun rows rest => yields_pure ?_
      rw [List.length_append, length, rest, Nat.mul_succ, Nat.add_comm]

theorem rlePixels_yields (left : Nat) :
    Yields (rlePixels left : Unpack Z _) (left ≤ ·.length) := by
  induction left using Nat.strong_induction_on with
  | _ left ih =>
  rw [rlePixels]
  refine yields_ite (fun none => yields_pure (none ▸ Nat.zero_le _)) fun some => ?_
  refine yields_bind (yields_true _) fun pixels _ => ?_
  refine yields_bind (yields_true _) fun more _ => ?_
  refine yields_bind (ih (left - (more + 1)) (by omega)) fun rest length => yields_pure ?_
  rw [List.length_append, List.length_replicate]
  omega

theorem rlePalettePixels_yields (palette : List Rgba) (paletteSize left : Nat) :
    Yields (rlePalettePixels palette paletteSize left : Unpack Z _) (·.length = left) := by
  induction left using Nat.strong_induction_on with
  | _ left ih =>
  rw [rlePalettePixels]
  refine yields_ite (fun none => yields_pure none.symm) fun some => ?_
  refine yields_bind (yields_true readByte) fun byte _ => ?_
  refine yields_bind (yields_true (readPaletteRun byte)) fun more _ => ?_
  dsimp only
  refine yields_ite (fun _ => yields_throw _) fun _ => ?_
  refine yields_ite (fun _ => yields_throw _) fun fits => ?_
  refine yields_bind (ih (left - (more + 1)) (by omega)) fun rest length => yields_pure ?_
  rw [List.length_append, List.length_replicate, length]
  omega

theorem drawTile_yields {r t : Rect} (inside : t.Inside r) (wide : 0 < t.width)
    (high : 0 < t.height) (subencoding : Nat) :
    Yields (drawTile t subencoding : Unpack Z _) (·.Fits r) := by
  have blit {pixels : List Rgba} (count : pixels.length = t.width * t.height) :
      (DrawOp.blitImage t pixels).Fits r := ⟨inside, wide, high, count⟩
  unfold drawTile
  dsimp only
  refine yields_ite (fun _ => ?_) fun _ => yields_ite (fun _ => ?_) fun _ =>
    yields_ite (fun _ => ?_) fun _ => yields_ite (fun _ => ?_) fun _ =>
      yields_ite (fun _ => ?_) fun _ => yields_throw _
  · refine yields_bind (readPixels_yields _) fun data enough => yields_pure (blit ?_)
    rw [List.length_take]
    omega
  · exact yields_bind (yields_true _) fun _ _ => yields_pure inside
  · refine yields_bind ?_ fun data count => yields_pure (blit count)
    refine yields_bind (yields_true _) fun palette _ => ?_
    exact yields_bind (yields_true _) fun encoded _ => paletteRows_yields _ _ _ _ _
  · refine yields_bind ?_ fun data count => yields_pure (blit count)
    refine yields_bind (rlePixels_yields _) fun pixels enough => yields_pure ?_
    rw [List.length_take]
    omega
  · refine yields_bind ?_ fun data count => yields_pure (blit count)
    exact yields_bind (yields_true _) fun palette _ => rlePalettePixels_yields _ _ _

theorem inside_of_mem_tiles {r t : Rect} (member : t ∈ tiles r) :
    t.Inside r ∧ 0 < t.width ∧ 0 < t.height := by
  obtain ⟨i, row, member⟩ := List.mem_flatMap.mp member
  obtain ⟨j, column, rfl⟩ := List.mem_map.mp member
  have row := List.mem_range.mp row
  have column := List.mem_range.mp column
  unfold Rect.Inside
  dsimp only
  omega

theorem drawTiles_draws {r : Rect} (ts : List Rect) (among : ∀ t ∈ ts, t ∈ tiles r)
    (d : Drawing (ZRLEDecoder Z)) (h : Drew base (·.Fits r) d) :
    Ending.Holds (Drew base (·.Fits r)) (fun _ => Drew base (·.Fits r)) (drawTiles ts d) := by
  induction ts generalizing d with
  | nil => exact h
  | cons t rest ih =>
      unfold drawTiles
      split
      · exact h
      case h_2 op s decoded =>
        obtain ⟨inside, wide, high⟩ := inside_of_mem_tiles (among t List.mem_cons_self)
        have fits : op.Fits r :=
          yields_bind (yields_true _) (fun byte _ => drawTile_yields inside wide high byte.toNat)
            _ _ _ decoded
        exact ih (fun t member => among t (List.mem_cons_of_mem _ member)) _ ((h.draw fits).set s)

theorem decodeRect_draws (r : Rect) :
    Ensures (Drew base (·.Fits r)) (decodeRect r : Reads (Drawing (ZRLEDecoder Z)) Unit)
      fun _ => Drew base (·.Fits r) :=
  ensures_stage (ensures_sized fun _ _ _ h _ => h.set _)
    (ensures_sized fun _ _ _ h _ => drawTiles_draws _ (fun _ => id) _ (h.set _))

end ZRLEDecoder

/-! ## Tight and TightPNG -/

namespace TightDecoder

variable {Z : Zlib}

theorem readData_draws :
    Ensures (Drew base ok) (readData : Unpacks Z _) fun _ => Drew base ok :=
  ensures_stage (ensures_sized fun _ _ _ h _ => h.set _) (ensures_sized fun _ _ _ h _ => h.set _)

theorem unpack_draws (streamId : Fin 4) (size : Nat) :
    Ensures (Drew base ok) (unpack streamId size : Unpacks Z _)
      fun data d => Drew base ok d ∧ data.length = size := by
  unfold unpack
  split
  · exact ensures_sized fun _ _ _ h announced => ⟨h, (Option.some.inj announced).symm⟩
  · refine ensures_finish readData_draws fun data d h => ?_
    split
    · exact h
    case h_2 bytes zlib inflated => exact ⟨h.set _, Z.inflate_length inflated⟩

theorem gradientRow_length (left upperleft : Rgba) (above : List Rgba) (data : List UInt8) :
    (gradientRow left upperleft above data).length = above.length := by
  induction above generalizing left upperleft data with
  | nil => rfl
  | cons upper row ih => exact congrArg (· + 1) (ih _ _ _)

theorem gradientRows_length (n : Nat) (above : List Rgba) (data : List UInt8) :
    (gradientRows n above data).length = above.length * n := by
  induction n generalizing above data with
  | zero => rfl
  | succ n ih =>
      rw [gradientRows, List.length_append, ih, gradientRow_length, Nat.mul_succ, Nat.add_comm]

theorem monoRect_length (r : Rect) (data palette : List UInt8) :
    (monoRect r data palette).length = r.width * r.height := by
  simp [monoRect, Nat.mul_comm]

theorem paletteRect_length (r : Rect) (data palette : List UInt8) :
    (paletteRect r data palette).length = r.width * r.height := by
  simp [paletteRect]

theorem copyFilter_draws (streamId : Fin 4) (r : Rect) :
    Ensures (Drew base (·.Fits r)) (copyFilter streamId r : Unpacks Z _)
      fun _ => Drew base (·.Fits r) := by
  unfold copyFilter
  dsimp only
  split
  · exact ensures_update fun _ h => h
  case isFalse some =>
    have area : 0 < r.width * r.height := by omega
    refine ensures_finish (unpack_draws _ _) fun data d h => h.1.draw (fits_blitImage
      (Nat.pos_of_mul_pos_right area) (Nat.pos_of_mul_pos_left area) ?_)
    rw [rgbPixels_length, h.2, Nat.mul_div_cancel _ (by omega)]

theorem gradientFilter_draws (streamId : Fin 4) (r : Rect) :
    Ensures (Drew base (·.Fits r)) (gradientFilter streamId r : Unpacks Z _)
      fun _ => Drew base (·.Fits r) := by
  unfold gradientFilter
  dsimp only
  split
  · exact ensures_update fun _ h => h
  case isFalse some =>
    have area : 0 < r.width * r.height := by omega
    refine ensures_finish (unpack_draws _ _) fun data d h => h.1.draw (fits_blitImage
      (Nat.pos_of_mul_pos_right area) (Nat.pos_of_mul_pos_left area) ?_)
    rw [gradientRows_length, List.length_replicate]

theorem indexedRect_draws (streamId : Fin 4) (r : Rect) (numColors : Nat) :
    Ensures (Drew base (·.Fits r)) (indexedRect streamId r numColors : Unpacks Z _)
      fun _ => Drew base (·.Fits r) := by
  unfold indexedRect
  dsimp only
  split
  · exact ensures_update fun _ h => h
  case isFalse some =>
    have high : 0 < r.height := Nat.pos_of_ne_zero fun none => some (by simp [indexedSize, none])
    have wide : 0 < r.width := Nat.pos_of_ne_zero fun none => some (by simp [indexedSize, none])
    refine ensures_finish (unpack_draws _ _) fun data d h =>
      Drew.set (h.1.draw (fits_blitImage wide high ?_)) _
    split
    · exact monoRect_length _ _ _
    · exact paletteRect_length _ _ _

theorem paletteFilter_draws (streamId : Fin 4) (r : Rect) :
    Ensures (Drew base (·.Fits r)) (paletteFilter streamId r : Unpacks Z _)
      fun _ => Drew base (·.Fits r) :=
  ensures_stage (ensures_sized fun _ _ _ h _ => h.set _)
    (ensures_branch fun _ => indexedRect_draws _ _ _)

theorem filterRect_draws (streamId : Fin 4) (r : Rect) (filter : Option UInt8) :
    Ensures (Drew base (·.Fits r)) (filterRect streamId r filter : Unpacks Z _)
      fun _ => Drew base (·.Fits r) := by
  unfold filterRect
  split
  · exact ensures_update fun _ h => h
  · exact copyFilter_draws _ _
  · exact paletteFilter_draws _ _
  · exact gradientFilter_draws _ _
  · exact ensures_fail _

theorem imageRect_draws (r : Rect) (mime : String) :
    Ensures (Drew base (·.Fits r)) (imageRect r mime : Unpacks Z _)
      fun _ => Drew base (·.Fits r) :=
  ensures_finish readData_draws fun _ _ h => h.draw r.inside_refl

theorem readFilter_draws (ctl : UInt8) :
    Ensures (Drew base ok) (readFilter ctl : Unpacks Z _) fun _ => Drew base ok := by
  unfold readFilter
  split
  · exact ensures_sized fun _ _ _ h _ => h.set _
  · exact ensures_update fun _ h => h.set _

theorem basicRect_draws (ctl : UInt8) (r : Rect) :
    Ensures (Drew base (·.Fits r)) (basicRect ctl r : Unpacks Z _)
      fun _ => Drew base (·.Fits r) :=
  ensures_finish (ensures_stage (readFilter_draws ctl)
    (ensures_branch fun _ => filterRect_draws _ _ _)) fun _ _ h => h.set _

/-- Methods that draw what fits. -/
structure Methods.Draws (m : Methods Z) (base : List Effect) (r : Rect) : Prop where
  pngRect : Ensures (Drew base (·.Fits r)) (m.pngRect r) fun _ => Drew base (·.Fits r)
  basicRect : ∀ ctl, Ensures (Drew base (·.Fits r)) (m.basicRect ctl r)
    fun _ => Drew base (·.Fits r)

theorem methods_draws (r : Rect) : (methods : Methods Z).Draws base r where
  pngRect := ensures_fail _
  basicRect ctl := basicRect_draws ctl r

theorem packedRect_draws {m : Methods Z} {r : Rect} (draws : m.Draws base r)
    (ctl : Option UInt8) :
    Ensures (Drew base (·.Fits r)) (packedRect m r ctl) fun _ => Drew base (·.Fits r) := by
  unfold packedRect
  split
  · exact ensures_update fun _ h => h
  · split
    · exact ensures_sized fun _ _ _ h _ => h.draw r.inside_refl
    · split
      · exact imageRect_draws _ _
      · split
        · exact draws.pngRect
        · split
          · exact draws.basicRect _
          · exact ensures_fail _

theorem decodeRect_draws {m : Methods Z} {r : Rect} (draws : m.Draws base r) :
    Ensures (Drew base (·.Fits r)) (decodeRect m r) fun _ => Drew base (·.Fits r) :=
  ensures_finish (ensures_stage (ensures_sized fun _ _ _ h _ => h.set _)
    (ensures_branch fun _ => packedRect_draws draws _)) fun _ _ h => h.set _

end TightDecoder

theorem TightPNGDecoder.methods_draws {Z : Zlib} (r : Rect) :
    (methods : TightDecoder.Methods Z).Draws base r where
  pngRect := TightDecoder.imageRect_draws _ _
  basicRect _ := ensures_fail _

/-! ## Hextile -/

namespace HextileDecoder

/-- The tiles that are left are tiles of the rectangle. -/
def Tiled (r : Rect) (d : Drawing HextileDecoder) : Prop :=
  d.decoder.tilesX = (r.width + 15) / 16 ∧
    d.decoder.totalTiles = d.decoder.tilesX * ((r.height + 15) / 16) ∧
    d.decoder.tiles ≤ d.decoder.totalTiles

/-- A rectangle that was begun is this one. -/
def Begun (r : Rect) (d : Drawing HextileDecoder) : Prop := d.decoder.tiles ≠ 0 → Tiled r d

theorem tile_inside {r : Rect} {d : Drawing HextileDecoder} (tiled : Tiled r d)
    (left : 0 < d.decoder.tiles) :
    (tile r d.decoder).Inside r ∧ 0 < (tile r d.decoder).width ∧ 0 < (tile r d.decoder).height := by
  obtain ⟨columns, total, most⟩ := tiled
  have place : d.decoder.totalTiles - d.decoder.tiles <
      d.decoder.tilesX * ((r.height + 15) / 16) := by
    omega
  have row := Nat.div_lt_of_lt_mul place
  have column := Nat.mod_lt (d.decoder.totalTiles - d.decoder.tiles)
    (Nat.pos_of_mul_pos_right (Nat.zero_lt_of_lt place))
  unfold Rect.Inside tile
  dsimp only
  omega

theorem foldl_length {ι : Type} {f : List Rgba → ι → List Rgba}
    (same : ∀ pixels i, (f pixels i).length = pixels.length) (l : List ι) (pixels : List Rgba) :
    (l.foldl f pixels).length = pixels.length := by
  induction l generalizing pixels with
  | nil => rfl
  | cons i l ih => exact (ih _).trans (same pixels i)

theorem subTile_length (width x y w h : Nat) (color : Rgba) (pixels : List Rgba) :
    (subTile width x y w h color pixels).length = pixels.length :=
  foldl_length (fun _ _ => foldl_length (fun _ _ => List.length_set) _ _) _ _

theorem subTiles_length {width : Nat} {coloured : Bool} {foreground : Option Rgba} {n : Nat}
    {data : List UInt8} {pixels pixels' : List Rgba}
    (h : subTiles width coloured foreground n data pixels = some pixels') :
    pixels'.length = pixels.length := by
  induction n generalizing data pixels with
  | zero => exact Option.some.inj h ▸ rfl
  | succ n ih =>
      unfold subTiles at h
      dsimp only at h
      split at h
      · cases h
      · exact (ih h).trans (subTile_length _ _ _ _ _ _ _)

theorem raw_length {r : Rect} {d : Drawing HextileDecoder} {q data : List UInt8}
    (announced : tileBytes r d q = some data.length) (read : q.take data.length = data)
    (legal : ¬30 < data.getD 0 0) (raw : flag (data.getD 0 0) 0x01) :
    (data.drop 1).length = (tile r d.decoder).width * (tile r d.decoder).height * 4 := by
  cases q with
  | nil => cases announced
  | cons subencoding rest =>
      cases data with
      | nil => simp [flag] at raw
      | cons first data =>
          obtain ⟨rfl, -⟩ := List.cons.inj read
          rw [List.getD_cons_zero] at legal raw
          simp only [tileBytes, if_neg legal, if_pos raw] at announced
          have length := Option.some.inj announced
          rw [List.length_cons] at length
          rw [List.drop_succ_cons, List.drop_zero]
          omega

theorem drawTile_draws {r : Rect} {d : Drawing HextileDecoder} {q data : List UInt8}
    (announced : tileBytes r d q = some data.length) (read : q.take data.length = data)
    (h : Drew base (·.Fits r) d) (tiled : Tiled r d) (left : 0 < d.decoder.tiles) :
    Ending.Holds (fun d' => Drew base (·.Fits r) d' ∧ Tiled r d')
      (fun _ d' => Drew base (·.Fits r) d' ∧ Tiled r d')
      (drawTile (tile r d.decoder) d data) := by
  obtain ⟨inside, wide, high⟩ := tile_inside tiled left
  have fewer : ∀ {d' : Drawing HextileDecoder} (s : HextileDecoder), s.tilesX = d.decoder.tilesX →
      s.totalTiles = d.decoder.totalTiles → s.tiles = d.decoder.tiles - 1 →
      Tiled r (d'.set s) := by
    intro d' s columns total tiles
    obtain ⟨columns', total', most⟩ := tiled
    refine ⟨columns.trans columns', ?_, ?_⟩
    · rw [Drawing.set_decoder, total, columns, total']
    · rw [Drawing.set_decoder, total, tiles]
      omega
  have blit {pixels : List Rgba}
      (count : pixels.length = (tile r d.decoder).width * (tile r d.decoder).height) :
      (DrawOp.blitImage (tile r d.decoder) pixels).Fits r := ⟨inside, wide, high, count⟩
  unfold drawTile
  dsimp only
  split
  · exact ⟨h, tiled⟩
  case isFalse legal =>
    split
    · split
      · exact ⟨h.set _, fewer _ rfl rfl rfl⟩
      · split
        · exact ⟨h, tiled⟩
        · refine ⟨Drew.set (h.draw ?_) _, fewer _ rfl rfl rfl⟩
          exact inside
    · split
      case isTrue raw =>
        refine ⟨Drew.set (h.draw (blit ?_)) _, fewer _ rfl rfl rfl⟩
        rw [rgbxPixels_length, raw_length announced read legal raw, Nat.mul_div_cancel _ (by omega)]
      case isFalse =>
        split
        · exact ⟨h, tiled⟩
        · split
          · exact ⟨h, tiled⟩
          case h_2 pixels drawn =>
            refine ⟨Drew.set (h.draw (blit ?_)) _, fewer _ rfl rfl rfl⟩
            rw [subTiles_length drawn, List.length_replicate]

/-- A rectangle that was begun with other sizes would go on with those. -/
theorem decodeRect_draws (r : Rect) :
    Ensures (fun d => Drew base (·.Fits r) d ∧ Begun r d) (decodeRect r)
      fun _ d => Drew base (·.Fits r) d ∧ d.decoder.tiles = 0 := by
  refine ensures_stage_of (M := fun d => Drew base (·.Fits r) d ∧ Tiled r d)
    (fun d q h _ => ⟨h.1.set _, rfl, rfl, Nat.le_refl _⟩) (fun d h begun => ⟨h.1, h.2 begun⟩)
    ((ensures_loop (readTile_descends r) fun d q h left =>
      holds_sized h fun data announced read =>
        drawTile_draws announced read h.1 h.2 left).mono
      fun _ d h => ⟨h.1.1, Nat.eq_zero_of_not_pos h.2⟩) fun d h => ⟨h.1, fun _ => h.2⟩

theorem decodeRect_ends (r : Rect) :
    Ensures (fun _ => True) (decodeRect r) fun _ _ => True :=
  ensures_stage (ensures_update fun _ _ => trivial) <|
    (ensures_loop (readTile_descends r) fun _ _ _ _ =>
      holds_sized trivial fun _ _ _ => ending_holds_true _).mono fun _ _ _ => trivial

end HextileDecoder

end VmServer.Novnc
