import VmServer.Novnc.Decoders

/-!
# The Tight and TightPNG decoders

A rectangle begins with a control byte, which resets zlib streams and says how
the rest is packed. Every field that was read is kept until the rectangle is
drawn, so that a call finds where the last one has stopped.

## Implementation notes

The TightPNG decoder is the same with two methods replaced. An image without
pixels ends a palette rectangle before its palette is forgotten.
-/

namespace VmServer.Novnc

open Proxy Handler

structure TightDecoder (Z : Zlib) where
  ctl : Option UInt8 := none
  filter : Option UInt8 := none
  numColors : Nat := 0
  palette : List UInt8 := List.replicate 1024 0
  len : Nat := 0
  zlibs : Fin 4 → Z.Stream := fun _ => Z.init

namespace TightDecoder

variable {Z : Zlib}

/-- A handler of the decoder. -/
abbrev Unpacks (Z : Zlib) (α : Type) := Reads (Drawing (TightDecoder Z)) α

/-- The compression control: the streams to reset and, above them, the kind of packing. -/
def readControl : Unpacks Z Unit :=
  sized (fun _ _ => some 1) fun d data =>
    let ctl := data.getD 0 0
    let zlibs := fun i : Fin 4 =>
      if ctl >>> (UInt8.ofNat i) &&& 1 = 1 then Z.reset (d.decoder.zlibs i) else d.decoder.zlibs i
    .ok ((), d.set { d.decoder with zlibs, ctl := some (ctl >>> 4) })

/-- How long a length is: a byte whose first bit is not set is the last, and so is the third. -/
def lengthBytes (data : List UInt8) : Nat :=
  if data.getD 0 0 < 0x80 then 1 else if data.getD 1 0 < 0x80 then 2 else 3

def compactLength (data : List UInt8) : Nat :=
  (data.getD 0 0 &&& 0x7f).toNat + (data.getD 1 0 &&& 0x7f).toNat * 2 ^ 7 +
    (data.getD 2 0).toNat * 2 ^ 14

/-- It waits for three bytes, whether or not it takes them. -/
def readLength : Unpacks Z Unit :=
  sized (header 3 fun _ => lengthBytes) fun d data =>
    .ok ((), d.set { d.decoder with len := compactLength data })

def readPayload : Unpacks Z (List UInt8) :=
  sized (fun d _ => some d.decoder.len) fun d data => .ok (data, d.set { d.decoder with len := 0 })

def readData : Unpacks Z (List UInt8) := stage (fun d => d.decoder.len = 0) readLength readPayload

/-- The unpacked bytes of a rectangle, which are sent as they are when there are few. -/
def unpack (streamId : Fin 4) (uncompressedSize : Nat) : Unpacks Z (List UInt8) :=
  if uncompressedSize < 12 then
    sized (fun _ _ => some uncompressedSize) fun d data => .ok (data, d)
  else
    finish readData fun data d =>
      match Z.inflate (Z.setInput (d.decoder.zlibs streamId) data) uncompressedSize with
      | .error message => .error (d, decodeError message)
      | .ok (bytes, zlib) =>
          let zlibs := Function.update d.decoder.zlibs streamId (Z.setInput zlib [])
          .ok (bytes, d.set { d.decoder with zlibs })

def fillRect (r : Rect) : Unpacks Z Unit :=
  sized (fun _ _ => some 3) fun d pixel => .ok ((), d.draw (.fillRect r (rgb pixel)))

def imageRect (r : Rect) (mime : String) : Unpacks Z Unit :=
  finish readData fun data d => .ok ((), d.draw (.imageRect r mime data))

def copyFilter (streamId : Fin 4) (r : Rect) : Unpacks Z Unit :=
  let uncompressedSize := r.width * r.height * 3
  if uncompressedSize = 0 then update id
  else
    finish (unpack streamId uncompressedSize) fun data d =>
      .ok ((), d.draw (.blitImage r (rgbPixels data)))

/-- The number of colours, less one, is looked at before the palette behind it is there. -/
def readPalette : Unpacks Z Unit :=
  sized (header 1 fun _ q => 1 + ((q.getD 0 0).toNat + 1) * 3) fun d data =>
    let palette := data.drop 1 ++ d.decoder.palette.drop (data.length - 1)
    .ok ((), d.set { d.decoder with numColors := (data.getD 0 0).toNat + 1, palette })

/-- A colour of a palette. -/
def color (palette : List UInt8) (index : Nat) : Rgba := rgb (palette.drop (index * 3))

/-- A bit a pixel, in rows of whole bytes. -/
def monoRect (r : Rect) (data palette : List UInt8) : List Rgba :=
  let w := (r.width + 7) / 8
  (List.range r.height).flatMap fun y => (List.range r.width).map fun x =>
    color palette ((data.getD (y * w + x / 8) 0).toNat / 2 ^ (7 - x % 8) % 2)

/-- A byte a pixel. Past the end of the data, which is packed when there is one colour, pixels
are black. -/
def paletteRect (r : Rect) (data palette : List UInt8) : List Rgba :=
  (List.range (r.width * r.height)).map fun j =>
    match data[j]? with
    | none => ⟨0, 0, 0, 255⟩
    | some index => color palette index.toNat

/-- Rows of whole bytes, of a bit or a byte a pixel. -/
def indexedSize (r : Rect) (numColors : Nat) : Nat :=
  let bpp := if numColors ≤ 2 then 1 else 8
  let rowSize := (r.width * bpp + 7) / 8
  rowSize * r.height

def indexedRect (streamId : Fin 4) (r : Rect) (numColors : Nat) : Unpacks Z Unit :=
  let uncompressedSize := indexedSize r numColors
  if uncompressedSize = 0 then update id
  else
    finish (unpack streamId uncompressedSize) fun data d =>
      let pixels := if numColors = 2 then monoRect r data d.decoder.palette
        else paletteRect r data d.decoder.palette
      .ok ((), (d.draw (.blitImage r pixels)).set { d.decoder with numColors := 0 })

def paletteFilter (streamId : Fin 4) (r : Rect) : Unpacks Z Unit :=
  stage (fun d => d.decoder.numColors = 0) readPalette
    (branch (fun d => d.decoder.numColors) (indexedRect streamId r))

/-- A colour is predicted from the left, the upper and the upper left one. -/
def predict (left upper upperleft : UInt8) : UInt8 :=
  let prediction := (left.toNat + upper.toNat : Int) - upperleft.toNat
  if prediction < 0 then 0 else if 255 < prediction then 255 else UInt8.ofNat prediction.toNat

/-- A row below another, with what it adds to the predicted colours. -/
def gradientRow (left upperleft : Rgba) : List Rgba → List UInt8 → List Rgba
  | [], _ => []
  | upper :: row, data =>
      let value : Rgba :=
        ⟨data.getD 0 0 + predict left.red upper.red upperleft.red,
          data.getD 1 0 + predict left.green upper.green upperleft.green,
          data.getD 2 0 + predict left.blue upper.blue upperleft.blue, 255⟩
      value :: gradientRow value upper row (data.drop 3)

/-- So many rows below another. -/
def gradientRows : Nat → List Rgba → List UInt8 → List Rgba
  | 0, _, _ => []
  | n + 1, above, data =>
      let row := gradientRow ⟨0, 0, 0, 255⟩ ⟨0, 0, 0, 255⟩ above data
      row ++ gradientRows n row (data.drop (above.length * 3))

/-- The first row is predicted from the left alone, as if it were below a black one. -/
def gradientFilter (streamId : Fin 4) (r : Rect) : Unpacks Z Unit :=
  let uncompressedSize := r.width * r.height * 3
  if uncompressedSize = 0 then update id
  else
    finish (unpack streamId uncompressedSize) fun data d =>
      let black := List.replicate r.width ⟨0, 0, 0, 255⟩
      .ok ((), d.draw (.blitImage r (gradientRows r.height black data)))

def illegalFilter (filter : UInt8) : Fault :=
  decodeError ("Illegal tight filter received (ctl: " ++ toString filter.toNat ++ ")")

def filterRect (streamId : Fin 4) (r : Rect) : Option UInt8 → Unpacks Z Unit
  | none => update id
  | some 0 => copyFilter streamId r
  | some 1 => paletteFilter streamId r
  | some 2 => gradientFilter streamId r
  | some filter => fail (illegalFilter filter)

/-- Whether the packing says which filter there is, or it is the implicit copy filter. -/
def readFilter (ctl : UInt8) : Unpacks Z Unit :=
  if ctl &&& 4 ≠ 0 then
    sized (fun _ _ => some 1) fun d data =>
      .ok ((), d.set { d.decoder with filter := some (data.getD 0 0) })
  else update fun d => d.set { d.decoder with filter := some 0 }

def basicRect (ctl : UInt8) (r : Rect) : Unpacks Z Unit :=
  let streamId := Fin.ofNat 4 (ctl &&& 3).toNat
  finish (stage (fun d => d.decoder.filter = none) (readFilter ctl)
      (branch (fun d => d.decoder.filter) (filterRect streamId r)))
    fun _ d => .ok ((), d.set { d.decoder with filter := none })

/-- What the two decoders do in different ways. -/
structure Methods (Z : Zlib) where
  pngRect : Rect → Unpacks Z Unit
  basicRect : UInt8 → Rect → Unpacks Z Unit

def methods : Methods Z where
  pngRect _ := fail (decodeError "PNG received in standard Tight rect")
  basicRect := basicRect

def illegalCompression (ctl : UInt8) : Fault :=
  decodeError ("Illegal tight compression received (ctl: " ++ toString ctl.toNat ++ ")")

def packedRect (m : Methods Z) (r : Rect) : Option UInt8 → Unpacks Z Unit
  | none => update id
  | some ctl =>
      if ctl = 0x08 then fillRect r
      else if ctl = 0x09 then imageRect r "image/jpeg"
      else if ctl = 0x0a then m.pngRect r
      else if ctl &&& 0x08 = 0 then m.basicRect ctl r
      else fail (illegalCompression ctl)

def decodeRect (m : Methods Z) (r : Rect) : Unpacks Z Unit :=
  finish (stage (fun d => d.decoder.ctl = none) readControl
      (branch (fun d => d.decoder.ctl) (packedRect m r)))
    fun _ d => .ok ((), d.set { d.decoder with ctl := none })

/-! ### What is kept while the decoder waits -/

/-- The control byte and the filter are as they were. -/
def Held (d d' : Drawing (TightDecoder Z)) : Prop :=
  d'.decoder.ctl = d.decoder.ctl ∧ d'.decoder.filter = d.decoder.filter

/-- And so is the number of colours. -/
def HeldColors (d d' : Drawing (TightDecoder Z)) : Prop :=
  Held d d' ∧ d'.decoder.numColors = d.decoder.numColors

theorem heldColors_refl (d : Drawing (TightDecoder Z)) : HeldColors d d := ⟨⟨rfl, rfl⟩, rfl⟩

theorem sized_waits {α : Type} {size : Drawing (TightDecoder Z) → List UInt8 → Option Nat}
    {use : Drawing (TightDecoder Z) → List UInt8 → Ending (Drawing (TightDecoder Z)) Fault α} :
    (sized size use).Waits HeldColors := by
  intro d q d' q' h
  obtain ⟨rfl, -⟩ := sized_more h
  exact heldColors_refl d'

theorem readData_waits : (readData : Unpacks Z _).Waits HeldColors := by
  intro d q d' q' h
  rcases stage_more h with h | ⟨-, h⟩ | ⟨d₁, q₁, started, h⟩
  · exact sized_waits h
  · exact sized_waits h
  · obtain ⟨n, -, -, used, -⟩ := sized_done started
    obtain ⟨-, rfl⟩ := Prod.mk.inj (Except.ok.inj used)
    obtain ⟨rfl, -⟩ := sized_more h
    exact ⟨⟨rfl, rfl⟩, rfl⟩

theorem unpack_waits (streamId : Fin 4) (size : Nat) :
    (unpack streamId size : Unpacks Z _).Waits HeldColors := by
  unfold unpack
  split
  · exact sized_waits
  · exact fun d q d' q' h => readData_waits (finish_more.mp h)

theorem imageRect_waits (r : Rect) (mime : String) :
    (imageRect r mime : Unpacks Z _).Waits HeldColors :=
  fun _ _ _ _ h => readData_waits (finish_more.mp h)

theorem copyFilter_waits (streamId : Fin 4) (r : Rect) :
    (copyFilter streamId r : Unpacks Z _).Waits HeldColors := by
  unfold copyFilter
  dsimp only
  split
  · exact fun _ _ _ _ h => nomatch h
  · exact fun _ _ _ _ h => unpack_waits _ _ (finish_more.mp h)

theorem gradientFilter_waits (streamId : Fin 4) (r : Rect) :
    (gradientFilter streamId r : Unpacks Z _).Waits HeldColors := by
  unfold gradientFilter
  dsimp only
  split
  · exact fun _ _ _ _ h => nomatch h
  · exact fun _ _ _ _ h => unpack_waits _ _ (finish_more.mp h)

theorem indexedRect_waits (streamId : Fin 4) (r : Rect) (numColors : Nat) :
    (indexedRect streamId r numColors : Unpacks Z _).Waits HeldColors := by
  unfold indexedRect
  dsimp only
  split
  · exact fun _ _ _ _ h => nomatch h
  · exact fun _ _ _ _ h => unpack_waits _ _ (finish_more.mp h)

theorem paletteFilter_waits (streamId : Fin 4) (r : Rect) :
    (paletteFilter streamId r : Unpacks Z _).Waits Held := by
  intro d q d' q' h
  rcases stage_more h with h | ⟨-, h⟩ | ⟨d₁, q₁, started, h⟩
  · exact (sized_waits h).1
  · exact (indexedRect_waits _ _ _ h).1
  · obtain ⟨n, -, -, used, -⟩ := sized_done started
    obtain ⟨-, rfl⟩ := Prod.mk.inj (Except.ok.inj used)
    exact (indexedRect_waits _ _ _ h).1

theorem filterRect_waits (streamId : Fin 4) (r : Rect) (filter : Option UInt8) :
    (filterRect streamId r filter : Unpacks Z _).Waits Held := by
  unfold filterRect
  split
  · exact fun _ _ _ _ h => nomatch h
  · exact fun _ _ _ _ h => (copyFilter_waits _ _ h).1
  · exact paletteFilter_waits _ _
  · exact fun _ _ _ _ h => (gradientFilter_waits _ _ h).1
  · exact fun _ _ _ _ h => nomatch h

theorem readFilter_done {ctl : UInt8} {d d' : Drawing (TightDecoder Z)} {q q' : List UInt8}
    (h : readFilter ctl d q = .done () d' q') :
    d'.decoder.ctl = d.decoder.ctl ∧ d'.decoder.filter ≠ none := by
  unfold readFilter at h
  split at h
  · obtain ⟨n, -, -, used, -⟩ := sized_done h
    obtain ⟨-, rfl⟩ := Prod.mk.inj (Except.ok.inj used)
    exact ⟨rfl, Option.some_ne_none _⟩
  · obtain ⟨-, rfl, -⟩ := Outcome.done.inj h
    exact ⟨rfl, Option.some_ne_none _⟩

theorem readFilter_more {ctl : UInt8} {d d' : Drawing (TightDecoder Z)} {q q' : List UInt8}
    (h : readFilter ctl d q = .more d' q') : d' = d := by
  unfold readFilter at h
  split at h
  · exact (sized_more h).1
  · cases h

theorem basicRect_waits (ctl : UInt8) (r : Rect) :
    (basicRect ctl r : Unpacks Z _).Waits fun d d' => d'.decoder.ctl = d.decoder.ctl := by
  intro d q d' q' h
  rcases stage_more (finish_more.mp h) with h | ⟨-, h⟩ | ⟨d₁, q₁, started, h⟩
  · rw [readFilter_more h]
  · exact (filterRect_waits _ _ _ h).1
  · exact (filterRect_waits _ _ _ h).1.trans (readFilter_done started).1

/-! ### Calls find where the last one has stopped -/

theorem resumable_readData : (readData : Unpacks Z _).Resumable := by
  refine resumable_stage (resumable_sized (stable_header _ _)) (resumable_sized (stable_some _))
    sized_stays fun d q d' q' _ h => ?_
  obtain ⟨rfl, short⟩ := sized_more h
  exact Nat.ne_of_gt (Nat.zero_lt_of_lt (short _ rfl))

theorem resumable_unpack (streamId : Fin 4) (size : Nat) :
    (unpack streamId size : Unpacks Z _).Resumable := by
  unfold unpack
  split
  · exact resumable_sized (stable_some _)
  · exact resumable_finish resumable_readData

theorem resumable_copyFilter (streamId : Fin 4) (r : Rect) :
    (copyFilter streamId r : Unpacks Z _).Resumable := by
  unfold copyFilter
  dsimp only
  split
  · exact resumable_update _
  · exact resumable_finish (resumable_unpack _ _)

theorem resumable_gradientFilter (streamId : Fin 4) (r : Rect) :
    (gradientFilter streamId r : Unpacks Z _).Resumable := by
  unfold gradientFilter
  dsimp only
  split
  · exact resumable_update _
  · exact resumable_finish (resumable_unpack _ _)

theorem resumable_indexedRect (streamId : Fin 4) (r : Rect) (numColors : Nat) :
    (indexedRect streamId r numColors : Unpacks Z _).Resumable := by
  unfold indexedRect
  dsimp only
  split
  · exact resumable_update _
  · exact resumable_finish (resumable_unpack _ _)

theorem resumable_paletteFilter (streamId : Fin 4) (r : Rect) :
    (paletteFilter streamId r : Unpacks Z _).Resumable := by
  refine resumable_stage (resumable_sized (stable_header _ _))
    (resumable_branch (resumable_indexedRect streamId r) fun k d q d' q' h same => ?_)
    sized_stays fun d q d' q' entered h => ?_
  · exact (indexedRect_waits _ _ _ h).2.trans same
  · rw [(indexedRect_waits _ _ _ h).2]
    intro none
    obtain ⟨d₀, q₀, q₁, started⟩ := entered none
    obtain ⟨n, -, -, used, -⟩ := sized_done started
    obtain ⟨-, rfl⟩ := Prod.mk.inj (Except.ok.inj used)
    exact Nat.succ_ne_zero _ none

theorem resumable_filterRect (streamId : Fin 4) (r : Rect) (filter : Option UInt8) :
    (filterRect streamId r filter : Unpacks Z _).Resumable := by
  unfold filterRect
  split
  · exact resumable_update _
  · exact resumable_copyFilter _ _
  · exact resumable_paletteFilter _ _
  · exact resumable_gradientFilter _ _
  · exact resumable_fail _

theorem resumable_readFilter (ctl : UInt8) : (readFilter ctl : Unpacks Z _).Resumable := by
  unfold readFilter
  split
  · exact resumable_sized (stable_some _)
  · exact resumable_update _

theorem resumable_basicRect (ctl : UInt8) (r : Rect) :
    (basicRect ctl r : Unpacks Z _).Resumable := by
  refine resumable_finish (resumable_stage (resumable_readFilter ctl)
    (resumable_branch (resumable_filterRect _ r) fun k d q d' q' h same => ?_)
    (fun d q d' q' begun h => ?_) fun d q d' q' entered h => ?_)
  · exact (filterRect_waits _ _ _ h).2.trans same
  · exact readFilter_more h ▸ begun
  · rw [(filterRect_waits _ _ _ h).2]
    intro none
    obtain ⟨d₀, q₀, q₁, started⟩ := entered none
    exact (readFilter_done started).2 none

/-- Methods that keep the control byte while they wait, and find where they have stopped. -/
structure Methods.Lawful (m : Methods Z) : Prop where
  pngRect : ∀ r, (m.pngRect r).Resumable
  basicRect : ∀ ctl r, (m.basicRect ctl r).Resumable
  pngRect_waits : ∀ r, (m.pngRect r).Waits fun d d' => d'.decoder.ctl = d.decoder.ctl
  basicRect_waits : ∀ ctl r, (m.basicRect ctl r).Waits fun d d' => d'.decoder.ctl = d.decoder.ctl

theorem lawful_methods : (methods : Methods Z).Lawful where
  pngRect _ := resumable_fail _
  basicRect := resumable_basicRect
  pngRect_waits _ _ _ _ _ h := nomatch h
  basicRect_waits := basicRect_waits

theorem packedRect_waits {m : Methods Z} (lawful : m.Lawful) (r : Rect) (ctl : Option UInt8) :
    (packedRect m r ctl).Waits fun d d' => d'.decoder.ctl = d.decoder.ctl := by
  unfold packedRect
  split
  · exact fun _ _ _ _ h => nomatch h
  · split
    · exact fun _ _ _ _ h => (sized_waits h).1.1
    · split
      · exact fun _ _ _ _ h => (imageRect_waits _ _ h).1.1
      · split
        · exact lawful.pngRect_waits r
        · split
          · exact lawful.basicRect_waits _ r
          · exact fun _ _ _ _ h => nomatch h

theorem resumable_packedRect {m : Methods Z} (lawful : m.Lawful) (r : Rect)
    (ctl : Option UInt8) : (packedRect m r ctl).Resumable := by
  unfold packedRect
  split
  · exact resumable_update _
  · split
    · exact resumable_sized (stable_some _)
    · split
      · exact resumable_finish resumable_readData
      · split
        · exact lawful.pngRect r
        · split
          · exact lawful.basicRect _ r
          · exact resumable_fail _

theorem resumable_decodeRect {m : Methods Z} (lawful : m.Lawful) (r : Rect) :
    (decodeRect m r).Resumable := by
  refine resumable_finish (resumable_stage (resumable_sized (stable_some _))
    (resumable_branch (resumable_packedRect lawful r) fun k d q d' q' h same => ?_)
    sized_stays fun d q d' q' entered h => ?_)
  · exact (packedRect_waits lawful _ _ h).trans same
  · rw [packedRect_waits lawful _ _ h]
    intro none
    obtain ⟨d₀, q₀, q₁, started⟩ := entered none
    obtain ⟨n, -, -, used, -⟩ := sized_done started
    obtain ⟨-, rfl⟩ := Prod.mk.inj (Except.ok.inj used)
    exact Option.some_ne_none _ none

end TightDecoder

namespace TightPNGDecoder

variable {Z : Zlib}

def methods : TightDecoder.Methods Z where
  pngRect r := TightDecoder.imageRect r "image/png"
  basicRect _ _ := fail (decodeError "BasicCompression received in TightPNG rect")

theorem lawful_methods : (methods : TightDecoder.Methods Z).Lawful where
  pngRect _ := resumable_finish TightDecoder.resumable_readData
  basicRect _ _ := resumable_fail _
  pngRect_waits _ _ _ _ _ h := (TightDecoder.imageRect_waits _ _ h).1.1
  basicRect_waits _ _ _ _ _ _ h := nomatch h

end TightPNGDecoder

end VmServer.Novnc
