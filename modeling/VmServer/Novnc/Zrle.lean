import VmServer.Novnc.Decoders

/-!
# The ZRLE decoder

A rectangle comes as one piece of a zlib stream. What is unpacked of it are
tiles of 64 by 64 pixels in one of several packings. Palettes are read to a
buffer that is never cleared: an index past the palette finds what was read
before.

## Implementation notes

The tile buffer is as long as `blitImage` reads of it.
-/

namespace VmServer.Novnc

open Handler

structure ZRLEDecoder (Z : Zlib) where
  length : Nat := 0
  inflator : Z.Stream := Z.init
  pixelBuffer : List Rgba := List.replicate (64 * 64) ⟨0, 0, 0, 0⟩

namespace ZRLEDecoder

variable {Z : Zlib}

/-- What is done with the unpacked bytes. -/
abbrev Unpack (Z : Zlib) (α : Type) := StateT (ZRLEDecoder Z) (Except Fault) α

def inflate (expected : Nat) : Unpack Z (List UInt8) := fun s =>
  match Z.inflate s.inflator expected with
  | .error message => .error (decodeError message)
  | .ok (bytes, inflator) => .ok (bytes, { s with inflator })

def readByte : Unpack Z UInt8 := do return (← inflate 1).getD 0 0

/-- The pixel buffer, with the pixels that were read at its front. -/
def readPixels (pixels : Nat) : Unpack Z (List Rgba) := do
  let buffer ← inflate (3 * pixels)
  modifyGet fun s =>
    let data := rgbPixels buffer ++ s.pixelBuffer.drop pixels
    (data, { s with pixelBuffer := data })

/-- Adds up bytes to the first that is not 255. -/
def sumRLELength (s : ZRLEDecoder Z) : Except Fault (Nat × ZRLEDecoder Z) :=
  match _h : Z.inflate s.inflator 1 with
  | .error message => .error (decodeError message)
  | .ok (bytes, inflator) =>
      let current := bytes.getD 0 0
      if current = 255 then
        match sumRLELength { s with inflator } with
        | .error e => .error e
        | .ok (length, s) => .ok (current.toNat + length, s)
      else .ok (current.toNat, { s with inflator })
termination_by Z.left s.inflator
decreasing_by exact Nat.lt_of_succ_le (Z.inflate_left _h)

/-- One less than `_readRLELength`. -/
def readRLELength : Unpack Z Nat := sumRLELength

def bitsPerPixelInPalette (paletteSize : Nat) : Nat :=
  if paletteSize ≤ 2 then 1 else if paletteSize ≤ 4 then 2 else 4

/-- The byte that holds the next pixel, and where in it the pixel is. -/
def refill (bits : Nat) (encoded : UInt8) (shift : Int) : Unpack Z (UInt8 × Int) :=
  if shift < 0 then do return (← readByte, 8 - bits) else return (encoded, shift)

/-- The pixels of a row, of which so many are left. The shift goes below zero at the end of a
byte. -/
def paletteRow (palette : List Rgba) (bits : Nat) :
    Nat → UInt8 → Int → Unpack Z (List Rgba × UInt8 × Int)
  | 0, encoded, shift => return ([], encoded, shift)
  | n + 1, encoded, shift => do
      let next ← refill bits encoded shift
      -- `(encoded >> shift) & mask`
      let pixel := palette.getD (next.1.toNat / 2 ^ next.2.toNat % 2 ^ bits) default
      let row ← paletteRow palette bits n next.1 (next.2 - bits)
      return (pixel :: row.1, row.2)

/-- The byte after a row, with so many rows to come. -/
def nextRow (bits rows : Nat) (encoded : UInt8) (shift : Int) : Unpack Z UInt8 :=
  if shift < 8 - bits ∧ 0 < rows then readByte else return encoded

/-- The rows of a tile, of which so many are left. Each begins with a byte of its own. -/
def paletteRows (palette : List Rgba) (bits tilew : Nat) : Nat → UInt8 → Unpack Z (List Rgba)
  | 0, _ => return []
  | n + 1, encoded => do
      let row ← paletteRow palette bits tilew encoded (8 - bits)
      let encoded ← nextRow bits n row.2.1 row.2.2
      return row.1 ++ (← paletteRows palette bits tilew n encoded)

def decodePaletteTile (paletteSize tilew tileh : Nat) : Unpack Z (List Rgba) := do
  let palette ← readPixels paletteSize
  let encoded ← readByte
  paletteRows palette (bitsPerPixelInPalette paletteSize) tilew tileh encoded

/-- Runs of pixels until so many are set. The last run may set more. -/
def rlePixels (left : Nat) : Unpack Z (List Rgba) :=
  if left = 0 then return []
  else do
    let pixel := (← readPixels 1).headD default
    let more ← readRLELength
    return List.replicate (more + 1) pixel ++ (← rlePixels (left - (more + 1)))
termination_by left

def decodeRLETile (tileSize : Nat) : Unpack Z (List Rgba) := do
  return (← rlePixels tileSize).take tileSize

/-- One less than the length of a run of a colour of the palette. -/
def readPaletteRun (index : UInt8) : Unpack Z Nat :=
  if 128 ≤ index then readRLELength else return 0

/-- Runs of colours of the palette until so many pixels are set. -/
def rlePalettePixels (palette : List Rgba) (paletteSize left : Nat) : Unpack Z (List Rgba) :=
  if left = 0 then return []
  else do
    let byte ← readByte
    let more ← readPaletteRun byte
    let index := if 128 ≤ byte then byte.toNat - 128 else byte.toNat
    if paletteSize < index then
      throw (decodeError ("Too big index in palette: " ++ toString index ++ ", palette size: " ++
        toString paletteSize))
    else if left < more + 1 then
      throw (decodeError ("Too big rle length in palette mode: " ++ toString (more + 1) ++
        ", allowed length is: " ++ toString left))
    else
      return List.replicate (more + 1) (palette.getD index default) ++
        (← rlePalettePixels palette paletteSize (left - (more + 1)))
termination_by left

def decodeRLEPaletteTile (paletteSize tileSize : Nat) : Unpack Z (List Rgba) := do
  let palette ← readPixels paletteSize
  rlePalettePixels palette paletteSize tileSize

/-- What is drawn for a tile of a subencoding. -/
def drawTile (t : Rect) (subencoding : Nat) : Unpack Z DrawOp :=
  let tileSize := t.width * t.height
  if subencoding = 0 then do
    return .blitImage t ((← readPixels tileSize).take tileSize)
  else if subencoding = 1 then do
    let background := (← readPixels 1).headD default
    return .fillRect t { background with alpha := 255 }
  else if 2 ≤ subencoding ∧ subencoding ≤ 16 then do
    return .blitImage t (← decodePaletteTile subencoding t.width t.height)
  else if subencoding = 128 then do
    return .blitImage t (← decodeRLETile tileSize)
  else if 130 ≤ subencoding ∧ subencoding ≤ 255 then do
    return .blitImage t (← decodeRLEPaletteTile (subencoding - 128) tileSize)
  else throw (decodeError ("Unknown subencoding: " ++ toString subencoding))

def decodeTile (t : Rect) : Unpack Z DrawOp := do
  let subencoding ← readByte
  drawTile t subencoding.toNat

/-- The tiles of a rectangle, row by row. -/
def tiles (r : Rect) : List Rect :=
  (List.range ((r.height + 63) / 64)).flatMap fun i =>
    (List.range ((r.width + 63) / 64)).map fun j =>
      ⟨r.x + j * 64, r.y + i * 64, min 64 (r.width - j * 64), min 64 (r.height - i * 64)⟩

def drawTiles : List Rect → Drawing (ZRLEDecoder Z) → Ending (Drawing (ZRLEDecoder Z)) Fault Unit
  | [], d => .ok ((), d.set { d.decoder with length := 0 })
  | t :: rest, d =>
      match decodeTile t d.decoder with
      | .error e => .error (d, e)
      | .ok (op, s) => drawTiles rest ((d.draw op).set s)

def readLength : Reads (Drawing (ZRLEDecoder Z)) Unit :=
  sized (fun _ _ => some 4) fun d data => .ok ((), d.set { d.decoder with length := u32 data 0 })

def readData (r : Rect) : Reads (Drawing (ZRLEDecoder Z)) Unit :=
  sized (fun d _ => some d.decoder.length) fun d data =>
    drawTiles (tiles r) (d.set { d.decoder with inflator := Z.setInput d.decoder.inflator data })

def decodeRect (r : Rect) : Reads (Drawing (ZRLEDecoder Z)) Unit :=
  stage (fun d => d.decoder.length = 0) readLength (readData r)

theorem resumable_decodeRect (r : Rect) :
    (decodeRect r : Reads (Drawing (ZRLEDecoder Z)) Unit).Resumable := by
  refine resumable_stage (resumable_sized (stable_some _)) (resumable_sized (stable_some _))
    sized_stays fun d q d' q' _ h => ?_
  obtain ⟨rfl, short⟩ := sized_more h
  exact Nat.ne_of_gt (Nat.zero_lt_of_lt (short _ rfl))

end ZRLEDecoder

end VmServer.Novnc
