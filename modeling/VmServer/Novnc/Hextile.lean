import VmServer.Novnc.Decoders

/-!
# The Hextile decoder

A rectangle comes in tiles of 16 by 16 pixels. How long a tile is follows from
its first byte and, where it has subrectangles, from their number behind the
colours. Colours are kept for the tiles that follow.
-/

namespace VmServer.Novnc

open Handler

structure HextileDecoder where
  tiles : Nat := 0
  tilesX : Nat := 0
  tilesY : Nat := 0
  totalTiles : Nat := 0
  lastsubencoding : UInt8 := 0
  background : Option Rgba := none
  foreground : Option Rgba := none
  deriving DecidableEq, Repr

namespace HextileDecoder

def start (r : Rect) (s : HextileDecoder) : HextileDecoder :=
  let tilesX := (r.width + 15) / 16
  let tilesY := (r.height + 15) / 16
  { s with tilesX, tilesY, totalTiles := tilesX * tilesY, tiles := tilesX * tilesY }

/-- The place of the next tile. -/
def tile (r : Rect) (s : HextileDecoder) : Rect :=
  let currTile := s.totalTiles - s.tiles
  let tx := r.x + currTile % s.tilesX * 16
  let ty := r.y + currTile / s.tilesX * 16
  ⟨tx, ty, min 16 (r.x + r.width - tx), min 16 (r.y + r.height - ty)⟩

/-- Whether a bit of the subencoding is set. -/
def flag (subencoding bit : UInt8) : Bool := subencoding &&& bit != 0

/-- The subencoding with the colours that come before the number of subrectangles. -/
def colourBytes (subencoding : UInt8) : Nat :=
  1 + (if flag subencoding 0x02 then 4 else 0) + (if flag subencoding 0x04 then 4 else 0)

/-- Figure out how much we are expecting. -/
def tileBytes (r : Rect) (d : Drawing HextileDecoder) : List UInt8 → Option Nat
  | [] => none
  | subencoding :: rest =>
      if 30 < subencoding then some 1
      else if flag subencoding 0x01 then
        let t := tile r d.decoder
        some (1 + t.width * t.height * 4)
      else
        let bytes := colourBytes subencoding
        if flag subencoding 0x08 then
          match (subencoding :: rest)[bytes]? with
          | none => none
          | some subrects =>
              some (bytes + 1 + subrects.toNat * if flag subencoding 0x10 then 4 + 2 else 2)
        else some bytes

/-- A subrectangle of a tile, in its buffer of rows of the given width. -/
def subTile (width x y w h : Nat) (color : Rgba) (tile : List Rgba) : List Rgba :=
  (List.range h).foldl (fun tile j =>
    (List.range w).foldl (fun tile i => tile.set (x + i + (y + j) * width) color) tile) tile

/-- The subrectangles of a tile, in the given colour if they are not coloured themselves. -/
def subTiles (width : Nat) (coloured : Bool) (foreground : Option Rgba) :
    Nat → List UInt8 → List Rgba → Option (List Rgba)
  | 0, _, tile => some tile
  | n + 1, data, tile =>
      let color := if coloured then some (rgb data) else foreground
      let data := if coloured then data.drop 4 else data
      match color with
      | none => none
      | some color =>
          let xy := data.getD 0 0
          let wh := data.getD 1 0
          subTiles width coloured foreground n (data.drop 2)
            (subTile width (xy >>> 4).toNat (xy &&& 0x0f).toNat ((wh >>> 4).toNat + 1)
              ((wh &&& 0x0f).toNat + 1) color tile)

/-- A whole tile is there. A colour that was never sent is not defined. -/
def drawTile (t : Rect) (d : Drawing HextileDecoder) (data : List UInt8) :
    Ending (Drawing HextileDecoder) Fault Unit :=
  let subencoding := data.getD 0 0
  let finished (d : Drawing HextileDecoder) (s : HextileDecoder) :
      Ending (Drawing HextileDecoder) Fault Unit :=
    .ok ((), d.set { s with lastsubencoding := subencoding, tiles := s.tiles - 1 })
  if 30 < subencoding then
    .error (d, decodeError ("Illegal hextile subencoding (subencoding: " ++
      toString subencoding.toNat ++ ")"))
  else if subencoding = 0 then
    -- blanks after RAW are ignored
    if flag d.decoder.lastsubencoding 0x01 then finished d d.decoder
    else match d.decoder.background with
      | none => .error (d, .typeError)
      | some color => finished (d.draw (.fillRect t color)) d.decoder
  else if flag subencoding 0x01 then
    finished (d.draw (.blitImage t (rgbxPixels (data.drop 1)))) d.decoder
  else
    let background :=
      if flag subencoding 0x02 then some (rgb (data.drop 1)) else d.decoder.background
    let foreground :=
      if flag subencoding 0x04 then some (rgb (data.drop (colourBytes subencoding - 4)))
      else d.decoder.foreground
    let s := { d.decoder with background, foreground }
    match background with
    | none => .error (d, .typeError)
    | some color =>
        let started := List.replicate (t.width * t.height) color
        let rest := data.drop (colourBytes subencoding)
        let subrects := if flag subencoding 0x08 then (rest.getD 0 0).toNat else 0
        let coloured := flag subencoding 0x10
        match subTiles t.width coloured foreground subrects (rest.drop 1) started with
        | none => .error (d, .typeError)
        | some pixels => finished (d.draw (.blitImage t pixels)) s

def readTile (r : Rect) : Reads (Drawing HextileDecoder) Unit :=
  sized (tileBytes r) fun d => drawTile (tile r d.decoder) d

def decodeRect (r : Rect) : Reads (Drawing HextileDecoder) Unit :=
  stage (fun d => d.decoder.tiles = 0) (update fun d => d.set (start r d.decoder))
    (loop (fun d => 0 < d.decoder.tiles) (fun d _ => d.decoder.tiles) (readTile r))

theorem stable_tileBytes (r : Rect) : Stable (tileBytes r) := by
  intro d u n v announced
  cases u with
  | nil => cases announced
  | cons subencoding rest =>
      simp only [tileBytes, List.cons_append] at announced ⊢
      split at announced
      case isTrue => rwa [if_pos ‹_›]
      rw [if_neg ‹_›]
      split at announced
      case isTrue => rwa [if_pos ‹_›]
      rw [if_neg ‹_›]
      split at announced
      case isFalse => rwa [if_neg ‹_›]
      rw [if_pos ‹_›]
      cases found : (subencoding :: rest)[colourBytes subencoding]? with
      | none => rw [found] at announced; cases announced
      | some subrects =>
          have inside := (List.getElem?_eq_some_iff.mp found).1
          rw [← List.cons_append, List.getElem?_append_left inside]
          exact announced

theorem drawTile_tiles {t : Rect} {d d' : Drawing HextileDecoder} {data : List UInt8}
    (h : drawTile t d data = .ok ((), d')) : d'.decoder.tiles = d.decoder.tiles - 1 := by
  unfold drawTile at h
  grind [Drawing.set, Drawing.draw]

theorem readTile_descends (r : Rect) :
    Descends (fun d => 0 < d.decoder.tiles) (fun d _ => d.decoder.tiles) (readTile r) := by
  intro d q d' q' go h
  obtain ⟨n, -, -, drawn, -⟩ := sized_done h
  show d'.decoder.tiles < d.decoder.tiles
  rw [drawTile_tiles drawn]
  exact Nat.sub_lt go Nat.one_pos

theorem resumable_decodeRect (r : Rect) : (decodeRect r).Resumable := by
  refine resumable_stage (resumable_update _)
    (resumable_loop_sized (readTile_descends r) (stable_tileBytes r)) (fun d q d' q' _ h => ?_)
    fun d q d' q' _ h => ?_
  · cases h
  · exact Nat.ne_of_gt (loop_sized_more (readTile_descends r) h)

end HextileDecoder

end VmServer.Novnc
