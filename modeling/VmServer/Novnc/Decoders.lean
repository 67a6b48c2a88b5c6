import VmServer.Library.Resumable
import VmServer.Proxy.ClientEncoders

/-!
# The decoders of the console client

A decoder reads a rectangle from the receive queue and draws it. When the
queue runs out it returns, and it is called again with the same rectangle when
more has come. What it has read by then is in its own fields. Each decoder
gives the same drawing wherever the queue ran out.

## Implementation notes

`rQwait` with a number of bytes to go back, and reads through `rQpeek8` and
`rQpeekBytes`, are `Handler.sized`: nothing is taken before everything is
there. The zlib library is a parameter. Pixels are those of the array that the
display is called with; what the display copies in their place, while images
wait, from the buffer behind an array is not followed. Nor are a browser that
cannot decode video and one that has no room for an array.
-/

namespace VmServer.Novnc

open Proxy Handler

structure Rect where
  x : Nat
  y : Nat
  width : Nat
  height : Nat
  deriving DecidableEq, Repr

structure Rgba where
  red : UInt8
  green : UInt8
  blue : UInt8
  alpha : UInt8
  deriving DecidableEq, Repr, Inhabited

/-- The calls of the display: `blitImage` with the pixels of its array. -/
inductive DrawOp
  | fillRect (r : Rect) (color : Rgba)
  | blitImage (r : Rect) (pixels : List Rgba)
  | copyImage (oldX oldY : Nat) (r : Rect)
  | imageRect (r : Rect) (mime : String) (data : List UInt8)
  /-- The payload goes to the context of the rectangle, which draws the frames it makes of it. -/
  | h264 (r : Rect) (flags : Nat) (payload : List UInt8)
  | resize (width height : Nat)
  | flip
  deriving DecidableEq, Repr

/-- What the client does, in the order it is done. -/
inductive Effect
  | draw (op : DrawOp)
  | send (bytes : List UInt8)
  | clipboard (text : String)
  | bell
  | desktopname (name : String)
  | capabilities (power : Bool)
  | cursor (pixels : List Rgba) (hotx hoty w h : Nat)
  deriving DecidableEq, Repr

/-- How the handling of a message breaks off: a disconnect with a text for the log, an error of
the language, an exception that leaves the message handler, or reads that are not those of a whole
message. -/
inductive Fault
  | fail (details : String)
  | typeError
  | thrown (message : String)
  | astray
  deriving DecidableEq, Repr

/-- An error that a decoder throws. -/
def decodeError (message : String) : Fault := .fail ("Error decoding rect: Error: " ++ message)

/-- The deflater and the inflater, and how many bytes this one can still make of its input. -/
structure Zlib where
  deflate : List UInt8 → List UInt8
  Stream : Type
  init : Stream
  setInput : Stream → List UInt8 → Stream
  inflate : Stream → Nat → Except String (List UInt8 × Stream)
  reset : Stream → Stream
  left : Stream → Nat
  inflate_length : ∀ {z n bytes z'}, inflate z n = .ok (bytes, z') → bytes.length = n
  inflate_left : ∀ {z n bytes z'}, inflate z n = .ok (bytes, z') → left z' + n ≤ left z

/-- A decoder with what has been done before. -/
structure Drawing (δ : Type) where
  decoder : δ
  log : List Effect

namespace Drawing

variable {δ : Type}

def draw (d : Drawing δ) (op : DrawOp) : Drawing δ := { d with log := d.log ++ [.draw op] }

def set (d : Drawing δ) (decoder : δ) : Drawing δ := { d with decoder }

@[simp] theorem set_decoder (d : Drawing δ) (decoder : δ) : (d.set decoder).decoder = decoder := rfl

end Drawing

/-- A handler of the receive queue. -/
abbrev Reads (σ α : Type) := Handler σ UInt8 Fault α

/-- `rQshift16` at a place in what was read. -/
def u16 (data : List UInt8) (i : Nat) : Nat := bigEndian (slice data i (i + 2))

/-- `rQshift32` at a place in what was read. -/
def u32 (data : List UInt8) (i : Nat) : Nat := bigEndian (slice data i (i + 4))

theorem u16_append {u : List UInt8} {i : Nat} (v : List UInt8) (long : i + 2 ≤ u.length) :
    u16 (u ++ v) i = u16 u i := by
  rw [u16, u16, slice, slice, List.take_append_of_le_length long]

/-- The colour in three or four bytes. -/
def rgb (color : List UInt8) : Rgba :=
  ⟨color.getD 0 0, color.getD 1 0, color.getD 2 0, 255⟩

/-- Four bytes a pixel, made fully visible. -/
def rgbxPixels : List UInt8 → List Rgba
  | r :: g :: b :: _ :: rest => ⟨r, g, b, 255⟩ :: rgbxPixels rest
  | _ => []

/-- Three bytes a pixel. -/
def rgbPixels : List UInt8 → List Rgba
  | r :: g :: b :: rest => ⟨r, g, b, 255⟩ :: rgbPixels rest
  | _ => []

/-! ## Raw -/

/-- The rows that are still to come. -/
structure RawDecoder where
  lines : Nat := 0
  deriving DecidableEq, Repr

namespace RawDecoder

/-- A pixel of depth 8, two bits a colour. -/
def lowColor (data : UInt8) : Rgba :=
  ⟨(data &&& 3) * 85, (data >>> 2 &&& 3) * 85, (data >>> 4 &&& 3) * 85, 255⟩

def pixelSize (depth : Nat) : Nat := if depth = 8 then 1 else 4

def pixels (depth : Nat) (data : List UInt8) : List Rgba :=
  if depth = 8 then data.map lowColor else rgbxPixels data

def line (depth : Nat) (r : Rect) : Reads (Drawing RawDecoder) Unit :=
  sized (fun _ _ => some (r.width * pixelSize depth)) fun d data =>
    let lines := d.decoder.lines
    let curY := r.y + (r.height - lines)
    .ok ((), (d.draw (.blitImage ⟨r.x, curY, r.width, 1⟩ (pixels depth data))).set ⟨lines - 1⟩)

def decodeRect (depth : Nat) (r : Rect) : Reads (Drawing RawDecoder) Unit :=
  if r.width = 0 ∨ r.height = 0 then update id
  else
    stage (fun d => d.decoder.lines = 0) (update fun d => d.set ⟨r.height⟩)
      (loop (fun d => 0 < d.decoder.lines) (fun d _ => d.decoder.lines) (line depth r))

theorem line_descends (depth : Nat) (r : Rect) :
    Descends (fun d => 0 < d.decoder.lines) (fun d _ => d.decoder.lines) (line depth r) := by
  intro d q d' q' go h
  obtain ⟨n, -, -, used, -⟩ := sized_done h
  obtain ⟨-, rfl⟩ := Prod.mk.inj (Except.ok.inj used)
  exact Nat.sub_lt go Nat.one_pos

theorem resumable_decodeRect (depth : Nat) (r : Rect) : (decodeRect depth r).Resumable := by
  unfold decodeRect
  split
  · exact resumable_update _
  · refine resumable_stage (resumable_update _)
      (resumable_loop_sized (line_descends depth r) (stable_some _)) (fun _ _ _ _ _ h => ?_)
      fun d q d' q' _ h => ?_
    · cases h
    · exact Nat.ne_of_gt (loop_sized_more (line_descends depth r) h)

end RawDecoder

/-! ## CopyRect -/

namespace CopyRectDecoder

def decodeRect (r : Rect) : Reads (Drawing Unit) Unit :=
  sized (fun _ _ => some 4) fun d data =>
    let deltaX := u16 data 0
    let deltaY := u16 data 2
    if r.width = 0 ∨ r.height = 0 then .ok ((), d)
    else .ok ((), d.draw (.copyImage deltaX deltaY r))

theorem resumable_decodeRect (r : Rect) : (decodeRect r).Resumable :=
  resumable_sized (stable_some _)

end CopyRectDecoder

/-! ## RRE -/

/-- The rectangles that are still to come. -/
structure RREDecoder where
  subrects : Nat := 0
  deriving DecidableEq, Repr

namespace RREDecoder

def background (r : Rect) : Reads (Drawing RREDecoder) Unit :=
  sized (fun _ _ => some 8) fun d data =>
    .ok ((), (d.draw (.fillRect r (rgb (slice data 4 8)))).set ⟨u32 data 0⟩)

def subrect (r : Rect) : Reads (Drawing RREDecoder) Unit :=
  sized (fun _ _ => some 12) fun d data =>
    let sub : Rect := ⟨r.x + u16 data 4, r.y + u16 data 6, u16 data 8, u16 data 10⟩
    .ok ((), (d.draw (.fillRect sub (rgb (slice data 0 4)))).set ⟨d.decoder.subrects - 1⟩)

def decodeRect (r : Rect) : Reads (Drawing RREDecoder) Unit :=
  stage (fun d => d.decoder.subrects = 0) (background r)
    (loop (fun d => 0 < d.decoder.subrects) (fun d _ => d.decoder.subrects) (subrect r))

theorem subrect_descends (r : Rect) :
    Descends (fun d => 0 < d.decoder.subrects) (fun d _ => d.decoder.subrects) (subrect r) := by
  intro d q d' q' go h
  obtain ⟨n, -, -, used, -⟩ := sized_done h
  obtain ⟨-, rfl⟩ := Prod.mk.inj (Except.ok.inj used)
  exact Nat.sub_lt go Nat.one_pos

theorem resumable_decodeRect (r : Rect) : (decodeRect r).Resumable := by
  refine resumable_stage (resumable_sized (stable_some _))
    (resumable_loop_sized (subrect_descends r) (stable_some _))
    sized_stays fun d q d' q' _ h => ?_
  exact Nat.ne_of_gt (loop_sized_more (subrect_descends r) h)

end RREDecoder

/-! ## Zlib -/

structure ZlibDecoder (Z : Zlib) where
  zlib : Z.Stream := Z.init
  length : Nat := 0

namespace ZlibDecoder

variable {Z : Zlib}

def readLength : Reads (Drawing (ZlibDecoder Z)) Unit :=
  sized (fun _ _ => some 4) fun d data => .ok ((), d.set { d.decoder with length := u32 data 0 })

def readData (r : Rect) : Reads (Drawing (ZlibDecoder Z)) Unit :=
  sized (fun d _ => some d.decoder.length) fun d data =>
    match Z.inflate (Z.setInput d.decoder.zlib data) (r.width * r.height * 4) with
    | .error message => .error (d, decodeError message)
    | .ok (data, zlib) =>
        .ok ((), (d.draw (.blitImage r (rgbxPixels data))).set ⟨Z.setInput zlib [], 0⟩)

def decodeRect (r : Rect) : Reads (Drawing (ZlibDecoder Z)) Unit :=
  if r.width = 0 ∨ r.height = 0 then update id
  else stage (fun d => d.decoder.length = 0) readLength (readData r)

theorem resumable_decodeRect (r : Rect) :
    (decodeRect r : Reads (Drawing (ZlibDecoder Z)) Unit).Resumable := by
  unfold decodeRect
  split
  · exact resumable_update _
  · refine resumable_stage (resumable_sized (stable_some _)) (resumable_sized (stable_some _))
      sized_stays fun d q d' q' _ h => ?_
    obtain ⟨rfl, short⟩ := sized_more h
    exact Nat.ne_of_gt (Nat.zero_lt_of_lt (short _ rfl))

end ZlibDecoder

/-! ## H.264 -/

namespace H264Parser

def startSequenceLen : List UInt8 → Nat
  | 0 :: 0 :: 0 :: 1 :: _ => 4
  | 0 :: 0 :: 1 :: _ => 3
  | _ => 0

/-- The data from the next NAL unit on. -/
def nextNalUnit : List UInt8 → List UInt8
  | [] => []
  | b :: rest => if startSequenceLen (b :: rest) ≠ 0 then b :: rest else nextNalUnit rest

theorem length_nextNalUnit (data : List UInt8) : (nextNalUnit data).length ≤ data.length := by
  induction data with
  | nil => exact Nat.le_refl _
  | cons b rest ih =>
      unfold nextNalUnit
      split
      · exact Nat.le_refl _
      · exact Nat.le_succ_of_le ih

/-- What `parse` throws before it is at the end of the data. -/
def parse (data : List UInt8) : Option String :=
  if _ : data = [] then none
  else if _ : startSequenceLen data = 0 then some "Invalid start sequence in bit stream"
  else
    let unit := data.drop (startSequenceLen data)
    if unit.head?.any (0x80 ≤ ·) then
      some "H264 parsing sanity check failed, forbidden zero bit is set"
    else parse (nextNalUnit unit)
termination_by data.length
decreasing_by
  rename_i some_ _ _
  have long := List.length_pos_iff.mpr some_
  have shorter := length_nextNalUnit (data.drop (startSequenceLen data))
  rw [List.length_drop] at shorter
  omega

end H264Parser

namespace H264Decoder

/-- The header is read again with the payload. -/
def decodeRect (r : Rect) : Reads (Drawing Unit) Unit :=
  sized (header 8 fun _ q => 8 + u32 q 0) fun d data =>
    match H264Parser.parse (data.drop 8) with
    | some message => .error (d, decodeError message)
    | none => .ok ((), d.draw (.h264 r (u32 data 4) (data.drop 8)))

theorem resumable_decodeRect (r : Rect) : (decodeRect r).Resumable :=
  resumable_sized (stable_header _ _)

end H264Decoder

end VmServer.Novnc
