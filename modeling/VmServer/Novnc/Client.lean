import VmServer.Novnc.Hextile
import VmServer.Novnc.Jpeg
import VmServer.Novnc.Tight
import VmServer.Novnc.Zrle

/-!
# The rectangles of a framebuffer update

The console client goes through an update rectangle by rectangle: real ones
are left to the decoder of their encoding, the others tell of the cursor, the
screen and the keyboard.

## Implementation notes

The page leaves `resizeSession` off, so no resize is ever requested. The
viewport and the scale of the canvas are not part of the client's drawing.
-/

namespace VmServer.Novnc

open Proxy Handler

/-- The update that is being read. -/
structure FBU where
  rects : Nat := 0
  rect : Rect := ⟨0, 0, 0, 0⟩
  encoding : Option Int := none
  deriving DecidableEq, Repr

/-- A connected client. `updates` are the numbers of rectangles of the updates it has read, and
`headers` the rectangles, with how much had been done when their headers were read. -/
structure Client (Z : Zlib) where
  fbu : FBU := {}
  fbDepth : Nat := 24
  flushing : Bool := false
  updates : List Nat := []
  headers : List (Nat × Rect × Int) := []
  log : List Effect := []
  fbWidth : Nat := 0
  fbHeight : Nat := 0
  fbName : String := ""
  viewOnly : Bool := false
  showDotCursor : Bool := false
  rfbXvpVer : UInt8 := 0
  supportsFence : Bool := false
  supportsContinuousUpdates : Bool := false
  enabledContinuousUpdates : Bool := false
  supportsSetDesktopSize : Bool := false
  screenID : Nat := 0
  screenFlags : Nat := 0
  pendingRemoteResize : Bool := false
  qemuExtKeyEventSupported : Bool := false
  extendedPointerEventSupported : Bool := false
  remoteCapsLock : Option Bool := none
  remoteNumLock : Option Bool := none
  clipboardText : Option String := none
  clipboardServerCapabilitiesFormats : Nat := 0
  clipboardServerCapabilitiesActions : Nat := 0
  raw : RawDecoder := {}
  rre : RREDecoder := {}
  hextile : HextileDecoder := {}
  zlib : ZlibDecoder Z := {}
  tight : TightDecoder Z := {}
  tightPNG : TightDecoder Z := {}
  zrle : ZRLEDecoder Z := {}
  jpeg : JPEGDecoder := {}

namespace Client

variable {Z : Zlib}

def effect (c : Client Z) (e : Effect) : Client Z := { c with log := c.log ++ [e] }

/-! ## Decoders -/

def rawLens : Lens (Client Z) (Drawing RawDecoder) where
  get c := ⟨c.raw, c.log⟩
  put c d := { c with raw := d.decoder, log := d.log }
  get_put _ _ := rfl
  put_put _ _ _ := rfl

def logLens : Lens (Client Z) (Drawing Unit) where
  get c := ⟨(), c.log⟩
  put c d := { c with log := d.log }
  get_put _ _ := rfl
  put_put _ _ _ := rfl

def rreLens : Lens (Client Z) (Drawing RREDecoder) where
  get c := ⟨c.rre, c.log⟩
  put c d := { c with rre := d.decoder, log := d.log }
  get_put _ _ := rfl
  put_put _ _ _ := rfl

def hextileLens : Lens (Client Z) (Drawing HextileDecoder) where
  get c := ⟨c.hextile, c.log⟩
  put c d := { c with hextile := d.decoder, log := d.log }
  get_put _ _ := rfl
  put_put _ _ _ := rfl

def zlibLens : Lens (Client Z) (Drawing (ZlibDecoder Z)) where
  get c := ⟨c.zlib, c.log⟩
  put c d := { c with zlib := d.decoder, log := d.log }
  get_put _ _ := rfl
  put_put _ _ _ := rfl

def tightLens : Lens (Client Z) (Drawing (TightDecoder Z)) where
  get c := ⟨c.tight, c.log⟩
  put c d := { c with tight := d.decoder, log := d.log }
  get_put _ _ := rfl
  put_put _ _ _ := rfl

def tightPNGLens : Lens (Client Z) (Drawing (TightDecoder Z)) where
  get c := ⟨c.tightPNG, c.log⟩
  put c d := { c with tightPNG := d.decoder, log := d.log }
  get_put _ _ := rfl
  put_put _ _ _ := rfl

def zrleLens : Lens (Client Z) (Drawing (ZRLEDecoder Z)) where
  get c := ⟨c.zrle, c.log⟩
  put c d := { c with zrle := d.decoder, log := d.log }
  get_put _ _ := rfl
  put_put _ _ _ := rfl

def jpegLens : Lens (Client Z) (Drawing JPEGDecoder) where
  get c := ⟨c.jpeg, c.log⟩
  put c d := { c with jpeg := d.decoder, log := d.log }
  get_put _ _ := rfl
  put_put _ _ _ := rfl

/-- The decoders by their encoding, with the rectangle they are called for. -/
def decoders (depth : Nat) (r : Rect) : List (Int × Reads (Client Z) Unit) :=
  [(0, within rawLens (RawDecoder.decodeRect depth r)),
    (1, within logLens (CopyRectDecoder.decodeRect r)),
    (2, within rreLens (RREDecoder.decodeRect r)),
    (5, within hextileLens (HextileDecoder.decodeRect r)),
    (6, within zlibLens (ZlibDecoder.decodeRect r)),
    (7, within tightLens (TightDecoder.decodeRect TightDecoder.methods r)),
    (-260, within tightPNGLens (TightDecoder.decodeRect TightPNGDecoder.methods r)),
    (16, within zrleLens (ZRLEDecoder.decodeRect r)),
    (21, within jpegLens (JPEGDecoder.decodeRect r)),
    (50, within logLens (H264Decoder.decodeRect r))]

def handleDataRect (depth : Nat) (r : Rect) (encoding : Int) : Reads (Client Z) Unit :=
  match (decoders depth r).lookup encoding with
  | none => fail (.fail ("Unsupported encoding (encoding: " ++ toString encoding ++ ")"))
  | some decodeRect => decodeRect

/-- What is so for an unsupported encoding and for each of the decoders. -/
theorem handleDataRect_of {depth : Nat} {r : Rect} {motive : Int → Reads (Client Z) Unit → Prop}
    (unsupported : ∀ encoding e, motive encoding (fail e))
    (each : ∀ p ∈ decoders depth r, motive p.1 p.2) (encoding : Int) :
    motive encoding (handleDataRect depth r encoding) := by
  unfold handleDataRect
  cases found : (decoders depth r).lookup encoding with
  | none => exact unsupported encoding _
  | some decodeRect =>
      obtain ⟨before, after, split, -⟩ := List.lookup_eq_some_iff.mp found
      exact each (encoding, decodeRect) (split ▸ List.mem_append_right _ List.mem_cons_self)

/-! ## The cursor -/

/-- `RFB.cursors.dot` -/
def dot : List Rgba :=
  let white : Rgba := ⟨255, 255, 255, 255⟩
  let black : Rgba := ⟨0, 0, 0, 255⟩
  [white, black, white, black, ⟨0, 0, 0, 0⟩, black, white, black, white]

/-- The dot stands in for a cursor that cannot be seen. -/
def updateCursor (c : Client Z) (pixels : List Rgba) (hotx hoty w h : Nat) : Client Z :=
  if c.showDotCursor ∧ pixels.all (·.alpha = 0) then c.effect (.cursor dot 1 1 3 3)
  else c.effect (.cursor pixels hotx hoty w h)

/-- A pixel of the AND mask and one of the XOR mask, as far as a browser can show them. -/
def classicPixel (andMask xorMask : List UInt8) : Rgba :=
  if andMask = [0, 0, 0, 0] then
    ⟨xorMask.getD 2 0, xorMask.getD 1 0, xorMask.getD 0 0, 0xff⟩
  else if andMask.take 3 = [0xff, 0xff, 0xff] ∧ xorMask = [0, 0, 0, 0] then ⟨0, 0, 0, 0⟩
  else ⟨0, 0, 0, 0xff⟩

/-- Four bytes a pixel. -/
def rgbaPixels : List UInt8 → List Rgba
  | r :: g :: b :: a :: rest => ⟨r, g, b, a⟩ :: rgbaPixels rest
  | _ => []

/-- `new Array` for the bytes of so many pixels throws. -/
def tooManyPixels (r : Rect) : Bool := 2 ^ 32 ≤ r.width * r.height * 4

def vmwareBytes (r : Rect) (cursorType : UInt8) : Nat :=
  if cursorType = 0 then if tooManyPixels r then 1 else 2 + r.width * r.height * 4 * 2
  else if cursorType = 1 then 2 + r.width * r.height * 4
  else 1

/-- The cursor type is looked at, and an array made for a classic one, before the cursor is there;
an unknown type is not put back, and the rectangle is begun again with the next message. -/
def handleVMwareCursor (r : Rect) : Reads (Client Z) Unit :=
  sized (header 1 fun _ q => vmwareBytes r (q.getD 0 0)) fun c data =>
    let cursorType := data.getD 0 0
    let masks := data.drop 2
    let size := r.width * r.height
    if cursorType = 0 ∧ tooManyPixels r then .error (c, .thrown "RangeError: Invalid array length")
    else if cursorType = 0 then
      let pixels := (List.range size).map fun pixel =>
        classicPixel (slice masks (pixel * 4) (pixel * 4 + 4))
          (slice masks ((size + pixel) * 4) ((size + pixel) * 4 + 4))
      .ok ((), c.updateCursor pixels r.x r.y r.width r.height)
    else if cursorType = 1 then
      .ok ((), c.updateCursor (rgbaPixels masks) r.x r.y r.width r.height)
    else .error (c, .astray)

def pixelslength (r : Rect) : Nat := r.width * r.height * 4

/-- A row of the mask. -/
def maskRow (r : Rect) : Nat := (r.width + 7) / 8

def handleCursor (r : Rect) : Reads (Client Z) Unit :=
  sized (fun _ _ => some (pixelslength r + maskRow r * r.height)) fun c data =>
    let mask := data.drop (pixelslength r)
    let rgba := (List.range r.height).flatMap fun y => (List.range r.width).map fun x =>
      let pixIdx := (y * r.width + x) * 4
      let alpha := (mask.getD (y * maskRow r + x / 8) 0).toNat / 2 ^ (7 - x % 8) % 2
      ⟨data.getD (pixIdx + 2) 0, data.getD (pixIdx + 1) 0, data.getD pixIdx 0,
        if alpha = 1 then 255 else 0⟩
    .ok ((), c.updateCursor rgba r.x r.y r.width r.height)

/-! ## The screen and the keyboard -/

/-- `String.fromCharCode` of every byte. -/
def latin1 (bytes : List UInt8) : String := String.ofList (bytes.map fun b => Char.ofNat b.toNat)

/-- `decodeUTF8`, `none` where it throws. -/
def decodeUTF8 (bytes : List UInt8) : Option String := String.fromUTF8? ⟨bytes.toArray⟩

def handleDesktopName : Reads (Client Z) Unit :=
  sized (header 4 fun _ q => 4 + u32 q 0) fun c data =>
    let name := (decodeUTF8 (data.drop 4)).getD (latin1 (data.drop 4))
    .ok ((), { c with fbName := name }.effect (.desktopname name))

def updateContinuousUpdates (c : Client Z) : Client Z :=
  if c.enabledContinuousUpdates then
    c.effect (.send (Messages.enableContinuousUpdates 1 0 0 c.fbWidth c.fbHeight))
  else c

def resize (c : Client Z) (width height : Nat) : Client Z :=
  ({ c with fbWidth := width, fbHeight := height }.effect
    (.draw (.resize width height))).updateContinuousUpdates

/-- Where the change has its reason in `x` and, if this client asked for it, its result in `y`. -/
def handleExtendedDesktopSize (r : Rect) : Reads (Client Z) Unit :=
  sized (header 4 fun _ q => 4 + (q.getD 0 0).toNat * 16) fun c data =>
    let numberOfScreens := data.getD 0 0
    let c := { c with supportsSetDesktopSize := true }
    let c := if numberOfScreens = 0 then c
      else { c with screenID := u32 data 4, screenFlags := u32 data 16 }
    let c := if r.x = 1 then { c with pendingRemoteResize := false } else c
    .ok ((), if r.x = 1 ∧ r.y ≠ 0 then c else c.resize r.width r.height)

def handleLedEvent : Reads (Client Z) Unit :=
  sized (fun _ _ => some 1) fun c data =>
    let data := data.getD 0 0
    .ok ((), { c with
      remoteCapsLock := some (data &&& 4 != 0), remoteNumLock := some (data &&& 2 != 0) })

/-! ## Rectangles -/

/-- What a rectangle is handled with: the update it belongs to and the depth of the pixels. -/
def key (c : Client Z) : FBU × Nat := (c.fbu, c.fbDepth)

def handleRect (k : FBU × Nat) : Reads (Client Z) Unit :=
  match k.1.encoding with
  | none => update id
  | some encoding =>
      let r := k.1.rect
      if encoding = -224 then update fun c => { c with fbu := { c.fbu with rects := 1 } }
      else if encoding = 0x574d5664 then handleVMwareCursor r
      else if encoding = -239 then handleCursor r
      else if encoding = -258 then update fun c => { c with qemuExtKeyEventSupported := true }
      else if encoding = -307 then handleDesktopName
      else if encoding = -223 then update fun c => c.resize r.width r.height
      else if encoding = -308 then handleExtendedDesktopSize r
      else if encoding = -316 then
        update fun c => { c with extendedPointerEventSupported := true }
      else if encoding = -261 then handleLedEvent
      else handleDataRect k.2 r encoding

def readRectHeader : Reads (Client Z) Unit :=
  sized (fun _ _ => some 12) fun c data =>
    let rect : Rect := ⟨u16 data 0, u16 data 2, u16 data 4, u16 data 6⟩
    let encoding := toSigned32bit (u32 data 8)
    .ok ((), { c with
      fbu := { c.fbu with rect, encoding := some encoding }
      headers := c.headers ++ [(c.log.length, rect, encoding)] })

/-- A rectangle from its header, or from where it was left. -/
def readRect : Reads (Client Z) Unit :=
  finish (stage (fun c => c.fbu.encoding = none) readRectHeader (branch key handleRect))
    fun _ c => .ok ((), { c with fbu := { c.fbu with rects := c.fbu.rects - 1, encoding := none } })

/-- The rest of an update, which is then shown. The next one is asked for, unless updates come
by themselves. -/
def readRects : Reads (Client Z) Unit :=
  finish (loop (fun c => 0 < c.fbu.rects) (fun c _ => c.fbu.rects) readRect) fun _ c =>
    let c := c.effect (.draw .flip)
    .ok ((), if c.enabledContinuousUpdates then c
      else c.effect (.send (Messages.fbUpdateRequest true (some 0) (some 0) c.fbWidth c.fbHeight)))

end Client

end VmServer.Novnc
