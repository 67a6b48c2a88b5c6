import VmServer.Proxy.ClientProtocol

/-!
# The message encoders of the embedded console client

The functions of `RFB.messages` as they push bytes to the socket's send
queue. Numbers are integers; a push keeps their low bytes, most significant
first. Booleans that are pushed as they are count as 0 or 1.

## Implementation notes

An encoder call is a value of `EncoderCall`, and a `ClientMessage` is a call
that did not throw with the bytes it sent. `extendedPointerEvent` throws for a
mask with reserved bits; the type byte it has pushed by then is no message.
The extended clipboard messages are `clientCutText` on the data they build.
-/

namespace VmServer.Proxy

/-- The low byte of a number, as it is stored in the send queue. -/
def lowByte (n : Int) : UInt8 := UInt8.ofNat (n % 256).toNat

def sQpush8 (num : Int) : List UInt8 := [lowByte num]

def sQpush16 (num : Int) : List UInt8 := [lowByte (num / 256), lowByte num]

def sQpush32 (num : Int) : List UInt8 :=
  [lowByte (num / 16777216), lowByte (num / 65536), lowByte (num / 256), lowByte num]

/-- A string is pushed as the low bytes of its UTF-16 code units. -/
def sQpushString (str : List UInt16) : List UInt8 := str.map UInt16.toUInt8

def toUnsigned32bit (toConvert : Int) : Int := toConvert % 4294967296

def toSigned32bit (toConvert : Int) : Int := (BitVec.ofInt 32 toConvert).toInt

namespace Messages

def keyEvent (keysym down : Int) : List UInt8 :=
  sQpush8 4 ++ sQpush8 down ++ sQpush16 0 ++ sQpush32 keysym

def getRFBkeycode (keycode xtScanCode : Int) : Int :=
  let upperByte := toSigned32bit keycode / 256
  let lowerByte := (keycode % 256).toNat
  if upperByte = 0xe0 ∧ lowerByte < 0x7f then (lowerByte ||| 0x80 : Nat) else xtScanCode

def qemuExtendedKeyEvent (keysym down keycode : Int) : List UInt8 :=
  sQpush8 255 ++ sQpush8 0 ++ sQpush16 down ++ sQpush32 keysym ++
    sQpush32 (getRFBkeycode keycode keycode)

def pointerEvent (x y mask : Int) : List UInt8 :=
  sQpush8 5 ++ sQpush8 (mask % 128) ++ sQpush16 x ++ sQpush16 y

def extendedPointerEvent (x y mask : Int) : Except String (List UInt8) :=
  let higherBits := mask / 128 % 256
  -- `higherBits & 0xfc`
  if 4 ≤ higherBits then .error ("Invalid mouse button mask: " ++ toString mask)
  else
    let lowerBits := mask % 128 + 128
    .ok (sQpush8 5 ++ sQpush8 lowerBits ++ sQpush16 x ++ sQpush16 y ++ sQpush8 higherBits)

def clientCutText (data : List UInt8) (extended : Bool) : List UInt8 :=
  let length := if extended then toUnsigned32bit (-data.length) else data.length
  sQpush8 6 ++ sQpush8 0 ++ sQpush8 0 ++ sQpush8 0 ++ sQpush32 length ++ data

def setDesktopSize (width height id flags : Int) : List UInt8 :=
  sQpush8 251 ++ sQpush8 0 ++ sQpush16 width ++ sQpush16 height ++ sQpush8 1 ++ sQpush8 0 ++
    sQpush32 id ++ sQpush16 0 ++ sQpush16 0 ++ sQpush16 width ++ sQpush16 height ++
    sQpush32 flags

def clientFence (flags : Int) (payload : List UInt16) : List UInt8 :=
  sQpush8 248 ++ sQpush8 0 ++ sQpush8 0 ++ sQpush8 0 ++ sQpush32 flags ++
    sQpush8 payload.length ++ sQpushString payload

def enableContinuousUpdates (enable x y width height : Int) : List UInt8 :=
  sQpush8 150 ++ sQpush8 enable ++ sQpush16 x ++ sQpush16 y ++ sQpush16 width ++ sQpush16 height

def pixelFormat (depth : Int) (trueColor : Bool) : List UInt8 :=
  let bpp := if 16 < depth then 32 else if 8 < depth then 16 else 8
  let bits := depth / 3
  let max : Int := ((1 <<< (bits % 32).toNat : Nat) : Int) - 1
  sQpush8 0 ++ sQpush8 0 ++ sQpush8 0 ++ sQpush8 0 ++
    sQpush8 bpp ++ sQpush8 depth ++ sQpush8 0 ++ sQpush8 (if trueColor then 1 else 0) ++
    sQpush16 max ++ sQpush16 max ++ sQpush16 max ++
    sQpush8 (bits * 0) ++ sQpush8 (bits * 1) ++ sQpush8 (bits * 2) ++
    sQpush8 0 ++ sQpush8 0 ++ sQpush8 0

def clientEncodings (encodings : List Int) : List UInt8 :=
  sQpush8 2 ++ sQpush8 0 ++ sQpush16 encodings.length ++ encodings.flatMap sQpush32

/-- `x` and `y` may be undefined. -/
def fbUpdateRequest (incremental : Bool) (x y : Option Int) (w h : Int) : List UInt8 :=
  sQpush8 3 ++ sQpush8 (if incremental then 1 else 0) ++ sQpush16 (x.getD 0) ++
    sQpush16 (y.getD 0) ++ sQpush16 w ++ sQpush16 h

def xvpOp (ver op : Int) : List UInt8 :=
  sQpush8 250 ++ sQpush8 0 ++ sQpush8 ver ++ sQpush8 op

end Messages

/-- A call of one of the encoders: clipboard data up to 64 MiB, fence payloads up to a length
that fits its byte, anything else as the encoder takes it. -/
inductive EncoderCall
  | pixelFormat (depth : Int) (trueColor : Bool)
  | clientEncodings (encodings : List Int)
  | fbUpdateRequest (incremental : Bool) (x y : Option Int) (w h : Int)
  | keyEvent (keysym down : Int)
  | pointerEvent (x y mask : Int)
  | extendedPointerEvent (x y mask : Int)
  | clientCutText (data : {data : List UInt8 // data.length ≤ clipboardLimit}) (extended : Bool)
  | qemuExtendedKeyEvent (keysym down keycode : Int)
  | setDesktopSize (width height id flags : Int)
  | clientFence (flags : Int) (payload : {payload : List UInt16 // payload.length ≤ 255})
  | enableContinuousUpdates (enable x y width height : Int)
  | xvpOp (ver op : Int)

namespace EncoderCall

/-- The bytes a call pushes to the send queue, or the error it throws. -/
def encode : EncoderCall → Except String (List UInt8)
  | pixelFormat depth trueColor => .ok (Messages.pixelFormat depth trueColor)
  | clientEncodings encodings => .ok (Messages.clientEncodings encodings)
  | fbUpdateRequest incremental x y w h => .ok (Messages.fbUpdateRequest incremental x y w h)
  | keyEvent keysym down => .ok (Messages.keyEvent keysym down)
  | pointerEvent x y mask => .ok (Messages.pointerEvent x y mask)
  | extendedPointerEvent x y mask => Messages.extendedPointerEvent x y mask
  | clientCutText data extended => .ok (Messages.clientCutText data extended)
  | qemuExtendedKeyEvent keysym down keycode =>
      .ok (Messages.qemuExtendedKeyEvent keysym down keycode)
  | setDesktopSize width height id flags => .ok (Messages.setDesktopSize width height id flags)
  | clientFence flags payload => .ok (Messages.clientFence flags payload)
  | enableContinuousUpdates enable x y width height =>
      .ok (Messages.enableContinuousUpdates enable x y width height)
  | xvpOp ver op => .ok (Messages.xvpOp ver op)

end EncoderCall

/-- A call of an encoder that went through, with the bytes it sent. -/
structure ClientMessage where
  call : EncoderCall
  bytes : List UInt8
  sent : call.encode = .ok bytes

/-- A number that fits two bytes is read back from them, any other up to a multiple. -/
theorem bigEndian_sQpush16 (n : Int) : bigEndian (sQpush16 n) = (n % 65536).toNat := by
  simp only [bigEndian, sQpush16, lowByte, List.foldl_cons, List.foldl_nil, UInt8.toNat_ofNat']
  omega

/-- Four bytes are two times two bytes. -/
theorem bigEndian_sQpush32_halves (n : Int) : bigEndian (sQpush32 n) =
    bigEndian (sQpush16 (n / 65536)) * 65536 + bigEndian (sQpush16 n) := by
  have top : n / 16777216 = n / 65536 / 256 := by omega
  simp only [bigEndian, sQpush32, sQpush16, top, List.foldl_cons, List.foldl_nil]
  omega

theorem bigEndian_sQpush32 (n : Int) : bigEndian (sQpush32 n) = (n % 4294967296).toNat := by
  rw [bigEndian_sQpush32_halves, bigEndian_sQpush16, bigEndian_sQpush16]
  omega

theorem length_sQpush8 (num : Int) : (sQpush8 num).length = 1 := rfl

theorem length_sQpush16 (num : Int) : (sQpush16 num).length = 2 := rfl

theorem length_pixelFormat (depth : Int) (trueColor : Bool) :
    (Messages.pixelFormat depth trueColor).length = 20 := by
  unfold Messages.pixelFormat
  simp only [List.length_append, length_sQpush8, length_sQpush16]

theorem length_flatMap_sQpush32 (ns : List Int) : (ns.flatMap sQpush32).length = 4 * ns.length := by
  induction ns with
  | nil => rfl
  | cons n ns ih =>
      rw [List.flatMap_cons, List.length_append, ih, List.length_cons]
      change 4 + _ = _
      omega

/-- A clipboard length stands for the number of bytes, in either direction of its sign. -/
theorem clipboardBytes_length (data : {data : List UInt8 // data.length ≤ clipboardLimit})
    (extended : Bool) :
    clipboardBytes (bigEndian (sQpush32
      (if extended then toUnsigned32bit (-data.1.length) else data.1.length))) =
        data.1.length := by
  have limit : data.1.length ≤ 67108864 := data.2
  rw [bigEndian_sQpush32, clipboardBytes, BitVec.toInt_ofNat', Int.bmod]
  cases extended with
  | false =>
      simp only [Bool.false_eq_true, if_false]
      omega
  | true =>
      simp only [if_true, toUnsigned32bit]
      omega

end VmServer.Proxy
