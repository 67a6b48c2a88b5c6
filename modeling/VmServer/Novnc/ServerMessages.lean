import VmServer.Novnc.Client

/-!
# The messages of the VNC server

Each handler is called behind the type of its message and goes back to before
it when the message is not there yet. Some messages are taken up to where the
handler has read, whatever their length says.

## Implementation notes

A text for the server goes out with its line ends and its terminator, as the
page has set it. An exception outside of the decoders leaves the loop; what
the client does after one, or after a disconnect, is not followed.
-/

namespace VmServer.Novnc

open Proxy Handler

def extendedClipboardFormatText : Nat := 1
def extendedClipboardActionCaps : Nat := 1 <<< 24
def extendedClipboardActionRequest : Nat := 1 <<< 25
def extendedClipboardActionPeek : Nat := 1 <<< 26
def extendedClipboardActionNotify : Nat := 1 <<< 27
def extendedClipboardActionProvide : Nat := 1 <<< 28

namespace Messages

def buildExtendedClipboardFlags (actions formats : List Nat) : List UInt8 :=
  let actionFlag := actions.foldl (· ||| ·) 0
  let formatFlag := formats.foldl (· ||| ·) 0
  [UInt8.ofNat (actionFlag >>> 24), 0, 0, UInt8.ofNat formatFlag]

/-- Change lone \r or \n into \r\n. -/
def crlf : List Char → List Char
  | '\r' :: '\n' :: rest | '\r' :: rest | '\n' :: rest => '\r' :: '\n' :: crlf rest
  | c :: rest => c :: crlf rest
  | [] => []

def extendedClipboardProvide (Z : Zlib) (formats : List Nat) (inData : String) : List UInt8 :=
  let text := (crlf inData.toList ++ ['\x00']).flatMap String.utf8EncodeChar
  let deflatedData := Z.deflate (sQpush32 text.length ++ text)
  Proxy.Messages.clientCutText
    (buildExtendedClipboardFlags [extendedClipboardActionProvide] formats ++ deflatedData) true

def extendedClipboardNotify (formats : List Nat) : List UInt8 :=
  Proxy.Messages.clientCutText
    (buildExtendedClipboardFlags [extendedClipboardActionNotify] formats) true

def extendedClipboardRequest (formats : List Nat) : List UInt8 :=
  Proxy.Messages.clientCutText
    (buildExtendedClipboardFlags [extendedClipboardActionRequest] formats) true

/-- The key of a format is the name of its constant, and a shift by a name is one by zero. -/
def extendedClipboardCaps (actions : List Nat) (formats : List (Nat × Int)) : List UInt8 :=
  let keys := formats.map fun format => 1 <<< format.1
  let sizes := formats.flatMap fun format => sQpush32 format.2
  Proxy.Messages.clientCutText (buildExtendedClipboardFlags actions keys ++ sizes) true

end Messages

namespace Client

variable {Z : Zlib}

/-! ## Updates -/

/-- The header of an update. If the display has not shown the last one, the client waits until
it has; `pending` tells for each update whether it has not. -/
def readUpdate (pending : Nat → Bool) : Reads (Client Z) Unit := fun c q =>
  if q.length < 3 then .more c q
  else
    let rects := u16 q 1
    let rest := q.drop 3
    let read := { c with fbu := { c.fbu with rects }, updates := c.updates ++ [rects] }
    if pending c.updates.length then .paused { read with flushing := true } rest
    else .done () read rest

/-! ## The clipboard -/

/-- The parts of a ServerCutText message behind its type and padding. -/
def cutLength (data : List UInt8) : Int := toSigned32bit (u32 data 3)

def cutFlags (data : List UInt8) : Nat := u32 data 7

def cutFormats (data : List UInt8) : Nat := cutFlags data &&& 0x0000ffff

def cutActions (data : List UInt8) : Nat := cutFlags data &&& 0xff000000

/-- Whether the text that comes with a message is read. -/
def readsProvided (c : Client Z) (data : List UInt8) : Bool :=
  cutActions data = extendedClipboardActionProvide && !c.viewOnly &&
    (cutFormats data &&& extendedClipboardFormatText) ≠ 0

/-- How much of a message is read. -/
def cutTaken (c : Client Z) (data : List UInt8) : Nat :=
  if 0 ≤ cutLength data then data.length
  else if (cutActions data &&& extendedClipboardActionCaps) ≠ 0 then
    11 + 4 * (List.range 16).countP fun i => (cutFormats data).testBit i
  else if c.readsProvided data then data.length
  else 11

/-- An inflater with the size of its buffer, and the text that was found. -/
structure Inflation (Z : Zlib) where
  stream : Z.Stream
  chunkSize : Nat := 1024 * 10 * 10
  text : Option (List UInt8) := none
  /-- The text lies in the buffer, and what is inflated next is written over it. -/
  shared : Bool := false

/-- `Inflate.inflate` -/
def Inflation.inflate (f : Inflation Z) (expected : Nat) :
    Except String (List UInt8 × Inflation Z) := do
  let (bytes, stream) ← Z.inflate f.stream expected
  let f := if f.chunkSize < expected then { f with chunkSize := expected, shared := false } else f
  let overwrite (text : List UInt8) := bytes.take text.length ++ text.drop bytes.length
  return (bytes, { f with stream, text := if f.shared then f.text.map overwrite else f.text })

/-- The sizes and contents of the formats, one behind the other. The text is a view of the
inflater's buffer. -/
def inflateFormats (formats : Nat) :
    List Nat → Inflation Z → Except String (Option (List UInt8))
  | [], f => .ok f.text
  | i :: rest, f =>
      if formats.testBit i then do
        let (sizeArray, f) ← f.inflate 4
        let size := bigEndian sizeArray
        -- the size is signed, and no output is as long as a negative number
        if 2 ^ 31 ≤ size then throw "Incomplete zlib block"
        let (chunk, f) ← f.inflate size
        inflateFormats formats rest
          (if 1 <<< i = extendedClipboardFormatText then
            { f with text := some chunk, shared := true }
          else f)
      else inflateFormats formats rest f

/-- `replaceAll("\r\n", "\n")` -/
def lf : List Char → List Char
  | '\r' :: '\n' :: rest => '\n' :: lf rest
  | c :: rest => c :: lf rest
  | [] => []

/-- A text without its terminator and with plain line ends. -/
def plainText (text : String) : String :=
  let chars := text.toList
  String.ofList (lf (if chars.getLast? = some '\x00' then chars.dropLast else chars))

/-- A clipboard message of which enough was read. -/
def extendedCutText (c : Client Z) (data : List UInt8) : Ending (Client Z) Fault Unit :=
  let formats := cutFormats data
  let actions := cutActions data
  let text := (formats &&& extendedClipboardFormatText) ≠ 0
  let serverTakes (action : Nat) := (c.clipboardServerCapabilitiesActions &&& action) ≠ 0
  if (actions &&& extendedClipboardActionCaps) ≠ 0 then
    let c := { c with
      clipboardServerCapabilitiesFormats := formats, clipboardServerCapabilitiesActions := actions }
    .ok ((), c.effect (.send (Messages.extendedClipboardCaps
      [extendedClipboardActionCaps, extendedClipboardActionRequest, extendedClipboardActionPeek,
        extendedClipboardActionNotify, extendedClipboardActionProvide] [(0, 0)])))
  else if actions = extendedClipboardActionRequest then
    if c.viewOnly then .ok ((), c)
    else match c.clipboardText with
      | none => .ok ((), c)
      | some clipboardText =>
          .ok ((), if serverTakes extendedClipboardActionProvide ∧ text then
              c.effect (.send (Messages.extendedClipboardProvide Z [extendedClipboardFormatText]
                clipboardText))
            else c)
  else if actions = extendedClipboardActionPeek then
    if c.viewOnly then .ok ((), c)
    else if serverTakes extendedClipboardActionNotify then
      .ok ((), c.effect (.send (Messages.extendedClipboardNotify
        (if c.clipboardText.isSome then [extendedClipboardFormatText] else []))))
    else .ok ((), c)
  else if actions = extendedClipboardActionNotify then
    if c.viewOnly then .ok ((), c)
    else if serverTakes extendedClipboardActionRequest ∧ text then
      .ok ((), c.effect
        (.send (Messages.extendedClipboardRequest [extendedClipboardFormatText])))
    else .ok ((), c)
  else if actions = extendedClipboardActionProvide then
    if ¬c.readsProvided data then .ok ((), c)
    else
      let c := { c with clipboardText := none }
      match
        inflateFormats formats (List.range 16)
          { stream := Z.setInput Z.init (data.drop 11) }
      with
      | .error message => .error (c, .thrown message)
      | .ok none => .ok ((), c)
      | .ok (some textData) =>
          match decodeUTF8 textData with
          | none => .error (c, .thrown "URIError")
          | some text => .ok ((), c.effect (.clipboard (plainText text)))
  else .error (c, .fail ("Unexpected action in extended clipboard message: " ++
    toString (toSigned32bit actions)))

/-- A negative length is that of an extended message. One that is read past its end has taken
bytes that need not be there. -/
def handleServerCutText : Reads (Client Z) Unit :=
  sized (once (header 7 fun _ q => 7 + (cutLength q).natAbs) fun c data =>
      min data.length (c.cutTaken data)) fun c data =>
    let length := cutLength data
    if 0 ≤ length then
      .ok ((), if c.viewOnly then c else c.effect (.clipboard (latin1 (data.drop 7))))
    else if 7 + length.natAbs < c.cutTaken data then .error (c, .astray)
    else c.extendedCutText data

/-! ## Other messages -/

/-- A payload is read up to 64 bytes. -/
def handleServerFenceMsg : Reads (Client Z) Unit :=
  sized (once (header 8 fun _ q => 8 + (q.getD 7 0).toNat) fun _ data =>
      min data.length (8 + 64)) fun c data =>
    let flags := u32 data 3
    let payload := data.drop 8
    let c := { c with supportsFence := true }
    if ¬flags.testBit 31 then .error (c, .fail "Unexpected fence response")
    else .ok ((), c.effect (.send
      (Proxy.Messages.clientFence (flags % 4 : Nat) (payload.map UInt8.toUInt16))))

def handleXvpMsg : Reads (Client Z) Unit :=
  sized (fun _ _ => some 3) fun c data =>
    let xvpVer := data.getD 1 0
    let xvpMsg := data.getD 2 0
    if xvpMsg = 0 then .ok ((), c)
    else if xvpMsg = 1 then
      .ok ((), { c with rfbXvpVer := xvpVer }.effect (.capabilities true))
    else .error (c, .fail ("Illegal server XVP message (msg: " ++ toString xvpMsg.toNat ++ ")"))

/-- The end of continuous updates is first sent to say that there are any. -/
def endOfContinuousUpdates (c : Client Z) : Client Z :=
  let first := !c.supportsContinuousUpdates
  let c := { c with supportsContinuousUpdates := true, enabledContinuousUpdates := false }
  if first then { c with enabledContinuousUpdates := true }.updateContinuousUpdates else c

/-- The messages that are not updates. -/
def handleOther (msgType : UInt8) : Reads (Client Z) Unit :=
  if msgType = 1 then fail (.fail "Unexpected SetColorMapEntries message")
  else if msgType = 2 then update fun c => c.effect .bell
  else if msgType = 3 then handleServerCutText
  else if msgType = 150 then update endOfContinuousUpdates
  else if msgType = 248 then handleServerFenceMsg
  else if msgType = 250 then handleXvpMsg
  else fail (.fail ("Unexpected server message (type " ++ toString msgType.toNat ++ ")"))

end Client

end VmServer.Novnc
