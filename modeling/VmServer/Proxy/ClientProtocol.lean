import VmServer.Library.Framing
import VmServer.Proxy.Filter

/-!
# The two framings of the client-to-server stream

`rfbMessages` is how the VNC server cuts the stream: the lengths of the
message types 0, 2, 3, 4, 5, 6, 150 and 255 as the RFB protocol defines them,
any other type ending the session. `clientMessages` is the framing the relay
is meant to follow: the same lengths with a limit on clipboard messages, and
two more message types. Neither looks at how the relay computes a length.
-/

namespace VmServer.Proxy

/-- A clipboard length counts bytes by its absolute value; negative means extended. -/
def clipboardBytes (n : Nat) : Nat := (BitVec.ofNat 32 n).toInt.natAbs

/-- The longest clipboard text the relay carries: 64 MiB. -/
def clipboardLimit : Nat := 64 * 2 ^ 20

/-- The length of an RFB client message of type `t`, from the fields at its front. -/
def rfbHeaderOf (t : UInt8) : Header UInt8 :=
  if t = 0 then .total 20
  else if t = 2 then .read 4 fun b => .total (4 + 4 * bigEndian (slice b 2 4))
  else if t = 3 then .total 10
  else if t = 4 then .total 8
  else if t = 5 then .total 6
  else if t = 6 then .read 8 fun b => .total (8 + clipboardBytes (bigEndian (slice b 4 8)))
  else if t = 150 then .total 10
  else if t = 255 then .read 2 fun b =>
    if b.getD 1 0 = 0 then .total 12
    else if b.getD 1 0 = 1 then
      .read 4 fun b => .total (if bigEndian (slice b 2 4) = 2 then 10 else 4)
    else .fail
  else .fail

/-- The same on the relay's side, with its clipboard limit and its two additional types. -/
def clientHeaderOf (t : UInt8) : Header UInt8 :=
  if t = 6 then .read 8 fun b =>
    let n := clipboardBytes (bigEndian (slice b 4 8))
    if n ≤ clipboardLimit then .total (8 + n) else .fail
  else if t = 151 then .read 9 fun b => .total (9 + (b.getD 8 0).toNat)
  else if t = 250 then .read 8 fun b => .total (8 + 16 * (b.getD 6 0).toNat)
  else rfbHeaderOf t

theorem rfbHeaderOf_fits (t : UInt8) : (rfbHeaderOf t).Fits 1 := by
  unfold rfbHeaderOf
  simp only [Header.fits_ite, Header.fits_total, Header.fits_read, Header.fits_fail]
  grind

/-- How the VNC server frames what it receives from a client. -/
def rfbMessages : Framing UInt8 := .tagged 0 rfbHeaderOf rfbHeaderOf_fits

theorem clientHeaderOf_fits (t : UInt8) : (clientHeaderOf t).Fits 1 := by
  unfold clientHeaderOf
  simp only [Header.fits_ite, Header.fits_total, Header.fits_read, Header.fits_fail]
  grind [rfbHeaderOf_fits]

/-- How the relay is meant to frame what the browser sends. -/
def clientMessages : Framing UInt8 := .tagged 0 clientHeaderOf clientHeaderOf_fits

end VmServer.Proxy
