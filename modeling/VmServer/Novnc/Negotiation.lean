import VmServer.Novnc.Client
import VmServer.Proxy.Handshake

/-!
# The handshake of the console client

The client answers what the server says until the two have agreed on a version
and a security type, and the server has described its screen. Each state reads
one message of the server from the receive queue.

## Implementation notes

A state is read until one waits for more bytes or fails. Versions are in
tenths. Of the security types, `None` is modelled; another one ends the
handshake here. The extension of the server's description that follows Tight
security is left out with it.
-/

namespace VmServer.Novnc

open Proxy

/-- `_rfbInitState` -/
inductive InitState
  | protocolVersion
  | security
  | authentication
  | securityResult
  | securityReason
  | clientInitialisation
  | serverInitialisation
  deriving DecidableEq, Repr

inductive ConnectionState
  | connecting
  /-- Left to another security type. -/
  | authenticating
  | connected
  | failed (details : String)
  deriving DecidableEq, Repr

structure Negotiation where
  rfbInitState : InitState := .protocolVersion
  rfbConnectionState : ConnectionState := .connecting
  rfbVersion : Nat := 0
  rfbAuthScheme : Nat := 0
  securityContext : String := ""
  securityStatus : Nat := 0
  fbName : String := ""
  fbWidth : Nat := 0
  fbHeight : Nat := 0
  fbDepth : Nat := 0
  repeaterID : List UInt8 := []
  shared : Bool := true
  supportsWebCodecsH264Decode : Bool := false
  rQ : List UInt8 := []
  sent : List UInt8 := []
  deriving DecidableEq, Repr

/-! ## Tables -/

def versions : List (List Char × Nat) :=
  [(['0', '0', '3', '.', '0', '0', '3'], 33), (['0', '0', '3', '.', '0', '0', '6'], 33),
    (['0', '0', '3', '.', '0', '0', '7'], 37), (['0', '0', '3', '.', '0', '0', '8'], 38),
    (['0', '0', '3', '.', '8', '8', '9'], 38), (['0', '0', '4', '.', '0', '0', '0'], 38),
    (['0', '0', '4', '.', '0', '0', '1'], 38), (['0', '0', '5', '.', '0', '0', '0'], 38)]

def repeaterVersion : List UInt8 := ascii ['0', '0', '0', '.', '0', '0', '0']

def rfbMaxVersion : Nat := 38

def securityTypeNone : UInt8 := 1

/-- `_isSupportedSecurityType`, for the types of one byte. -/
def clientTypes : List UInt8 := [securityTypeNone, 2, 6, 16, 19, 22, 30, 113]

/-- The schemes of `_negotiateAuthentication` apart from `None`. -/
def otherSchemes : List Nat := [22, 30, 2, 16, 19, 256, 129, 6, 113]

def qualityLevel : Int := 6
def compressionLevel : Int := 2

/-- The encodings that the client asks for, in its order of preference. -/
def clientEncodings (fbDepth : Nat) (h264 : Bool) : List Int :=
  [1] ++
    (if fbDepth = 24 then (if h264 then [50] else []) ++ [7, -260, 16, 21, 5, 2, 6] else []) ++
    [0, -32 + qualityLevel, -256 + compressionLevel, -223, -224, -258, -261, -308, -309, -312, -313,
      -307, 0xc0a1e5ce, -316] ++
    if fbDepth = 24 then [0x574d5664, -239] else []

namespace Negotiation

def send (bytes : List UInt8) (s : Negotiation) : Negotiation := { s with sent := s.sent ++ bytes }

def fail (details : String) (s : Negotiation) : Bool × Negotiation :=
  (false, { s with rfbConnectionState := .failed details })

/-- The version that the client answers with. -/
def cversion (version : Nat) : List UInt8 :=
  ascii (['R', 'F', 'B', ' ', '0', '0'] ++ Nat.toDigits 10 (version / 10) ++ ['.', '0', '0'] ++
    Nat.toDigits 10 (version % 10) ++ ['\n'])

/-- Does not go on, even when more has come. -/
def negotiateProtocolVersion (s : Negotiation) : Bool × Negotiation :=
  if s.rQ.length < 12 then (false, s)
  else
    let sversion := slice s.rQ 4 11
    let s := { s with rQ := s.rQ.drop 12 }
    if sversion = repeaterVersion then
      let repeaterID := ascii ['I', 'D', ':'] ++ s.repeaterID
      (true, s.send (repeaterID ++ List.replicate (250 - repeaterID.length) 0))
    else
      match versions.find? fun v => ascii v.1 = sversion with
      | none => s.fail ("Invalid server version " ++ Client.latin1 sversion)
      | some (_, version) =>
          let rfbVersion := min version rfbMaxVersion
          (false, { s with rfbVersion, rfbInitState := .security }.send (cversion rfbVersion))

/-- The reason of the server follows. -/
def refused (context : String) (status : Nat) (s : Negotiation) : Bool × Negotiation :=
  (true, { s with
    rfbInitState := .securityReason
    securityContext := context
    securityStatus := status })

/-- A message has a byte at least, so that the number of types can be read. -/
def negotiateSecurity (s : Negotiation) : Bool × Negotiation :=
  if 37 ≤ s.rfbVersion then
    match s.rQ with
    | [] => (false, s)
    | numTypes :: rest =>
        if rest.length < numTypes.toNat then (false, s)
        else if numTypes = 0 then { s with rQ := rest }.refused "no security types" 1
        else
          let types := rest.take numTypes.toNat
          let s := { s with rQ := rest.drop numTypes.toNat }
          match types.find? (· ∈ clientTypes) with
          | none => s.fail ("Unsupported security types (types: " ++
              ",".intercalate (types.map fun type => toString type.toNat) ++ ")")
          | some type =>
              (true, { s with rfbAuthScheme := type.toNat, rfbInitState := .authentication }.send
                [type])
  else if s.rQ.length < 4 then (false, s)
  else
    let scheme := u32 s.rQ 0
    let s := { s with rQ := s.rQ.drop 4, rfbAuthScheme := scheme }
    if scheme = 0 then s.refused "authentication scheme" 1
    else (true, { s with rfbInitState := .authentication })

def negotiateAuthentication (s : Negotiation) : Bool × Negotiation :=
  if s.rfbAuthScheme = securityTypeNone.toNat then
    (true, { s with
      rfbInitState := if 38 ≤ s.rfbVersion then .securityResult else .clientInitialisation })
  else if s.rfbAuthScheme ∈ otherSchemes then
    (false, { s with rfbConnectionState := .authenticating })
  else s.fail ("Unsupported auth scheme (scheme: " ++ toString s.rfbAuthScheme ++ ")")

def handleSecurityResult (s : Negotiation) : Bool × Negotiation :=
  if s.rQ.length < 4 then (false, s)
  else
    let status := u32 s.rQ 0
    let s := { s with rQ := s.rQ.drop 4 }
    if status = 0 then (true, { s with rfbInitState := .clientInitialisation })
    else if 38 ≤ s.rfbVersion then s.refused "security result" status
    else s.fail "Security handshake failed"

def handleSecurityReason (s : Negotiation) : Bool × Negotiation :=
  if s.rQ.length < 4 then (false, s)
  else
    let strlen := u32 s.rQ 0
    if s.rQ.length < 4 + strlen then (false, s)
    else
      let reason := Client.latin1 (slice s.rQ 4 (4 + strlen))
      { s with rQ := s.rQ.drop (4 + strlen) }.fail ("Security negotiation failed on " ++
        s.securityContext ++ if strlen = 0 then "" else " (reason: " ++ reason ++ ")")

def clientInitialisation (s : Negotiation) : Bool × Negotiation :=
  (true, { s with rfbInitState := .serverInitialisation }.send
    (sQpush8 (if s.shared then 1 else 0)))

/-- What the client sends when it knows the screen. -/
def requests (fbDepth width height : Nat) (h264 : Bool) : List UInt8 :=
  Messages.pixelFormat fbDepth true ++
    Messages.clientEncodings (clientEncodings fbDepth h264) ++
    Messages.fbUpdateRequest false (some 0) (some 0) width height

def negotiateServerInit (s : Negotiation) : Bool × Negotiation :=
  if s.rQ.length < 24 then (false, s)
  else
    let nameLength := u32 s.rQ 20
    if s.rQ.length < 24 + nameLength then (false, s)
    else
      let bytes := slice s.rQ 24 (24 + nameLength)
      let fbName := (Client.decodeUTF8 bytes).getD (Client.latin1 bytes)
      let fbDepth := if fbName = "Intel(r) AMT KVM" then 8 else 24
      (true, { s with
        rQ := s.rQ.drop (24 + nameLength)
        fbName, fbDepth
        fbWidth := u16 s.rQ 0
        fbHeight := u16 s.rQ 2
        rfbConnectionState := .connected }.send
          (requests fbDepth (u16 s.rQ 0) (u16 s.rQ 2) s.supportsWebCodecsH264Decode))

def initMsg (s : Negotiation) : Bool × Negotiation :=
  match s.rfbInitState with
  | .protocolVersion => s.negotiateProtocolVersion
  | .security => s.negotiateSecurity
  | .authentication => s.negotiateAuthentication
  | .securityResult => s.handleSecurityResult
  | .securityReason => s.handleSecurityReason
  | .clientInitialisation => s.clientInitialisation
  | .serverInitialisation => s.negotiateServerInit

/-! ## The loop -/

/-- How far a state is from the end. -/
def rank : InitState → Nat
  | .protocolVersion => 6
  | .security => 5
  | .authentication => 4
  | .securityResult => 3
  | .clientInitialisation => 2
  | .serverInitialisation => 1
  | .securityReason => 0

/-- What is left to do with the bytes that have come. -/
def work (s : Negotiation) : Nat := s.rQ.length + rank s.rfbInitState

/-- To go on is to have read something or to have come closer to the end. -/
def Onward (s : Negotiation) (p : Bool × Negotiation) : Prop := p.1 = true → p.2.work < s.work

section Onward

variable {s t : Negotiation}

theorem Onward.stop : Onward s (false, t) := fun again => absurd again Bool.false_ne_true

theorem Onward.more (less : t.work < s.work) : Onward s (true, t) := fun _ => less

theorem onward_protocolVersion (state : s.rfbInitState = .protocolVersion) :
    Onward s s.negotiateProtocolVersion := by
  unfold negotiateProtocolVersion
  split
  · exact .stop
  · rename_i enough
    dsimp only
    split
    · refine .more ?_
      simp only [work, Negotiation.send, state, rank, List.length_drop]
      omega
    · split
      · exact .stop
      · exact .stop

theorem onward_security (state : s.rfbInitState = .security) : Onward s s.negotiateSecurity := by
  unfold negotiateSecurity
  split
  · split
    · exact .stop
    · rename_i numTypes rest queue
      split
      · exact .stop
      · split
        · refine .more ?_
          simp only [work, state, queue, rank, List.length_cons]
          omega
        · dsimp only
          split
          · exact .stop
          · refine .more ?_
            simp only [work, Negotiation.send, state, queue, rank, List.length_drop,
              List.length_cons]
            omega
  · split
    · exact .stop
    · dsimp only
      split
      all_goals
        refine .more ?_
        simp only [work, state, rank, List.length_drop]
        omega

theorem onward_authentication (state : s.rfbInitState = .authentication) :
    Onward s s.negotiateAuthentication := by
  unfold negotiateAuthentication
  split
  · refine .more ?_
    simp only [work, state]
    split <;> simp [rank]
  · split
    · exact .stop
    · exact .stop

theorem onward_securityResult (state : s.rfbInitState = .securityResult) :
    Onward s s.handleSecurityResult := by
  unfold handleSecurityResult
  split
  · exact .stop
  · dsimp only
    split
    · refine .more ?_
      simp only [work, state, rank, List.length_drop]
      omega
    · split
      · refine .more ?_
        simp only [work, state, rank, List.length_drop]
        omega
      · exact .stop

theorem onward_securityReason : Onward s s.handleSecurityReason := by
  unfold handleSecurityReason
  split
  · exact .stop
  · dsimp only
    split
    · exact .stop
    · exact .stop

theorem onward_serverInit (state : s.rfbInitState = .serverInitialisation) :
    Onward s s.negotiateServerInit := by
  unfold negotiateServerInit
  split
  · exact .stop
  · rename_i enough
    dsimp only
    split
    · exact .stop
    · refine .more ?_
      simp only [work, Negotiation.send, state, rank, List.length_drop]
      omega

end Onward

theorem initMsg_onward (s : Negotiation) : Onward s s.initMsg := by
  unfold initMsg
  split
  case h_1 state => exact onward_protocolVersion state
  case h_2 state => exact onward_security state
  case h_3 state => exact onward_authentication state
  case h_4 state => exact onward_securityResult state
  case h_5 => exact onward_securityReason
  case h_6 state =>
      refine .more ?_
      simp [work, Negotiation.send, state, rank]
  case h_7 state => exact onward_serverInit state

/-- The loop of `_handleMessage`. -/
def negotiate (s : Negotiation) : Negotiation :=
  if s.rfbConnectionState = .connecting then
    if s.initMsg.1 = true then negotiate s.initMsg.2 else s.initMsg.2
  else s
termination_by s.work
decreasing_by exact initMsg_onward s (by assumption)

/-- A message of the server, which is not empty. -/
def receive (data : List UInt8) (s : Negotiation) : Negotiation :=
  { s with rQ := s.rQ ++ data }.negotiate

end Negotiation

end VmServer.Novnc
