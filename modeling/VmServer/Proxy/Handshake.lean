import VmServer.Library.Des
import VmServer.Proxy.Connection
import VmServer.Proxy.Filter

/-!
# The two RFB handshakes of the proxy

`authToServer` talks to the VNC server as a client and `handshakeWithClient`
to the browser as a server. Both are written over any source of bytes, and
keep what they have written when they give up.

## Implementation notes

A read that fails leaves the source as it was: the functions return then, and
nothing is read any more. `crypto/des` takes keys of eight bytes only.
-/

namespace VmServer.Proxy

/-- The bytes of an ASCII text. -/
def ascii (text : List Char) : List UInt8 := text.map fun c => UInt8.ofNat c.toNat

def rfbVersion : List UInt8 :=
  ascii ['R', 'F', 'B', ' ', '0', '0', '3', '.', '0', '0', '8', '\n']

def secTypeInvalid : UInt8 := 0
def secTypeNone : UInt8 := 1
def secTypeVNCAuth : UInt8 := 2

/-- The errors of the handshakes, each with the message it is wrapped in. -/
inductive HandshakeError
  /-- `read server version` -/
  | readServerVersion (e : ReadError)
  /-- `not a VNC server` -/
  | notVNCServer (ver : List UInt8)
  | write (text : String)
  /-- `read security count` -/
  | readSecurityCount (e : ReadError)
  /-- `server refused connection` -/
  | refused (reason : List UInt8)
  | read (e : ReadError)
  /-- `server offers no supported security type` -/
  | noSupportedType (types : List UInt8)
  /-- `read challenge` -/
  | readChallenge (e : ReadError)
  | keySize (n : Nat)
  /-- `read security result` -/
  | readSecurityResult (e : ReadError)
  /-- `VNC authentication failed` -/
  | authenticationFailed (reason : List UInt8)
  /-- `read client version` -/
  | readClientVersion (e : ReadError)
  /-- `unsupported client version` -/
  | unsupportedClientVersion (ver : List UInt8)
  /-- `client chose unexpected security type` -/
  | unexpectedSecurityType (choice : UInt8)
  deriving DecidableEq, Repr

/-- An `io.ReadWriter`: what it still delivers and what was written to it. -/
structure Conn (σ : Type) where
  src : σ
  dst : Writer := {}

/-- A part of a handshake over one connection. -/
abbrev Handshake (σ α : Type) := ExceptT HandshakeError (StateM (Conn σ)) α

namespace Handshake

variable {σ : Type} [Source σ] {α β : Type}

def run (x : Handshake σ α) (c : Conn σ) : Except HandshakeError α × Conn σ :=
  StateT.run (ExceptT.run x) c

/-- `io.ReadFull` into a buffer of `n` bytes. -/
def readFull (n : Nat) (wrap : ReadError → HandshakeError) : Handshake σ (List UInt8) :=
  fun c =>
    match Source.readFull c.src n with
    | .ok (b, src) => (.ok b, { c with src })
    | .error e => (.error (wrap e), c)

def write (p : List UInt8) : Handshake σ Unit := fun c =>
  match c.dst.write p with
  | (dst, none) => (.ok (), { c with dst })
  | (dst, some e) => (.error (.write e), { c with dst })

/-- `return err` when `bad`; the error is put together only then. -/
def reject (bad : Prop) [Decidable bad] (err : Handshake σ HandshakeError) : Handshake σ Unit :=
  if bad then do throw (← err) else pure ()

end Handshake

section Server

variable {σ : Type} [Source σ]

def unknownReason : List UInt8 := ascii ['u', 'n', 'k', 'n', 'o', 'w', 'n']

def readReason : Handshake σ (List UInt8) := fun c =>
  match Source.readFull c.src 4 with
  | .error _ => (.ok unknownReason, c)
  | .ok (l, src) =>
      if 1024 < bigEndian l then (.ok unknownReason, { c with src })
      else
        match Source.readFull src (bigEndian l) with
        | .error _ => (.ok unknownReason, { c with src })
        | .ok (buf, src) => (.ok buf, { c with src })

/-- The loop over the offered types: VNC authentication ends it, `None` is a second choice. -/
def chooseType (chosen : UInt8) : List UInt8 → UInt8
  | [] => chosen
  | t :: rest =>
      let chosen :=
        if t = secTypeVNCAuth ∨ (t = secTypeNone ∧ chosen = secTypeInvalid) then t else chosen
      if t = secTypeVNCAuth then chosen else chooseType chosen rest

/-- The bits of a byte in the opposite order. -/
def reverseBits (b : UInt8) : UInt8 :=
  ((List.range 8).foldl (fun (r, b) _ => (r <<< 1 ||| b &&& 1, b >>> 1)) ((0 : UInt8), b)).1

/-- `des.NewCipher`. -/
def newCipher (key : List UInt8) : Except HandshakeError (List UInt8 → List UInt8) :=
  if key.length = 8 then .ok (Des.encrypt key) else .error (.keySize key.length)

/-- The first eight bytes of the password, filled up with zeros, each reversed. -/
def vncKey (password : List UInt8) : List UInt8 :=
  ((password ++ List.replicate 8 0).take 8).map reverseBits

def vncEncrypt (password challenge : List UInt8) : Except HandshakeError (List UInt8) := do
  let encrypt ← newCipher (vncKey password)
  return encrypt (challenge.take 8) ++ encrypt (challenge.drop 8)

open Handshake

/-- The answer to the challenge, for VNC authentication only. -/
def answerChallenge (password : List UInt8) (chosen : UInt8) : Handshake σ Unit :=
  if chosen = secTypeVNCAuth then do
    let challenge ← readFull 16 .readChallenge
    let resp ← ExceptT.mk (pure (vncEncrypt password challenge))
    write resp
  else pure ()

def authToServer (password : List UInt8) : Handshake σ Unit := do
  let ver ← readFull 12 .readServerVersion
  reject (ver.take 4 ≠ ascii ['R', 'F', 'B', ' ']) (pure (.notVNCServer ver))
  write rfbVersion
  let n ← readFull 1 .readSecurityCount
  reject (n.headD 0 = 0) (return .refused (← readReason))
  let types ← readFull (n.headD 0).toNat .read
  let chosen := chooseType secTypeInvalid types
  reject (chosen = secTypeInvalid) (pure (.noSupportedType types))
  write [chosen]
  answerChallenge password chosen
  let result ← readFull 4 .readSecurityResult
  reject (bigEndian result ≠ 0) (return .authenticationFailed (← readReason))

/-- The version of clients that expect no security result for `None`. -/
def rfbVersion37 : List UInt8 :=
  ascii ['R', 'F', 'B', ' ', '0', '0', '3', '.', '0', '0', '7', '\n']

def handshakeWithClient : Handshake σ Unit := do
  write rfbVersion
  let ver ← readFull 12 .readClientVersion
  reject (ver ≠ rfbVersion ∧ ver ≠ rfbVersion37) (pure (.unsupportedClientVersion ver))
  write [1, secTypeNone]
  let choice ← readFull 1 .read
  reject (choice.headD 0 ≠ secTypeNone) (pure (.unexpectedSecurityType (choice.headD 0)))
  if ver = rfbVersion then write [0, 0, 0, 0] else pure ()

end Server

/-! ## A handshake sees its connection as one stream -/

namespace Handshake

variable {σ α β : Type}

theorem run_bind (x : Handshake σ α) (f : α → Handshake σ β) (c : Conn σ) :
    run (x >>= f) c =
      match run x c with
      | (.ok a, c) => run (f a) c
      | (.error e, c) => (.error e, c) := by
  change (match x c with | (r, c) => ExceptT.bindCont f r c) =
    match x c with
    | (.ok a, c) => run (f a) c
    | (.error e, c) => (.error e, c)
  rcases x c with ⟨_ | a, c'⟩ <;> rfl

variable [Source σ]

/-- The connection with its pieces put together. -/
def joined (c : Conn σ) : Conn Reader := ⟨Source.stream c.src, c.dst⟩

/-- The two do the same, one on a connection and one on the stream it stands for. -/
def Blind (x : Handshake σ α) (y : Handshake Reader α) : Prop :=
  ∀ c, ((x.run c).1, joined (x.run c).2) = y.run (joined c)

theorem Blind.pure (a : α) : Blind (pure a : Handshake σ α) (pure a) := fun _ => rfl

theorem Blind.throw (e : HandshakeError) :
    Blind (throw e : Handshake σ α) (throw e) := fun _ => rfl

theorem Blind.mk (r : Except HandshakeError α) :
    Blind (ExceptT.mk (Pure.pure r) : Handshake σ α) (ExceptT.mk (Pure.pure r)) := fun _ => rfl

theorem Blind.bind {x : Handshake σ α} {y : Handshake Reader α} {f : α → Handshake σ β}
    {g : α → Handshake Reader β} (first : Blind x y) (next : ∀ a, Blind (f a) (g a)) :
    Blind (x >>= f) (y >>= g) := by
  intro c
  rw [run_bind, run_bind, ← first c]
  rcases run x c with ⟨e | a, c'⟩
  · rfl
  · exact next a c'

theorem Blind.ite {p : Prop} [Decidable p] {x x' : Handshake σ α} {y y' : Handshake Reader α}
    (yes : Blind x y) (no : Blind x' y') :
    Blind (if p then x else x') (if p then y else y') := by
  split
  · exact yes
  · exact no

theorem Blind.readFull (n : Nat) (wrap : ReadError → HandshakeError) :
    Blind (readFull n wrap : Handshake σ _) (readFull n wrap) := by
  intro c
  change ((Handshake.readFull n wrap c).1, joined (Handshake.readFull n wrap c).2) =
    Handshake.readFull n wrap (joined c)
  simp only [Handshake.readFull, joined, Source.readFull_reader, ← Source.readFull_stream]
  cases Source.readFull c.src n with
  | error e => rfl
  | ok x => rfl

theorem Blind.write (p : List UInt8) : Blind (write p : Handshake σ _) (write p) := by
  intro c
  change ((Handshake.write p c).1, joined (Handshake.write p c).2) = Handshake.write p (joined c)
  simp only [Handshake.write, joined]
  rcases c.dst.write p with ⟨dst, _ | e⟩ <;> rfl

theorem Blind.reject (bad : Prop) [Decidable bad] {x : Handshake σ HandshakeError}
    {y : Handshake Reader HandshakeError} (err : Blind x y) :
    Blind (reject bad x) (reject bad y) :=
  Blind.ite (err.bind Blind.throw) (Blind.pure ())

theorem Blind.readReason : Blind (readReason : Handshake σ _) readReason := by
  intro c
  change ((Proxy.readReason c).1, joined (Proxy.readReason c).2) = Proxy.readReason (joined c)
  simp only [Proxy.readReason, joined, Source.readFull_reader, ← Source.readFull_stream]
  cases Source.readFull c.src 4 with
  | error e => rfl
  | ok x =>
      obtain ⟨l, src⟩ := x
      by_cases long : 1024 < bigEndian l
      · simp only [Except.map, long, if_true]
      · simp only [Except.map, long, if_false, ← Source.readFull_stream]
        cases Source.readFull src (bigEndian l) with
        | error e => rfl
        | ok y => rfl

theorem Blind.answerChallenge (password : List UInt8) (chosen : UInt8) :
    Blind (answerChallenge password chosen : Handshake σ _) (answerChallenge password chosen) :=
  Blind.ite ((Blind.readFull _ _).bind fun _ => (Blind.mk _).bind fun _ => Blind.write _)
    (Blind.pure ())

/-- The handshake with the server depends on the server's bytes only. -/
theorem Blind.authToServer (password : List UInt8) :
    Blind (authToServer password : Handshake σ _) (authToServer password) := by
  refine (Blind.readFull _ _).bind fun ver => (Blind.reject _ (Blind.pure _)).bind fun _ => ?_
  refine (Blind.write _).bind fun _ => (Blind.readFull _ _).bind fun n => ?_
  refine (Blind.reject _ (Blind.readReason.bind fun _ => Blind.pure _)).bind fun _ => ?_
  refine (Blind.readFull _ _).bind fun types => (Blind.reject _ (Blind.pure _)).bind fun _ => ?_
  refine (Blind.write _).bind fun _ => (Blind.answerChallenge _ _).bind fun _ => ?_
  refine (Blind.readFull _ _).bind fun result => ?_
  exact Blind.reject _ (Blind.readReason.bind fun _ => Blind.pure _)

theorem Blind.handshakeWithClient :
    Blind (handshakeWithClient : Handshake σ _) handshakeWithClient := by
  refine (Blind.write _).bind fun _ => (Blind.readFull _ _).bind fun ver => ?_
  refine (Blind.reject _ (Blind.pure _)).bind fun _ => (Blind.write _).bind fun _ => ?_
  refine (Blind.readFull _ _).bind fun choice => (Blind.reject _ (Blind.pure _)).bind fun _ => ?_
  exact Blind.ite (Blind.write _) (Blind.pure ())

end Handshake

end VmServer.Proxy
