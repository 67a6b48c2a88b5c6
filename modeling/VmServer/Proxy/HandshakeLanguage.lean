import VmServer.Proxy.Handshake

/-!
# The streams the two handshakes accept

What a handshake reads when it succeeds is the front of the stream, piece by
piece as the code asks for it. Put together, the pieces are the greetings
below, and everything behind a greeting is still to be read.
-/

namespace VmServer.Proxy

/-- What a VNC server says until it has accepted the client: a version, the security types it
offers, a challenge if VNC authentication is among them, and a result of four zeros. -/
structure ServerGreeting where
  version : List UInt8
  version_length : version.length = 12
  version_front : version.take 4 = ascii ['R', 'F', 'B', ' ']
  types : List UInt8
  types_length : types.length < 256
  types_supported : secTypeVNCAuth ∈ types ∨ secTypeNone ∈ types
  challenge : List UInt8
  challenge_length : challenge.length = if secTypeVNCAuth ∈ types then 16 else 0

/-- The first two halves of the challenge, each encrypted with the key of the password. -/
def vncResponse (password challenge : List UInt8) : List UInt8 :=
  Des.encrypt (vncKey password) (challenge.take 8) ++
    Des.encrypt (vncKey password) (challenge.drop 8)

namespace ServerGreeting

variable (g : ServerGreeting)

def bytes : List UInt8 :=
  g.version ++ [UInt8.ofNat g.types.length] ++ g.types ++ g.challenge ++ [0, 0, 0, 0]

/-- The security type the client takes. -/
def chosen : UInt8 := if secTypeVNCAuth ∈ g.types then secTypeVNCAuth else secTypeNone

/-- What the client writes meanwhile. -/
def replies (password : List UInt8) : List (List UInt8) :=
  [rfbVersion, [g.chosen]] ++
    if secTypeVNCAuth ∈ g.types then [vncResponse password g.challenge] else []

end ServerGreeting

/-- What a browser says until it may send its ClientInit: one of two versions, and the security
type `None`. -/
inductive ClientGreeting
  | v37
  | v38
  deriving DecidableEq, Repr

namespace ClientGreeting

def version : ClientGreeting → List UInt8
  | v37 => rfbVersion37
  | v38 => rfbVersion

def bytes (g : ClientGreeting) : List UInt8 := g.version ++ [secTypeNone]

/-- What the proxy writes meanwhile; only the later version has a security result. -/
def replies : ClientGreeting → List (List UInt8)
  | v37 => [rfbVersion, [1, secTypeNone]]
  | v38 => [rfbVersion, [1, secTypeNone], [0, 0, 0, 0]]

end ClientGreeting

namespace Handshake

variable {α β : Type}

/-- A connection whose writes succeed, after some of them. -/
def conn (bytes : List UInt8) (fault : ReadError) (calls : List (List UInt8)) : Conn Reader :=
  ⟨⟨bytes, fault⟩, { calls }⟩

theorem run_bind_ok {σ : Type} {x : Handshake σ α} {f : α → Handshake σ β} {c c'' : Conn σ}
    {b : β} : run (x >>= f) c = (.ok b, c'') ↔
      ∃ a c', run x c = (.ok a, c') ∧ run (f a) c' = (.ok b, c'') := by
  rw [run_bind]
  rcases run x c with ⟨e | a, c'⟩
  · simp
  · simp

theorem run_pure_ok {u : Unit} {c c' : Conn Reader} :
    run (pure () : Handshake Reader Unit) c = (.ok u, c') ↔ c' = c := by
  change (.ok (), c) = ((.ok u, c') : Except HandshakeError Unit × _) ↔ _
  simp [eq_comm]

theorem run_readFull_ok {n : Nat} {wrap : ReadError → HandshakeError} {bytes b : List UInt8}
    {fault : ReadError} {calls : List (List UInt8)} {c : Conn Reader} :
    run (readFull n wrap) (conn bytes fault calls) = (.ok b, c) ↔
      b.length = n ∧ ∃ rest, bytes = b ++ rest ∧ c = conn rest fault calls := by
  change readFull n wrap (conn bytes fault calls) = (.ok b, c) ↔ _
  simp only [readFull, conn, Source.readFull_reader, Reader.readFull]
  by_cases enough : n ≤ bytes.length
  · rw [if_pos enough]
    constructor
    · intro h
      obtain ⟨same, rfl⟩ := Prod.mk.inj h
      obtain rfl := Except.ok.inj same
      exact ⟨by simpa using enough, _, (List.take_append_drop n bytes).symm, rfl⟩
    · rintro ⟨rfl, rest, rfl, rfl⟩
      simp
  · rw [if_neg enough]
    have short : ∀ rest, bytes = b ++ rest → b.length ≠ n := by
      rintro rest rfl len
      rw [List.length_append] at enough
      omega
    split
    all_goals
      rename_i same
      constructor
      · intro h
        split at same <;> cases same <;> cases h
      · rintro ⟨len, rest, split, _⟩
        exact absurd len (short rest split)

theorem run_write_ok {p bytes : List UInt8} {fault : ReadError} {calls : List (List UInt8)}
    {u : Unit} {c : Conn Reader} : run (write p) (conn bytes fault calls) = (.ok u, c) ↔
      c = conn bytes fault (calls ++ [p]) := by
  change (.ok (), conn bytes fault (calls ++ [p])) =
    ((.ok u, c) : Except HandshakeError Unit × _) ↔ _
  simp [eq_comm]

theorem run_reject_ok {bad : Prop} [Decidable bad] {err : Handshake Reader HandshakeError}
    {u : Unit} {c c' : Conn Reader} :
    run (reject bad err) c = (.ok u, c') ↔ ¬ bad ∧ c' = c := by
  unfold reject
  by_cases refused : bad
  · rw [if_pos refused, run_bind_ok]
    constructor
    · rintro ⟨e, c₁, _, thrown⟩
      cases thrown
    · rintro ⟨fine, _⟩
      exact absurd refused fine
  · rw [if_neg refused, run_pure_ok, and_iff_right refused]

end Handshake

theorem bigEndian_eq_zero {bs : List UInt8} : bigEndian bs = 0 ↔ ∀ b ∈ bs, b = 0 := by
  have fold : ∀ acc, bs.foldl (fun acc b => acc * 256 + b.toNat) acc = 0 ↔
      acc = 0 ∧ ∀ b ∈ bs, b = 0 := by
    induction bs with
    | nil => simp
    | cons b bs ih =>
        intro acc
        rw [List.foldl_cons, ih, List.forall_mem_cons, ← and_assoc]
        refine and_congr_left fun _ => ?_
        rw [← UInt8.toNat_inj]
        change acc * 256 + b.toNat = 0 ↔ acc = 0 ∧ b.toNat = 0
        omega
  exact (fold 0).trans (and_iff_right rfl)

theorem bigEndian_four_zero {bs : List UInt8} (four : bs.length = 4) :
    ¬ bigEndian bs ≠ 0 ↔ bs = [0, 0, 0, 0] := by
  change _ ↔ bs = List.replicate 4 0
  rw [not_not, bigEndian_eq_zero, List.eq_replicate_iff, and_iff_right four]

/-- The loop prefers VNC authentication wherever it stands, and takes `None` otherwise. -/
theorem chooseType_eq (types : List UInt8) (chosen : UInt8) : chooseType chosen types =
    if secTypeVNCAuth ∈ types then secTypeVNCAuth
    else if chosen = secTypeInvalid ∧ secTypeNone ∈ types then secTypeNone else chosen := by
  induction types generalizing chosen with
  | nil => simp [chooseType]
  | cons t rest ih =>
      have different : secTypeNone ≠ secTypeVNCAuth := by decide
      have offered : secTypeNone ≠ secTypeInvalid := by decide
      rw [chooseType]
      by_cases auth : t = secTypeVNCAuth
      · simp [auth]
      by_cases second : t = secTypeNone ∧ chosen = secTypeInvalid
      · obtain ⟨rfl, rfl⟩ := second
        simp [ih, different, different.symm, offered]
      · have skipped : ¬ (t = secTypeVNCAuth ∨ t = secTypeNone ∧ chosen = secTypeInvalid) := by
          rw [not_or]
          exact ⟨auth, second⟩
        rw [if_neg skipped, if_neg auth, ih]
        grind

theorem chooseType_eq_vncAuth (types : List UInt8) :
    chooseType secTypeInvalid types = secTypeVNCAuth ↔ secTypeVNCAuth ∈ types := by
  rw [chooseType_eq]
  have other : secTypeNone ≠ secTypeVNCAuth ∧ secTypeInvalid ≠ secTypeVNCAuth := by decide
  grind

theorem chooseType_ne_invalid (types : List UInt8) :
    ¬ chooseType secTypeInvalid types = secTypeInvalid ↔
      secTypeVNCAuth ∈ types ∨ secTypeNone ∈ types := by
  rw [chooseType_eq]
  have other : secTypeVNCAuth ≠ secTypeInvalid ∧ secTypeNone ≠ secTypeInvalid := by decide
  grind

theorem ServerGreeting.chosen_eq (g : ServerGreeting) :
    chooseType secTypeInvalid g.types = g.chosen := by
  have supported := g.types_supported
  rw [chooseType_eq, chosen]
  grind

theorem ServerGreeting.bytes_append (g : ServerGreeting) (rest : List UInt8) : g.bytes ++ rest =
    g.version ++ ([UInt8.ofNat g.types.length] ++
      (g.types ++ (g.challenge ++ ([0, 0, 0, 0] ++ rest)))) := by
  simp [bytes]

theorem vncEncrypt_eq (password challenge : List UInt8) :
    vncEncrypt password challenge = .ok (vncResponse password challenge) := by
  have length : (vncKey password).length = 8 := by simp [vncKey]
  rw [vncEncrypt, newCipher, if_pos length]
  rfl

section Languages

open Handshake

variable {bytes : List UInt8} {fault : ReadError} {calls : List (List UInt8)} {c : Conn Reader}

theorem run_answerChallenge_ok {password : List UInt8} {chosen : UInt8} {u : Unit} :
    run (answerChallenge password chosen) (conn bytes fault calls) = (.ok u, c) ↔
      ∃ challenge rest, bytes = challenge ++ rest ∧
        challenge.length = (if chosen = secTypeVNCAuth then 16 else 0) ∧
        c = conn rest fault (calls ++
          if chosen = secTypeVNCAuth then [vncResponse password challenge] else []) := by
  unfold answerChallenge
  by_cases auth : chosen = secTypeVNCAuth
  · simp only [auth, if_true, vncEncrypt_eq]
    constructor
    · intro h
      obtain ⟨challenge, c₁, h₁, h⟩ := run_bind_ok.mp h
      obtain ⟨len, rest, rfl, rfl⟩ := run_readFull_ok.mp h₁
      obtain ⟨resp, c₂, h₂, h⟩ := run_bind_ok.mp h
      obtain ⟨same, rfl⟩ := Prod.mk.inj h₂
      obtain rfl := Except.ok.inj same
      exact ⟨challenge, rest, rfl, len, run_write_ok.mp h⟩
    · rintro ⟨challenge, rest, rfl, len, rfl⟩
      refine run_bind_ok.mpr ⟨_, _, run_readFull_ok.mpr ⟨len, rest, rfl, rfl⟩, ?_⟩
      exact run_bind_ok.mpr ⟨_, _, rfl, run_write_ok.mpr rfl⟩
  · simp only [auth, if_false, List.append_nil, List.length_eq_zero_iff]
    constructor
    · intro h
      obtain rfl := run_pure_ok.mp h
      exact ⟨[], bytes, rfl, rfl, rfl⟩
    · rintro ⟨challenge, rest, rfl, rfl, rfl⟩
      exact run_pure_ok.mpr rfl

/-- The handshake with the server succeeds on a greeting, answers it and reads no further. -/
theorem run_authToServer_ok {password : List UInt8} {u : Unit} :
    run (authToServer password) (conn bytes fault calls) = (.ok u, c) ↔
      ∃ (g : ServerGreeting) (rest : List UInt8), bytes = g.bytes ++ rest ∧
        c = conn rest fault (calls ++ g.replies password) := by
  constructor
  · intro h
    obtain ⟨ver, _, h₁, h⟩ := run_bind_ok.mp h
    obtain ⟨verLen, s₁, rfl, rfl⟩ := run_readFull_ok.mp h₁
    obtain ⟨_, _, h₂, h⟩ := run_bind_ok.mp h
    obtain ⟨front, rfl⟩ := run_reject_ok.mp h₂
    obtain ⟨_, _, h₃, h⟩ := run_bind_ok.mp h
    obtain rfl := run_write_ok.mp h₃
    obtain ⟨n, _, h₄, h⟩ := run_bind_ok.mp h
    obtain ⟨nLen, s₂, rfl, rfl⟩ := run_readFull_ok.mp h₄
    obtain ⟨count, rfl⟩ := List.length_eq_one_iff.mp nLen
    obtain ⟨_, _, h₅, h⟩ := run_bind_ok.mp h
    obtain ⟨_, rfl⟩ := run_reject_ok.mp h₅
    obtain ⟨types, _, h₆, h⟩ := run_bind_ok.mp h
    obtain ⟨typesLen, s₃, rfl, rfl⟩ := run_readFull_ok.mp h₆
    obtain ⟨_, _, h₇, h⟩ := run_bind_ok.mp h
    obtain ⟨supported, rfl⟩ := run_reject_ok.mp h₇
    obtain ⟨_, _, h₈, h⟩ := run_bind_ok.mp h
    obtain rfl := run_write_ok.mp h₈
    obtain ⟨_, _, h₉, h⟩ := run_bind_ok.mp h
    obtain ⟨challenge, s₄, rfl, challengeLen, rfl⟩ := run_answerChallenge_ok.mp h₉
    obtain ⟨result, _, h₁₀, h⟩ := run_bind_ok.mp h
    obtain ⟨resultLen, rest, rfl, rfl⟩ := run_readFull_ok.mp h₁₀
    obtain ⟨zero, rfl⟩ := run_reject_ok.mp h
    obtain rfl := (bigEndian_four_zero resultLen).mp zero
    have count_eq : UInt8.ofNat types.length = count := by
      rw [typesLen]
      exact UInt8.ofNat_toNat
    simp only [chooseType_eq_vncAuth] at challengeLen
    let g : ServerGreeting :=
      { version := ver
        version_length := verLen
        version_front := not_not.mp front
        types := types
        types_length := typesLen ▸ count.toNat_lt
        types_supported := (chooseType_ne_invalid types).mp supported
        challenge := challenge
        challenge_length := challengeLen }
    refine ⟨g, rest, ?_, ?_⟩
    · rw [g.bytes_append, count_eq]
    · simp only [chooseType_eq_vncAuth, ServerGreeting.replies, ← g.chosen_eq,
        List.append_assoc]
      rfl
  · rintro ⟨g, rest, rfl, rfl⟩
    have few : (UInt8.ofNat g.types.length).toNat = g.types.length :=
      UInt8.toNat_ofNat_of_lt g.types_length
    have some : UInt8.ofNat g.types.length ≠ 0 := by
      intro zero
      rw [zero] at few
      have none := List.length_eq_zero_iff.mp few.symm
      have supported := g.types_supported
      simp [none] at supported
    rw [g.bytes_append]
    refine run_bind_ok.mpr ⟨_, _, run_readFull_ok.mpr ⟨g.version_length, _, rfl, rfl⟩, ?_⟩
    refine run_bind_ok.mpr ⟨(), _, run_reject_ok.mpr ⟨not_not.mpr g.version_front, rfl⟩, ?_⟩
    refine run_bind_ok.mpr ⟨(), _, run_write_ok.mpr rfl, ?_⟩
    refine run_bind_ok.mpr ⟨_, _, run_readFull_ok.mpr ⟨rfl, _, rfl, rfl⟩, ?_⟩
    refine run_bind_ok.mpr ⟨(), _, run_reject_ok.mpr ⟨some, rfl⟩, ?_⟩
    refine run_bind_ok.mpr ⟨_, _, run_readFull_ok.mpr ⟨few.symm, _, rfl, rfl⟩, ?_⟩
    refine run_bind_ok.mpr ⟨(), _, run_reject_ok.mpr
      ⟨(chooseType_ne_invalid g.types).mpr g.types_supported, rfl⟩, ?_⟩
    refine run_bind_ok.mpr ⟨(), _, run_write_ok.mpr rfl, ?_⟩
    refine run_bind_ok.mpr ⟨(), _, run_answerChallenge_ok.mpr
      ⟨g.challenge, _, rfl, ?_, rfl⟩, ?_⟩
    · rw [g.challenge_length]
      simp only [chooseType_eq_vncAuth]
    refine run_bind_ok.mpr ⟨[0, 0, 0, 0], _, run_readFull_ok.mpr ⟨rfl, _, rfl, rfl⟩, ?_⟩
    refine run_reject_ok.mpr ⟨(bigEndian_four_zero rfl).mpr rfl, ?_⟩
    simp only [chooseType_eq_vncAuth, ServerGreeting.replies, ← g.chosen_eq, List.append_assoc]
    rfl

/-- The handshake with the browser succeeds on a greeting, answers it and reads no further. -/
theorem run_handshakeWithClient_ok {u : Unit} :
    run handshakeWithClient (conn bytes fault calls) = (.ok u, c) ↔
      ∃ (g : ClientGreeting) (rest : List UInt8), bytes = g.bytes ++ rest ∧
        c = conn rest fault (calls ++ g.replies) := by
  constructor
  · intro h
    obtain ⟨_, _, h₁, h⟩ := run_bind_ok.mp h
    obtain rfl := run_write_ok.mp h₁
    obtain ⟨ver, _, h₂, h⟩ := run_bind_ok.mp h
    obtain ⟨verLen, s₁, rfl, rfl⟩ := run_readFull_ok.mp h₂
    obtain ⟨_, _, h₃, h⟩ := run_bind_ok.mp h
    obtain ⟨known, rfl⟩ := run_reject_ok.mp h₃
    obtain ⟨_, _, h₄, h⟩ := run_bind_ok.mp h
    obtain rfl := run_write_ok.mp h₄
    obtain ⟨choice, _, h₅, h⟩ := run_bind_ok.mp h
    obtain ⟨choiceLen, rest, rfl, rfl⟩ := run_readFull_ok.mp h₅
    obtain ⟨b, rfl⟩ := List.length_eq_one_iff.mp choiceLen
    obtain ⟨_, _, h₆, h⟩ := run_bind_ok.mp h
    obtain ⟨none, rfl⟩ := run_reject_ok.mp h₆
    obtain rfl : b = secTypeNone := not_not.mp none
    by_cases v38 : ver = rfbVersion
    · subst v38
      rw [if_pos rfl] at h
      obtain rfl := run_write_ok.mp h
      refine ⟨.v38, rest, by simp [ClientGreeting.bytes, ClientGreeting.version], ?_⟩
      simp [ClientGreeting.replies]
    · have v37 : ver = rfbVersion37 := by
        by_contra other
        exact known ⟨v38, other⟩
      subst v37
      rw [if_neg v38] at h
      obtain rfl := run_pure_ok.mp h
      refine ⟨.v37, rest, by simp [ClientGreeting.bytes, ClientGreeting.version], ?_⟩
      simp [ClientGreeting.replies]
  · rintro ⟨g, rest, rfl, rfl⟩
    have known : ¬ (g.version ≠ rfbVersion ∧ g.version ≠ rfbVersion37) := by
      cases g <;> decide
    have twelve : g.version.length = 12 := by
      cases g <;> rfl
    rw [ClientGreeting.bytes, List.append_assoc]
    refine run_bind_ok.mpr ⟨(), _, run_write_ok.mpr rfl, ?_⟩
    refine run_bind_ok.mpr ⟨_, _, run_readFull_ok.mpr ⟨twelve, _, rfl, rfl⟩, ?_⟩
    refine run_bind_ok.mpr ⟨(), _, run_reject_ok.mpr ⟨known, rfl⟩, ?_⟩
    refine run_bind_ok.mpr ⟨(), _, run_write_ok.mpr rfl, ?_⟩
    refine run_bind_ok.mpr ⟨_, _, run_readFull_ok.mpr ⟨rfl, _, rfl, rfl⟩, ?_⟩
    refine run_bind_ok.mpr ⟨(), _, run_reject_ok.mpr ⟨not_not.mpr rfl, rfl⟩, ?_⟩
    cases g with
    | v37 =>
        rw [if_neg (by decide), run_pure_ok]
        simp [ClientGreeting.replies]
    | v38 =>
        rw [if_pos (by rfl), run_write_ok]
        simp [ClientGreeting.replies]

end Languages

namespace Handshake

variable {σ : Type} [Source σ]

/-- The handshake succeeds on a fresh connection; it has then written these calls and left this
much of the stream. -/
def Completes (x : Handshake σ Unit) (s : σ) (sent : List (List UInt8)) (left : Reader) : Prop :=
  let result := run x ⟨s, {}⟩
  result.1 = .ok () ∧ result.2.dst.calls = sent ∧ Source.stream result.2.src = left

/-- A handshake that reads a greeting and answers it, on a connection whose writes succeed. -/
def Greets {γ : Type} (y : Handshake Reader Unit) (greeting : γ → List UInt8)
    (replies : γ → List (List UInt8)) : Prop :=
  ∀ {bytes fault c}, run y (conn bytes fault []) = (.ok (), c) ↔
    ∃ g rest, bytes = greeting g ++ rest ∧ c = conn rest fault ([] ++ replies g)

section Greets

variable {γ : Type} {greeting : γ → List UInt8} {replies : γ → List (List UInt8)}
  {x : Handshake σ Unit} {y : Handshake Reader Unit} {s : σ}

/-- What a handshake has read and written when it has succeeded. -/
theorem Blind.greeted (same : Blind x y) (greets : Greets y greeting replies)
    (ok : (run x ⟨s, {}⟩).1 = .ok ()) :
    ∃ g rest, (Source.stream s).bytes = greeting g ++ rest ∧
      Source.stream (run x ⟨s, {}⟩).2.src = ⟨rest, (Source.stream s).fault⟩ ∧
      (run x ⟨s, {}⟩).2.dst = { calls := replies g } := by
  have stream : ((run x ⟨s, {}⟩).1, joined (run x ⟨s, {}⟩).2) =
      run y (conn (Source.stream s).bytes (Source.stream s).fault []) := same ⟨s, {}⟩
  rw [ok] at stream
  obtain ⟨g, rest, front, left⟩ := greets.mp stream.symm
  exact ⟨g, rest, front, congrArg Conn.src left, congrArg Conn.dst left⟩

/-- It then succeeds exactly on a greeting, however the bytes arrive. -/
theorem Blind.completes_iff (same : Blind x y) (greets : Greets y greeting replies)
    {sent : List (List UInt8)} {left : Reader} : Completes x s sent left ↔
      ∃ g, Source.stream s = ⟨greeting g ++ left.bytes, left.fault⟩ ∧ sent = replies g := by
  constructor
  · rintro ⟨ok, rfl, rfl⟩
    obtain ⟨g, rest, front, src, dst⟩ := same.greeted greets ok
    refine ⟨g, ?_, by rw [dst]⟩
    rw [src, ← front]
  · rintro ⟨g, front, rfl⟩
    have stream : ((run x ⟨s, {}⟩).1, joined (run x ⟨s, {}⟩).2) =
        run y (conn (Source.stream s).bytes (Source.stream s).fault []) := same ⟨s, {}⟩
    rw [front, greets.mpr ⟨g, left.bytes, rfl, rfl⟩] at stream
    obtain ⟨ok, after⟩ := Prod.mk.inj stream
    exact ⟨ok, congrArg (·.dst.calls) after, congrArg Conn.src after⟩

/-- Its writes succeed to the end. -/
theorem Blind.writer_good (same : Blind x y) (greets : Greets y greeting replies)
    (ok : (run x ⟨s, {}⟩).1 = .ok ()) :
    (run x ⟨s, {}⟩).2.dst = { calls := (run x ⟨s, {}⟩).2.dst.calls } := by
  obtain ⟨g, rest, _, _, dst⟩ := same.greeted greets ok
  rw [dst]

end Greets

end Handshake

open Handshake

theorem greets_authToServer (password : List UInt8) : Greets (authToServer password)
    ServerGreeting.bytes (ServerGreeting.replies · password) :=
  run_authToServer_ok

theorem greets_handshakeWithClient : Greets handshakeWithClient
    ClientGreeting.bytes ClientGreeting.replies :=
  run_handshakeWithClient_ok

/-- However a server's bytes arrive, the handshake succeeds exactly on a greeting. -/
theorem authToServer_completes {σ : Type} [Source σ] {s : σ} {password : List UInt8}
    {sent : List (List UInt8)} {left : Reader} : Completes (authToServer password) s sent left ↔
      ∃ g : ServerGreeting, Source.stream s = ⟨g.bytes ++ left.bytes, left.fault⟩ ∧
        sent = g.replies password :=
  (Blind.authToServer password).completes_iff (greets_authToServer password)

/-- However a browser's bytes arrive, the handshake succeeds exactly on a greeting. -/
theorem handshakeWithClient_completes {σ : Type} [Source σ] {s : σ}
    {sent : List (List UInt8)} {left : Reader} : Completes handshakeWithClient s sent left ↔
      ∃ g : ClientGreeting, Source.stream s = ⟨g.bytes ++ left.bytes, left.fault⟩ ∧
        sent = g.replies :=
  Blind.handshakeWithClient.completes_iff greets_handshakeWithClient

end VmServer.Proxy
