import VmServer.Library.TransitionSystem
import VmServer.Novnc.Negotiation
import VmServer.Novnc.ReceiveQueue
import VmServer.Proxy.HandshakeLanguage

/-!
# The client and the relay get through their handshake

Each of the two waits for the other one, and what they say may be on its way in
pieces of any size. However the pieces arrive, neither refuses what the other
one says, and they come to rest only when the client is connected and knows the
screen of the server.

## Implementation notes

A read of the relay that finds too little waits. What it has written by then is
what the client can see, so that what the relay says is a function of what it
has been told. The server behind it describes its screen when it has the
client's byte, under a name that leaves room for the description in the receive
queue: with a longer one the queue fails, and the client never connects.
-/

namespace VmServer.Novnc

open Proxy TransitionSystem

/-- The first message of the server: a size, a pixel format and a name. -/
structure ServerInit where
  width : Fin 65536
  height : Fin 65536
  format : List UInt8
  name : List UInt8
  sixteen : format.length = 16
  short : 24 + name.length ≤ MAX_RQ_GROW_SIZE

def ServerInit.bytes (d : ServerInit) : List UInt8 :=
  sQpush16 d.width ++ sQpush16 d.height ++ d.format ++ sQpush32 d.name.length ++ d.name

/-- What the relay and the server behind it say to a client that has said so much. -/
def relayed (d : ServerInit) (read : List UInt8) : List UInt8 :=
  let (result, c) := Handshake.run handshakeWithClient (Handshake.conn read .eof [])
  c.dst.bytes ++ if result.toBool ∧ c.src.bytes ≠ [] then d.bytes else []

/-- The client, and how much has arrived on either side. -/
structure Link where
  client : Negotiation
  delivered : Nat := 0
  taken : Nat := 0

/-- So many bytes more arrive, at the client as one message. -/
inductive LinkEvent
  | toClient (n : Nat)
  | toRelay (n : Nat)
  deriving DecidableEq, Repr

namespace Link

/-- What the relay has said so far. -/
def said (d : ServerInit) (s : Link) : List UInt8 := relayed d (s.client.sent.take s.taken)

def next (d : ServerInit) (s : Link) : LinkEvent → Option Link
  | .toClient n =>
      if 0 < n ∧ s.delivered + n ≤ (s.said d).length then
        some { s with
          client := s.client.receive (slice (s.said d) s.delivered (s.delivered + n))
          delivered := s.delivered + n }
      else none
  | .toRelay n =>
      if 0 < n ∧ s.taken + n ≤ s.client.sent.length then some { s with taken := s.taken + n }
      else none

/-- Nothing is on its way. -/
def AtRest (d : ServerInit) (s : Link) : Prop := ∀ e, s.next d e = none

end Link

def linkSystem (d : ServerInit) : System Link LinkEvent where
  initial := {s | ∃ shared supportsWebCodecsH264Decode repeaterID,
    s = { client := { shared, supportsWebCodecsH264Decode, repeaterID } }}
  next := Link.next d

/-! ## The relay -/

section Relay

open Handshake

variable {α β : Type} {bytes : List UInt8} {fault : ReadError} {calls : List (List UInt8)}

theorem run_bind_of_ok {x : Handshake Reader α} {f : α → Handshake Reader β} {c c' : Conn Reader}
    {a : α} (first : run x c = (.ok a, c')) : run (x >>= f) c = run (f a) c' := by
  rw [run_bind, first]

theorem run_bind_of_error {x : Handshake Reader α} {f : α → Handshake Reader β}
    {c c' : Conn Reader} {e : HandshakeError} (first : run x c = (.error e, c')) :
    run (x >>= f) c = (.error e, c') := by
  rw [run_bind, first]

/-- A read that waits. -/
theorem run_readFull_short {n : Nat} {wrap : ReadError → HandshakeError}
    (short : bytes.length < n) :
    ∃ e, run (readFull n wrap) (conn bytes fault calls) = (.error e, conn bytes fault calls) := by
  change ∃ e, readFull n wrap (conn bytes fault calls) = _
  simp only [readFull, conn, Source.readFull_reader, Reader.readFull,
    if_neg (Nat.not_le.mpr short)]
  by_cases none_ : bytes = []
  · exact ⟨_, by rw [if_pos none_]⟩
  · exact ⟨_, by rw [if_neg none_]⟩

variable (d : ServerInit)

/-- What comes to the client of a relay that is told what it expects. -/
def whole : List UInt8 := rfbVersion ++ ([1, 1] ++ ([0, 0, 0, 0] ++ d.bytes))

theorem relayed_of_run {result : Except HandshakeError Unit} {rest : List UInt8}
    (ran : run handshakeWithClient (conn bytes .eof []) = (result, conn rest .eof calls)) :
    relayed d bytes = calls.flatten ++ if result.toBool ∧ rest ≠ [] then d.bytes else [] := by
  unfold relayed
  rw [ran]
  rfl

theorem relayed_version (short : bytes.length < 12) : relayed d bytes = rfbVersion := by
  obtain ⟨e, waits⟩ : ∃ e, run (readFull 12 .readClientVersion) (conn bytes .eof [rfbVersion]) =
      (.error e, conn bytes .eof [rfbVersion]) := run_readFull_short short
  have ran : run handshakeWithClient (conn bytes .eof []) =
      (.error e, conn bytes .eof [rfbVersion]) := by
    refine (run_bind_of_ok (a := ()) (run_write_ok.mpr rfl)).trans ?_
    exact run_bind_of_error waits
  rw [relayed_of_run d ran]
  simp [Except.toBool]

theorem relayed_types : relayed d rfbVersion = rfbVersion ++ [1, 1] := by
  obtain ⟨e, waits⟩ : ∃ e, run (readFull 1 .read) (conn [] .eof [rfbVersion, [1, 1]]) =
      (.error e, conn [] .eof [rfbVersion, [1, 1]]) := run_readFull_short Nat.one_pos
  have known : ¬(rfbVersion ≠ rfbVersion ∧ rfbVersion ≠ rfbVersion37) := fun h => h.1 rfl
  have ran : run handshakeWithClient (conn rfbVersion .eof []) =
      (.error e, conn [] .eof [rfbVersion, [1, 1]]) := by
    refine (run_bind_of_ok (a := ()) (run_write_ok.mpr rfl)).trans ?_
    refine (run_bind_of_ok (a := rfbVersion) (run_readFull_ok.mpr ⟨rfl, [], rfl, rfl⟩)).trans ?_
    refine (run_bind_of_ok (a := ()) (run_reject_ok.mpr ⟨known, rfl⟩)).trans ?_
    refine (run_bind_of_ok (a := ()) (run_write_ok.mpr rfl)).trans ?_
    exact run_bind_of_error waits
  rw [relayed_of_run d ran]
  simp [Except.toBool]

theorem relayed_result (rest : List UInt8) : relayed d (rfbVersion ++ 1 :: rest) =
    rfbVersion ++ ([1, 1] ++ ([0, 0, 0, 0] ++ if rest = [] then [] else d.bytes)) := by
  have ran : run handshakeWithClient (conn (rfbVersion ++ 1 :: rest) .eof []) =
      (.ok (), conn rest .eof [rfbVersion, [1, 1], [0, 0, 0, 0]]) :=
    run_handshakeWithClient_ok.mpr ⟨.v38, rest, by simp [ClientGreeting.bytes,
      ClientGreeting.version, secTypeNone], rfl⟩
  rw [relayed_of_run d ran]
  by_cases none_ : rest = [] <;> simp [Except.toBool, none_]

/-- How much the relay says when it has read so much. -/
def reach (n : Nat) : Nat :=
  if n < 12 then 12 else if n = 12 then 14 else if n = 13 then 18 else 18 + d.bytes.length

theorem relayed_take (b : UInt8) (rest : List UInt8) (n : Nat) :
    relayed d ((rfbVersion ++ 1 :: b :: rest).take n) = (whole d).take (reach d n) := by
  have twelve : rfbVersion.length = 12 := rfl
  unfold reach
  split
  case isTrue short =>
    rw [relayed_version d (by rw [List.length_take]; omega)]
    rfl
  case isFalse =>
    split
    case isTrue h =>
      obtain rfl : n = rfbVersion.length := h
      rw [List.take_left, relayed_types]
      rfl
    case isFalse =>
      split
      case isTrue h =>
        obtain rfl : n = (rfbVersion ++ [1]).length := h
        have split : rfbVersion ++ 1 :: b :: rest = (rfbVersion ++ [1]) ++ b :: rest := by simp
        rw [split, List.take_left, relayed_result]
        rfl
      case isFalse =>
        obtain ⟨m, rfl⟩ : ∃ m, n = 14 + m := ⟨n - 14, by omega⟩
        have split : (rfbVersion ++ 1 :: b :: rest).take (14 + m) =
            rfbVersion ++ 1 :: b :: rest.take m := by
          rw [List.take_append, twelve, show 14 + m - 12 = m + 2 from by omega,
            List.take_of_length_le (by rw [twelve]; omega)]
          rfl
        have all : (whole d).length = 18 + d.bytes.length := by
          simp [whole, twelve]
          omega
        rw [split, relayed_result, ← all, List.take_length]
        rfl

end Relay

/-! ## The client -/

namespace Negotiation

variable {s : Negotiation}

theorem negotiate_stop {t : Negotiation} (connecting : s.rfbConnectionState = .connecting)
    (stop : s.initMsg = (false, t)) : s.negotiate = t := by
  rw [negotiate, if_pos connecting, stop, if_neg Bool.false_ne_true]

theorem negotiate_again {t : Negotiation} (connecting : s.rfbConnectionState = .connecting)
    (again : s.initMsg = (true, t)) : s.negotiate = t.negotiate := by
  rw [negotiate, if_pos connecting, again, if_pos rfl]

theorem negotiate_done (done : s.rfbConnectionState ≠ .connecting) : s.negotiate = s := by
  rw [negotiate, if_neg done]

end Negotiation

/-- What the client makes of the name and of the depth it goes with. -/
def ServerInit.title (d : ServerInit) : String :=
  (Client.decodeUTF8 d.name).getD (Client.latin1 d.name)

def ServerInit.depth (d : ServerInit) : Nat := if d.title = "Intel(r) AMT KVM" then 8 else 24

section Stages

variable (d : ServerInit) (shared h264 : Bool) (repeaterID : List UInt8)

/-- A client in the middle of the handshake. -/
def stage (state : InitState) (version scheme : Nat) (sent rQ : List UInt8) : Negotiation :=
  { rfbInitState := state, rfbVersion := version, rfbAuthScheme := scheme, sent, rQ, shared,
    supportsWebCodecsH264Decode := h264, repeaterID }

/-- The byte of the client that says whether it shares the screen. -/
def clientInit : UInt8 := if shared then 1 else 0

/-- The client with the screen of the server. -/
def connectedClient : Negotiation :=
  { stage shared h264 repeaterID .serverInitialisation 38 1 (rfbVersion ++ 1 :: clientInit shared ::
      Negotiation.requests d.depth d.width d.height h264) [] with
    rfbConnectionState := .connected
    fbName := d.title
    fbWidth := d.width
    fbHeight := d.height
    fbDepth := d.depth }

/-- Where the client is when so many bytes have come. -/
inductive Stage : Negotiation → Nat → Prop
  | version {n : Nat} (h : n < 12) :
      Stage (stage shared h264 repeaterID .protocolVersion 0 0 [] (rfbVersion.take n)) n
  | types {n : Nat} (h : n < 2) :
      Stage (stage shared h264 repeaterID .security 38 0 rfbVersion (List.take n [1, 1])) (12 + n)
  | result {n : Nat} (h : n < 4) :
      Stage (stage shared h264 repeaterID .securityResult 38 1 (rfbVersion ++ [1])
        (List.take n [0, 0, 0, 0])) (14 + n)
  | serverInit {n : Nat} (h : n < d.bytes.length) :
      Stage (stage shared h264 repeaterID .serverInitialisation 38 1
        (rfbVersion ++ [1, clientInit shared]) (d.bytes.take n)) (18 + n)
  | connected : Stage (connectedClient d shared h264 repeaterID) (18 + d.bytes.length)

theorem ServerInit.length_bytes : d.bytes.length = 24 + d.name.length := by
  simp [ServerInit.bytes, sQpush16, sQpush32, d.sixteen]
  omega

theorem ServerInit.nameLength : u32 d.bytes 20 = d.name.length := by
  have front : (sQpush16 d.width ++ sQpush16 d.height ++ d.format).length = 20 := by
    simp [sQpush16, d.sixteen]
  have split : d.bytes = (sQpush16 d.width ++ sQpush16 d.height ++ d.format) ++
      (sQpush32 d.name.length ++ d.name) := by
    simp [ServerInit.bytes]
  have field : slice d.bytes 20 24 = sQpush32 d.name.length := by
    have stop : 24 = (sQpush16 d.width ++ sQpush16 d.height ++ d.format).length + 4 := by rw [front]
    rw [split, slice, ← front, stop, List.take_length_add_append, List.drop_left]
    rfl
  have short := d.short
  unfold MAX_RQ_GROW_SIZE at short
  rw [u32, field, bigEndian_sQpush32]
  omega

theorem ServerInit.name_eq : slice d.bytes 24 (24 + d.name.length) = d.name := by
  rw [← d.length_bytes, slice, List.take_length]
  have front : (sQpush16 d.width ++ sQpush16 d.height ++ d.format ++
      sQpush32 d.name.length).length = 24 := by
    simp [sQpush16, sQpush32, d.sixteen]
  rw [ServerInit.bytes, ← front, List.drop_left]

theorem ServerInit.width_eq : u16 d.bytes 0 = d.width := by
  have field : slice d.bytes 0 2 = sQpush16 d.width := rfl
  rw [u16, field, bigEndian_sQpush16]
  omega

theorem ServerInit.height_eq : u16 d.bytes 2 = d.height := by
  have field : slice d.bytes 2 4 = sQpush16 d.height := rfl
  rw [u16, field, bigEndian_sQpush16]
  omega

/-! ## One stage after the other -/

open Negotiation (negotiate_stop negotiate_again negotiate_done negotiateServerInit)

theorem negotiate_version {m : Nat} (h : m < 12) :
    (stage shared h264 repeaterID .protocolVersion 0 0 [] (rfbVersion.take m)).negotiate =
      stage shared h264 repeaterID .protocolVersion 0 0 [] (rfbVersion.take m) := by
  have waits : (stage shared h264 repeaterID .protocolVersion 0 0 [] (rfbVersion.take m)).initMsg =
      (false, stage shared h264 repeaterID .protocolVersion 0 0 [] (rfbVersion.take m)) :=
    if_pos (by rw [stage, List.length_take]; omega)
  exact negotiate_stop rfl waits

theorem negotiate_version_read :
    (stage shared h264 repeaterID .protocolVersion 0 0 [] rfbVersion).negotiate =
      stage shared h264 repeaterID .security 38 0 rfbVersion [] := by
  have read : (stage shared h264 repeaterID .protocolVersion 0 0 [] rfbVersion).initMsg =
      (false, stage shared h264 repeaterID .security 38 0 rfbVersion []) := by rfl
  exact negotiate_stop rfl read

theorem negotiate_types {m : Nat} (h : m < 2) :
    (stage shared h264 repeaterID .security 38 0 rfbVersion (List.take m [1, 1])).negotiate =
      stage shared h264 repeaterID .security 38 0 rfbVersion (List.take m [1, 1]) := by
  have waits : (stage shared h264 repeaterID .security 38 0 rfbVersion
      (List.take m [1, 1])).initMsg = (false, stage shared h264 repeaterID .security 38 0 rfbVersion
        (List.take m [1, 1])) := by
    match m, h with
    | 0, _ => rfl
    | 1, _ => rfl
  exact negotiate_stop rfl waits

theorem negotiate_types_read :
    (stage shared h264 repeaterID .security 38 0 rfbVersion [1, 1]).negotiate =
      stage shared h264 repeaterID .securityResult 38 1 (rfbVersion ++ [1]) [] := by
  have chosen : (stage shared h264 repeaterID .security 38 0 rfbVersion [1, 1]).initMsg =
      (true, stage shared h264 repeaterID .authentication 38 1 (rfbVersion ++ [1]) []) := by rfl
  have none_ : (stage shared h264 repeaterID .authentication 38 1 (rfbVersion ++ [1]) []).initMsg =
      (true, stage shared h264 repeaterID .securityResult 38 1 (rfbVersion ++ [1]) []) := by rfl
  have waits : (stage shared h264 repeaterID .securityResult 38 1 (rfbVersion ++ [1]) []).initMsg =
      (false, stage shared h264 repeaterID .securityResult 38 1 (rfbVersion ++ [1]) []) := by rfl
  rw [negotiate_again rfl chosen, negotiate_again rfl none_, negotiate_stop rfl waits]

theorem negotiate_result {m : Nat} (h : m < 4) :
    (stage shared h264 repeaterID .securityResult 38 1 (rfbVersion ++ [1])
      (List.take m [0, 0, 0, 0])).negotiate =
      stage shared h264 repeaterID .securityResult 38 1 (rfbVersion ++ [1])
        (List.take m [0, 0, 0, 0]) := by
  have waits : (stage shared h264 repeaterID .securityResult 38 1 (rfbVersion ++ [1])
      (List.take m [0, 0, 0, 0])).initMsg = (false, stage shared h264 repeaterID .securityResult 38
        1 (rfbVersion ++ [1]) (List.take m [0, 0, 0, 0])) :=
    if_pos (by rw [stage, List.length_take]; omega)
  exact negotiate_stop rfl waits

theorem negotiate_result_read :
    (stage shared h264 repeaterID .securityResult 38 1 (rfbVersion ++ [1]) [0, 0, 0, 0]).negotiate =
      stage shared h264 repeaterID .serverInitialisation 38 1
        (rfbVersion ++ [1, clientInit shared]) [] := by
  have accepted : (stage shared h264 repeaterID .securityResult 38 1 (rfbVersion ++ [1])
      [0, 0, 0, 0]).initMsg = (true, stage shared h264 repeaterID .clientInitialisation 38 1
        (rfbVersion ++ [1]) []) := by rfl
  have told : (stage shared h264 repeaterID .clientInitialisation 38 1 (rfbVersion ++ [1])
      []).initMsg = (true, stage shared h264 repeaterID .serverInitialisation 38 1
        (rfbVersion ++ [1, clientInit shared]) []) := by
    cases shared <;> rfl
  have waits : (stage shared h264 repeaterID .serverInitialisation 38 1
      (rfbVersion ++ [1, clientInit shared]) []).initMsg = (false, stage shared h264 repeaterID
        .serverInitialisation 38 1 (rfbVersion ++ [1, clientInit shared]) []) := by rfl
  rw [negotiate_again rfl accepted, negotiate_again rfl told, negotiate_stop rfl waits]

theorem negotiate_serverInit {m : Nat} (h : m < d.bytes.length) :
    (stage shared h264 repeaterID .serverInitialisation 38 1
      (rfbVersion ++ [1, clientInit shared]) (d.bytes.take m)).negotiate =
      stage shared h264 repeaterID .serverInitialisation 38 1
        (rfbVersion ++ [1, clientInit shared]) (d.bytes.take m) := by
  have waits : (stage shared h264 repeaterID .serverInitialisation 38 1
      (rfbVersion ++ [1, clientInit shared]) (d.bytes.take m)).initMsg = (false, stage shared h264
        repeaterID .serverInitialisation 38 1 (rfbVersion ++ [1, clientInit shared])
          (d.bytes.take m)) := by
    have all := d.length_bytes
    have some_ : (d.bytes.take m).length = m := by rw [List.length_take]; omega
    change negotiateServerInit _ = _
    unfold negotiateServerInit stage
    dsimp only
    rw [some_]
    by_cases header : m < 24
    · rw [if_pos header]
    · have field : u32 (d.bytes.take m) 20 = d.name.length := by
        rw [← d.nameLength, u32, u32, slice, slice, List.take_take, Nat.min_eq_left (by omega)]
      rw [if_neg header, field, if_pos (by omega)]
  exact negotiate_stop rfl waits

theorem negotiate_serverInit_read :
    (stage shared h264 repeaterID .serverInitialisation 38 1
      (rfbVersion ++ [1, clientInit shared]) d.bytes).negotiate =
      connectedClient d shared h264 repeaterID := by
  have read : (stage shared h264 repeaterID .serverInitialisation 38 1
      (rfbVersion ++ [1, clientInit shared]) d.bytes).initMsg =
        (true, connectedClient d shared h264 repeaterID) := by
    have all := d.length_bytes
    change negotiateServerInit _ = _
    unfold negotiateServerInit stage
    dsimp only
    rw [if_neg (by omega), d.nameLength, if_neg (by omega), d.name_eq, d.width_eq, d.height_eq,
      ← all, List.drop_length]
    have sent : ∀ more : List UInt8, rfbVersion ++ 1 :: clientInit shared :: more =
        rfbVersion ++ [1, clientInit shared] ++ more := by
      simp
    unfold connectedClient
    rw [sent]
    rfl
  rw [negotiate_again rfl read, negotiate_done (by simp [connectedClient])]

/-- The bytes of one part of what the relay says, with more of them. -/
theorem take_slice_part {a b c : List UInt8} (split : whole d = a ++ (b ++ c)) {n k : Nat}
    (inside : n + k ≤ b.length) :
    b.take n ++ slice (whole d) (a.length + n) (a.length + n + k) = b.take (n + k) := by
  have part : slice (a ++ (b ++ c)) (a.length + n) (a.length + n + k) =
      (b.take (n + k)).drop n := by
    rw [Nat.add_assoc, slice, List.take_length_add_append, List.take_append_of_le_length inside,
      ← List.drop_drop, List.drop_left]
  have front : b.take n = (b.take (n + k)).take n := by
    rw [List.take_take, Nat.min_eq_left (Nat.le_add_right n k)]
  rw [split, part, front, List.take_append_drop]

variable {d shared h264 repeaterID} {s : Negotiation} {n : Nat}

/-- In one part of what the relay says, a client that waits until the part is there has read it
when it is. -/
theorem receive_part {a b rest : List UInt8} (split : whole d = a ++ (b ++ rest))
    {c : List UInt8 → Negotiation} {k : Nat} (inside : n + k ≤ b.length)
    (queue : ∀ q data, (c q).receive data = (c (q ++ data)).negotiate)
    (waits : ∀ m < b.length, Stage d shared h264 repeaterID (c (b.take m)).negotiate (a.length + m))
    (read : Stage d shared h264 repeaterID (c b).negotiate (a.length + b.length)) :
    Stage d shared h264 repeaterID
      ((c (b.take n)).receive (slice (whole d) (a.length + n) (a.length + n + k)))
      (a.length + n + k) := by
  rw [queue, take_slice_part d split inside, Nat.add_assoc]
  obtain more | all := Nat.lt_or_eq_of_le inside
  · exact waits _ more
  · rw [all, List.take_length]
    exact read

/-- What the relay says before it has read so much. -/
theorem reach_le_of_lt (d : ServerInit) (taken : Nat) :
    (taken ≤ 12 → reach d taken ≤ 14) ∧ (taken ≤ 13 → reach d taken ≤ 18) ∧
      reach d taken ≤ 18 + d.bytes.length := by
  unfold reach
  split
  · omega
  · split
    · omega
    · split <;> omega

/-- As much as the relay can have said takes the client on, to the next stage at most. -/
theorem Stage.receive (h : Stage d shared h264 repeaterID s n) {taken k : Nat} (some_ : 0 < k)
    (le : taken ≤ s.sent.length) (said : n + k ≤ reach d taken) :
    Stage d shared h264 repeaterID (s.receive (slice (whole d) n (n + k))) (n + k) := by
  obtain ⟨types, result, all⟩ := reach_le_of_lt d taken
  cases h with
  | version h =>
      obtain rfl : taken = 0 := Nat.le_zero.mp le
      have part : Stage d shared h264 repeaterID ((stage shared h264 repeaterID .protocolVersion 0 0
          [] (rfbVersion.take n)).receive (slice (whole d) (0 + n) (0 + n + k))) (0 + n + k) := by
        refine receive_part (a := []) (b := rfbVersion) rfl said (fun _ _ => rfl)
          (fun m more => ?_) ?_
        · rw [negotiate_version shared h264 repeaterID more, List.length_nil, Nat.zero_add]
          exact .version more
        · rw [negotiate_version_read]
          exact .types (n := 0) (by decide)
      rwa [Nat.zero_add] at part
  | types h =>
      refine receive_part (a := rfbVersion) (b := [1, 1]) rfl
        (c := stage shared h264 repeaterID .security 38 0 rfbVersion) ?_ (fun _ _ => rfl)
        (fun m more => ?_) ?_
      · have reached := types le
        change _ ≤ 2
        omega
      · rw [negotiate_types shared h264 repeaterID more]
        exact .types more
      · rw [negotiate_types_read]
        exact .result (n := 0) (by decide)
  | result h =>
      refine receive_part (a := rfbVersion ++ [1, 1]) (b := [0, 0, 0, 0]) rfl
        (c := stage shared h264 repeaterID .securityResult 38 1 (rfbVersion ++ [1])) ?_
        (fun _ _ => rfl) (fun m more => ?_) ?_
      · have reached := result le
        change _ ≤ 4
        omega
      · rw [negotiate_result shared h264 repeaterID more]
        exact .result more
      · rw [negotiate_result_read]
        exact .serverInit (n := 0) (by rw [d.length_bytes]; omega)
  | serverInit h =>
      have split : whole d = (rfbVersion ++ [1, 1] ++ [0, 0, 0, 0]) ++ (d.bytes ++ []) := by
        simp [whole]
      refine receive_part split (by omega) (fun _ _ => rfl) (fun m more => ?_) ?_
      · rw [negotiate_serverInit d shared h264 repeaterID more]
        exact .serverInit more
      · rw [negotiate_serverInit_read]
        exact .connected
  | connected => omega

/-- What the client has sent is the beginning of what the relay expects and the client's byte. -/
theorem Stage.sent (h : Stage d shared h264 repeaterID s n) :
    ∃ m rest, s.sent = (rfbVersion ++ 1 :: clientInit shared :: rest).take m := by
  cases h with
  | version => exact ⟨0, [], rfl⟩
  | types => exact ⟨12, [], rfl⟩
  | result => exact ⟨13, [], rfl⟩
  | serverInit => exact ⟨14, [], rfl⟩
  | connected => exact ⟨_, _, List.take_length.symm⟩

/-- How much the client has sent when so many bytes have come. -/
theorem Stage.length_sent (h : Stage d shared h264 repeaterID s n) : s.sent.length =
    if n < 12 then 0 else if n < 14 then 12 else if n < 18 then 13 else
      14 + if n < 18 + d.bytes.length then 0 else
        (Negotiation.requests d.depth d.width d.height h264).length := by
  have twelve : rfbVersion.length = 12 := rfl
  cases h with
  | version h =>
      rw [if_pos h]
      rfl
  | types h =>
      rw [if_neg (by omega), if_pos (by omega)]
      rfl
  | result h =>
      rw [if_neg (by omega), if_neg (by omega), if_pos (by omega)]
      rfl
  | serverInit h =>
      rw [if_neg (by omega), if_neg (by omega), if_neg (by omega), if_pos (by omega)]
      rfl
  | connected =>
      rw [if_neg (by omega), if_neg (by omega), if_neg (by omega), if_neg (by omega)]
      simp only [connectedClient, stage, List.length_append, List.length_cons, twelve]
      omega

/-- The client has read all but the message of its stage, and the relay is in it too. -/
theorem Stage.length_rQ_add_reach_le (h : Stage d shared h264 repeaterID s n) {taken : Nat}
    (le : taken ≤ s.sent.length) :
    s.rQ.length + (reach d taken - n) ≤ 14 ∨
      s.rQ.length + (reach d taken - n) ≤ d.bytes.length := by
  have twelve : rfbVersion.length = 12 := rfl
  obtain ⟨types, result, all⟩ := reach_le_of_lt d taken
  cases h with
  | version h =>
      have sent : taken ≤ 0 := le
      have unread : (rfbVersion.take n).length ≤ n := List.length_take_le ..
      have said : reach d taken ≤ 14 := types (by omega)
      left
      change (rfbVersion.take n).length + _ ≤ _
      omega
  | types h =>
      have said : reach d taken ≤ 14 := types le
      left
      simp only [stage, List.length_take]
      omega
  | result h =>
      have said : reach d taken ≤ 18 := result le
      left
      simp only [stage, List.length_take]
      omega
  | serverInit h =>
      right
      simp only [stage, List.length_take]
      omega
  | connected =>
      right
      change 0 + _ ≤ _
      omega

theorem Stage.delivered_le (h : Stage d shared h264 repeaterID s n) : n ≤ 18 + d.bytes.length := by
  cases h with
  | connected => exact Nat.le_refl _
  | _ => omega

/-- There is no stage in which the client has failed, and one in which it is connected. -/
theorem Stage.connection (h : Stage d shared h264 repeaterID s n) :
    s.rfbConnectionState = .connecting ∨ s = connectedClient d shared h264 repeaterID := by
  cases h with
  | connected => exact .inr rfl
  | _ => exact .inl rfl

/-- A message does not take back what the client has sent. -/
theorem Stage.sent_le {s' : Negotiation} {n' : Nat} (h : Stage d shared h264 repeaterID s n)
    (h' : Stage d shared h264 repeaterID s' n') (le : n ≤ n') : s.sent.length ≤ s'.sent.length := by
  rw [h.length_sent, h'.length_sent]
  generalize (Negotiation.requests d.depth d.width d.height h264).length = more
  repeat' split
  all_goals omega

end Stages

/-- The client is in its stage, and the relay has read no more than was sent. -/
structure Link.Agrees (d : ServerInit) (s : Link) : Prop where
  stage : ∃ shared h264 repeaterID, Stage d shared h264 repeaterID s.client s.delivered
  taken : s.taken ≤ s.client.sent.length

namespace Link.Agrees

variable {d : ServerInit} {s s' : Link}

theorem said_eq (h : s.Agrees d) : s.said d = (whole d).take (reach d s.taken) := by
  obtain ⟨shared, h264, repeaterID, stage⟩ := h.stage
  obtain ⟨m, rest, sent⟩ := stage.sent
  have inside := h.taken
  rw [sent, List.length_take] at inside
  rw [said, sent, List.take_take, Nat.min_eq_left (by omega), relayed_take]

theorem length_whole : (whole d).length = 18 + d.bytes.length := by
  have twelve : rfbVersion.length = 12 := rfl
  simp [whole, twelve]
  omega

theorem reach_le (n : Nat) : reach d n ≤ (whole d).length := by
  have some_ := d.length_bytes
  rw [length_whole, reach]
  split
  · omega
  · split
    · omega
    · split <;> omega

theorem length_said (h : s.Agrees d) : (s.said d).length = reach d s.taken := by
  rw [h.said_eq, List.length_take, Nat.min_eq_left (reach_le _)]

theorem next (h : s.Agrees d) (e : LinkEvent) (step : s.next d e = some s') : s'.Agrees d := by
  cases e with
  | toClient k =>
      obtain ⟨⟨some_, said⟩, step⟩ := Option.ite_none_right_eq_some.mp step
      obtain rfl := Option.some.inj step
      obtain ⟨shared, h264, repeaterID, stage⟩ := h.stage
      rw [h.length_said] at said
      have chunk : slice (s.said d) s.delivered (s.delivered + k) =
          slice (whole d) s.delivered (s.delivered + k) := by
        rw [h.said_eq, slice, slice, List.take_take, Nat.min_eq_left said]
      have later := stage.receive some_ h.taken said
      rw [← chunk] at later
      exact ⟨⟨shared, h264, repeaterID, later⟩,
        h.taken.trans (stage.sent_le later (Nat.le_add_right ..))⟩
  | toRelay k =>
      obtain ⟨⟨_, sent⟩, step⟩ := Option.ite_none_right_eq_some.mp step
      obtain rfl := Option.some.inj step
      exact ⟨h.stage, sent⟩

theorem length_requests (depth width height : Nat) (h264 : Bool) :
    (Negotiation.requests depth width height h264).length ≤ 134 := by
  have four : ∀ l : List Int, (l.flatMap sQpush32).length = 4 * l.length := by
    intro l
    induction l with
    | nil => rfl
    | cons n l ih =>
        rw [List.flatMap_cons, List.length_append, ih, List.length_cons]
        change 4 + _ = _
        omega
  have few : (clientEncodings depth h264).length ≤ 25 := by
    unfold clientEncodings
    by_cases full : depth = 24 <;> cases h264 <;> simp [full]
  unfold Negotiation.requests Messages.clientEncodings
  simp only [List.length_append, length_pixelFormat, four, length_sQpush8, length_sQpush16]
  change 20 + (1 + 1 + 2 + _) + 10 ≤ 134
  omega

/-- The two come to rest when the client is connected, and not before. -/
theorem connected_of_atRest (h : s.Agrees d) (rest : s.AtRest d) :
    s.client.rfbConnectionState = .connected := by
  obtain ⟨shared, h264, repeaterID, stage⟩ := h.stage
  have heard : reach d s.taken ≤ s.delivered := by
    have none_ := rest (.toClient 1)
    rw [Link.next, h.length_said] at none_
    by_contra more
    rw [if_pos (by omega)] at none_
    cases none_
  have read : s.client.sent.length ≤ s.taken := by
    have none_ := rest (.toRelay 1)
    rw [Link.next] at none_
    by_contra more
    rw [if_pos (by omega)] at none_
    cases none_
  obtain all : s.taken = s.client.sent.length := Nat.le_antisymm h.taken read
  rw [all] at heard
  obtain ⟨client, delivered, taken⟩ := s
  dsimp only at stage heard ⊢
  cases stage with
  | version h =>
      change 12 ≤ _ at heard
      omega
  | types h =>
      change 14 ≤ _ at heard
      omega
  | result h =>
      change 18 ≤ _ at heard
      omega
  | serverInit h =>
      change 18 + d.bytes.length ≤ _ at heard
      omega
  | connected => rfl

end Link.Agrees

theorem link_grows {d : ServerInit} {s s' : Link} {e : LinkEvent} (step : s.next d e = some s') :
    s.delivered + s.taken < s'.delivered + s'.taken := by
  cases e with
  | toClient n =>
      obtain ⟨⟨some_, _⟩, step⟩ := Option.ite_none_right_eq_some.mp step
      obtain rfl := Option.some.inj step
      dsimp only
      omega
  | toRelay n =>
      obtain ⟨⟨some_, _⟩, step⟩ := Option.ite_none_right_eq_some.mp step
      obtain rfl := Option.some.inj step
      dsimp only
      omega

theorem linkSystem_agrees {d : ServerInit} (x : Execution (linkSystem d)) : x.final.Agrees d := by
  refine (Run.invariant (I := Link.Agrees d) ?_ (fun h step => h.next _ step) x.run).2
  rintro _ ⟨shared, h264, repeaterID, rfl⟩
  exact ⟨⟨shared, h264, repeaterID, .version (n := 0) (by decide)⟩, Nat.le_refl 0⟩

/-- What is unread and what is on its way to the client fit into the receive queue. -/
theorem queue_fits (d : ServerInit) (x : Execution (linkSystem d)) :
    let s := x.final
    s.client.rQ.length + ((s.said d).length - s.delivered) ≤ MAX_RQ_GROW_SIZE := by
  have agrees := linkSystem_agrees x
  obtain ⟨shared, h264, repeaterID, reached⟩ := agrees.stage
  have within := reached.length_rQ_add_reach_le agrees.taken
  have all := d.length_bytes
  have short := d.short
  have header : 24 ≤ MAX_RQ_GROW_SIZE := by decide
  dsimp only
  rw [agrees.length_said]
  omega

/-- In whatever pieces what the two say arrives, and in whatever order: the client never fails; it
is connected only with the size and the name of the server, when nothing is left to read and the
relay accepts all that it has said; as long as it is not connected, something is on its way; and
after so many arrivals there is nothing left that could arrive. -/
theorem client_connects (d : ServerInit) (x : Execution (linkSystem d)) :
    let c := x.final.client
    (c.rfbConnectionState = .connecting ∨ c.rfbConnectionState = .connected) ∧
      (c.rfbConnectionState = .connected →
        c.fbWidth = d.width ∧ c.fbHeight = d.height ∧ c.fbName = d.title ∧ c.rQ = [] ∧
          Handshake.run handshakeWithClient (Handshake.conn c.sent .eof []) =
            (.ok (), Handshake.conn (clientInit c.shared :: Negotiation.requests d.depth d.width
              d.height c.supportsWebCodecsH264Decode) .eof [rfbVersion, [1, 1], [0, 0, 0, 0]])) ∧
      (x.final.AtRest d → c.rfbConnectionState = .connected) ∧
      x.history.length ≤ 166 + d.bytes.length := by
  have agrees := linkSystem_agrees x
  obtain ⟨shared, h264, repeaterID, reached⟩ := agrees.stage
  refine ⟨?_, fun connected => ?_, agrees.connected_of_atRest, ?_⟩
  · obtain connecting | done := reached.connection
    · exact .inl connecting
    · exact .inr (done ▸ rfl)
  · obtain connecting | done := reached.connection
    · rw [connecting] at connected
      cases connected
    · rw [done]
      exact ⟨rfl, rfl, rfl, rfl, run_handshakeWithClient_ok.mpr
        ⟨.v38, _, by simp [connectedClient, stage, ClientGreeting.bytes, ClientGreeting.version,
          secTypeNone], rfl⟩⟩
  · have steps := x.run.length_le (f := fun s : Link => s.delivered + s.taken) link_grows
    have read := agrees.taken
    have heard := reached.delivered_le
    have few := Link.Agrees.length_requests d.depth d.width d.height h264
    have sent : x.final.client.sent.length ≤ 148 := by
      rw [reached.length_sent]
      repeat' split
      all_goals omega
    omega

end VmServer.Novnc
