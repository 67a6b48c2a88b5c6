import VmServer.Proxy.FilterSafety

/-!
# When a message length can be used

Every branch of `clientMessageSize` gives a length between the bytes it has
read and 64 MiB, except for one clipboard length: the negation of the least
`int32` is itself, passes the limit, and `make` panics on it.
-/

namespace VmServer.Proxy

/-- The length field of a clipboard message, from its body. -/
def lengthField (b : List UInt8) : BitVec 32 := BitVec.ofNat 32 (bigEndian (slice b 3 7))

/-- The body of a clipboard message starts with the length 0x80000000. -/
def LeastLength (b : List UInt8) : Prop :=
  7 ≤ b.length ∧ lengthField b = BitVec.intMin 32

/-- The client stream has come to a clipboard message with that length. -/
def AtLeastLength (s : List UInt8) : Prop :=
  ∃ body, s = msgClientCutText :: body ∧ LeastLength body

/-- A computed length leaves room for the bytes already read and is at most 64 MiB and 7. -/
def SizeBounded (t : UInt8) (src : Reader) : Prop :=
  ∀ size r, clientMessageSize t { src } = .ok (size, r) →
    r.pre.length ≤ size ∧ size ≤ maxCutText + 7

theorem lengthField_take (b : List UInt8) : lengthField (b.take 7) = lengthField b := by
  rw [lengthField, slice_take, lengthField]

/-- The code's absolute value of the length field. -/
theorem cutTextLength_eq (b : List UInt8) :
    cutTextLength b =
      if lengthField b = BitVec.intMin 32 then -2 ^ 31 else |(lengthField b).toInt| := by
  have unfolded : cutTextLength b =
      if (lengthField b).toInt < 0 then (-lengthField b).toInt else (lengthField b).toInt := rfl
  rw [unfolded]
  by_cases least : lengthField b = BitVec.intMin 32
  · rw [if_pos least, least, BitVec.neg_intMin, ite_self]
    rfl
  · rw [if_neg least]
    by_cases negative : (lengthField b).toInt < 0
    · rw [if_pos negative, BitVec.toInt_neg_of_ne_intMin least, abs_of_neg negative]
    · rw [if_neg negative, abs_of_nonneg (not_lt.mp negative)]

/-- The negation is exact for every length field but the least. -/
theorem cutTextLength_exact_iff (b : List UInt8) :
    cutTextLength b = |(lengthField b).toInt| ↔ lengthField b ≠ BitVec.intMin 32 := by
  rw [cutTextLength_eq]
  by_cases least : lengthField b = BitVec.intMin 32
  · rw [if_pos least, least]
    exact iff_of_false (by decide) (by simp)
  · rw [if_neg least]
    exact iff_of_true rfl least

theorem bigEndian_lt (bs : List UInt8) : bigEndian bs < 256 ^ bs.length := by
  induction bs using List.reverseRecOn with
  | nil => decide
  | append_singleton bs b ih =>
      have digit := b.toNat_lt
      have append : bigEndian (bs ++ [b]) = bigEndian bs * 256 + b.toNat := by
        rw [bigEndian, List.foldl_append, ← bigEndian]
        rfl
      rw [append, List.length_append, List.length_singleton, pow_succ]
      omega

theorem bigEndian_slice_lt (b : List UInt8) : bigEndian (slice b 1 3) < 65536 := by
  have short : (slice b 1 3).length ≤ 2 := by
    simp only [slice, List.length_drop, List.length_take]
    omega
  calc bigEndian (slice b 1 3) < 256 ^ (slice b 1 3).length := bigEndian_lt _
    _ ≤ 256 ^ 2 := Nat.pow_le_pow_right (by decide) short

section Branches

variable {src : Reader} {r : CountingReader Reader} {size : Int}

theorem bounded_fixed {n : Nat} (high : (n : Int) ≤ maxCutText + 7)
    (h : Except.ok (ε := CopyError) ((n : Int), CountingReader.mk src []) = .ok (size, r)) :
    r.pre.length ≤ size ∧ size ≤ maxCutText + 7 := by
  obtain ⟨rfl, rfl⟩ := Prod.mk.inj (Except.ok.inj h)
  exact ⟨Int.natCast_nonneg n, high⟩

theorem bounded_sizeFrom {n : Nat} {f : List UInt8 → Int}
    (low : ∀ b, n ≤ f b) (high : ∀ b, f b ≤ maxCutText + 7)
    (h : CountingReader.sizeFrom { src } n f = .ok (size, r)) :
    r.pre.length ≤ size ∧ size ≤ maxCutText + 7 := by
  obtain ⟨⟨b, r'⟩, hr, hf⟩ := bind_ok h
  obtain ⟨rfl, rfl⟩ := Prod.mk.inj (Except.ok.inj hf)
  obtain ⟨enough, _, rfl⟩ := read_ok.mp hr
  have room := low b
  refine ⟨?_, high b⟩
  rw [List.nil_append, List.length_take]
  omega

theorem bounded_qemu (h : qemuSize { src } = .ok (size, r)) :
    r.pre.length ≤ size ∧ size ≤ maxCutText + 7 := by
  obtain ⟨⟨b, r'⟩, hr, hf⟩ := bind_ok h
  obtain ⟨enough, _, rfl⟩ := read_ok.mp hr
  dsimp only at hf
  by_cases extended : b.getD 0 0 = 0
  · rw [if_pos extended] at hf
    obtain ⟨rfl, rfl⟩ := Prod.mk.inj (Except.ok.inj hf)
    refine ⟨?_, by decide⟩
    rw [List.nil_append, List.length_take]
    omega
  rw [if_neg extended] at hf
  by_cases audio : b.getD 0 0 = 1
  · rw [if_pos audio] at hf
    obtain ⟨⟨sub, r''⟩, hr', hf'⟩ := bind_ok hf
    obtain ⟨enough', _, rfl⟩ := read_ok.mp hr'
    have three : (([] ++ src.bytes.take 1) ++ (src.bytes.drop 1).take 2).length ≤ 3 := by
      simp only [List.nil_append, List.length_append, List.length_take]
      omega
    dsimp only at hf'
    split at hf'
    · obtain ⟨rfl, rfl⟩ := Prod.mk.inj (Except.ok.inj hf')
      exact ⟨by dsimp only; omega, by decide⟩
    · obtain ⟨rfl, rfl⟩ := Prod.mk.inj (Except.ok.inj hf')
      exact ⟨by dsimp only; omega, by decide⟩
  · rw [if_neg audio] at hf
    cases hf

/-- Every clipboard length but the least is at least 7 and within the limit. -/
theorem bounded_cutText (other : ¬ LeastLength src.bytes)
    (h : clientMessageSize msgClientCutText { src } = .ok (size, r)) :
    r.pre.length ≤ size ∧ size ≤ maxCutText + 7 := by
  obtain ⟨⟨b, r'⟩, hr, hf⟩ := bind_ok h
  obtain ⟨enough, rfl, rfl⟩ := read_ok.mp hr
  dsimp only at hf
  have field : lengthField (src.bytes.take 7) ≠ BitVec.intMin 32 := by
    rw [lengthField_take]
    exact fun least => other ⟨enough, least⟩
  have exact_length := (cutTextLength_exact_iff _).mpr field
  have positive := abs_nonneg (lengthField (src.bytes.take 7)).toInt
  by_cases large : cutTextLength (src.bytes.take 7) > maxCutText
  · rw [if_pos large] at hf
    cases hf
  · rw [if_neg large] at hf
    obtain ⟨rfl, rfl⟩ := Prod.mk.inj (Except.ok.inj hf)
    rw [List.nil_append, List.length_take]
    omega

end Branches

/-- On the least length the limit is passed and the size is negative. -/
theorem clientMessageSize_least {src : Reader} (least : LeastLength src.bytes) :
    clientMessageSize msgClientCutText { src } =
      .ok (7 - 2 ^ 31, ⟨{ src with bytes := src.bytes.drop 7 }, src.bytes.take 7⟩) := by
  have value : cutTextLength (src.bytes.take 7) = -2 ^ 31 := by
    rw [cutTextLength_eq, lengthField_take, if_pos least.2]
  have run : clientMessageSize msgClientCutText { src } =
      (CountingReader.read { src } 7 >>= fun x =>
        if cutTextLength x.1 > maxCutText then .error (.clipboardTooLarge (cutTextLength x.1))
        else .ok (7 + cutTextLength x.1, x.2)) := rfl
  rw [run, read_of_le least.1]
  change (if cutTextLength (src.bytes.take 7) > maxCutText then _ else _) = _
  rw [value, if_neg (by decide)]
  rfl

/-- For every type byte and stream, the length can be used unless it is the least clipboard
length. -/
theorem sizeBounded_iff (t : UInt8) (src : Reader) :
    SizeBounded t src ↔ ¬ (t = msgClientCutText ∧ LeastLength src.bytes) := by
  constructor
  · rintro bounded ⟨rfl, least⟩
    have low := (bounded _ _ (clientMessageSize_least least)).1
    have negative : (7 - 2 ^ 31 : Int) < 0 := by decide
    omega
  · intro other size r h
    by_cases h6 : t = msgClientCutText
    · subst h6
      exact bounded_cutText (fun least => other ⟨rfl, least⟩) h
    unfold clientMessageSize at h
    by_cases h0 : t = msgSetPixelFormat
    · rw [if_pos h0] at h
      exact bounded_fixed (n := 19) (by decide) h
    rw [if_neg h0] at h
    by_cases h2 : t = msgSetEncodings
    · rw [if_pos h2] at h
      refine bounded_sizeFrom (fun b => by omega) (fun b => ?_) h
      have := bigEndian_slice_lt b
      simp only [maxCutText]
      omega
    rw [if_neg h2] at h
    by_cases h3 : t = msgFramebufferUpdateRequest
    · rw [if_pos h3] at h
      exact bounded_fixed (n := 9) (by decide) h
    rw [if_neg h3] at h
    by_cases h4 : t = msgKeyEvent
    · rw [if_pos h4] at h
      exact bounded_fixed (n := 7) (by decide) h
    rw [if_neg h4] at h
    by_cases h5 : t = msgPointerEvent
    · rw [if_pos h5] at h
      exact bounded_fixed (n := 5) (by decide) h
    rw [if_neg h5, if_neg h6] at h
    by_cases h150 : t = msgEnableContinuousUpdates
    · rw [if_pos h150] at h
      exact bounded_fixed (n := 9) (by decide) h
    rw [if_neg h150] at h
    by_cases h151 : t = msgClientFence
    · rw [if_pos h151] at h
      refine bounded_sizeFrom (fun b => by omega) (fun b => ?_) h
      have := (b.getD 7 0).toNat_lt
      simp only [maxCutText]
      omega
    rw [if_neg h151] at h
    by_cases h250 : t = msgSetDesktopSize
    · rw [if_pos h250] at h
      refine bounded_sizeFrom (fun b => by omega) (fun b => ?_) h
      have := (b.getD 5 0).toNat_lt
      simp only [maxCutText]
      omega
    rw [if_neg h250] at h
    by_cases h255 : t = msgQEMU
    · rw [if_pos h255] at h
      exact bounded_qemu h
    · rw [if_neg h255] at h
      cases h

/-- A round panics just at the least clipboard length. -/
theorem readMessage_panics_iff (src : Reader) :
    readMessage src = .error .panicked ↔ AtLeastLength src.bytes := by
  obtain ⟨bytes, fault⟩ := src
  cases bytes with
  | nil =>
      refine iff_of_false (fun h => ?_) fun ⟨body, h, _⟩ => absurd h (by simp)
      rw [readMessage_nil] at h
      exact absurd (Except.error.inj h) (by simp)
  | cons t body =>
      have at_iff : AtLeastLength (t :: body) ↔ t = msgClientCutText ∧ LeastLength body := by
        constructor
        · rintro ⟨body', h, least⟩
          obtain ⟨rfl, rfl⟩ := List.cons.inj h
          exact ⟨rfl, least⟩
        · rintro ⟨rfl, least⟩
          exact ⟨body, rfl, least⟩
      rw [at_iff]
      simp only [readMessage, readFull_one_cons, List.headD_cons]
      by_cases least : t = msgClientCutText ∧ LeastLength body
      · obtain ⟨rfl, least⟩ := least
        rw [clientMessageSize_least least]
        exact iff_of_true (if_pos (Or.inl (by decide))) ⟨rfl, least⟩
      refine iff_of_false ?_ least
      have bounded := (sizeBounded_iff t ⟨body, fault⟩).mpr least
      cases hs : clientMessageSize t { src := (⟨body, fault⟩ : Reader) } with
      | error e => simp
      | ok x =>
          obtain ⟨low, _⟩ := bounded _ _ hs
          dsimp only
          rw [if_neg (by omega)]
          cases Source.readFull x.2.src (x.1.toNat - x.2.pre.length) <;> simp

/-- Every one of these `Write` calls in turn succeeds. -/
def Writer.Accepts (w : Writer) : List (List UInt8) → Prop
  | [] => True
  | p :: rest => (w.write p).2 = none ∧ (w.write p).1.Accepts rest

/-- The loop panics when the sink has taken the kept messages and the stream then comes to
the least clipboard length. -/
theorem copyLoop_panics_iff (viewOnly : Bool) (src : Reader) (dst : Writer) :
    (copyLoop viewOnly src dst).2 = .panicked ↔
      dst.Accepts ((clientMessages.messages src.bytes).filter (kept viewOnly)) ∧
        AtLeastLength (clientMessages.leftover src.bytes) := by
  rcases readMessage_cases src with ⟨none, out, hread⟩ | ⟨n, some, hread⟩
  · rw [copyLoop_stop (copyOne_error hread), Framing.messages_of_none none,
      Framing.leftover_of_none none, ← readMessage_panics_iff, hread]
    simp [Writer.Accepts]
  rw [Framing.messages_of_some some, Framing.leftover_of_some some]
  by_cases keep : kept viewOnly (src.bytes.take n)
  · rw [List.filter_cons_of_pos keep, Writer.Accepts]
    rcases hw : dst.write (src.bytes.take n) with ⟨dst', _ | e⟩
    · rw [copyLoop_go (copyOne_written hread keep hw), copyLoop_panics_iff viewOnly _ dst']
      simp
    · rw [copyLoop_stop (copyOne_writeError hread keep hw)]
      simp
  · rw [List.filter_cons_of_neg keep, copyLoop_go (copyOne_dropped hread keep)]
    exact copyLoop_panics_iff viewOnly _ dst
termination_by src.bytes.length
decreasing_by all_goals exact readMessage_shortens hread

/-- The relay comes to the least clipboard length, with every write before it accepted. -/
def MeetsLeastLength (dst : Writer) (stream : List UInt8) (viewOnly : Bool) : Prop :=
  dst.Accepts (passedOn viewOnly stream) ∧ AtLeastLength (clientMessages.leftover stream.tail)

theorem copyClientMessages_panics_iff (dst : Writer) (src : Reader) (viewOnly : Bool) :
    (copyClientMessages dst src viewOnly).2 = .panicked ↔
      MeetsLeastLength dst src.bytes viewOnly := by
  obtain ⟨bytes, fault⟩ := src
  cases bytes with
  | nil =>
      refine iff_of_false (fun h => absurd h (by simp [copyClientMessages_nil]))
        fun ⟨_, body, h, _⟩ => ?_
      rw [List.tail_nil, Framing.leftover_of_none Framing.size_nil] at h
      cases h
  | cons init stream =>
      simp only [copyClientMessages_cons, MeetsLeastLength, passedOn, Writer.Accepts,
        List.tail_cons]
      rcases hw : dst.write [init] with ⟨dst', _ | e⟩
      · simpa using copyLoop_panics_iff viewOnly ⟨stream, fault⟩ dst'
      · simp

/-- The length is usable, the relay does not panic and the negation is exact, each just when
the clipboard length 0x80000000 does not occur. -/
theorem clientMessageSize_usable_iff (t : UInt8) (dst : Writer) (src : Reader) (viewOnly : Bool)
    (b : List UInt8) :
    (SizeBounded t src ↔ ¬ (t = msgClientCutText ∧ LeastLength src.bytes)) ∧
    ((copyClientMessages dst src viewOnly).2 ≠ .panicked ↔
      ¬ MeetsLeastLength dst src.bytes viewOnly) ∧
    (cutTextLength b = |(lengthField b).toInt| ↔ lengthField b ≠ BitVec.intMin 32) :=
  ⟨sizeBounded_iff t src, not_congr (copyClientMessages_panics_iff dst src viewOnly),
    cutTextLength_exact_iff b⟩

/-- A clipboard message of length 0x80000000: the size is negative, and the relay panics. -/
theorem least_length_panics :
    let src : Reader := { bytes := [0, 0, 0, 0x80, 0, 0, 0] }
    ¬ SizeBounded msgClientCutText src ∧
    (copyClientMessages {} ({ bytes := 1 :: msgClientCutText :: src.bytes } : Reader) false).2 =
      .panicked ∧
    cutTextLength src.bytes ≠ |(lengthField src.bytes).toInt| := by
  intro src
  have least : LeastLength src.bytes := ⟨by decide, by decide⟩
  refine ⟨fun bounded => (sizeBounded_iff _ _).mp bounded ⟨rfl, least⟩, ?_, ?_⟩
  · have none : clientMessages.size (msgClientCutText :: src.bytes) = none :=
      Framing.size_of_not_announced rfl
    refine (copyClientMessages_panics_iff _ _ _).mpr ⟨?_, ?_⟩
    · rw [passedOn, Framing.messages_of_none none]
      exact ⟨rfl, trivial⟩
    · rw [List.tail_cons, Framing.leftover_of_none none]
      exact ⟨src.bytes, rfl, least⟩
  · exact fun same => (cutTextLength_exact_iff _).mp same least.2

end VmServer.Proxy
