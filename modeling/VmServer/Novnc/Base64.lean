import VmServer.Novnc.Decoders

/-!
# Base64 of the console client

Images are given to the browser as Base64 text. The decoder collects bits from
one character after another, skips what is not Base64, and throws when bits are
left over. It reads back every list of bytes, into an array of just their
length.

## Implementation notes

A text is the list of its UTF-16 code units, which is what `charAt`,
`charCodeAt` and `length` go by. The decoder is called with an offset of 0 only.
An entry of its array that was not written is `none`.
-/

namespace VmServer.Novnc.Base64

/-- A code unit of a text. -/
abbrev CodeUnit := UInt16

/-- The code unit of a character that takes one. -/
def codeUnit (ch : Char) : CodeUnit := UInt16.ofNat ch.toNat

def toBase64Table : List CodeUnit :=
  List.map codeUnit
    ['A', 'B', 'C', 'D', 'E', 'F', 'G', 'H', 'I', 'J', 'K', 'L', 'M', 'N', 'O', 'P', 'Q', 'R', 'S',
      'T', 'U', 'V', 'W', 'X', 'Y', 'Z', 'a', 'b', 'c', 'd', 'e', 'f', 'g', 'h', 'i', 'j', 'k', 'l',
      'm', 'n', 'o', 'p', 'q', 'r', 's', 't', 'u', 'v', 'w', 'x', 'y', 'z', '0', '1', '2', '3', '4',
      '5', '6', '7', '8', '9', '+', '/', '=']

def base64Pad : CodeUnit := codeUnit '='

/-- `toBase64Table[n]` -/
def digit (n : Nat) : CodeUnit := toBase64Table.getD n base64Pad

def encode : List UInt8 → List CodeUnit
  | [] => []
  | [a] => [digit (a.toNat >>> 2), digit ((a.toNat &&& 0x03) <<< 4), digit 64, digit 64]
  | [a, b] => [digit (a.toNat >>> 2), digit (((a.toNat &&& 0x03) <<< 4) + (b.toNat >>> 4)),
      digit ((b.toNat &&& 0x0f) <<< 2), digit 64]
  | a :: b :: c :: rest =>
      digit (a.toNat >>> 2) :: digit (((a.toNat &&& 0x03) <<< 4) + (b.toNat >>> 4)) ::
        digit (((b.toNat &&& 0x0f) <<< 2) + (c.toNat >>> 6)) :: digit (c.toNat &&& 0x3f) ::
          encode rest

def toBinaryTable : List Int :=
  [-1, -1, -1, -1, -1, -1, -1, -1, -1, -1, -1, -1, -1, -1, -1, -1,
    -1, -1, -1, -1, -1, -1, -1, -1, -1, -1, -1, -1, -1, -1, -1, -1,
    -1, -1, -1, -1, -1, -1, -1, -1, -1, -1, -1, 62, -1, -1, -1, 63,
    52, 53, 54, 55, 56, 57, 58, 59, 60, 61, -1, -1, -1, 0, -1, -1,
    -1, 0, 1, 2, 3, 4, 5, 6, 7, 8, 9, 10, 11, 12, 13, 14,
    15, 16, 17, 18, 19, 20, 21, 22, 23, 24, 25, -1, -1, -1, -1, -1,
    -1, 26, 27, 28, 29, 30, 31, 32, 33, 34, 35, 36, 37, 38, 39, 40,
    41, 42, 43, 44, 45, 46, 47, 48, 49, 50, 51, -1, -1, -1, -1, -1]

/-- What is written, and the bits that are not. -/
structure Decoding where
  result : List Nat := []
  leftbits : Nat := 0
  leftdata : Nat := 0
  deriving DecidableEq, Repr

/-- A character that is not Base64 is skipped. -/
def Decoding.step (s : Decoding) (ch : CodeUnit) : Decoding :=
  let c := toBinaryTable.getD (ch.toNat &&& 0x7f) (-1)
  if c = -1 then s
  else
    let leftdata := (s.leftdata <<< 6) ||| c.toNat
    let leftbits := s.leftbits + 6
    if 8 ≤ leftbits then
      let leftbits := leftbits - 8
      { result :=
          if ch = base64Pad then s.result else s.result ++ [(leftdata >>> leftbits) &&& 0xff]
        leftbits
        leftdata := leftdata &&& ((1 <<< leftbits) - 1) }
    else { s with leftdata, leftbits }

/-- What the array is made for. -/
def resultLength (data : List CodeUnit) : Nat :=
  let dataLength := data.idxOf base64Pad
  dataLength / 4 * 3 + dataLength % 4 * 2 / 3

def decode (data : List CodeUnit) : Except String (List (Option Nat)) :=
  let s := data.foldl Decoding.step {}
  if s.leftbits ≠ 0 then .error "Corrupted base64 string"
  else .ok (s.result.map some ++ List.replicate (resultLength data - s.result.length) none)

/-! ## Reading back -/

theorem binary_digit : ∀ n < 64,
    toBinaryTable.getD ((digit n).toNat &&& 0x7f) (-1) = n ∧ digit n ≠ base64Pad := by
  decide

/-- The digit is put behind the bits that are left, and a byte is taken from the front. -/
theorem step_digit {n : Nat} (r : List Nat) (bits left : Nat) (h : n < 64) :
    Decoding.step ⟨r, bits, left⟩ (digit n) =
      if 2 ≤ bits then ⟨r ++ [(left * 64 + n) / 2 ^ (bits - 2) % 256], bits - 2,
        (left * 64 + n) % 2 ^ (bits - 2)⟩
      else ⟨r, bits + 6, left * 64 + n⟩ := by
  obtain ⟨value, other⟩ := binary_digit n h
  have joined : left <<< 6 ||| n = left * 64 + n := by
    rw [← Nat.shiftLeft_add_eq_or_of_lt (by simpa using h), Nat.shiftLeft_eq]
  have byte : ∀ m : Nat, m &&& 0xff = m % 256 := fun m => Nat.and_two_pow_sub_one_eq_mod m 8
  have digits : (n : Int) ≠ -1 := by omega
  simp only [Decoding.step, value, digits, other, if_false, Int.toNat_natCast, joined,
    Nat.shiftRight_eq_div_pow, Nat.one_shiftLeft, byte, Nat.and_two_pow_sub_one_eq_mod]
  by_cases more : 2 ≤ bits
  · rw [if_pos more, if_pos (by omega), show bits + 6 - 8 = bits - 2 by omega]
  · rw [if_neg more, if_neg (by omega)]

/-- A digit of padding is worth 0, and no byte is written for it. -/
theorem step_pad (r : List Nat) {bits : Nat} (h : 2 ≤ bits) :
    Decoding.step ⟨r, bits, 0⟩ (digit 64) = ⟨r, bits - 2, 0⟩ := by
  have value : toBinaryTable.getD (base64Pad.toNat &&& 0x7f) (-1) = 0 := by decide
  have pad : digit 64 = base64Pad := by decide
  simp only [Decoding.step, pad, value, if_true]
  rw [if_neg (by decide), if_pos (by omega), show bits + 6 - 8 = bits - 2 by omega]
  simp

theorem second_digit (a : UInt8) : (a.toNat &&& 0x03) <<< 4 = a.toNat % 4 * 16 := by
  rw [Nat.and_two_pow_sub_one_eq_mod a.toNat 2, Nat.shiftLeft_eq]

theorem third_digit (b : UInt8) : (b.toNat &&& 0x0f) <<< 2 = b.toNat % 16 * 4 := by
  rw [Nat.and_two_pow_sub_one_eq_mod b.toNat 4, Nat.shiftLeft_eq]

theorem fourth_digit (c : UInt8) : c.toNat &&& 0x3f = c.toNat % 64 :=
  Nat.and_two_pow_sub_one_eq_mod c.toNat 6

/-- Digits take the decoder round its four positions. -/
theorem step_zero {n : Nat} (r : List Nat) (h : n < 64) :
    Decoding.step ⟨r, 0, 0⟩ (digit n) = ⟨r, 6, n⟩ := by
  rw [step_digit r 0 0 h, if_neg (by omega)]
  simp

theorem step_six {n : Nat} (r : List Nat) (left : Nat) (h : n < 64) :
    Decoding.step ⟨r, 6, left⟩ (digit n) =
      ⟨r ++ [(left * 64 + n) / 16 % 256], 4, (left * 64 + n) % 16⟩ :=
  (step_digit r 6 left h).trans (if_pos (by omega))

theorem step_four {n : Nat} (r : List Nat) (left : Nat) (h : n < 64) :
    Decoding.step ⟨r, 4, left⟩ (digit n) =
      ⟨r ++ [(left * 64 + n) / 4 % 256], 2, (left * 64 + n) % 4⟩ :=
  (step_digit r 4 left h).trans (if_pos (by omega))

theorem step_two {n : Nat} (r : List Nat) (left : Nat) (h : n < 64) :
    Decoding.step ⟨r, 2, left⟩ (digit n) = ⟨r ++ [(left * 64 + n) % 256], 0, 0⟩ := by
  rw [step_digit r 2 left h, if_pos (by omega)]
  simp [Nat.mod_one]

/-- The first digit and the high bits of the second are a byte, the low bits of the second are
the high bits of the next one. -/
theorem first_byte (r : List Nat) (a : UInt8) {high : Nat} (h : high < 16) :
    Decoding.step (Decoding.step ⟨r, 0, 0⟩ (digit (a.toNat / 4))) (digit (a.toNat % 4 * 16 + high))
      = ⟨r ++ [a.toNat], 4, high⟩ := by
  have la := a.toNat_lt
  rw [step_zero r (by omega), step_six r _ (by omega)]
  rw [show (a.toNat / 4 * 64 + (a.toNat % 4 * 16 + high)) / 16 % 256 = a.toNat by omega,
    show (a.toNat / 4 * 64 + (a.toNat % 4 * 16 + high)) % 16 = high by omega]

theorem second_byte (r : List Nat) (b : UInt8) {high : Nat} (h : high < 4) :
    Decoding.step ⟨r, 4, b.toNat / 16⟩ (digit (b.toNat % 16 * 4 + high)) =
      ⟨r ++ [b.toNat], 2, high⟩ := by
  have lb := b.toNat_lt
  rw [step_four r _ (by omega)]
  rw [show (b.toNat / 16 * 64 + (b.toNat % 16 * 4 + high)) / 4 % 256 = b.toNat by omega,
    show (b.toNat / 16 * 64 + (b.toNat % 16 * 4 + high)) % 4 = high by omega]

theorem third_byte (r : List Nat) (c : UInt8) :
    Decoding.step ⟨r, 2, c.toNat / 64⟩ (digit (c.toNat % 64)) = ⟨r ++ [c.toNat], 0, 0⟩ := by
  have lc := c.toNat_lt
  rw [step_two r _ (by omega), show (c.toNat / 64 * 64 + c.toNat % 64) % 256 = c.toNat by omega]

theorem foldl_encode (data : List UInt8) (r : List Nat) :
    (encode data).foldl Decoding.step ⟨r, 0, 0⟩ = ⟨r ++ data.map UInt8.toNat, 0, 0⟩ := by
  fun_induction encode data generalizing r with
  | case1 => simp
  | case2 a =>
    have start := first_byte r a (show 0 < 16 by omega)
    simp only [List.foldl_cons, List.foldl_nil, Nat.shiftRight_eq_div_pow, Nat.reducePow,
      second_digit, Nat.add_zero] at start ⊢
    rw [start, step_pad _ (by omega), step_pad _ (by omega)]
    simp
  | case3 a b =>
    have lb := b.toNat_lt
    have start := first_byte r a (show b.toNat / 16 < 16 by omega)
    have next := second_byte (r ++ [a.toNat]) b (show 0 < 4 by omega)
    simp only [List.foldl_cons, List.foldl_nil, Nat.shiftRight_eq_div_pow, Nat.reducePow,
      second_digit, third_digit, Nat.add_zero] at next ⊢
    rw [start, next, step_pad _ (by omega)]
    simp
  | case4 a b c rest ih =>
    have lb := b.toNat_lt
    have lc := c.toNat_lt
    simp only [List.foldl_cons, Nat.shiftRight_eq_div_pow, Nat.reducePow, second_digit,
      third_digit, fourth_digit]
    rw [first_byte r a (by omega), second_byte _ b (by omega), third_byte, ih]
    simp

theorem idxOf_digit {n : Nat} (rest : List CodeUnit) (h : n < 64) :
    (digit n :: rest).idxOf base64Pad = rest.idxOf base64Pad + 1 :=
  List.idxOf_cons_ne rest (binary_digit n h).2

theorem idxOf_pad (rest : List CodeUnit) : (digit 64 :: rest).idxOf base64Pad = 0 :=
  List.idxOf_cons_self

/-- The padding starts behind the digits that carry bytes. -/
theorem resultLength_encode (data : List UInt8) : resultLength (encode data) = data.length := by
  unfold resultLength
  fun_induction encode data with
  | case1 => rfl
  | case2 a =>
    have la := a.toNat_lt
    simp only [Nat.shiftRight_eq_div_pow, Nat.reducePow, second_digit]
    rw [idxOf_digit _ (by omega), idxOf_digit _ (by omega), idxOf_pad]
    rfl
  | case3 a b =>
    have la := a.toNat_lt
    have lb := b.toNat_lt
    simp only [Nat.shiftRight_eq_div_pow, Nat.reducePow, second_digit, third_digit]
    rw [idxOf_digit _ (by omega), idxOf_digit _ (by omega), idxOf_digit _ (by omega), idxOf_pad]
    rfl
  | case4 a b c rest ih =>
    have la := a.toNat_lt
    have lb := b.toNat_lt
    have lc := c.toNat_lt
    simp only [Nat.shiftRight_eq_div_pow, Nat.reducePow, second_digit, third_digit, fourth_digit]
    rw [idxOf_digit _ (by omega), idxOf_digit _ (by omega), idxOf_digit _ (by omega),
      idxOf_digit _ (by omega), List.length_cons, List.length_cons, List.length_cons, ← ih]
    dsimp only
    omega

/-! ## Any text -/

/-- What the decoder does not skip -/
def IsBase64 (ch : CodeUnit) : Prop := toBinaryTable.getD (ch.toNat &&& 0x7f) (-1) ≠ -1

instance : DecidablePred IsBase64 := fun ch =>
  inferInstanceAs (Decidable (toBinaryTable.getD (ch.toNat &&& 0x7f) (-1) ≠ -1))

theorem step_skip (s : Decoding) {ch : CodeUnit} (h : ¬IsBase64 ch) : s.step ch = s :=
  if_pos (not_not.mp h)

theorem foldl_filter (text : List CodeUnit) (s : Decoding) :
    text.foldl Decoding.step s = (text.filter (IsBase64 ·)).foldl Decoding.step s := by
  induction text generalizing s with
  | nil => rfl
  | cons ch text ih =>
    by_cases h : IsBase64 ch
    · rw [List.filter_cons_of_pos (by simpa using h), List.foldl_cons, List.foldl_cons, ih]
    · rw [List.filter_cons_of_neg (by simpa using h), List.foldl_cons, step_skip s h, ih]

/-- Each character brings six bits, whole bytes are taken away. -/
theorem step_leftbits (s : Decoding) {ch : CodeUnit} (h : IsBase64 ch) (few : s.leftbits < 8) :
    (s.step ch).leftbits = (s.leftbits + 6) % 8 := by
  unfold IsBase64 at h
  unfold Decoding.step
  dsimp only
  rw [if_neg h]
  by_cases more : 8 ≤ s.leftbits + 6
  · rw [if_pos more]
    dsimp only
    omega
  · rw [if_neg more]
    dsimp only
    omega

theorem foldl_leftbits (text : List CodeUnit) (s : Decoding) (few : s.leftbits < 8) :
    (text.foldl Decoding.step s).leftbits = (s.leftbits + 6 * text.countP (IsBase64 ·)) % 8 := by
  induction text generalizing s with
  | nil => simpa using (Nat.mod_eq_of_lt few).symm
  | cons ch text ih =>
    rw [List.foldl_cons]
    by_cases h : IsBase64 ch
    · have bits := step_leftbits s h few
      rw [ih _ (by omega), bits, List.countP_cons_of_pos (by simpa using h)]
      omega
    · rw [step_skip s h, ih s few, List.countP_cons_of_neg (by simpa using h)]

theorem decode_error_iff (text : List CodeUnit) :
    decode text = .error "Corrupted base64 string" ↔ ¬4 ∣ text.countP (IsBase64 ·) := by
  have bits := foldl_leftbits text {} (by decide)
  unfold decode
  dsimp only at bits ⊢
  rw [bits]
  split <;> simp <;> omega

/-- The array is made for the text with what is skipped. -/
theorem decode_of_filter {text : List CodeUnit} {data : List UInt8}
    (same : text.filter (IsBase64 ·) = encode data) :
    decode text = .ok (data.map (fun b => some b.toNat) ++
      List.replicate (resultLength text - data.length) none) := by
  have read := foldl_encode data []
  rw [← same, ← foldl_filter] at read
  simp [decode, read]

theorem decode_encode (data : List UInt8) :
    decode (encode data) = .ok (data.map fun b => some b.toNat) := by
  have read := foldl_encode data []
  simp [decode, read, resultLength_encode]

/-- Four characters with a line break in the middle. -/
def brokenText : List CodeUnit := List.map codeUnit ['T', 'W', '\r', '\n', 'F', 'u']

end VmServer.Novnc.Base64
