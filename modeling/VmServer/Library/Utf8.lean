import Mathlib.Data.List.Basic

/-!
# Byte strings read as runes

A text of arbitrary bytes is read front to back: a character where the bytes
at hand begin with its encoding, and otherwise a single byte that belongs to
no character. What was encoded is read back.
-/

namespace Utf8

abbrev Bytes := List UInt8

inductive Rune
  | char (c : Char)
  /-- A byte at which no encoded character begins. -/
  | bad (b : UInt8)
  deriving DecidableEq, Repr

def encode (cs : List Char) : Bytes := cs.flatMap String.utf8EncodeChar

def Rune.bytes : Rune → Bytes
  | .char c => String.utf8EncodeChar c
  | .bad b => [b]

/-- The value a loop over the text sees; a bad byte counts as the replacement character. -/
def Rune.value : Rune → Char
  | .char c => c
  | .bad _ => '\ufffd'

/-- Runes with the positions of their first bytes, from a position on. -/
def offsets (i : Nat) : List Rune → List (Nat × Rune)
  | [] => []
  | r :: rs => (i, r) :: offsets (i + r.bytes.length) rs

/-- The character whose encoding the bytes begin with. -/
def decodeChar (s : Bytes) : Option Char := s.toByteArray.utf8DecodeChar? 0

def runes : Bytes → List Rune
  | [] => []
  | b :: rest =>
      match decodeChar (b :: rest) with
      | some c => .char c :: runes (rest.drop (c.utf8Size - 1))
      | none => .bad b :: runes rest
  termination_by s => s.length

theorem utf8EncodeChar_cons (c : Char) : ∃ b rest, String.utf8EncodeChar c = b :: rest ∧
    rest.length = c.utf8Size - 1 := by
  have length := String.length_utf8EncodeChar c
  have positive := c.utf8Size_pos
  cases encoded : String.utf8EncodeChar c with
  | nil =>
      rw [encoded, List.length_nil] at length
      omega
  | cons b rest =>
      rw [encoded, List.length_cons] at length
      exact ⟨b, rest, rfl, by omega⟩

@[simp] theorem runes_nil : runes [] = [] := by
  rw [runes]

theorem decodeChar_append (c : Char) (s : Bytes) :
    decodeChar (String.utf8EncodeChar c ++ s) = some c := by
  rw [decodeChar, List.toByteArray_append]
  exact ByteArray.utf8DecodeChar?_utf8EncodeChar_append

/-- An encoded character is read as one rune. -/
theorem runes_append (c : Char) (s : Bytes) :
    runes (String.utf8EncodeChar c ++ s) = .char c :: runes s := by
  obtain ⟨b, rest, encoded, length⟩ := utf8EncodeChar_cons c
  have decoded := decodeChar_append c s
  rw [encoded, List.cons_append] at decoded ⊢
  rw [runes, decoded]
  dsimp only
  rw [← length, List.drop_left]

theorem runes_encode (cs : List Char) (s : Bytes) :
    runes (encode cs ++ s) = cs.map .char ++ runes s := by
  induction cs with
  | nil => rfl
  | cons c cs ih =>
      rw [encode, List.flatMap_cons, List.append_assoc, runes_append]
      exact congrArg (Rune.char c :: ·) ih

theorem runes_of_encode (cs : List Char) : runes (encode cs) = cs.map .char := by
  have read := runes_encode cs []
  rwa [List.append_nil, runes_nil, List.append_nil] at read

theorem encode_injective : Function.Injective encode := by
  intro cs ds same
  have read := congrArg runes same
  rw [runes_of_encode, runes_of_encode] at read
  exact List.map_injective_iff.mpr (fun _ _ => Rune.char.inj) read

/-- In a text of ASCII the positions of the runes are their numbers. -/
theorem offsets_map_char {cs : List Char} (ascii : ∀ c ∈ cs, c.utf8Size = 1) (i : Nat) :
    offsets i (cs.map .char) = (cs.zipIdx i).map fun p => (p.2, .char p.1) := by
  induction cs generalizing i with
  | nil => rfl
  | cons c cs ih =>
      obtain ⟨first, ascii⟩ := List.forall_mem_cons.mp ascii
      have size : (Rune.char c).bytes.length = 1 := (String.length_utf8EncodeChar c).trans first
      rw [List.map_cons, offsets, size, ih ascii, List.zipIdx_cons, List.map_cons]

theorem mem_offsets {rs : List Rune} {r : Rune} (h : r ∈ rs) (i : Nat) :
    ∃ j, (j, r) ∈ offsets i rs := by
  induction rs generalizing i with
  | nil => cases h
  | cons r' rs ih =>
      rcases List.mem_cons.mp h with rfl | later
      · exact ⟨i, List.mem_cons_self⟩
      · obtain ⟨j, inside⟩ := ih later (i + r'.bytes.length)
        exact ⟨j, List.mem_cons_of_mem _ inside⟩

end Utf8
