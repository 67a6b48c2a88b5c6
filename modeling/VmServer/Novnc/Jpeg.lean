import VmServer.Novnc.Decoders

/-!
# The JPEG decoder

A rectangle is a JPEG file. It has no length of its own, so its segments are
read one by one to the end-of-image marker. A scan ends before the next
marker, which is looked for from its start on every call.
-/

namespace VmServer.Novnc

open Handler

structure JPEGDecoder where
  cachedQuantTables : List (List UInt8) := []
  cachedHuffmanTables : List (List UInt8) := []
  segments : List (List UInt8) := []
  deriving DecidableEq, Repr

namespace JPEGDecoder

/-- A marker that is part of a scan. -/
def inScan (type : UInt8) : Bool := type = 0x00 || (0xd0 ≤ type && type ≤ 0xd7)

/-- How much of the input is before the first marker that is not part of a scan. -/
def scanBytes : List UInt8 → Option Nat
  | [] | [_] => none
  | a :: b :: rest =>
      if a = 0xff then
        if inScan b then (scanBytes rest).map (· + 2) else some 0
      else (scanBytes (b :: rest)).map (· + 1)

/-- How long the next segment is, once that can be told. -/
def segmentBytes (q : List UInt8) : Option Nat :=
  match q with
  | [] | [_] => none
  | marker :: type :: _ =>
      if marker ≠ 0xff then some 2
      else if 0xd0 ≤ type ∧ type ≤ 0xd9 ∨ type = 0x01 then some 2
      else if q.length < 4 then none
      else
        let length := u16 q 2
        if length < 2 then some 4
        else if type = 0xda then
          if q.length < 4 + length then none
          else (scanBytes (q.drop (2 + length))).map (2 + length + ·)
        else some (2 + length)

def readSegment : Reads (Drawing JPEGDecoder) Unit :=
  sized (fun _ => segmentBytes) fun d segment =>
    let marker := segment.getD 0 0
    if marker ≠ 0xff then
      .error (d, decodeError ("Illegal JPEG marker received (byte: " ++
        toString marker.toNat ++ ")"))
    else if 2 < segment.length ∧ u16 segment 2 < 2 then
      .error (d, decodeError ("Illegal JPEG length received (length: " ++
        toString (u16 segment 2) ++ ")"))
    else .ok ((), d.set { d.decoder with segments := d.decoder.segments ++ [segment] })

def type (segment : List UInt8) : UInt8 := segment.getD 1 0

/-- The last segment is not the end of the image. -/
def Unfinished (d : Drawing JPEGDecoder) : Prop :=
  (d.decoder.segments.getLast?.map type) ≠ some 0xd9

instance : DecidablePred Unfinished := fun _ => inferInstanceAs (Decidable (_ ≠ _))

/-- `splice(index, 0, ...tables)` -/
def splice (segments : List (List UInt8)) (index : Nat) (tables : List (List UInt8)) :
    List (List UInt8) :=
  segments.take index ++ tables ++ segments.drop index

/-- The image, with the tables of an earlier one where it has none. -/
def drawImage (r : Rect) (d : Drawing JPEGDecoder) : Ending (Drawing JPEGDecoder) Fault Unit :=
  let s := d.decoder
  let huffmanTables := s.segments.filter (type · = 0xc4)
  let quantTables := s.segments.filter (type · = 0xdb)
  match s.segments.findIdx? fun x => type x = 0xc0 || type x = 0xc2 with
  | none => .error (d, decodeError "Illegal JPEG image without SOF")
  | some sofIndex =>
      let segments := if quantTables.isEmpty then
        splice s.segments (sofIndex + 1) s.cachedQuantTables else s.segments
      let segments := if huffmanTables.isEmpty then
        splice segments (sofIndex + 1) s.cachedHuffmanTables else segments
      let decoder : JPEGDecoder := {
        cachedQuantTables := if quantTables.isEmpty then s.cachedQuantTables else quantTables
        cachedHuffmanTables :=
          if huffmanTables.isEmpty then s.cachedHuffmanTables else huffmanTables
        segments := [] }
      .ok ((), (d.draw (.imageRect r "image/jpeg" segments.flatten)).set decoder)

def decodeRect (r : Rect) : Reads (Drawing JPEGDecoder) Unit :=
  finish (loop Unfinished (fun _ q => q.length) readSegment) fun _ => drawImage r

theorem stable_scanBytes {u : List UInt8} {n : Nat} (v : List UInt8)
    (h : scanBytes u = some n) : scanBytes (u ++ v) = some n := by
  fun_induction scanBytes u generalizing n with
  | case1 | case2 => cases h
  | case3 b rest inside ih =>
      obtain ⟨m, found, rfl⟩ := Option.map_eq_some_iff.mp h
      simp only [List.cons_append, scanBytes, if_true, if_pos inside, ih found]
      rfl
  | case4 b rest outside =>
      simpa only [List.cons_append, scanBytes, if_true, if_neg outside] using h
  | case5 a b rest other ih =>
      obtain ⟨m, found, rfl⟩ := Option.map_eq_some_iff.mp h
      have further := ih found
      rw [List.cons_append] at further
      simp only [List.cons_append, scanBytes, if_neg other, further]
      rfl

theorem stable_segmentBytes : Stable fun (_ : Drawing JPEGDecoder) => segmentBytes := by
  intro d u n v announced
  match u with
  | [] | [_] => cases announced
  | marker :: type :: rest =>
      dsimp only at announced ⊢
      simp only [segmentBytes, List.cons_append] at announced ⊢
      split at announced
      case isTrue => rwa [if_pos ‹_›]
      rw [if_neg ‹_›]
      split at announced
      case isTrue => rwa [if_pos ‹_›]
      rw [if_neg ‹_›]
      split at announced
      case isTrue => cases announced
      case isFalse long =>
        have length := u16_append v (u := marker :: type :: rest) (i := 2) (by omega)
        rw [List.cons_append, List.cons_append] at length
        rw [if_neg (by simp only [List.length_cons, List.length_append] at long ⊢; omega), length]
        split at announced
        case isTrue => rwa [if_pos ‹_›]
        rw [if_neg ‹_›]
        split at announced
        case isFalse => rwa [if_neg ‹_›]
        rw [if_pos ‹_›]
        split at announced
        case isTrue => cases announced
        case isFalse enough =>
          rw [if_neg (by simp only [List.length_cons, List.length_append] at enough ⊢; omega)]
          obtain ⟨m, found, rfl⟩ := Option.map_eq_some_iff.mp announced
          rw [← List.cons_append, ← List.cons_append, List.drop_append_of_le_length (by omega),
            stable_scanBytes v found]
          rfl

theorem segmentBytes_pos {q : List UInt8} {n : Nat} (h : segmentBytes q = some n) : 2 ≤ n := by
  unfold segmentBytes at h
  grind [Option.map_eq_some_iff]

theorem readSegment_descends :
    Descends Unfinished (fun _ q => q.length) readSegment := by
  intro d q d' q' _ h
  obtain ⟨n, announced, enough, -, rfl⟩ := sized_done h
  have := segmentBytes_pos announced
  dsimp only
  rw [List.length_drop]
  omega

theorem resumable_decodeRect (r : Rect) : (decodeRect r).Resumable :=
  resumable_finish (resumable_loop_sized readSegment_descends stable_segmentBytes)

end JPEGDecoder

end VmServer.Novnc
