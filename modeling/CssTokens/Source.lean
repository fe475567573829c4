import CssTokens.Fault
import CssTokens.Source.Issue

/-!
# Sources

Source text with room to look ahead.

A source holds its text followed by NUL bytes, and together they fill whole
blocks of 64 bytes. At least `lookahead` of them follow the text, so a reader
that stands anywhere in the text, or at its end, can look at the next two bytes
without asking for the length first, and finds zeros there once the text is
over. A length is rounded up to whole blocks by its bits: those that count the
bytes of an incomplete block are cleared.

A source also records the encoding issues of its text. They are for a driver
to report and do not influence how the text is read.

## Main definitions

* `clearBits`: A number without the bits of a mask.
* `paddedSize`: The length of a source with its padding.
* `Source`: Padded text, and the length of the part that is source.
* `Source.ofString`: The source of a text.
* `Source.byteAt`: The byte at an offset into the padded text.
* `Source.slice`: The text between two offsets into the source.
* `Source.findByte`: The least offset whose source byte passes a test.
* `Window`: The source from an offset on, for a search with offsets of its own.

## Theorems

* `clearBits_one_shiftLeft_sub_one`, `paddedSize_eq`: Cleared bits and whole blocks.
* `lt_of_byteAt`: A byte that is read lies inside the padded text.
* `findByte_bounds`: An offset that is found lies inside the source.
-/

namespace CssTokens

/-- How many NUL bytes follow the source at the least. -/
def lookahead : Nat := 3

/-- The length of a block in bytes, a power of two. -/
def blockSize : Nat := 64

/-- A number without the bits that a mask has. -/
def clearBits (n mask : Nat) : Nat := n ^^^ (n &&& mask)

/-- The length in bytes of a source of `n` bytes, with `lookahead` bytes behind
    it and rounded up to whole blocks. -/
def paddedSize (n : Nat) : Nat := clearBits (n + lookahead + blockSize - 1) (blockSize - 1)

theorem testBit_clearBits (n mask i : Nat) :
    (clearBits n mask).testBit i = (n.testBit i && !mask.testBit i) := by
  rw [clearBits, Nat.testBit_xor, Nat.testBit_and]
  cases n.testBit i <;> cases mask.testBit i <;> rfl

/-- A number without its `k` lowest bits is shifted that far and back. -/
theorem clearBits_one_shiftLeft_sub_one (n k : Nat) :
    clearBits n ((1 <<< k) - 1) = n >>> k <<< k := by
  apply Nat.eq_of_testBit_eq
  intro i
  rw [testBit_clearBits, Nat.one_shiftLeft, Nat.testBit_two_pow_sub_one, Nat.testBit_shiftLeft,
    Nat.testBit_shiftRight]
  rcases Nat.lt_or_ge i k with hi | hi
  · rw [decide_eq_true hi, decide_eq_false (Nat.not_le_of_lt hi), Bool.not_true, Bool.and_false,
      Bool.false_and]
  · rw [decide_eq_false (Nat.not_lt_of_le hi), decide_eq_true hi, Nat.add_sub_cancel' hi,
      Bool.not_false, Bool.and_true, Bool.true_and]

theorem paddedSize_eq (n : Nat) :
    paddedSize n = (n + lookahead + blockSize - 1) / blockSize * blockSize := by
  refine (clearBits_one_shiftLeft_sub_one (n + lookahead + blockSize - 1) 6).trans ?_
  rw [Nat.shiftLeft_eq, Nat.shiftRight_eq_div_pow]
  rfl

theorem add_lookahead_le_paddedSize (n : Nat) : n + lookahead ≤ paddedSize n := by
  rw [paddedSize_eq]
  unfold blockSize
  omega

/-- A run of NUL characters. -/
def padding (n : Nat) : String := String.ofList (List.replicate n '\x00')

theorem utf8Encode_replicate_null (n : Nat) :
    (List.replicate n '\x00').utf8Encode.size = n := by
  induction n with
  | zero => rfl
  | succ k ih =>
      rw [List.replicate_succ, List.utf8Encode_cons, ByteArray.size_append, ih,
        List.utf8Encode_singleton]
      have : (String.utf8EncodeChar '\x00').toByteArray.size = 1 := by decide
      omega

@[simp]
theorem utf8ByteSize_padding (n : Nat) : (padding n).utf8ByteSize = n := by
  rw [padding, ← String.size_toByteArray, String.toByteArray_ofList,
    utf8Encode_replicate_null]

/-- Source text with NUL padding behind it. -/
structure Source where
  /-- The source and its padding. -/
  padded : String
  /-- The length of the source in bytes. -/
  length : Nat
  /-- What is worth a warning about the source. -/
  issues : List Issue
  /-- The padding reaches as far as a reader may look. -/
  room : length + lookahead ≤ padded.utf8ByteSize

namespace Source

/-- The source of a text. A length beyond `maxPosition` is recorded as
    `maxPosition`. -/
def ofString (text : String) : Source where
  padded := text ++ padding (paddedSize text.utf8ByteSize - text.utf8ByteSize)
  length := min text.utf8ByteSize maxPosition
  issues := issuesOf text
  room := by
    have hle := add_lookahead_le_paddedSize text.utf8ByteSize
    rw [String.utf8ByteSize_append, utf8ByteSize_padding]
    omega

/-- The size of the padded text in bytes. -/
def size (s : Source) : Nat := s.padded.utf8ByteSize

/-- The byte at an offset into the padded text. -/
def byteAt (s : Source) (p : Nat) : Except Fault UInt8 :=
  match byteAt? s.padded p with
  | some byte => .ok byte
  | none => .error (.indexOutOfBounds s.size p)

theorem lt_of_byteAt {s : Source} {p : Nat} {byte : UInt8}
    (h : s.byteAt p = .ok byte) : p < s.size := by
  unfold byteAt at h
  split at h
  · next hb => exact lt_of_byteAt? hb
  · injection h

/-- The text between two offsets. The offsets lie inside the source, in this
    order, and on character boundaries. -/
def slice (s : Source) (start stop : Nat) : Except Fault String :=
  if s.length < stop then .error (.sliceEndPastSource stop s.length)
  else if stop < start then .error (.sliceStartPastEnd start stop)
  else if h : String.Pos.Raw.IsValid s.padded ⟨start⟩ ∧ String.Pos.Raw.IsValid s.padded ⟨stop⟩ then
    .ok (String.extract (s.padded.pos ⟨start⟩ h.1) (s.padded.pos ⟨stop⟩ h.2))
  else .error .insideCharacter

/-- The source without its padding. -/
def text (s : Source) : Except Fault String := s.slice 0 s.length

/-- The source without its padding, as bytes. -/
def bytes (s : Source) : Except Fault ByteArray := String.toUTF8 <$> s.text

/-- The source and its padding, as bytes. -/
def paddedBytes (s : Source) : ByteArray := s.padded.toUTF8

/-- Whether the source is empty. -/
def isEmpty (s : Source) : Bool := s.length == 0

/-- The least offset from `p` on, and inside the source, whose byte passes a
    test, together with that byte. -/
@[specialize]
def findByte (s : Source) (test : UInt8 → Bool) (p : Nat) : Option (Nat × UInt8) :=
  if h : p < s.length then
    let byte := s.padded.getUTF8Byte ⟨p⟩
      (Nat.lt_of_lt_of_le h (Nat.le_trans (Nat.le_add_right _ _) s.room))
    if test byte then some (p, byte) else findByte s test (p + 1)
  else none
termination_by s.length - p

theorem findByte_bounds {s : Source} {test : UInt8 → Bool} {p i : Nat} {byte : UInt8}
    (h : s.findByte test p = some (i, byte)) : p ≤ i ∧ i < s.length ∧ test byte = true := by
  fun_induction findByte s test p with
  | case1 p hp byte' ht =>
      simp only [Option.some.injEq, Prod.mk.injEq] at h
      rcases h with ⟨rfl, rfl⟩
      exact ⟨Nat.le_refl _, hp, ht⟩
  | case2 p hp byte' ht ih =>
      rcases ih h with ⟨h1, h2, h3⟩
      exact ⟨by omega, h2, h3⟩
  | case3 p hp => injection h

end Source

/-- The bytes of a source from an offset on, up to the end of the source. -/
structure Window where
  source : Source
  start : Nat
  start_le : start ≤ source.length

/-- The window ahead of a position. Past the end of the source nothing is
    ahead, and the window is the empty one at the end. -/
def Source.windowFrom (s : Source) (p : Nat) : Window :=
  ⟨s, min p s.length, Nat.min_le_right p s.length⟩

namespace Window

/-- The length of a window in bytes. -/
def size (w : Window) : Nat := w.source.length - w.start

/-- The least offset into a window whose byte passes a test. -/
@[inline]
def firstOf (w : Window) (test : UInt8 → Bool) : Option Nat :=
  (w.source.findByte test w.start).map fun found => found.1 - w.start

end Window

end CssTokens
