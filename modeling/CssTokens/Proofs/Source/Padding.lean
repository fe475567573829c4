import CssTokens.Proofs.Reader.Delimiters
import CssTokens.Proofs.Source.Layout
import Mathlib.Order.Bounds.Basic

/-!
# The Padding of a Source

How many zero bytes follow a text, and why no reader runs off them.

The size of a source is computed with bits: the block size less one is added, and
then the bits that count the bytes of an incomplete block are cleared. Clearing
bits is the same in numbers and in words of 64 bits (`toNat_and_not`), and a text
whose length is a position is far from the length at which words overflow. What
comes out is the least multiple of the block size with room behind the text
(`isLeast_paddedSize`), so there are at least `lookahead` zero bytes and fewer
than a block more. Three is the critical number of them. If a text leaves three
bytes of its last block, they are what follows it, and with two bytes left a
block more is needed.

A reader that stands in the text or at its end, between characters or not, looks
two bytes ahead at most. So each byte it looks at is in the source: a byte of the
text, or one of the first three zero bytes behind it.

## Main definitions

* `Source.LaidOut`: What a source holds, and what a reader sees of it.

## Theorems

* `toNat_and_not`: Cleared bits in numbers and in words.
* `paddedSize_eq_toNat`: The size of a source, computed in words.
* `isLeast_paddedSize`: The size of a source.
* `Source.laidOut_of_le`: Every source is laid out like this.
-/

namespace CssTokens

/-- To clear bits is to leave those that the complement of the mask has. -/
theorem toNat_and_not (x m : UInt64) : (x &&& ~~~m).toNat = clearBits x.toNat m.toNat := by
  apply Nat.eq_of_testBit_eq
  intro i
  rw [testBit_clearBits]
  show (x.toBitVec &&& ~~~m.toBitVec).toNat.testBit i =
    (x.toBitVec.toNat.testBit i && !m.toBitVec.toNat.testBit i)
  rw [BitVec.testBit_toNat, BitVec.testBit_toNat, BitVec.testBit_toNat, BitVec.getLsbD_and,
    BitVec.getLsbD_not]
  by_cases hi : i < 64
  · rw [decide_eq_true hi, Bool.true_and]
  · -- Behind the last bit of a word there is none to clear.
    rw [BitVec.getLsbD_of_ge _ _ (Nat.le_of_not_lt hi)]
    rfl

/-- The size of a source in words of 64 bits, none of which overflows. -/
theorem paddedSize_eq_toNat {n : Nat} (h : n ≤ maxPosition) :
    paddedSize n = ((UInt64.ofNat n + 3 + 64 - 1) &&& ~~~(64 - 1)).toNat := by
  have hsum : (UInt64.ofNat n + 3 + 64 - 1).toNat = n + 3 + 64 - 1 := by
    unfold maxPosition at h
    simp only [UInt64.toNat_sub, UInt64.toNat_add, UInt64.toNat_ofNat', UInt64.reduceToNat]
    omega
  rw [toNat_and_not, hsum]
  rfl

/-- The size of a source is the least multiple of the block size with room
    behind the text. -/
theorem isLeast_paddedSize (n : Nat) :
    IsLeast {m | blockSize ∣ m ∧ n + lookahead ≤ m} (paddedSize n) := by
  refine ⟨⟨?_, add_lookahead_le_paddedSize n⟩, ?_⟩
  · rw [paddedSize_eq]
    exact Nat.dvd_mul_left _ _
  · rintro m ⟨⟨k, rfl⟩, hroom⟩
    rw [paddedSize_eq]
    unfold blockSize at hroom ⊢
    omega

/-- There is less than a block more of padding than there has to be. -/
theorem paddedSize_lt (n : Nat) : paddedSize n < n + lookahead + blockSize := by
  rw [paddedSize_eq]
  unfold blockSize
  omega

namespace Source

/-- How the source of a text is laid out. -/
structure LaidOut (text : String) : Prop where
  /-- Behind the text there are zero bytes, and nothing else. -/
  paddedBytes : ∃ n, 3 ≤ n ∧ n ≤ 66 ∧
    (ofString text).paddedBytes = text.toUTF8 ++ (List.replicate n 0).toByteArray
  /-- With them the source fills blocks of 64 bytes, as few as there can be. -/
  size : IsLeast {m | 64 ∣ m ∧ text.utf8ByteSize + 3 ≤ m} (ofString text).paddedBytes.size
  /-- So the size is rounded up exactly, by clearing bits of words. -/
  rounded : (ofString text).paddedBytes.size =
    ((UInt64.ofNat text.utf8ByteSize + 3 + 64 - 1) &&& ~~~(64 - 1)).toNat
  /-- From the text and from its end a reader can look ahead. -/
  room : ∀ p ≤ text.utf8ByteSize, p + 2 < (ofString text).paddedBytes.size
  current : ∀ p ≤ text.utf8ByteSize,
    (Reader.atOffset text p).current = .ok ((byteAt? text p).getD 0)
  peek : ∀ p ≤ text.utf8ByteSize,
    (Reader.atOffset text p).peek = .ok ((byteAt? text (p + 1)).getD 0)
  peekSecond : ∀ p ≤ text.utf8ByteSize,
    (Reader.atOffset text p).peekSecond = .ok ((byteAt? text (p + 2)).getD 0)
  /-- The text is given back, in characters and in bytes. -/
  bytes : (ofString text).bytes = .ok text.toUTF8
  text : (ofString text).text = .ok text

theorem size_paddedBytes (text : String) :
    (ofString text).paddedBytes.size = paddedSize text.utf8ByteSize := by
  have hle := add_lookahead_le_paddedSize text.utf8ByteSize
  show (text ++ padding _).toByteArray.size = _
  rw [String.size_toByteArray, String.utf8ByteSize_append, utf8ByteSize_padding]
  omega

theorem text_ofString {text : String} (h : text.utf8ByteSize ≤ maxPosition) :
    (ofString text).text = .ok text := by
  have hslice := slice_ofString h 0 text.length
  rw [Nat.zero_add, List.take_zero, byteCount_nil, List.drop_zero, ← String.length_toList,
    List.take_length, String.ofList_toList, ← utf8ByteSize_eq_byteCount] at hslice
  show (ofString text).slice 0 (ofString text).length = _
  rw [length_ofString h, hslice]

/-- What a source holds: the bytes of the text, and zero bytes up to its size. -/
theorem exists_paddedBytes_eq (text : String) :
    ∃ n, text.utf8ByteSize + n = paddedSize text.utf8ByteSize ∧
      (ofString text).paddedBytes = text.toUTF8 ++ (List.replicate n 0).toByteArray := by
  -- How many zeros there are follows from the sizes, once the bytes are known.
  rcases bytesOf_padded text with ⟨n, hn⟩
  have hbytes : (ofString text).paddedBytes =
      text.toUTF8 ++ (List.replicate n 0).toByteArray := by
    show (ofString text).padded.toByteArray = text.toByteArray ++ _
    rw [toByteArray_eq_bytesOf, hn, List.toByteArray_append, toByteArray_eq_bytesOf text]
  refine ⟨n, ?_, hbytes⟩
  rw [← size_paddedBytes, hbytes, ByteArray.size_append, List.size_toByteArray,
    List.length_replicate]
  rfl

/-- Every source is laid out like this. -/
theorem laidOut_of_le {text : String} (h : text.utf8ByteSize + 2 ≤ maxPosition) : LaidOut text := by
  have hmax : text.utf8ByteSize ≤ maxPosition := Nat.le_of_add_right_le h
  have hroom := add_lookahead_le_paddedSize text.utf8ByteSize
  have hlt := paddedSize_lt text.utf8ByteSize
  -- All that is looked at lies in front of the end of the padding.
  have hbyte (p k : Nat) (hp : p ≤ text.utf8ByteSize) (hk : k < lookahead) :
      (ofString text).byteAt (p + k) = .ok ((byteAt? text (p + k)).getD 0) :=
    byteAt_eq_getD (by omega)
  unfold lookahead at hroom hlt
  unfold blockSize at hlt
  -- The size is known by its properties only, so the arithmetic needs no bits.
  constructor
  case paddedBytes =>
    rcases exists_paddedBytes_eq text with ⟨n, hsize, hbytes⟩
    exact ⟨n, by omega, by omega, hbytes⟩
  case size =>
    rw [size_paddedBytes]
    exact isLeast_paddedSize text.utf8ByteSize
  case rounded => rw [size_paddedBytes, paddedSize_eq_toNat hmax]
  case room =>
    intro p hp
    rw [size_paddedBytes]
    omega
  case current => exact fun p hp => hbyte p 0 hp (by decide)
  case peek =>
    intro p hp
    show addPosition p 1 >>= (ofString text).byteAt = _
    rw [addPosition_of_le (by omega)]
    exact hbyte p 1 hp (by decide)
  case peekSecond =>
    intro p hp
    show addPosition p 2 >>= (ofString text).byteAt = _
    rw [addPosition_of_le (by omega)]
    exact hbyte p 2 hp (by decide)
  case bytes =>
    rw [bytes, text_ofString hmax]
    rfl
  case text => exact text_ofString hmax

/-- Two bytes left in a block are one too few. -/
theorem laidOut_two_left :
    "@import \"é.css\" screen and (min-width: 4em), print, handheld;".utf8ByteSize = 62 ∧
      "@import \"é.css\" screen and (min-width: 4em), print, handheld;".utf8ByteSize + 2 ≤
        maxPosition ∧
      LaidOut "@import \"é.css\" screen and (min-width: 4em), print, handheld;" := by
  have h : "@import \"é.css\" screen and (min-width: 4em), print, handheld;".utf8ByteSize + 2 ≤
      maxPosition := by decide
  exact ⟨by decide, h, laidOut_of_le h⟩

end Source

end CssTokens
