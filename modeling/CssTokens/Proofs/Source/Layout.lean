import CssTokens.Proofs.Text.Encoding

/-!
# What a Source Holds

The bytes at the positions of a source, and the text between two of them.

A source is read at positions up to two bytes behind its text. Inside the
text the byte at a position is a byte of the text, and behind it there is
zero, wherever the padding ends. Both are one statement here: the byte is
that of the text, with zero for a missing one.

A position is between two characters when the bytes in front of it are the
bytes of some of the characters, counted from the start. `Source.slice` gives
back the characters between two such positions.

## Theorems

* `length_ofString`: The length of a text is recorded unless it is too great.
* `byteAt_ofString`: The bytes that may be looked at.
* `byteAt_ahead`: The same, counted from a position between two characters.
* `slice_ofString`: The text between two positions between characters.
* `isValid_of_slice`, `isValid_of_isValid_padded`: A text that is cut out starts
  between two characters.
-/

namespace CssTokens

namespace Source

theorem length_ofString {text : String} (h : text.utf8ByteSize ≤ maxPosition) :
    (ofString text).length = text.utf8ByteSize :=
  Nat.min_eq_left h

/-- The padding is a run of zero bytes behind those of the text. -/
theorem bytesOf_padded (text : String) :
    ∃ n, bytesOf (ofString text).padded.toList = bytesOf text.toList ++ List.replicate n 0 := by
  refine ⟨paddedSize text.utf8ByteSize - text.utf8ByteSize, ?_⟩
  show bytesOf (text ++ padding _).toList = _
  rw [String.toList_append, bytesOf_append, padding, String.toList_ofList]
  congr 1
  -- Every NUL character is one zero byte.
  induction paddedSize text.utf8ByteSize - text.utf8ByteSize with
  | zero => rfl
  | succ n ih =>
      rw [List.replicate_succ, bytesOf_cons, ih, utf8EncodeChar_of_ascii (by decide)]
      rfl

/-- The padding changes no byte of the text. -/
theorem byteAt?_padded {text : String} {p : Nat} (hp : p < text.utf8ByteSize) :
    byteAt? (ofString text).padded p = byteAt? text p := by
  rcases bytesOf_padded text with ⟨n, hn⟩
  rw [utf8ByteSize_eq_byteCount] at hp
  rw [byteAt?_eq_getElem?, byteAt?_eq_getElem?, hn, List.getElem?_append_left hp]

theorem getD_append_zeros (bs : List UInt8) (n p : Nat) :
    (bs ++ List.replicate n 0)[p]?.getD 0 = bs[p]?.getD 0 := by
  by_cases hp : p < bs.length
  · rw [List.getElem?_append_left hp]
  · rw [List.getElem?_append_right (Nat.le_of_not_lt hp),
      List.getElem?_eq_none (Nat.le_of_not_lt hp), List.getElem?_replicate]
    split <;> rfl

theorem byteAt_of_lt_size {s : Source} {p : Nat} (hp : p < s.size) :
    s.byteAt p = .ok ((bytesOf s.padded.toList)[p]?.getD 0) := by
  rw [size, utf8ByteSize_eq_byteCount, byteCount] at hp
  rw [byteAt, byteAt?_eq_getElem?, List.getElem?_eq_getElem hp]
  rfl

/-- Up to two bytes behind the text, the byte at a position is that of the
    text, and zero where the text has none. -/
theorem byteAt_ofString {text : String} {p : Nat} (hp : p < text.utf8ByteSize + lookahead) :
    (ofString text).byteAt p = .ok ((bytesOf text.toList)[p]?.getD 0) := by
  -- The padding is at least as long as a reader may look ahead.
  have hsize : p < (ofString text).size := by
    have hle := add_lookahead_le_paddedSize text.utf8ByteSize
    show p < (text ++ padding _).utf8ByteSize
    rw [String.utf8ByteSize_append, utf8ByteSize_padding]
    omega
  rcases bytesOf_padded text with ⟨n, hn⟩
  rw [byteAt_of_lt_size hsize, hn, getD_append_zeros]

/-- The same, by the byte that the text has at the position. -/
theorem byteAt_eq_getD {text : String} {p : Nat} (hp : p < text.utf8ByteSize + lookahead) :
    (ofString text).byteAt p = .ok ((byteAt? text p).getD 0) := by
  rw [byteAt_ofString hp, byteAt?_eq_getElem?]

/-- The bytes ahead of a position between two characters are those of the
    characters ahead. -/
theorem byteAt_ahead (text : String) (n : Nat) {k : Nat}
    (hk : k < byteCount (text.toList.drop n) + lookahead) :
    (ofString text).byteAt (byteCount (text.toList.take n) + k) =
      .ok (byteAhead (text.toList.drop n) k) := by
  have hsum := byteCount_take_add_drop text.toList n
  rw [byteAt_ofString (by rw [utf8ByteSize_eq_byteCount]; omega), byteAhead]
  -- The characters in front of the position take up its offset.
  have hbytes : bytesOf text.toList =
      bytesOf (text.toList.take n) ++ bytesOf (text.toList.drop n) := by
    rw [← bytesOf_append, List.take_append_drop]
  rw [byteCount, hbytes, List.getElem?_append_right (Nat.le_add_right _ _),
    Nat.add_sub_cancel_left]

theorem size_toByteArray_ofList (cs : List Char) :
    (String.ofList cs).toByteArray.size = byteCount cs := by
  rw [String.size_toByteArray, utf8ByteSize_eq_byteCount, String.toList_ofList]

theorem extract_middle (a b c : ByteArray) :
    (a ++ (b ++ c)).extract a.size (a.size + b.size) = b := by
  have h := ByteArray.extract_append_size_add (a := a) (b := b ++ c) (i := 0) (j := b.size)
  rw [Nat.add_zero] at h
  rw [h, ByteArray.extract_append_eq_left rfl]

/-- A source in three parts: the first `n` characters, the `m` characters
    behind them, and whatever follows. -/
theorem padded_eq_append (text : String) (n m : Nat) :
    ∃ behind : String, (ofString text).padded =
      String.ofList (text.toList.take n) ++
        (String.ofList ((text.toList.drop n).take m) ++ behind) := by
  refine ⟨String.ofList (text.toList.drop (n + m)) ++
    padding (paddedSize text.utf8ByteSize - text.utf8ByteSize), ?_⟩
  rw [← String.append_assoc, ← String.append_assoc, ← String.ofList_append,
    ← String.ofList_append, ← List.take_add, List.take_append_drop, String.ofList_toList]
  rfl

theorem isValid_take (text : String) (n : Nat) :
    String.Pos.Raw.IsValid (ofString text).padded ⟨byteCount (text.toList.take n)⟩ := by
  rcases padded_eq_append text n 0 with ⟨behind, hb⟩
  refine String.Pos.Raw.isValid_iff_exists_append.mpr ⟨_, _, hb, ?_⟩
  rw [String.Pos.Raw.ext_iff, String.byteIdx_rawEndPos, ← String.size_toByteArray,
    size_toByteArray_ofList]

/-- The text between two positions between characters: the `m` characters
    behind the first `n`. -/
theorem slice_ofString {text : String} (h : text.utf8ByteSize ≤ maxPosition) (n m : Nat) :
    (ofString text).slice (byteCount (text.toList.take n)) (byteCount (text.toList.take (n + m))) =
      .ok (String.ofList ((text.toList.drop n).take m)) := by
  have hsum := byteCount_take_add_drop text.toList (n + m)
  have hsplit := byteCount_take_add text.toList n m
  rw [slice, length_ofString h, utf8ByteSize_eq_byteCount, if_neg (by omega), if_neg (by omega),
    dif_pos ⟨isValid_take text n, isValid_take text (n + m)⟩]
  congr 1
  -- Both ends lie between characters, so the bytes between them are those of
  -- whole characters.
  rcases padded_eq_append text n m with ⟨behind, hb⟩
  rw [← String.toByteArray_inj, String.toByteArray_extract]
  simp only [String.offset_pos]
  rw [hb, String.toByteArray_append, String.toByteArray_append, hsplit,
    ← size_toByteArray_ofList, ← size_toByteArray_ofList, extract_middle]

/-- A text that is cut out starts between two characters. -/
theorem isValid_of_slice {s : Source} {start stop : Nat} {t : String}
    (h : s.slice start stop = .ok t) : String.Pos.Raw.IsValid s.padded ⟨start⟩ := by
  unfold slice at h
  split at h
  · injection h
  split at h
  · injection h
  split at h
  · next hvalid => exact hvalid.1
  · injection h

/-- The padding adds no place between characters inside the text. -/
theorem isValid_of_isValid_padded {text : String} {p : Nat} (hp : p < text.utf8ByteSize)
    (h : String.Pos.Raw.IsValid (ofString text).padded ⟨p⟩) :
    String.Pos.Raw.IsValid text ⟨p⟩ := by
  rcases String.Pos.Raw.isValid_append.mp h with h | ⟨hle, _⟩
  · exact h
  · have hle : text.utf8ByteSize ≤ p := hle
    omega

end Source

end CssTokens
