import CssTokens.Plain
import CssTokens.Proofs.CharClass
import CssTokens.Token.Progress

/-!
# The Bytes of Characters

How the characters of a text lie in its bytes.

An ASCII character is one byte, and that byte is its code. The bytes of any
other character are `0x80` and above, all of them. So a function that takes
the characters above ASCII alike can be asked about any byte of a character
in place of the character itself: the answers agree. `AsciiBased` says this of
a function, and the character classes of the tokenizer are such functions.

A run of bytes in such a class is then a run of whole characters, so a reader
that steps over the bytes of a class stops between characters.

## Main definitions

* `CutAt`: The text in front of an offset and behind it.
* `bytesOf`, `byteCount`: The UTF-8 form of some characters, and its length.
* `byteAhead`: A byte of the characters ahead, zero behind the last one.

## Theorems

* `byteAt?_eq_getElem?`: Offsets into a text are indices into its bytes.
* `leadWidth_utf8EncodeChar`: The first byte tells the length of a character.
* `AsciiBased.of_mem_bytes`: A byte is classed as the character it belongs to.
* `AsciiBased.byteAhead_eq_starts`: What the byte ahead says of the characters
  ahead.
-/

namespace CssTokens

/-- The text in front of an offset, and the text behind it. -/
structure CutAt (text : String) (p : Nat) (front behind : String) : Prop where
  append_eq : front ++ behind = text
  size_eq : front.utf8ByteSize = p

/-- The UTF-8 form of some characters. -/
def bytesOf (cs : List Char) : List UInt8 := cs.flatMap String.utf8EncodeChar

/-- The length of the UTF-8 form of some characters. -/
def byteCount (cs : List Char) : Nat := (bytesOf cs).length

theorem bytesOf_cons (c : Char) (cs : List Char) :
    bytesOf (c :: cs) = String.utf8EncodeChar c ++ bytesOf cs :=
  List.flatMap_cons

theorem bytesOf_append (cs ds : List Char) : bytesOf (cs ++ ds) = bytesOf cs ++ bytesOf ds :=
  List.flatMap_append

@[simp]
theorem byteCount_nil : byteCount [] = 0 := rfl

@[simp]
theorem byteCount_cons (c : Char) (cs : List Char) :
    byteCount (c :: cs) = c.utf8Size + byteCount cs := by
  rw [byteCount, bytesOf_cons, List.length_append, String.length_utf8EncodeChar, byteCount]

@[simp]
theorem byteCount_append (cs ds : List Char) :
    byteCount (cs ++ ds) = byteCount cs + byteCount ds := by
  rw [byteCount, bytesOf_append, List.length_append, byteCount, byteCount]

theorem length_le_byteCount (cs : List Char) : cs.length ≤ byteCount cs := by
  induction cs with
  | nil => exact Nat.le_refl 0
  | cons c cs ih =>
      have := c.utf8Size_pos
      rw [List.length_cons, byteCount_cons]
      omega

/-- What takes up no bytes is nothing. -/
theorem eq_nil_of_byteCount {cs : List Char} (h : byteCount cs = 0) : cs = [] := by
  have hle := length_le_byteCount cs
  exact List.eq_nil_of_length_eq_zero (by omega)

/-- What takes up one byte is one character. -/
theorem exists_eq_singleton_of_byteCount {cs : List Char} (h : byteCount cs = 1) :
    ∃ c, cs = [c] := by
  cases cs with
  | nil => exact absurd h (by decide)
  | cons c cs =>
      have := c.utf8Size_pos
      rw [byteCount_cons] at h
      exact ⟨c, by rw [@eq_nil_of_byteCount cs (by omega)]⟩

theorem byteCount_take_add_drop (cs : List Char) (n : Nat) :
    byteCount (cs.take n) + byteCount (cs.drop n) = byteCount cs := by
  rw [← byteCount_append, List.take_append_drop]

theorem byteCount_take_add (cs : List Char) (n m : Nat) :
    byteCount (cs.take (n + m)) = byteCount (cs.take n) + byteCount ((cs.drop n).take m) := by
  rw [List.take_add, byteCount_append]

/-- Two ways to cut a text at one byte offset are the same. -/
theorem append_inj_of_byteCount {as bs cs ds : List Char} (h : as ++ bs = cs ++ ds)
    (hcount : byteCount as = byteCount cs) : as = cs ∧ bs = ds := by
  induction as generalizing cs with
  | nil =>
      rw [byteCount_nil] at hcount
      rw [eq_nil_of_byteCount hcount.symm] at h ⊢
      exact ⟨rfl, h⟩
  | cons a as ih =>
      -- The first characters are the same, and of the same width.
      cases cs with
      | nil =>
          have := a.utf8Size_pos
          rw [byteCount_cons, byteCount_nil] at hcount
          omega
      | cons c cs =>
          injection h with hac h
          rw [hac, byteCount_cons, byteCount_cons] at hcount
          rcases ih h (Nat.add_left_cancel hcount) with ⟨has, hbs⟩
          exact ⟨by rw [hac, has], hbs⟩

theorem toByteArray_eq_bytesOf (text : String) :
    text.toByteArray = (bytesOf text.toList).toByteArray :=
  String.utf8Encode_toList.symm

theorem utf8ByteSize_eq_byteCount (text : String) :
    text.utf8ByteSize = byteCount text.toList := by
  rw [← String.size_toByteArray, toByteArray_eq_bytesOf, List.size_toByteArray, byteCount]

theorem length_le_utf8ByteSize (text : String) : text.length ≤ text.utf8ByteSize := by
  rw [utf8ByteSize_eq_byteCount, ← String.length_toList]
  exact length_le_byteCount _

/-- Offsets into a text are indices into its bytes. -/
theorem byteAt?_eq_getElem? (text : String) (p : Nat) :
    byteAt? text p = (bytesOf text.toList)[p]? := by
  unfold byteAt?
  -- Inside the text both read the same byte, and behind it there is none.
  split
  · next h =>
      rw [utf8ByteSize_eq_byteCount, byteCount] at h
      rw [List.getElem?_eq_getElem h, String.getUTF8Byte]
      simp only [toByteArray_eq_bytesOf, ByteArray.getElem_eq_getElem_data,
        List.data_toByteArray, List.getElem_toArray]
  · next h =>
      rw [utf8ByteSize_eq_byteCount, byteCount] at h
      rw [List.getElem?_eq_none (Nat.le_of_not_lt h)]

/-- The first byte behind some text in front. -/
theorem byteAt?_append_size (front behind : String) :
    byteAt? (front ++ behind) front.utf8ByteSize = byteAt? behind 0 := by
  rw [byteAt?_eq_getElem?, byteAt?_eq_getElem?, String.toList_append, bytesOf_append,
    utf8ByteSize_eq_byteCount, byteCount, List.getElem?_append_right (Nat.le_refl _), Nat.sub_self]

theorem utf8EncodeChar_of_ascii {c : Char} (h : c.toNat < 0x80) :
    String.utf8EncodeChar c = [byteOf c] := by
  refine String.utf8EncodeChar_eq_singleton (Char.utf8Size_eq_one_iff.mpr ?_)
  exact UInt32.le_iff_toNat_le.mpr (Nat.le_of_lt_succ h)

theorem utf8Size_of_ascii {c : Char} (h : c.toNat < 0x80) : c.utf8Size = 1 := by
  rw [← String.length_utf8EncodeChar, utf8EncodeChar_of_ascii h, List.length_singleton]

/-- The bytes of a character above ASCII are above ASCII. -/
theorem le_of_mem_utf8EncodeChar {c : Char} {b : UInt8} (h : 0x80 ≤ c.toNat)
    (hb : b ∈ String.utf8EncodeChar c) : 0x80 ≤ b.toNat := by
  have hv : 0x80 ≤ c.val.toNat := h
  unfold String.utf8EncodeChar at hb
  dsimp only at hb
  -- A form of two, three or four bytes, all of which carry the high bit.
  split at hb
  · omega
  · split at hb
    · simp only [List.mem_cons, List.not_mem_nil, or_false] at hb
      rcases hb with rfl | rfl <;> simp only [UInt8.toNat_ofNat'] <;> omega
    · split at hb
      · simp only [List.mem_cons, List.not_mem_nil, or_false] at hb
        rcases hb with rfl | rfl | rfl <;> simp only [UInt8.toNat_ofNat'] <;> omega
      · simp only [List.mem_cons, List.not_mem_nil, or_false] at hb
        rcases hb with rfl | rfl | rfl | rfl <;> simp only [UInt8.toNat_ofNat'] <;> omega

theorem leadWidth_eq_toNat (b : UInt8) :
    leadWidth b = if 0xc0 ≤ b.toNat ∧ b.toNat ≤ 0xdf then 2
      else if 0xe0 ≤ b.toNat ∧ b.toNat ≤ 0xef then 3
      else if 0xf0 ≤ b.toNat ∧ b.toNat ≤ 0xf7 then 4
      else 1 := by
  simp only [leadWidth, Bool.and_eq_true, decide_eq_true_eq, UInt8.le_iff_toNat_le,
    UInt8.reduceToNat]

/-- The first byte of a character tells how many bytes it has. -/
theorem leadWidth_utf8EncodeChar (c : Char) :
    ∃ b bs, String.utf8EncodeChar c = b :: bs ∧ leadWidth b = c.utf8Size := by
  have hmax : c.val.toNat < 0x110000 := by
    have := c.valid
    unfold UInt32.isValidChar Nat.isValidChar at this
    omega
  rw [← String.length_utf8EncodeChar]
  unfold String.utf8EncodeChar
  dsimp only
  -- One case for each length, in which the bounds on the code bound the byte.
  split
  · refine ⟨_, _, rfl, ?_⟩
    rw [leadWidth_eq_toNat, UInt8.toNat_ofNat', if_neg (by omega), if_neg (by omega),
      if_neg (by omega), List.length_singleton]
  · split
    · refine ⟨_, _, rfl, ?_⟩
      rw [leadWidth_eq_toNat, UInt8.toNat_ofNat', if_pos (by omega)]
      rfl
    · split
      · refine ⟨_, _, rfl, ?_⟩
        rw [leadWidth_eq_toNat, UInt8.toNat_ofNat', if_neg (by omega), if_pos (by omega)]
        rfl
      · refine ⟨_, _, rfl, ?_⟩
        rw [leadWidth_eq_toNat, UInt8.toNat_ofNat', if_neg (by omega), if_neg (by omega),
          if_pos (by omega)]
        rfl

/-- A byte is classed as the character it belongs to. -/
theorem AsciiBased.of_mem_bytes {α : Type} {f : Char → α} (hf : AsciiBased f) {c : Char}
    {b : UInt8} (hb : b ∈ String.utf8EncodeChar c) : f (Char.ofUInt8 b) = f c := by
  by_cases hc : c.toNat < 0x80
  · -- The byte is the character.
    rw [utf8EncodeChar_of_ascii hc, List.mem_singleton] at hb
    rw [hb, ofUInt8_byteOf hc]
  · -- Both are above ASCII, where they are not told apart.
    have hc : 0x80 ≤ c.toNat := Nat.le_of_not_lt hc
    refine hf _ _ ?_ hc
    rw [toNat_ofUInt8]
    exact le_of_mem_utf8EncodeChar hc hb

/-- The byte `k` positions into some characters, and zero behind the last of
    them. -/
def byteAhead (cs : List Char) (k : Nat) : UInt8 := (bytesOf cs)[k]?.getD 0

@[simp]
theorem byteAhead_nil (k : Nat) : byteAhead [] k = 0 := rfl

theorem byteAhead_mem {c : Char} {k : Nat} (hk : k < c.utf8Size) (cs : List Char) :
    byteAhead (c :: cs) k ∈ String.utf8EncodeChar c := by
  rw [← String.length_utf8EncodeChar] at hk
  rw [byteAhead, bytesOf_cons, List.getElem?_append_left hk, List.getElem?_eq_getElem hk]
  exact List.getElem_mem hk

theorem leadWidth_byteAhead (c : Char) (cs : List Char) :
    leadWidth (byteAhead (c :: cs) 0) = c.utf8Size := by
  rcases leadWidth_utf8EncodeChar c with ⟨b, bs, heq, hwidth⟩
  rw [byteAhead, bytesOf_cons, heq]
  exact hwidth

/-- Behind an ASCII character the next byte belongs to the next character. -/
theorem byteAhead_succ {c : Char} (hc : c.toNat < 0x80) (cs : List Char) (k : Nat) :
    byteAhead (c :: cs) (k + 1) = byteAhead cs k := by
  rw [byteAhead, bytesOf_cons, utf8EncodeChar_of_ascii hc]
  rfl

theorem AsciiBased.byteAhead_cons {α : Type} {f : Char → α} (hf : AsciiBased f) (c : Char)
    (cs : List Char) : f (Char.ofUInt8 (byteAhead (c :: cs) 0)) = f c :=
  hf.of_mem_bytes (byteAhead_mem c.utf8Size_pos cs)

/-- The byte ahead is in a class that NUL is not in exactly when a character
    of that class is ahead: the end of the text looks like NUL. -/
theorem AsciiBased.byteAhead_eq_starts {test : Char → Bool} (ht : AsciiBased test)
    (hnull : test '\x00' = false) (cs : List Char) :
    test (Char.ofUInt8 (byteAhead cs 0)) = Plain.starts test cs := by
  cases cs with
  | nil => exact hnull
  | cons c cs => exact ht.byteAhead_cons c cs

/-- The byte ahead is that of an ASCII character exactly when this character
    is ahead. -/
theorem byteAhead_beq {d : Char} (hd : d.toNat < 0x80) (hnull : d ≠ '\x00') (cs : List Char) :
    (byteAhead cs 0 == byteOf d) = Plain.starts (· == d) cs := by
  rw [← (asciiBased_beq d hd).byteAhead_eq_starts (beq_eq_false_iff_ne.mpr hnull.symm) cs,
    beq_byteOf hd]

end CssTokens
