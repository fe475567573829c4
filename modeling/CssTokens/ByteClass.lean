import CssTokens.CharClass

/-!
# Byte Classes

The character classes, asked of single bytes.

Source text is read by bytes, and a run over a class looks at every byte of a
character, not only at the first one. So the tests on bytes are defined by
themselves: an ASCII character by its code, and the characters above ASCII by
their bytes, all of which are at least `0x80`. Which bytes belong to a name is
looked up in a table with an entry for each byte. Zero, which is what follows
the source, is not among them.

A byte is also the code of a character below U+0100. Each test says of a byte
what its class says of that character, because no class splits the range above
ASCII.

## Main definitions

* `ByteTest`: A test on bytes.
* `ByteTest.ofClass`: A class asked of the character of the same code.
* `byteOf`: The byte of a character.
* `isBlankByte`, `isNewlineByte`: Blanks and line breaks.
* `isDigitByte`, `isNameStartByte`: Digits, and what begins a name.
* `nameByteTable`, `isNameByte`: What continues a name.

## Theorems

* `ofUInt8_eq_iff`: An ASCII character by its byte.
* `isNameByte_eq` and the like: The tests and the classes.
-/

namespace CssTokens

/-- A test on bytes, as used to run over source text. -/
abbrev ByteTest := UInt8 → Bool

/-- A byte belongs to a class when the character of the same code does. -/
def ByteTest.ofClass (test : Char → Bool) : ByteTest :=
  fun b => test (Char.ofUInt8 b)

/-- The byte of a character below U+0100. -/
def byteOf (c : Char) : UInt8 := c.toUInt8

/-- Space, tab, line feed, carriage return, form feed. -/
def isBlankByte : ByteTest := fun b =>
  b == byteOf ' ' || b == byteOf '\t' || b == byteOf '\n' || b == byteOf '\r' || b == byteOf '\x0c'

/-- Line feed, carriage return, form feed. -/
def isNewlineByte : ByteTest := fun b =>
  b == byteOf '\n' || b == byteOf '\r' || b == byteOf '\x0c'

/-- The bytes from one character up to another one. -/
def isByteBetween (first last : Char) : ByteTest := fun b => byteOf first ≤ b && b ≤ byteOf last

/-- The ASCII letters. -/
def isLetterByte : ByteTest := fun b => isByteBetween 'a' 'z' b || isByteBetween 'A' 'Z' b

/-- The ASCII digits. -/
def isDigitByte : ByteTest := isByteBetween '0' '9'

/-- An ASCII letter, an underscore, or any byte of a character above ASCII. -/
def isNameStartByte : ByteTest := fun b => isLetterByte b || b == byteOf '_' || 0x80 ≤ b

/-- Whether a byte continues a name, for each byte: the ASCII letters and
    digits, underscore and hyphen, and any byte of a character above ASCII. -/
def nameByteTable : Vector Bool 256 := .ofFn fun i =>
  let b := UInt8.ofFin i
  isLetterByte b || isDigitByte b || b == byteOf '_' || b == byteOf '-' || 0x80 ≤ b

/-- What the table says of a byte. -/
def isNameByte : ByteTest := fun b => nameByteTable[b.toFin]

theorem byteOf_ofUInt8 (b : UInt8) : byteOf (Char.ofUInt8 b) = b := by
  show b.toUInt32.toUInt8 = b
  simp

/-- The character of the same code as a byte. -/
theorem toNat_ofUInt8 (b : UInt8) : (Char.ofUInt8 b).toNat = b.toNat := UInt8.toNat_toUInt32 b

theorem toNat_byteOf {c : Char} (h : c.toNat < 0x80) : (byteOf c).toNat = c.toNat := by
  show c.val.toUInt8.toNat = c.val.toNat
  have hv : c.val.toNat < 0x80 := h
  rw [UInt32.toNat_toUInt8]
  omega

theorem ofUInt8_byteOf {c : Char} (h : c.toNat < 0x80) : Char.ofUInt8 (byteOf c) = c := by
  apply Char.ext
  apply UInt32.toNat_inj.mp
  exact (toNat_ofUInt8 _).trans (toNat_byteOf h)

theorem ofUInt8_eq_iff {d : Char} (hd : d.toNat < 0x80) (b : UInt8) :
    Char.ofUInt8 b = d ↔ b = byteOf d := by
  constructor
  · rintro rfl
    exact (byteOf_ofUInt8 b).symm
  · rintro rfl
    exact ofUInt8_byteOf hd

theorem beq_byteOf {d : Char} (hd : d.toNat < 0x80) (b : UInt8) :
    (b == byteOf d) = (Char.ofUInt8 b == d) := by
  rw [Bool.eq_iff_iff, beq_iff_eq, beq_iff_eq, ofUInt8_eq_iff hd]

theorem isByteBetween_eq {first last : Char} (hf : first.toNat < 0x80) (hl : last.toNat < 0x80)
    (b : UInt8) : isByteBetween first last b =
      (decide (first.val ≤ (Char.ofUInt8 b).val) && decide ((Char.ofUInt8 b).val ≤ last.val)) := by
  have hb : (Char.ofUInt8 b).val.toNat = b.toNat := toNat_ofUInt8 b
  have hf : (byteOf first).toNat = first.val.toNat := toNat_byteOf hf
  have hl : (byteOf last).toNat = last.val.toNat := toNat_byteOf hl
  simp only [isByteBetween, UInt8.le_iff_toNat_le, UInt32.le_iff_toNat_le, hb, hf, hl]

theorem isBlankByte_eq : isBlankByte = ByteTest.ofClass isBlank := by
  funext b
  rw [isBlankByte, beq_byteOf (by decide), beq_byteOf (by decide), beq_byteOf (by decide),
    beq_byteOf (by decide), beq_byteOf (by decide)]
  rfl

theorem isNewlineByte_eq : isNewlineByte = ByteTest.ofClass isNewline := by
  funext b
  rw [isNewlineByte, beq_byteOf (by decide), beq_byteOf (by decide), beq_byteOf (by decide)]
  rfl

theorem isLetterByte_eq : isLetterByte = ByteTest.ofClass Char.isAlpha := by
  funext b
  rw [isLetterByte, isByteBetween_eq (by decide) (by decide),
    isByteBetween_eq (by decide) (by decide), ByteTest.ofClass, Bool.or_comm, ← Bool.decide_and]
  rfl

theorem isDigitByte_eq : isDigitByte = ByteTest.ofClass Char.isDigit := by
  funext b
  exact isByteBetween_eq (by decide) (by decide) b

theorem isNameStartByte_eq : isNameStartByte = ByteTest.ofClass isNameStart := by
  funext b
  rw [isNameStartByte, isLetterByte_eq, beq_byteOf (by decide)]
  rfl

/-- What is looked up in the table is what was put there. -/
theorem isNameByte_apply (b : UInt8) : isNameByte b =
    (isLetterByte b || isDigitByte b || b == byteOf '_' || b == byteOf '-' || 0x80 ≤ b) := by
  rw [isNameByte, nameByteTable, Fin.getElem_fin, Vector.getElem_ofFn]
  rfl

theorem isNameByte_eq : isNameByte = ByteTest.ofClass isNameChar := by
  funext b
  -- The table lists the digits and the hyphen among what begins a name.
  have hperm (letter digit line hyphen high : Bool) :
      (letter || digit || line || hyphen || high) =
        (letter || line || high || digit || hyphen) := by
    ac_rfl
  rw [isNameByte_apply, hperm, isLetterByte_eq, isDigitByte_eq, beq_byteOf (by decide),
    beq_byteOf (by decide)]
  rfl

end CssTokens
