import CssTokens.CharClass

/-!
# Facts About Character Classes

Which characters are in which class, and where ASCII ends.

Most classes are a short list of ASCII characters. The name characters are
the exception: every character above ASCII is one, so a character that is not
is a single byte long. A function that takes the characters above ASCII alike
is `AsciiBased`; the classes of the tokenizer all are, and whatever is put
together from them is, too.

## Main definitions

* `AsciiBased`: A function that takes the characters above ASCII alike.

## Theorems

* `isQuote_iff`, `isBlank_iff`, `isNewline_iff`: The classes as lists.
* `isNameStart_of_nonAscii`, `ascii_of_not_isNameChar`: Names and ASCII.
* `isNameStart_of_isDigit`: No digit begins a name.
* `asciiBased_isNameChar` and the like: The classes are based on ASCII.
-/

namespace CssTokens

theorem isQuote_iff {c : Char} : isQuote c = true ↔ c = '"' ∨ c = '\'' := by
  rw [isQuote, Bool.or_eq_true, beq_iff_eq, beq_iff_eq]

theorem isNewline_iff {c : Char} : isNewline c = true ↔ c = '\n' ∨ c = '\r' ∨ c = '\x0c' := by
  rw [isNewline, Bool.or_eq_true, Bool.or_eq_true, beq_iff_eq, beq_iff_eq, beq_iff_eq, or_assoc]

theorem isBlank_iff {c : Char} :
    isBlank c = true ↔ c = ' ' ∨ c = '\t' ∨ c = '\n' ∨ c = '\r' ∨ c = '\x0c' := by
  rw [isBlank, Bool.or_eq_true, Bool.or_eq_true, Bool.or_eq_true, Bool.or_eq_true, beq_iff_eq,
    beq_iff_eq, beq_iff_eq, beq_iff_eq, beq_iff_eq, or_assoc, or_assoc, or_assoc]

theorem isQuote_spec {c : Char} (h : isQuote c = true) :
    c.toNat < 0x80 ∧ c ≠ '\x00' ∧ c ≠ '\\' ∧ isNewline c = false := by
  rcases isQuote_iff.mp h with rfl | rfl <;> decide

theorem ascii_of_isNewline {c : Char} (hc : isNewline c = true) : c.toNat < 0x80 := by
  rcases isNewline_iff.mp hc with rfl | rfl | rfl <;> decide

/-- A line break is no backslash, so it protects nothing. -/
theorem ne_backslash_of_isNewline {c : Char} (hc : isNewline c = true) : c ≠ '\\' := by
  rintro rfl
  injection hc

/-- A name may begin at every character above ASCII. -/
theorem isNameStart_of_nonAscii {c : Char} (hc : 0x80 ≤ c.toNat) : isNameStart c = true := by
  rw [isNameStart, decide_eq_true hc, Bool.or_true]

theorem isNameChar_of_isNameStart {c : Char} (h : isNameStart c = true) : isNameChar c = true := by
  rw [isNameChar, h, Bool.true_or, Bool.true_or]

theorem isNameChar_of_isDigit {c : Char} (h : c.isDigit = true) : isNameChar c = true := by
  rw [isNameChar, h, Bool.or_true, Bool.true_or]

/-- What ends a name is a single byte. -/
theorem ascii_of_not_isNameChar {c : Char} (h : isNameChar c = false) : c.toNat < 0x80 := by
  rcases Nat.lt_or_ge c.toNat 0x80 with hc | hc
  · exact hc
  · rw [isNameChar_of_isNameStart (isNameStart_of_nonAscii hc)] at h
    injection h

/-- No digit begins a name. The digits lie below the letters, and those below
    the characters above ASCII. -/
theorem isNameStart_of_isDigit {c : Char} (h : c.isDigit = true) : isNameStart c = false := by
  have hdigit : 48 ≤ c.val ∧ c.val ≤ 57 := by
    rw [Char.isDigit, Bool.and_eq_true, decide_eq_true_eq, decide_eq_true_eq] at h
    exact h
  -- A letter would be above the last digit.
  have hupper : c.isUpper = false :=
    decide_eq_false fun hu => absurd (UInt32.le_trans hu.1 hdigit.2) (by decide)
  have hlower : c.isLower = false :=
    Bool.and_eq_false_iff.mpr
      (Or.inl (decide_eq_false fun hl => absurd (UInt32.le_trans hl hdigit.2) (by decide)))
  have halpha : c.isAlpha = false := Bool.or_eq_false_iff.mpr ⟨hupper, hlower⟩
  have hline : (c == '_') = false := by
    rw [beq_eq_false_iff_ne]
    rintro rfl
    injection h
  -- So would every character that is not of a single byte.
  have hascii : decide (0x80 ≤ c.toNat) = false := by
    have hle := UInt32.le_iff_toNat_le.mp hdigit.2
    exact decide_eq_false fun hc => absurd (Nat.le_trans hc hle) (by decide)
  rw [isNameStart, halpha, hline, hascii]
  rfl

/-- A function on characters that does not tell those above ASCII apart. -/
def AsciiBased {α : Type} (f : Char → α) : Prop :=
  ∀ c d : Char, 0x80 ≤ c.toNat → 0x80 ≤ d.toNat → f c = f d

/-- A class without characters above ASCII. -/
theorem asciiBased_of_eq_false {test : Char → Bool}
    (h : ∀ c : Char, 0x80 ≤ c.toNat → test c = false) : AsciiBased test := by
  intro c d hc hd
  rw [h c hc, h d hd]

theorem asciiBased_beq (d : Char) (hd : d.toNat < 0x80) : AsciiBased (· == d) := by
  apply asciiBased_of_eq_false
  intro c hc
  rw [beq_eq_false_iff_ne]
  rintro rfl
  omega

theorem AsciiBased.or {f g : Char → Bool} (hf : AsciiBased f) (hg : AsciiBased g) :
    AsciiBased fun c => f c || g c := by
  intro c d hc hd
  dsimp only
  rw [hf c d hc hd, hg c d hc hd]

theorem asciiBased_isNewline : AsciiBased isNewline :=
  ((asciiBased_beq _ (by decide)).or (asciiBased_beq _ (by decide))).or
    (asciiBased_beq _ (by decide))

theorem asciiBased_isBlank : AsciiBased isBlank :=
  ((((asciiBased_beq _ (by decide)).or (asciiBased_beq _ (by decide))).or
    (asciiBased_beq _ (by decide))).or (asciiBased_beq _ (by decide))).or
    (asciiBased_beq _ (by decide))

theorem asciiBased_isNameStart : AsciiBased isNameStart := by
  intro c d hc hd
  rw [isNameStart_of_nonAscii hc, isNameStart_of_nonAscii hd]

theorem asciiBased_isDigit : AsciiBased Char.isDigit := by
  apply asciiBased_of_eq_false
  intro c hc
  rw [Bool.eq_false_iff]
  intro hdigit
  -- A digit would not begin a name, and this character does.
  have hstart := isNameStart_of_isDigit hdigit
  rw [isNameStart_of_nonAscii hc] at hstart
  injection hstart

theorem asciiBased_isNameChar : AsciiBased isNameChar :=
  (asciiBased_isNameStart.or asciiBased_isDigit).or (asciiBased_beq _ (by decide))

end CssTokens
