import CssTokens.ByteClass
import CssTokens.Source

/-!
# Readers

A position in a source, and the ways to move it.

A reader looks at single bytes. Whoever moves it steps over ASCII bytes one by
one or over a character as a whole, and then the position is a character
boundary.
The end of the source is a matter of position alone: a reader is at the end
once its position is not below the length of the source, and a zero byte
before that is a NUL character.

Every operation is defined at every position. A byte past the padding, a
position past `maxPosition` and a slice off a character boundary are faults.

## Main definitions

* `Reader`: A source and a position.
* `Reader.current`, `Reader.peek`, `Reader.peekSecond`: The bytes ahead.
* `Reader.advance`, `Reader.advanceBy`, `Reader.advanceChar`: Plain movement.
* `Reader.slice`, `Reader.sliceFrom`: Text of the source.
* `Reader.charPosition`: The position counted in characters.
* `Reader.skipWhile`: Movement over a run of bytes.
* `ByteSearch`: A search of the source ahead for one of a few bytes.
* `Reader.skipToDelimiter`: Movement to what matters inside a string, by two
  searches.
* `Reader.scanToDelimiter`: The same movement, byte by byte.

## Theorems

* `advanceBy_eq_ok`, `skipWhile_eq_ok`, `skipToDelimiterBy_bounds`: Where a
  movement leads to.
-/

namespace CssTokens

/-- A position in a source. -/
structure Reader where
  source : Source
  pos : Nat

/-- A reader at the first byte. -/
def Source.start (s : Source) : Reader := ⟨s, 0⟩

/-- The length of the character that a byte introduces, by the byte alone. A
    byte that introduces no longer character counts as one. -/
def leadWidth (b : UInt8) : Nat :=
  if 0xc0 ≤ b && b ≤ 0xdf then 2
  else if 0xe0 ≤ b && b ≤ 0xef then 3
  else if 0xf0 ≤ b && b ≤ 0xf7 then 4
  else 1

/-- A search of a window for the first byte that is one of two, or of three. It
    answers with the offset into the window. -/
structure ByteSearch where
  ofTwo : UInt8 → UInt8 → Window → Option Nat
  ofThree : UInt8 → UInt8 → UInt8 → Window → Option Nat

namespace ByteSearch

/-- The search that looks at one byte after the other. -/
def plain : ByteSearch where
  ofTwo a b w := w.firstOf fun x => x == a || x == b
  ofThree a b c w := w.firstOf fun x => x == a || x == b || x == c

/-- The first byte of a window that matters inside a string: its quote, a
    backslash or one of three line breaks. These are five bytes, more than a
    search can look for, so two searches share them and the earlier hit
    counts. -/
def delimiter (search : ByteSearch) (quote : UInt8) (w : Window) : Option Nat :=
  Option.merge min (search.ofThree quote (byteOf '\\') (byteOf '\n') w)
    (search.ofTwo (byteOf '\r') (byteOf '\x0c') w)

end ByteSearch

namespace Reader

/-- The length of the source in bytes. -/
def sourceLength (r : Reader) : Nat := r.source.length

/-- The bytes of the source that are still ahead. -/
def remaining (r : Reader) : Nat := r.sourceLength - r.pos

/-- The same source at another position. -/
def moveTo (r : Reader) (p : Nat) : Reader := { r with pos := p }

/-- The byte under the reader: zero at the end of the source. -/
def current (r : Reader) : Except Fault UInt8 := r.source.byteAt r.pos

/-- The byte one position ahead. -/
def peek (r : Reader) : Except Fault UInt8 := addPosition r.pos 1 >>= r.source.byteAt

/-- The byte two positions ahead. -/
def peekSecond (r : Reader) : Except Fault UInt8 := addPosition r.pos 2 >>= r.source.byteAt

/-- Step over `n` bytes. -/
def advanceBy (r : Reader) (n : Nat) : Except Fault Reader :=
  r.moveTo <$> addPosition r.pos n

/-- Step over one byte. -/
def advance (r : Reader) : Except Fault Reader := r.advanceBy 1

/-- Step over one character. -/
def advanceChar (r : Reader) : Except Fault Reader :=
  r.current >>= fun b => r.advanceBy (leadWidth b)

/-- Whether the source is over. -/
def atEnd (r : Reader) : Bool := r.sourceLength ≤ r.pos

/-- Whether the source is over `n` bytes ahead. -/
def atEndAfter (r : Reader) (n : Nat) : Except Fault Bool :=
  (r.sourceLength ≤ ·) <$> addPosition r.pos n

/-- The source between two offsets. -/
def slice (r : Reader) (start stop : Nat) : Except Fault String := r.source.slice start stop

/-- The source from an offset up to the reader. -/
def sliceFrom (r : Reader) (start : Nat) : Except Fault String := r.slice start r.pos

/-- How many characters of the source lie before the reader. -/
def charPosition (r : Reader) : Except Fault Nat :=
  String.length <$> r.slice 0 (min r.pos r.sourceLength)

/-- The first position from `p` on whose byte fails a test. The padding is
    read like the source, so a test that zero passes runs off its end. -/
def runEnd (s : Source) (test : UInt8 → Bool) (p : Nat) : Except Fault Nat :=
  match h : s.byteAt p with
  | .error f => .error f
  | .ok byte =>
      if test byte then
        if p < maxPosition then runEnd s test (p + 1) else .error .positionOverflow
      else .ok p
termination_by s.size - p
decreasing_by have := Source.lt_of_byteAt h; omega

/-- Step over bytes as long as they pass a test. -/
def skipWhile (r : Reader) (test : UInt8 → Bool) : Except Fault Reader :=
  r.moveTo <$> runEnd r.source test r.pos

/-- Step over a run of blanks. -/
def skipBlanks (r : Reader) : Except Fault Reader :=
  r.skipWhile isBlankByte

/-- Step to the next byte that matters inside a string, and tell which it is.
    Without one, step to the end of the source and tell zero. A position past
    the end of the source comes back to it. -/
def skipToDelimiterBy (search : ByteSearch) (r : Reader) (quote : UInt8) :
    Except Fault (UInt8 × Reader) :=
  match search.delimiter quote (r.source.windowFrom r.pos) with
  | none => .ok (0, r.moveTo r.sourceLength)
  | some i => do
      let p ← addPosition (r.source.windowFrom r.pos).start i
      let b ← (r.moveTo p).current
      return (b, r.moveTo p)

/-- Step to the next byte that matters inside a string. -/
def skipToDelimiter (r : Reader) (quote : UInt8) : Except Fault (UInt8 × Reader) :=
  r.skipToDelimiterBy .plain quote

/-- What matters inside a string: its quote, a backslash, a line break. -/
def isDelimiter (quote b : UInt8) : Bool :=
  b == quote || b == byteOf '\\' || isNewline (Char.ofUInt8 b)

/-- The way to what matters inside a string, one byte after the other. -/
def scanToDelimiter (r : Reader) (quote : UInt8) : UInt8 × Reader :=
  match r.source.findByte (isDelimiter quote) r.pos with
  | some (p, b) => (b, r.moveTo p)
  | none => (0, r.moveTo r.sourceLength)

theorem skipBlanks_eq (r : Reader) : r.skipBlanks = r.skipWhile (ByteTest.ofClass isBlank) := by
  rw [skipBlanks, isBlankByte_eq]

theorem advanceBy_eq_ok {r s : Reader} {n : Nat} (h : r.advanceBy n = .ok s) :
    s = r.moveTo (r.pos + n) := by
  rcases map_eq_ok.mp h with ⟨p, hp, rfl⟩
  rw [(addPosition_eq_ok hp).1]

theorem runEnd_eq_ok {s : Source} {test : UInt8 → Bool} {p q : Nat}
    (h : runEnd s test p = .ok q) : p ≤ q := by
  fun_induction runEnd s test p with
  | case1 => injection h
  | case2 p byte hb ht hp ih => have := ih h; omega
  | case3 => injection h
  | case4 p byte hb ht =>
      injection h with h
      exact Nat.le_of_eq h

/-- A run over bytes does not move back, and moves ahead when the byte under
    the reader belongs to it. -/
theorem skipWhile_eq_ok {r s : Reader} {test : UInt8 → Bool} (h : r.skipWhile test = .ok s) :
    s = r.moveTo s.pos ∧ r.pos ≤ s.pos ∧
      ∀ b, r.current = .ok b → test b = true → r.pos < s.pos := by
  rcases map_eq_ok.mp h with ⟨p, hp, rfl⟩
  refine ⟨rfl, runEnd_eq_ok hp, ?_⟩
  -- The first byte is accepted, so the run goes on behind it and does not come back.
  intro b hb ht
  rw [current] at hb
  rw [runEnd] at hp
  split at hp
  · injection hp
  · next byte hbyte =>
      rw [hb] at hbyte
      injection hbyte with hbyte
      subst hbyte
      rw [if_pos ht] at hp
      split at hp
      · exact runEnd_eq_ok hp
      · injection hp

/-- Whatever the search, the way to a delimiter leads ahead, or back to the end of
    the source. -/
theorem skipToDelimiterBy_bounds {search : ByteSearch} {r s : Reader} {quote b : UInt8}
    (h : r.skipToDelimiterBy search quote = .ok (b, s)) :
    s.source = r.source ∧ min r.pos r.sourceLength ≤ s.pos := by
  unfold skipToDelimiterBy at h
  split at h
  · injection h with h
    injection h with _ hs
    subst hs
    exact ⟨rfl, Nat.min_le_right _ _⟩
  · rcases bind_eq_ok.mp h with ⟨p, hp, h⟩
    rcases bind_eq_ok.mp h with ⟨b', _, h⟩
    injection h with h
    injection h with _ hs
    subst hs
    refine ⟨rfl, ?_⟩
    -- The window begins at the reader, or at the end of the source.
    rw [moveTo, (addPosition_eq_ok hp).1]
    exact Nat.le_add_right _ _

end Reader

end CssTokens
