import CssTokens.Reader
import CssTokens.Token

/-!
# Reading One Token

How the text ahead of a reader becomes a token.

The byte under the reader decides what kind of text begins there, and from
then on as much is taken as belongs to it. Reading never refuses a source:
text that breaks off, or a character that begins nothing, becomes a token of
a soft kind. Every token takes at least one character, until the end of the
source, where the end token is read over and over.

A name is followed by a look at two bytes: with a left parenthesis as the
first or the second of them, the name is that of a function. The parenthesis
itself is left for the next token. A backslash in a string protects a line
break that follows it and nothing else; the last backslash of a source stays
outside the string that it breaks off. How the next byte that matters in a
string is searched for is a parameter of all this.

## Main definitions

* `Lead`, `Lead.ofChar`: What may begin at a character.
* `readStringBy`, `readName`, `readNumber`: The kinds that take some deciding.
* `readKindBy`: The kind of the next token, and where it ends.
* `Token.readBy`, `Token.read`: The next token.
-/

namespace CssTokens

/-- What may begin at a character. -/
inductive Lead where
  | blank
  | quote
  /-- A character that is a token by itself. -/
  | punctuation (kind : Kind)
  /-- A mark that makes the name behind it a token of this kind. -/
  | mark (kind : Kind)
  | nameStart
  | digit
  | point
  | other
  deriving DecidableEq

/-- What begins at a character. -/
def Lead.ofChar (c : Char) : Lead :=
  if isBlank c then .blank
  else if isQuote c then .quote
  else if c == '#' then .mark .hash
  else if c == '@' then .mark .atKeyword
  else if isNameStart c then .nameStart
  else if c.isDigit then .digit
  else if c == '.' then .point
  else match Kind.ofPunctuation? c with
    | some k => .punctuation k
    | none => .other

/-- Whether a text is `url`, with letters of either case. -/
def isUrlName (text : String) : Bool :=
  text.toList.map Char.toLower == ['u', 'r', 'l']

/-- One character that begins nothing. -/
def readUnmatched (r : Reader) : Except Fault (Kind × Reader) :=
  (Kind.unmatched, ·) <$> r.advanceChar

/-- The rest of a string, behind its opening quote. -/
def readStringBy (search : ByteSearch) (quote : UInt8) (r : Reader) :
    Except Fault (Kind × Reader) :=
  match _hd : r.skipToDelimiterBy search quote with
  | .error f => .error f
  | .ok (b, s) =>
      if b == byteOf '\\' then
        match _hend : s.atEndAfter 1 with
        | .error f => .error f
        | .ok true => .ok (.string, s)
        | .ok false =>
            match s.peek with
            | .error f => .error f
            | .ok next =>
                match _he : s.advanceBy (if isNewlineByte next then 2 else 1) with
                | .error f => .error f
                | .ok e => readStringBy search quote e
      else if isNewlineByte b then (Kind.badString, ·) <$> s.advance
      else if b == 0 then .ok (.string, s)
      else (Kind.string, ·) <$> s.advance
termination_by r.remaining
decreasing_by
  -- A byte behind the backslash belongs to the source, so the reader is ahead of
  -- where it was.
  have hd := Reader.skipToDelimiterBy_bounds _hd
  rw [Reader.advanceBy_eq_ok _he]
  rcases map_eq_ok.mp _hend with ⟨p, hp, hlt⟩
  have hp := (addPosition_eq_ok hp).1
  have hlt : ¬ s.sourceLength ≤ p := of_decide_eq_false hlt
  simp only [Reader.remaining, Reader.sourceLength, Reader.moveTo] at *
  rw [hd.1] at hlt ⊢
  split <;> omega

/-- A run of name characters. -/
def skipName (r : Reader) : Except Fault Reader := r.skipWhile isNameByte

/-- A run of digits. -/
def skipDigits (r : Reader) : Except Fault Reader := r.skipWhile isDigitByte

/-- A mark and the name behind it, or the mark alone when no name follows. -/
def readMarked (kind : Kind) (r : Reader) : Except Fault (Kind × Reader) := do
  let next ← r.peek
  if isNameStartByte next then
    let s ← r.advance
    let e ← skipName s
    return (kind, e)
  else readUnmatched r

/-- Whether a left parenthesis is one of the next two bytes. The second is
    looked at only when the first is something else. -/
def opensCall (r : Reader) : Except Fault Bool := do
  let first ← r.current
  if first == byteOf '(' then return true
  let second ← r.peek
  return second == byteOf '('

/-- A name: an identifier, or the name of a function. -/
def readName (r : Reader) : Except Fault (Kind × Reader) := do
  let s ← skipName r
  if ← opensCall s then
    let name ← s.sliceFrom r.pos
    return (if isUrlName name then .url else .function, s)
  else return (.ident, s)

/-- The digits of a number, with at most one point among them. -/
def skipNumber (r : Reader) : Except Fault Reader := do
  let s ← skipDigits r
  let next ← s.current
  if next == byteOf '.' then
    let e ← s.advance
    skipDigits e
  else return s

/-- A number, and the percent sign or the unit that may follow it. -/
def readNumber (r : Reader) : Except Fault (Kind × Reader) := do
  let s ← skipNumber r
  let next ← s.current
  if next == byteOf '%' then
    let e ← s.advance
    return (.percentage, e)
  else if isNameByte next then
    let e ← skipName s
    return (.dimension, e)
  else return (.number, s)

/-- A number that begins with a point, or the point alone when no digit
    follows. -/
def readPoint (r : Reader) : Except Fault (Kind × Reader) := do
  let next ← r.peek
  if isDigitByte next then readNumber r else readUnmatched r

/-- The kind of the token under a reader that is not at the end, and the
    reader behind it. -/
def readKindBy (search : ByteSearch) (r : Reader) : Except Fault (Kind × Reader) := do
  let b ← r.current
  match Lead.ofChar (Char.ofUInt8 b) with
  | .blank =>
      let s ← r.skipBlanks
      return (.whitespace, s)
  | .quote =>
      let s ← r.advance
      readStringBy search b s
  | .punctuation kind =>
      let s ← r.advance
      return (kind, s)
  | .mark kind => readMarked kind r
  | .nameStart => readName r
  | .digit => readNumber r
  | .point => readPoint r
  | .other => readUnmatched r

/-- The next token, and the reader behind it. -/
def Token.readBy (search : ByteSearch) (r : Reader) : Except Fault (Token × Reader) := do
  if r.atEnd then return (endOfInput, r)
  let (kind, s) ← readKindBy search r
  let text ← s.sliceFrom r.pos
  return (⟨kind, text⟩, s)

/-- The next token, with the plain search. -/
def Token.read (r : Reader) : Except Fault (Token × Reader) := Token.readBy .plain r

end CssTokens
