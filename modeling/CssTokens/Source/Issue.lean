import CssTokens.Fault
import CssTokens.Text.Bytes

/-!
# Encoding Issues

What is worth a warning about the bytes of a source.

A byte-order mark is text like any other, and a NUL character is a character
like any other: neither changes how the source is read. Both are signs of a
file that was saved by mistake, so a source remembers where they stand.

NUL characters are looked for by a search for a byte, which finds the first one
of the bytes that it is given. It is given the whole text first, and then, each
time it has found one, what is behind it.

## Main definitions

* `IssueKind`: The two issues and their descriptions.
* `Issue`: An issue, its byte offset and its length in bytes.
* `startsWithMark`: Whether a text starts with a byte-order mark.
* `TailSearch`: A search of what is behind an offset.
* `TailSearch.plain`: The search that looks at one byte after the other.
* `nullOffsetsBy`: The offsets of NUL characters.
* `issuesBy`, `issuesOf`: The issues of a source, in the order of their offsets.
-/

namespace CssTokens

/-- What was found. -/
inductive IssueKind where
  /-- The three bytes of U+FEFF at the start. -/
  | byteOrderMark
  /-- The character U+0000, anywhere. -/
  | nullCharacter
  deriving DecidableEq

/-- The wording of a warning. -/
def IssueKind.description : IssueKind → String
  | .byteOrderMark => "byte-order mark at start of input"
  | .nullCharacter => "NUL character in input"

/-- Something found in the bytes of a source. -/
structure Issue where
  kind : IssueKind
  offset : Nat
  length : Nat
  deriving DecidableEq

/-- Whether the text starts with the encoding of U+FEFF. -/
def startsWithMark (text : String) : Bool :=
  byteAt? text 0 == some 0xef && byteAt? text 1 == some 0xbb && byteAt? text 2 == some 0xbf

/-- A search for a byte in a text from an offset on. It answers with an offset
    into the bytes that it searches. -/
abbrev TailSearch := UInt8 → (text : String) → (p : Nat) → Option (Fin (text.utf8ByteSize - p))

/-- The first place of a byte in a text from `p` on, given that it is none of the
    first `i` places there. -/
def firstPlace (byte : UInt8) (text : String) (p i : Nat) :
    Option (Fin (text.utf8ByteSize - p)) :=
  match h : byteAt? text (p + i) with
  | none => none
  | some b =>
      if b == byte then some ⟨i, Nat.lt_sub_iff_add_lt'.mpr (lt_of_byteAt? h)⟩
      else firstPlace byte text p (i + 1)
termination_by text.utf8ByteSize - (p + i)
decreasing_by have := lt_of_byteAt? h; omega

/-- The search that looks at one byte after the other. -/
def TailSearch.plain : TailSearch := fun byte text p => firstPlace byte text p 0

/-- One more offset, unless no position can express it. -/
def noteOffset (found : Array Nat) (p : Nat) : Array Nat :=
  if p ≤ maxPosition then found.push p else found

/-- The offsets of zero bytes from `p` on, after those already found. Behind each
    one the search starts again. -/
def nullOffsetsBy (search : TailSearch) (text : String) (p : Nat) (found : Array Nat) :
    Array Nat :=
  match search 0 text p with
  | none => found
  | some i =>
      nullOffsetsBy search text (p + i + 1) (noteOffset found (p + i))
termination_by text.utf8ByteSize - p
decreasing_by have := i.isLt; omega

/-- The issues of a source: a byte-order mark, then every NUL character. -/
def issuesBy (search : TailSearch) (text : String) : List Issue :=
  let nulls := (nullOffsetsBy search text 0 #[]).toList.map fun p => ⟨.nullCharacter, p, 1⟩
  if startsWithMark text then ⟨.byteOrderMark, 0, 3⟩ :: nulls else nulls

/-- The issues of a source, by the plain search. -/
def issuesOf (text : String) : List Issue := issuesBy .plain text

end CssTokens
