import CssTokens.Session
import CssTokens.Token.Read

/-!
# Reader Sessions

Requests to a reader, with positions that can be kept and returned to.

A reader is a value, so keeping one is putting it aside. A session keeps any
number of readers and returns to the one that was kept last.

## Main definitions

* `ReaderRequest`: What may be asked of a reader.
* `ReaderAnswer`: What it answers.
* `ReaderSession`: A reader and the readers that were kept.
* `ReaderSession.answer`: One request.
-/

namespace CssTokens

/-- What may be asked of a reader. -/
inductive ReaderRequest where
  | current
  | peek
  | peekSecond
  | advance
  | advanceBy (n : Nat)
  | advanceChar
  | atEnd
  | atEndAfter (n : Nat)
  | charPosition
  | sourceLength
  | slice (start stop : Nat)
  | sliceFrom (start : Nat)
  /-- Step over bytes that occur in the UTF-8 form of a text. -/
  | skipWhile (set : String)
  /-- Step over bytes that do not occur in the UTF-8 form of a text. -/
  | skipUntil (set : String)
  | skipBlanks
  | skipToDelimiter (quote : UInt8)
  /-- Put the reader aside. -/
  | keep
  /-- Return to the reader that was put aside last. -/
  | giveBack
  /-- The token ahead, which the reader does not step over. -/
  | token

/-- What a reader answers. -/
inductive ReaderAnswer where
  | moved
  | byte (b : UInt8)
  | flag (yes : Bool)
  | count (n : Nat)
  | text (s : String)
  | token (t : Token)

/-- A reader and the readers that were put aside, the last one first. -/
structure ReaderSession where
  reader : Reader
  kept : List Reader

/-- Whether a byte occurs in the UTF-8 form of a text. -/
def occursIn (set : String) : UInt8 → Bool :=
  let bytes := set.toUTF8.toList
  fun b => bytes.contains b

namespace ReaderSession

/-- A session at the start of a text. -/
def ofString (text : String) : ReaderSession := ⟨(Source.ofString text).start, []⟩

/-- The state after a movement. -/
def moved (s : ReaderSession) (r : Except Fault Reader) :
    Except Fault (ReaderAnswer × ReaderSession) :=
  (fun r' => (.moved, { s with reader := r' })) <$> r

/-- The answer to a question that moves nothing. -/
def told {α : Type} (s : ReaderSession) (form : α → ReaderAnswer) (a : Except Fault α) :
    Except Fault (ReaderAnswer × ReaderSession) :=
  (fun x => (form x, s)) <$> a

/-- One request. -/
def answer (s : ReaderSession) : ReaderRequest → Except Fault (ReaderAnswer × ReaderSession)
  | .current => s.told .byte s.reader.current
  | .peek => s.told .byte s.reader.peek
  | .peekSecond => s.told .byte s.reader.peekSecond
  | .advance => s.moved s.reader.advance
  | .advanceBy n => s.moved (s.reader.advanceBy n)
  | .advanceChar => s.moved s.reader.advanceChar
  | .atEnd => s.told .flag (.ok s.reader.atEnd)
  | .atEndAfter n => s.told .flag (s.reader.atEndAfter n)
  | .charPosition => s.told .count s.reader.charPosition
  | .sourceLength => s.told .count (.ok s.reader.sourceLength)
  | .slice start stop => s.told .text (s.reader.slice start stop)
  | .sliceFrom start => s.told .text (s.reader.sliceFrom start)
  | .skipWhile set => s.moved (s.reader.skipWhile (occursIn set))
  | .skipUntil set => s.moved (s.reader.skipWhile fun b => !occursIn set b)
  | .skipBlanks => s.moved s.reader.skipBlanks
  | .skipToDelimiter quote =>
      (fun found => (.byte found.1, { s with reader := found.2 })) <$>
        s.reader.skipToDelimiter quote
  | .keep => .ok (.moved, { s with kept := s.reader :: s.kept })
  | .giveBack =>
      match s.kept with
      | [] => .ok (.moved, s)
      | r :: rs => .ok (.moved, ⟨r, rs⟩)
  | .token => s.told .token (Prod.fst <$> Token.read s.reader)

/-- Requests to a reader at the start of a text. -/
def run (text : String) (requests : List ReaderRequest) : Transcript ReaderAnswer :=
  serve answer (fun s => s.reader.pos) #[] (ofString text) requests

end ReaderSession

end CssTokens
