import CssTokens.Event
import CssTokens.Token.Progress

/-!
# Token Streams

A stream of tokens over a source.

A stream is a reader and the events told so far. It hands out one token at a
time. At the end of the source it hands out the end token, tells nothing, and
stays where it is, however often it is asked.

Read to the end from the first byte, a stream gives the tokens of a source.
There are two ways to do so. `collect` asks for one item after the other until
there is none; `drain` asks for tokens, with the offset noted before each call,
until it is handed the end token.

## Main definitions

* `TokenStream`: A reader and the events told so far.
* `TokenStream.next`: The next token.
* `TokenStream.next?`: The next token, unless the source is over.
* `TokenStream.skip`, `TokenStream.take`: Several tokens at once.
* `TokenStream.collect`, `TokenStream.drain`: All tokens that are left.
* `locate`: The tokens of a source with their offsets.
* `tokenize`: The tokens of a source.

## Theorems

* `remaining_lt_of_next`, `remaining_lt_of_next?`: A token leaves fewer bytes of
  the source ahead.
-/

namespace CssTokens

/-- A reader and the events told so far, the last one first. -/
structure TokenStream where
  reader : Reader
  told : List Event

/-- A stream at a reader that has told nothing yet. -/
def Reader.stream (r : Reader) : TokenStream := ⟨r, []⟩

namespace TokenStream

/-- A stream at the start of a text. -/
def ofString (text : String) : TokenStream := (Source.ofString text).start.stream

/-- The byte offset of the next token. -/
def pos (s : TokenStream) : Nat := s.reader.pos

/-- The offset of the next token in characters. -/
def charPosition (s : TokenStream) : Except Fault Nat := s.reader.charPosition

/-- The events told so far, in order. -/
def events (s : TokenStream) : List Event := s.told.reverse

/-- The next token: the end token once the source is over. -/
def next (s : TokenStream) : Except Fault (Token × TokenStream) := do
  let (t, r) ← Token.read s.reader
  return (t, ⟨r, if t.isEnd then s.told else Event.ofToken s.pos t :: s.told⟩)

/-- The next token, unless the source is over. -/
def next? (s : TokenStream) : Except Fault (Option Token × TokenStream) := do
  let (t, s') ← s.next
  return (if t.isEnd then none else some t, s')

theorem remaining_lt_of_next {s s' : TokenStream} {t : Token} (h : s.next = .ok (t, s'))
    (ht : t.isEnd = false) : s'.reader.remaining < s.reader.remaining := by
  rcases bind_eq_ok.mp h with ⟨⟨t', r⟩, hr, h⟩
  injection h with h
  injection h with h1 h2
  subst h1 h2
  have hadv := Token.readBy_advances hr ht
  have hsource := hadv.2.source
  have hpos := hadv.2.pos
  simp only [Reader.remaining, Reader.sourceLength] at *
  rw [hsource]
  omega

/-- An item is a token that is not the end token. -/
theorem next_of_next? {s s' : TokenStream} {t : Token} (h : s.next? = .ok (some t, s')) :
    s.next = .ok (t, s') ∧ t.isEnd = false := by
  rcases bind_eq_ok.mp h with ⟨⟨t', s''⟩, hnext, h⟩
  injection h with h
  injection h with ht hs
  subst hs
  split at ht
  · injection ht
  · next hend =>
      injection ht with ht
      subst ht
      exact ⟨hnext, Bool.eq_false_iff.mpr hend⟩

theorem remaining_lt_of_next? {s s' : TokenStream} {t : Token} (h : s.next? = .ok (some t, s')) :
    s'.reader.remaining < s.reader.remaining :=
  remaining_lt_of_next (next_of_next? h).1 (next_of_next? h).2

/-- All items that are left, after those already found. -/
def collect (s : TokenStream) (found : Array Token) : Except Fault (Array Token × TokenStream) :=
  match _h : s.next? with
  | .error f => .error f
  | .ok (none, s') => .ok (found, s')
  | .ok (some t, s') => collect s' (found.push t)
termination_by s.reader.remaining
decreasing_by exact remaining_lt_of_next? _h

/-- All tokens that are left, after those already found, each with the offset
    at which it was asked for. -/
def drain (s : TokenStream) (found : Array Located) : Except Fault (Array Located × TokenStream) :=
  match _h : s.next with
  | .error f => .error f
  | .ok (t, s') =>
      if _ht : t.isEnd then .ok (found, s')
      else drain s' (found.push ⟨s.pos, t⟩)
termination_by s.reader.remaining
decreasing_by exact remaining_lt_of_next _h (Bool.eq_false_iff.mpr _ht)

/-- Up to `n` tokens, after those already found. -/
def take (n : Nat) (s : TokenStream) (found : Array Token) :
    Except Fault (Array Token × TokenStream) :=
  match n with
  | 0 => .ok (found, s)
  | n + 1 => do
      let (t, s') ← s.next
      if t.isEnd then return (found, s')
      take n s' (found.push t)

/-- Pass over up to `n` tokens, and tell whether the source held so many. -/
def skip (n : Nat) (s : TokenStream) : Except Fault (Bool × TokenStream) :=
  match n with
  | 0 => .ok (true, s)
  | n + 1 => do
      let (t, s') ← s.next
      if t.isEnd then return (false, s')
      skip n s'

/-- The token `n` tokens ahead, if the source goes that far. -/
def nth? (n : Nat) (s : TokenStream) : Except Fault (Option Token × TokenStream) := do
  let (more, s') ← skip n s
  if more then s'.next? else return (none, s')

end TokenStream

/-- The tokens of a text with their offsets, and the stream that read them. -/
def locate (text : String) : Except Fault (List Located × TokenStream) := do
  let (found, s) ← (TokenStream.ofString text).drain #[]
  return (found.toList, s)

/-- The tokens of a text, without the end token. -/
def tokenize (text : String) : Except Fault (List Token) := do
  let (found, _) ← (TokenStream.ofString text).collect #[]
  return found.toList

end CssTokens
