import CssTokens.Output.Sink
import CssTokens.Text.Columns
import CssTokens.TokenStream

/-!
# Listings

The tokens of a source, one on each line.

A line gives the byte offset of a token, the name of its kind, and its text in
quoted form, so that no token breaks its line. The offset is aligned to the
right in 6 columns and the name to the left in 16; wider ones push the rest.
Trivia can be left out, which drops lines and changes none.

A listing is made by one loop over the stream, whatever becomes of its rows:
they are written to a sink one by one, or kept. The loop counts what it has
written, and it ends at the end of the source, at a row that is refused, or at
a fault; only the first is an event of its own.

## Main definitions

* `Located.line`: The line of a token.
* `Listing.rows`, `Listing.Ending`: The loop, and how it ends.
* `Listing.writeText`: The rows of a source, written to a sink.
* `Listing`, `Listing.ofString`: The rows of a source, kept.
* `Listing.writeTo`, `Listing.print`: A listing that was kept, line by line.
-/

namespace CssTokens

/-- The line of a token in a listing. -/
def Located.line (t : Located) : String :=
  alignRight 6 (Nat.repr t.offset) ++ " " ++ alignLeft 16 t.token.kind.name ++ " " ++
    quoted t.token.text ++ "\n"

namespace Listing

/-- How the loop of a listing ends. -/
inductive Ending (σ ε : Type) where
  /-- At the end of the source, behind so many rows. -/
  | finished (count : Nat) (out : σ)
  /-- At a row that was refused. -/
  | refused (error : ε)
  /-- At a fault of the stream, with the rows in front of it. -/
  | faulted (fault : Fault) (out : σ)

/-- One row for each token that is left, behind those already written. The
    offset is that of the stream before it is asked. Trivia that is left out is
    passed over, and a row that is refused ends the loop. -/
def rows {σ ε : Type} (put : σ → Located → Except ε σ) (skipTrivia : Bool) (s : TokenStream)
    (out : σ) (count : Nat) : Ending σ ε × List Event :=
  let offset := s.pos
  match _h : s.next with
  | .error f => (.faulted f out, s.events)
  | .ok (t, s') =>
      if _ht : t.isEnd then (.finished count out, s'.events ++ [.listed count skipTrivia])
      else if skipTrivia && t.kind.isTrivia then rows put skipTrivia s' out count
      else
        match put out ⟨offset, t⟩ with
        | .error e => (.refused e, s'.events)
        | .ok out' => rows put skipTrivia s' out' (count + 1)
termination_by s.reader.remaining
decreasing_by all_goals exact TokenStream.remaining_lt_of_next _h (Bool.eq_false_iff.mpr _ht)

/-- Keep a row. Nothing is refused. -/
def keep (kept : Array Located) (x : Located) : Except Empty (Array Located) := .ok (kept.push x)

/-- The rows of a source, and what is told of them. -/
def gather (text : String) (skipTrivia : Bool) : Ending (Array Located) Empty × List Event :=
  rows keep skipTrivia (.ofString text) #[] 0

/-- Write a row to a sink. -/
def writeRow (s : Sink) (x : Located) : Except Refusal Sink := s.write x.line

/-- Write the rows of a source to a sink, each as soon as its token is read. -/
def writeText (text : String) (skipTrivia : Bool) (s : Sink) :
    Ending Sink Refusal × List Event :=
  rows writeRow skipTrivia (.ofString text) s 0

end Listing

/-- The tokens to be listed, how many rows the loop has counted, and the events
    of the run. -/
structure Listing where
  entries : List Located
  count : Nat
  events : List Event

namespace Listing

/-- The listing of a source, with or without trivia. -/
def ofString (text : String) (skipTrivia : Bool) : Except Fault Listing :=
  match gather text skipTrivia with
  | (.finished count kept, events) => .ok ⟨kept.toList, count, events⟩
  | (.faulted f _, _) => .error f
  | (.refused e, _) => nomatch e

/-- The lines of a listing. -/
def lines (l : Listing) : List String := l.entries.map Located.line

/-- Write a listing line by line. -/
def writeTo (l : Listing) (s : Sink) : Except Refusal Sink := s.writeAll l.lines

/-- Write a listing, and tell how many tokens are listed. -/
def print (l : Listing) (s : Sink) : Except Refusal (Nat × Sink) := (l.count, ·) <$> l.writeTo s

end Listing

end CssTokens
