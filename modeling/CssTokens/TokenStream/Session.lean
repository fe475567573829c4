import CssTokens.TokenStream
import CssTokens.Session

/-!
# Token Stream Sessions

Requests to a stream, and streams that are read in turns.

## Main definitions

* `StreamRequest`, `StreamAnswer`: What may be asked of a stream, and what it
  answers.
* `TokenStream.answer`, `TokenStream.run`: One request, and a series of them.
* `TokenStream.trail`: Every token with both positions behind it.
* `interleave`: Several streams, one token at a time.
-/

namespace CssTokens

/-- What may be asked of a stream. -/
inductive StreamRequest where
  /-- The next token, which may be the end token. -/
  | token
  /-- The next token, unless the source is over. -/
  | next
  /-- The token that many tokens ahead. -/
  | nth (n : Nat)
  /-- Up to that many tokens. -/
  | take (n : Nat)
  /-- All tokens that are left. -/
  | collect
  /-- The offset of the next token in characters. -/
  | charPosition

/-- What a stream answers. -/
inductive StreamAnswer where
  | token (t : Token)
  | item (t : Option Token)
  | items (ts : List Token)
  | count (n : Nat)

/-- A token and both offsets of what follows it, in bytes and in characters. -/
structure Stop where
  token : Token
  pos : Nat
  charPosition : Nat

namespace TokenStream

/-- One request. -/
def answer (s : TokenStream) : StreamRequest → Except Fault (StreamAnswer × TokenStream)
  | .token => do
      let (t, s') ← s.next
      return (.token t, s')
  | .next => do
      let (t, s') ← s.next?
      return (.item t, s')
  | .nth n => do
      let (t, s') ← s.nth? n
      return (.item t, s')
  | .take n => do
      let (ts, s') ← s.take n #[]
      return (.items ts.toList, s')
  | .collect => do
      let (found, s') ← s.collect #[]
      return (.items found.toList, s')
  | .charPosition => do
      let n ← s.charPosition
      return (.count n, s)

/-- Requests to a stream over a text, made from a reader that was moved to
    `start` at once. -/
def run (text : String) (start : Nat) (requests : List StreamRequest) : Transcript StreamAnswer :=
  match (Source.ofString text).start.advanceBy start with
  | .error f => ⟨#[], some f⟩
  | .ok r => serve answer pos #[] r.stream requests

/-- The next token with both offsets behind it. -/
def stop (s : TokenStream) : Except Fault (Stop × TokenStream) := do
  let (t, s') ← s.next
  let n ← s'.charPosition
  return (⟨t, s'.pos, n⟩, s')

theorem next_of_stop {s s' : TokenStream} {x : Stop} (h : s.stop = .ok (x, s')) :
    s.next = .ok (x.token, s') := by
  rcases bind_eq_ok.mp h with ⟨⟨t, s''⟩, hn, h⟩
  rcases bind_eq_ok.mp h with ⟨n, _, h⟩
  injection h with h
  injection h with h1 h2
  subst h1 h2
  exact hn

/-- Every token up to the end token, with both offsets behind it. -/
def stops (s : TokenStream) (found : Array Stop) : Except Fault (Array Stop × TokenStream) :=
  match _h : s.stop with
  | .error f => .error f
  | .ok (x, s') =>
      if _ht : x.token.isEnd then .ok (found.push x, s')
      else stops s' (found.push x)
termination_by s.reader.remaining
decreasing_by exact remaining_lt_of_next (next_of_stop _h) (Bool.eq_false_iff.mpr _ht)

/-- The next `n` tokens, with both offsets behind them. -/
def further (s : TokenStream) (found : Array Stop) : Nat → Except Fault (Array Stop)
  | 0 => .ok found
  | n + 1 => do
      let (x, s') ← s.stop
      further s' (found.push x) n

/-- Every token of a text up to the end token, and `extra` tokens more. -/
def trail (text : String) (extra : Nat) : Except Fault (Array Stop) := do
  let (found, s) ← (ofString text).stops #[]
  s.further found extra

end TokenStream

/-- A token that was read by one of several streams. -/
structure Turn where
  stream : Nat
  token : Token
  pos : Nat

/-- Read one token from the stream of each index in turn. An index without a
    stream reads nothing. -/
def turns (streams : Array TokenStream) (found : Array Turn) : List Nat → Except Fault (Array Turn)
  | [] => .ok found
  | i :: is =>
      match streams[i]? with
      | none => turns streams found is
      | some s => do
          let (t, s') ← s.next
          turns (streams.setIfInBounds i s') (found.push ⟨i, t, s'.pos⟩) is

/-- One stream per text, read in the order given. -/
def interleave (texts : List String) (order : List Nat) : Except Fault (Array Turn) :=
  turns (texts.map TokenStream.ofString).toArray #[] order

end CssTokens
